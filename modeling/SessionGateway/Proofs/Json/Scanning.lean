import SessionGateway.Json.Render
import SessionGateway.Json.Document
import SessionGateway.Proofs.Text.Decimal

/-!
# Scanning written tokens

What the scanner hands to the builder when it reads a token as it is written: a quoted text, an
integer or a word. A number or a word ends only where the next character shows it, so these are
read in front of a character that continues neither.
-/

namespace SessionGateway.Json

/-- Nothing in front continues a number or a word. -/
def Delimited (rest : List Char) : Prop :=
  ∀ c r, rest = c :: r → isNumberChar c = false ∧ isWordChar c = false

theorem delimited_nil : Delimited [] := by
  intro c r h
  cases h

theorem delimited_cons {c : Char} {rest : List Char} (hn : isNumberChar c = false)
    (hw : isWordChar c = false) : Delimited (c :: rest) := by
  intro d r h
  cases h
  exact ⟨hn, hw⟩

namespace Reader

theorem readFrom_cons (r : Reader) (c : Char) (rest : List Char) :
    r.readFrom (c :: rest) = (r.step c).bind fun r => r.readFrom rest := rfl

/-- What follows a token that was handed over. -/
def after (b : Build) (t : Token) (rest : List Char) : Option Document :=
  (b.feed t).bind fun b => readFrom ⟨.between, b⟩ rest

theorem emit_bind (s : Scan) (b : Build) (t : Token) (rest : List Char) :
    ((⟨s, b⟩ : Reader).emit t).bind (fun r => r.readFrom rest) = after b t rest := by
  simp only [emit, after]
  cases b.feed t <;> rfl

/-! ### Texts -/

theorem hexDigit?_hexDigit : ∀ d < 16, Text.hexDigit? (Text.hexDigit d) = some d := by decide

theorem hexDigits_four (n : Nat) :
    Text.hexDigits 4 n = [Text.hexDigit (n / 16 / 16 / 16 % 16), Text.hexDigit (n / 16 / 16 % 16),
      Text.hexDigit (n / 16 % 16), Text.hexDigit (n % 16)] := rfl

theorem step_inUnit {done : List Piece} {owed value d : Nat} {b : Build} (hd : d < 16) :
    (⟨.inUnit done owed value, b⟩ : Reader).step (Text.hexDigit d) =
      some (if owed ≤ 1 then ⟨.inText (.codeUnit (value * 16 + d) :: done), b⟩
        else ⟨.inUnit done (owed - 1) (value * 16 + d), b⟩) := by
  simp [step, hexDigit?_hexDigit d hd]

theorem readFrom_unit (n : Nat) (hn : n < 0x10000) (done : List Piece) (b : Build)
    (rest : List Char) :
    (⟨.inUnit done 4 0, b⟩ : Reader).readFrom (Text.hexDigits 4 n ++ rest) =
      (⟨.inText (.codeUnit n :: done), b⟩ : Reader).readFrom rest := by
  have hmod : ∀ m, m % 16 < 16 := fun m => Nat.mod_lt m (by decide)
  have hvalue : (((0 * 16 + n / 16 / 16 / 16 % 16) * 16 + n / 16 / 16 % 16) * 16 + n / 16 % 16) * 16
      + n % 16 = n := by omega
  simp only [hexDigits_four, List.cons_append, List.nil_append, readFrom_cons,
    step_inUnit (hmod _), Option.bind_some]
  rw [if_neg (by decide), step_inUnit (hmod _), Option.bind_some, if_neg (by decide),
    step_inUnit (hmod _), Option.bind_some, if_neg (by decide), step_inUnit (hmod _),
    Option.bind_some, if_pos (by decide), hvalue]

/-- What a character becomes when its escape is read. -/
def pieceOf (c : Char) : Piece :=
  if c = '\n' ∨ c = '\r' ∨ c = '\t' ∨ c.toNat = 8 ∨ c.toNat = 12 ∨ 0x20 ≤ c.toNat then .char c
  else .codeUnit c.toNat

theorem readFrom_escape (c : Char) (done : List Piece) (b : Build) (rest : List Char) :
    (⟨.inText done, b⟩ : Reader).readFrom (escape c ++ rest) =
      (⟨.inText (pieceOf c :: done), b⟩ : Reader).readFrom rest := by
  unfold escape
  split
  · next h => subst h; rfl
  split
  · next h => subst h; rfl
  split
  · next h => subst h; rfl
  split
  · next h => subst h; rfl
  split
  · next h => subst h; rfl
  split
  · next h =>
    have hc : c = Char.ofNat 8 := by rw [← h, Char.ofNat_toNat]
    subst hc; rfl
  split
  · next h =>
    have hc : c = Char.ofNat 12 := by rw [← h, Char.ofNat_toNat]
    subst hc; rfl
  split
  · next hn hr ht h8 h12 h =>
    have hp : pieceOf c = .codeUnit c.toNat := by
      rw [pieceOf, if_neg]
      simp only [hn, hr, ht, h8, h12, false_or]
      omega
    rw [hp]
    exact readFrom_unit c.toNat (by omega) done b rest
  · next hquote hback hn hr ht h8 h12 h =>
    have hp : pieceOf c = .char c := by
      rw [pieceOf, if_pos]
      simp only [hn, hr, ht, h8, h12, false_or]
      omega
    simp [readFrom_cons, step, hquote, hback, h, hp]

theorem readFrom_escaped (s : List Char) (done : List Piece) (b : Build) (rest : List Char) :
    (⟨.inText done, b⟩ : Reader).readFrom (s.flatMap escape ++ '"' :: rest) =
      after b (.text (done.reverse ++ s.map pieceOf)) rest := by
  induction s generalizing done with
  | nil =>
    simp only [List.flatMap_nil, List.nil_append, readFrom_cons, List.map_nil, List.append_nil]
    exact emit_bind _ _ _ _
  | cons c s ih =>
    simp only [List.flatMap_cons, List.append_assoc, readFrom_escape, ih]
    simp

theorem joinPieces_codeUnit {n : Nat} (h : n < 0xD800) (rest : List Piece) :
    joinPieces (.codeUnit n :: rest) = (joinPieces rest).map (Char.ofNat n :: ·) := by
  have hlead : ¬(0xD800 ≤ n ∧ n ≤ 0xDBFF) := by omega
  have htrail : ¬(0xDC00 ≤ n ∧ n ≤ 0xDFFF) := by omega
  have hall : ¬(0xD800 ≤ n ∧ n ≤ 0xDFFF) := by omega
  rcases rest with _ | ⟨⟨c⟩ | lo, rest⟩
  · simp [joinPieces, hall]
  · simp [joinPieces, hall]
  · rw [joinPieces, if_neg hlead, if_neg htrail]

theorem joinPieces_map_pieceOf (s : List Char) : joinPieces (s.map pieceOf) = some s := by
  induction s with
  | nil => rfl
  | cons c s ih =>
    rw [List.map_cons, pieceOf]
    split
    · simp only [joinPieces, ih, Option.map_some]
    · next h =>
      rw [joinPieces_codeUnit (by omega), ih, Option.map_some, Char.ofNat_toNat]

theorem readFrom_quote (s : String) (b : Build) (rest : List Char) :
    (⟨.between, b⟩ : Reader).readFrom (quote s ++ rest) =
      after b (.text (s.toList.map pieceOf)) rest := by
  rw [quote, List.append_assoc]
  exact readFrom_escaped s.toList [] b rest

theorem joinPieces_quoted (s : String) :
    (joinPieces (s.toList.map pieceOf)).map String.ofList = some s := by
  simp only [joinPieces_map_pieceOf, Option.map_some, String.ofList_toList]

/-! ### Numbers and words -/

theorem isSpace_of_isNumberChar {c : Char} (h : isNumberChar c = true) :
    isSpace c = false ∧ c ≠ '"' := by
  constructor
  · rw [Bool.eq_false_iff]
    intro hs
    simp only [isSpace, Bool.or_eq_true, decide_eq_true_eq] at hs
    rcases hs with ((rfl | rfl) | rfl) | rfl <;> revert h <;> decide
  · rintro rfl
    revert h
    decide

theorem isSpace_of_isWordChar {c : Char} (h : isWordChar c = true) :
    isSpace c = false ∧ c ≠ '"' ∧ (isNumberChar c && c ≠ 'e') = false := by
  have hle : 'a' ≤ c := by
    simp only [isWordChar, Bool.and_eq_true, decide_eq_true_eq] at h
    exact h.1
  have hdigit : ¬ c ≤ '9' := fun hc => absurd (Char.le_trans hle hc) (by decide)
  have hne : ∀ d : Char, ¬ 'a' ≤ d → c ≠ d := fun d hd hcd => hd (hcd ▸ hle)
  refine ⟨?_, hne _ (by decide), ?_⟩
  · simp [isSpace, hne ' ' (by decide), hne '\t' (by decide), hne '\n' (by decide),
      hne '\r' (by decide)]
  · by_cases he : c = 'e'
    · simp [he]
    · simp [isNumberChar, hdigit, he, hne '-' (by decide), hne '+' (by decide),
        hne '.' (by decide), hne 'E' (by decide)]

theorem step_between {c : Char} {b : Build} :
    (⟨.between, b⟩ : Reader).step c = begin ⟨.between, b⟩ c := rfl

/-- A token whose extent only the next character shows ends in front of a delimiter. -/
theorem readFrom_settle {s : Scan} {b : Build} {t : Token} {rest : List Char}
    (hsettle : (⟨s, b⟩ : Reader).settle = (⟨s, b⟩ : Reader).emit t)
    (hstep : ∀ c r, rest = c :: r →
      (⟨s, b⟩ : Reader).step c = (⟨s, b⟩ : Reader).settle.bind fun r => r.begin c) :
    (⟨s, b⟩ : Reader).readFrom rest = after b t rest := by
  cases rest with
  | nil =>
    simp only [readFrom, hsettle, emit, after]
    cases b.feed t with
    | none => rfl
    | some b' => cases b' <;> rfl
  | cons c r =>
    simp only [readFrom_cons, hstep c r rfl, hsettle, emit, after]
    cases b.feed t <;> rfl

/-- A reader that collects characters of a kind collects all of them, last first. -/
theorem readFrom_taking {taking : List Char → Scan} {takes : Char → Bool} {b : Build}
    (hstep : ∀ done c r, takes c = true → (⟨taking done, b⟩ : Reader).readFrom (c :: r) =
      (⟨taking (c :: done), b⟩ : Reader).readFrom r)
    {s : List Char} (hs : ∀ c ∈ s, takes c = true) (done rest : List Char) :
    (⟨taking done, b⟩ : Reader).readFrom (s ++ rest) =
      (⟨taking (s.reverse ++ done), b⟩ : Reader).readFrom rest := by
  induction s generalizing done with
  | nil => rfl
  | cons c s ih =>
    rw [List.cons_append, hstep _ _ _ (hs c List.mem_cons_self),
      ih fun d hd => hs d (List.mem_cons_of_mem _ hd), List.reverse_cons, List.append_assoc,
      List.singleton_append]

theorem readFrom_inNumber {s : List Char} (hs : ∀ c ∈ s, isNumberChar c = true)
    (done : List Char) (b : Build) (rest : List Char) :
    (⟨.inNumber done, b⟩ : Reader).readFrom (s ++ rest) =
      (⟨.inNumber (s.reverse ++ done), b⟩ : Reader).readFrom rest := by
  refine readFrom_taking (fun done c r hc => ?_) hs done rest
  simp only [readFrom_cons, step, hc, if_true, Option.bind_some]

theorem readFrom_inWord {s : List Char} (hs : ∀ c ∈ s, isWordChar c = true)
    (done : List Char) (b : Build) (rest : List Char) :
    (⟨.inWord done, b⟩ : Reader).readFrom (s ++ rest) =
      (⟨.inWord (s.reverse ++ done), b⟩ : Reader).readFrom rest := by
  refine readFrom_taking (fun done c r hc => ?_) hs done rest
  simp only [readFrom_cons, step, hc, if_true, Option.bind_some]

theorem readFrom_number {s : List Char} {sp : Spelling} (hs : ∀ c ∈ s, isNumberChar c = true)
    (hfirst : s.head? ≠ some 'e') (hread : readSpelling s = some sp) {rest : List Char}
    (hrest : Delimited rest) (b : Build) :
    (⟨.between, b⟩ : Reader).readFrom (s ++ rest) = after b (.number sp.value?) rest := by
  cases s with
  | nil => simp [readSpelling, takeDigits] at hread
  | cons c s =>
    have hc := hs c (by simp)
    have hne : c ≠ 'e' := by simpa using hfirst
    have hbegin : (⟨.between, b⟩ : Reader).step c = some ⟨.inNumber [c], b⟩ := by
      simp [step_between, begin, isSpace_of_isNumberChar hc, hc, hne]
    rw [List.cons_append, readFrom_cons, hbegin, Option.bind_some,
      readFrom_inNumber (fun d hd => hs d (by simp [hd]))]
    refine readFrom_settle ?_ ?_
    · simp [settle, hread]
    · intro d r hr
      simp [step, (hrest d r hr).1]

theorem readFrom_word {w : List Char} {t : Token} (hw : ∀ c ∈ w, isWordChar c = true)
    (hword : word? w = some t) {rest : List Char} (hrest : Delimited rest) (b : Build) :
    (⟨.between, b⟩ : Reader).readFrom (w ++ rest) = after b t rest := by
  cases w with
  | nil => simp [word?] at hword
  | cons c w =>
    have hc := hw c (by simp)
    obtain ⟨hspace, hquote, hnumber⟩ := isSpace_of_isWordChar hc
    have hbegin : (⟨.between, b⟩ : Reader).step c = some ⟨.inWord [c], b⟩ := by
      rw [step_between, begin, hspace, if_neg (by simp), if_neg hquote, hnumber,
        if_neg (by simp), hc, if_pos rfl]
    rw [List.cons_append, readFrom_cons, hbegin, Option.bind_some,
      readFrom_inWord (fun d hd => hw d (by simp [hd]))]
    refine readFrom_settle ?_ ?_
    · simp [settle, hword]
    · intro d r hr
      simp [step, (hrest d r hr).2]

end Reader

end SessionGateway.Json
