import SessionGateway.Proofs.Json.Scanning

/-!
# Integers as they are spelled

The text of an integer is a spelling that the grammar admits, and its value is that integer as long
as 64 bits hold it. Doubles are not covered.
-/

namespace SessionGateway.Json

def digitValue (c : Char) : Nat := c.toNat - '0'.toNat

theorem takeDigits_of_isDigit {s : List Char} (h : ∀ c ∈ s, c.isDigit = true) :
    takeDigits s = (s.map digitValue, []) := by
  induction s with
  | nil => rfl
  | cons c s ih =>
    have hc := Text.le_nine_of_isDigit (h c (by simp))
    rw [takeDigits, if_pos hc, ih (fun d hd => h d (by simp [hd]))]
    rfl

/-- No needless zero stands in front. -/
theorem head_digits_ne_zero {n : Nat} (hn : 0 < n) : (Nat.toDigits 10 n).head? ≠ some '0' := by
  induction n using Nat.strongRecOn with
  | ind n ih =>
    by_cases hlt : n < 10
    · have hdigit : ∀ m < 10, 0 < m → m.digitChar ≠ '0' := by decide
      rw [Nat.toDigits_of_lt_base hlt]
      simpa using hdigit n hlt hn
    · have hrest := ih (n / 10) (by omega) (by omega)
      rw [Nat.toDigits_of_base_le (by decide) (by omega)]
      cases hd : Nat.toDigits 10 (n / 10) with
      | nil => exact absurd hd Nat.toDigits_ne_nil
      | cons c s => simpa [hd] using hrest

theorem foldl_digits (s : List Char) (v : Nat) :
    (s.map digitValue).foldl (fun n d => n * 10 + d) v = Nat.ofDigitChars 10 s v := by
  induction s generalizing v with
  | nil => simp
  | cons c s ih =>
    simp only [List.map_cons, List.foldl_cons, ih, Nat.ofDigitChars_cons, Nat.mul_comm]
    rfl

theorem le_foldl_digits (ds : List Nat) (v : Nat) :
    v ≤ ds.foldl (fun n d => n * 10 + d) v := by
  induction ds generalizing v with
  | nil => exact Nat.le_refl _
  | cons d ds ih =>
    have := ih (v * 10 + d)
    rw [List.foldl_cons]
    omega

theorem absorb_eq {ds : List Nat} {v : Nat}
    (h : ds.foldl (fun n d => n * 10 + d) v < UInt64.size) :
    absorb v ds = (ds.foldl (fun n d => n * 10 + d) v, []) := by
  induction ds generalizing v with
  | nil => rfl
  | cons d ds ih =>
    rw [List.foldl_cons] at h
    have hv := le_foldl_digits ds (v * 10 + d)
    rw [absorb, if_pos (by omega), ih h, List.foldl_cons]

theorem absorb_digits {n : Nat} (hn : n < UInt64.size) :
    absorb 0 ((Nat.toDigits 10 n).map digitValue) = (n, []) := by
  have hfold := foldl_digits (Nat.toDigits 10 n) 0
  rw [Nat.ofDigitChars_ten_toDigits] at hfold
  rw [absorb_eq (by rw [hfold]; exact hn), hfold]

theorem digitValue_eq_zero {c : Char} (h : c.isDigit = true) (h0 : digitValue c = 0) :
    c = '0' := by
  have hc : '0'.toNat ≤ c.toNat := (Text.le_nine_of_isDigit h).1
  have hn : c.toNat = '0'.toNat := by
    rw [digitValue] at h0
    omega
  rw [← Char.ofNat_toNat c, hn]
  rfl

/-- The part of the grammar that follows a sign. -/
theorem readSpelling_of_digits {s : List Char} (hs : ∀ c ∈ s, c.isDigit = true) (hne : s ≠ [])
    (hlead : s.head? = some '0' → s.tail = []) :
    readSpelling s = some ⟨false, s.map digitValue, none, none⟩ ∧
      readSpelling ('-' :: s) = some ⟨true, s.map digitValue, none, none⟩ := by
  have htake := takeDigits_of_isDigit hs
  cases s with
  | nil => exact absurd rfl hne
  | cons c rest =>
    have hc := hs c (by simp)
    have hminus : c ≠ '-' := by rintro rfl; simp at hc
    rw [List.map_cons] at htake ⊢
    cases hv : digitValue c with
    | succ v =>
      rw [hv] at htake
      constructor
      · rw [readSpelling]
        · simp only [htake]
          rfl
        · intro rest' h
          exact hminus (List.cons.inj h).1
      · rw [readSpelling]
        simp only [htake]
        rfl
    | zero =>
      have hc0 := digitValue_eq_zero hc hv
      subst hc0
      have hrest : rest = [] := hlead rfl
      subst hrest
      exact ⟨rfl, rfl⟩

theorem readSpelling_toDigits (n : Nat) :
    readSpelling (Nat.toDigits 10 n) =
        some ⟨false, (Nat.toDigits 10 n).map digitValue, none, none⟩ ∧
      readSpelling ('-' :: Nat.toDigits 10 n) =
        some ⟨true, (Nat.toDigits 10 n).map digitValue, none, none⟩ := by
  refine readSpelling_of_digits (fun _ => Text.isDigit_of_mem_digits) Nat.toDigits_ne_nil ?_
  intro h0
  by_cases hn : n = 0
  · subst hn
    rw [Nat.toDigits_zero]
    rfl
  · exact absurd h0 (head_digits_ne_zero (by omega))

theorem readSpelling_intText {n : Int} (hlow : leastInt ≤ n) (hhigh : n ≤ greatestInt) :
    ∃ sp, readSpelling (intText n) = some sp ∧ sp.value? = some (.int n) := by
  rw [leastInt] at hlow
  rw [greatestInt] at hhigh
  have habs : n.natAbs < UInt64.size := by
    rw [UInt64.size]
    omega
  obtain ⟨hplus, hminus⟩ := readSpelling_toDigits n.natAbs
  rw [intText]
  split
  · next hneg =>
    refine ⟨_, hminus, ?_⟩
    have hsmall : ¬(n.natAbs = 0 ∨ Magnitude.signBit < n.natAbs) := by
      rw [Magnitude.signBit]
      omega
    obtain ⟨hzero, hbit⟩ := not_or.mp hsmall
    have hvalue : -(n.natAbs : Int) = n := by omega
    simp only [Spelling.value?, absorb_digits habs, hzero, hbit, hvalue]
    rfl
  · next hneg =>
    refine ⟨_, hplus, ?_⟩
    have hvalue : (n.natAbs : Int) = n := by omega
    simp [Spelling.value?, absorb_digits habs, hvalue]

theorem isNumberChar_of_isDigit {c : Char} (h : c.isDigit = true) : isNumberChar c = true := by
  obtain ⟨hlow, hhigh⟩ := Text.le_nine_of_isDigit h
  simp [isNumberChar, hlow, hhigh]

theorem isNumberChar_of_mem_intText {n : Int} {c : Char} (h : c ∈ intText n) :
    isNumberChar c = true := by
  rw [intText] at h
  split at h
  · rcases List.mem_cons.mp h with rfl | h
    · decide
    · exact isNumberChar_of_isDigit (Text.isDigit_of_mem_digits h)
  · exact isNumberChar_of_isDigit (Text.isDigit_of_mem_digits h)

theorem head_intText (n : Int) : (intText n).head? ≠ some 'e' := by
  rw [intText]
  split
  · simp
  · cases hd : Nat.toDigits 10 n.natAbs with
    | nil => simp
    | cons c rest =>
      have hc : c.isDigit = true := Text.isDigit_of_mem_digits (n := n.natAbs) (by simp [hd])
      rintro h
      obtain rfl : c = 'e' := by simpa using h
      simp at hc

theorem readFrom_intText {n : Int} (hlow : leastInt ≤ n) (hhigh : n ≤ greatestInt)
    {rest : List Char} (hrest : Delimited rest) (b : Build) :
    (⟨.between, b⟩ : Reader).readFrom (intText n ++ rest) =
      Reader.after b (.number (some (.int n))) rest := by
  obtain ⟨sp, hread, hvalue⟩ := readSpelling_intText hlow hhigh
  rw [Reader.readFrom_number (fun _ => isNumberChar_of_mem_intText) (head_intText n) hread hrest,
    hvalue]

end SessionGateway.Json
