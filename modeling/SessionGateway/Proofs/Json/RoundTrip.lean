import SessionGateway.Proofs.Json.Spelling

/-!
# Values read back

A value all of whose numbers are integers of 64 bits is read back from its text as the document that
says the same. The text of a double is not covered.
-/

namespace SessionGateway.Json

mutual

/-- Every number in the value is an integer that 64 bits hold, signed or not. -/
def IsWhole : Json → Prop
  | .null | .bool _ | .text _ => True
  | .number (.int n) => leastInt ≤ n ∧ n ≤ greatestInt
  | .number (.float _) => False
  | .array items => ItemsWhole items
  | .object members => MembersWhole members

def ItemsWhole : List Json → Prop
  | [] => True
  | j :: rest => j.IsWhole ∧ ItemsWhole rest

def MembersWhole : List (String × Json) → Prop
  | [] => True
  | (_, j) :: rest => j.IsWhole ∧ MembersWhole rest

end

namespace Reader

theorem after_of_feed {b b' : Build} {t : Token} (h : b.feed t = some b') (rest : List Char) :
    after b t rest = readFrom ⟨.between, b'⟩ rest := by
  simp only [after, h, Option.bind_some]

theorem readFrom_punctuation {c : Char} {t : Token} (h : punctuation? c = some t) (b : Build)
    (rest : List Char) : (⟨.between, b⟩ : Reader).readFrom (c :: rest) = after b t rest := by
  have hbegin : (⟨.between, b⟩ : Reader).step c = (⟨.between, b⟩ : Reader).emit t := by
    unfold punctuation? at h
    split at h
    · next hc => cases h; subst hc; rfl
    split at h
    · next hc => cases h; subst hc; rfl
    split at h
    · next hc =>
      obtain rfl : c = Char.ofNat 0x7b := by rw [← hc, Char.ofNat_toNat]
      cases h; rfl
    split at h
    · next hc =>
      obtain rfl : c = Char.ofNat 0x7d := by rw [← hc, Char.ofNat_toNat]
      cases h; rfl
    split at h
    · next hc => cases h; subst hc; rfl
    split at h
    · next hc => cases h; subst hc; rfl
    · cases h
  simp only [readFrom_cons, hbegin, emit_bind]

end Reader

namespace Build

/-- Where a value may begin. -/
def Expect.admitsValue (e : Expect) : Prop := e = .value ∨ e = .valueOrClose

variable {frames : List Frame} {e : Expect}

theorem feed_null (he : Expect.admitsValue e) :
    (building frames e).feed .null = some (place .null frames) := by
  rcases he with rfl | rfl <;> rfl

theorem feed_bool (he : Expect.admitsValue e) (v : Bool) :
    (building frames e).feed (.bool v) = some (place (.bool v) frames) := by
  rcases he with rfl | rfl <;> rfl

theorem feed_number (he : Expect.admitsValue e) (n : Option Number) :
    (building frames e).feed (.number n) = some (place (.number n) frames) := by
  rcases he with rfl | rfl <;> rfl

theorem feed_text (he : Expect.admitsValue e) {pieces : List Piece} {s : Option String}
    (hs : (joinPieces pieces).map String.ofList = s) :
    (building frames e).feed (.text pieces) = some (place (.text s) frames) := by
  rcases he with rfl | rfl <;> simp [feed, hs]

theorem feed_openArray (he : Expect.admitsValue e) :
    (building frames e).feed .openArray = some (building (.array [] :: frames) .valueOrClose) := by
  rcases he with rfl | rfl <;> rfl

theorem feed_openObject (he : Expect.admitsValue e) :
    (building frames e).feed .openObject =
      some (building (.object [] none :: frames) .keyOrClose) := by
  rcases he with rfl | rfl <;> rfl

/-- Where a key may begin. -/
def Expect.admitsKey (e : Expect) : Prop := e = .key ∨ e = .keyOrClose

theorem feed_key (he : Expect.admitsKey e) {done : List (Option String × Document)}
    {k : Option String} {pieces : List Piece} {s : Option String}
    (hs : (joinPieces pieces).map String.ofList = s) :
    (building (.object done k :: frames) e).feed (.text pieces) =
      some (building (.object done s :: frames) .colon) := by
  rcases he with rfl | rfl <;> simp [feed, hs]

end Build

open Reader Build

theorem delimited_comma (rest : List Char) : Delimited (',' :: rest) :=
  delimited_cons (by decide) (by decide)

theorem delimited_bracket (rest : List Char) : Delimited (']' :: rest) :=
  delimited_cons (by decide) (by decide)

theorem delimited_brace (rest : List Char) : Delimited (Char.ofNat 0x7d :: rest) :=
  delimited_cons (by decide) (by decide)

theorem readFrom_word_value {w : List Char} {t : Token} {d : Document} {frames : List Frame}
    {e : Expect} (hw : w.all isWordChar = true) (hword : word? w = some t)
    (hfeed : (building frames e).feed t = some (place d frames)) {rest : List Char}
    (hrest : Delimited rest) :
    (⟨.between, .building frames e⟩ : Reader).readFrom (w ++ rest) =
      (⟨.between, place d frames⟩ : Reader).readFrom rest := by
  rw [readFrom_word (List.all_eq_true.mp hw) hword hrest, after_of_feed hfeed]

mutual

theorem readFrom_chars (j : Json) (hj : j.IsWhole) (frames : List Frame) (e : Expect)
    (he : Expect.admitsValue e) (rest : List Char) (hrest : Delimited rest) :
    (⟨.between, .building frames e⟩ : Reader).readFrom (j.chars ++ rest) =
      (⟨.between, place (.ofJson j) frames⟩ : Reader).readFrom rest := by
  match j with
  | .null => exact readFrom_word_value rfl rfl (feed_null he) hrest
  | .bool true => exact readFrom_word_value rfl rfl (feed_bool he true) hrest
  | .bool false => exact readFrom_word_value rfl rfl (feed_bool he false) hrest
  | .number (.int n) =>
    rw [IsWhole] at hj
    rw [chars, numberText, readFrom_intText hj.1 hj.2 hrest, after_of_feed (feed_number he _)]
    rfl
  | .number (.float _) => rw [IsWhole] at hj; exact hj.elim
  | .text s =>
    simp only [chars, readFrom_quote, after_of_feed (feed_text he (joinPieces_quoted s))]
    rfl
  | .array [] =>
    rw [chars, List.append_assoc]
    show (⟨.between, .building frames e⟩ : Reader).readFrom ('[' :: ']' :: rest) = _
    rw [readFrom_punctuation rfl, after_of_feed (feed_openArray he), readFrom_punctuation rfl]
    rfl
  | .array (j :: items) =>
    rw [IsWhole] at hj
    rw [chars, List.append_assoc, List.cons_append, readFrom_punctuation rfl,
      after_of_feed (feed_openArray he), List.singleton_append,
      readFrom_items (j :: items) (by simp) hj frames [] _ (Or.inr rfl) rest]
    rfl
  | .object [] =>
    rw [chars, List.append_assoc]
    show (⟨.between, .building frames e⟩ : Reader).readFrom
      (Char.ofNat 0x7b :: Char.ofNat 0x7d :: rest) = _
    rw [readFrom_punctuation rfl, after_of_feed (feed_openObject he), readFrom_punctuation rfl]
    rfl
  | .object ((k, j) :: members) =>
    rw [IsWhole] at hj
    rw [chars, List.append_assoc, List.cons_append, readFrom_punctuation rfl,
      after_of_feed (feed_openObject he), List.singleton_append,
      readFrom_members ((k, j) :: members) (by simp) hj frames [] none _ (Or.inr rfl) rest]
    rfl

theorem readFrom_items (items : List Json) (hne : items ≠ []) (hitems : ItemsWhole items)
    (frames : List Frame) (done : List Document) (e : Expect) (he : Expect.admitsValue e)
    (rest : List Char) :
    (⟨.between, .building (.array done :: frames) e⟩ : Reader).readFrom
        (separate (itemChars items) ++ ']' :: rest) =
      (⟨.between, place (.array (done.reverse ++ Document.ofItems items)) frames⟩ :
        Reader).readFrom rest := by
  match items with
  | [] => exact absurd rfl hne
  | [j] =>
    rw [ItemsWhole] at hitems
    rw [itemChars, itemChars, separate, readFrom_chars j hitems.1 _ e he _ (delimited_bracket rest),
      readFrom_punctuation rfl]
    simp [place, after, feed, Document.ofItems]
  | j :: j' :: items =>
    rw [ItemsWhole] at hitems
    have hfeed : (place (.ofJson j) (.array done :: frames)).feed .comma =
        some (.building (.array (.ofJson j :: done) :: frames) .value) := rfl
    have htail := readFrom_items (j' :: items) (by simp) hitems.2 frames (.ofJson j :: done) .value
      (Or.inl rfl) rest
    rw [itemChars] at htail
    rw [itemChars, itemChars, separate, List.append_assoc, List.cons_append,
      readFrom_chars j hitems.1 _ e he _ (delimited_comma _), readFrom_punctuation rfl,
      after_of_feed hfeed, htail]
    · simp [Document.ofItems]
    · intro h
      cases h

theorem readFrom_members (members : List (String × Json)) (hne : members ≠ [])
    (hmembers : MembersWhole members) (frames : List Frame)
    (done : List (Option String × Document)) (key : Option String) (e : Expect)
    (he : Expect.admitsKey e) (rest : List Char) :
    (⟨.between, .building (.object done key :: frames) e⟩ : Reader).readFrom
        (separate (memberChars members) ++ Char.ofNat 0x7d :: rest) =
      (⟨.between, place (.object (done.reverse ++ Document.ofMembers members)) frames⟩ :
        Reader).readFrom rest := by
  have hcolon : ∀ k, (Build.building (.object done (some k) :: frames) .colon).feed .colon =
    some (.building (.object done (some k) :: frames) .value) := fun _ => rfl
  match members with
  | [] => exact absurd rfl hne
  | [(k, j)] =>
    rw [MembersWhole] at hmembers
    rw [memberChars, memberChars, separate, List.append_assoc, List.cons_append, readFrom_quote,
      after_of_feed (feed_key he (joinPieces_quoted k)), readFrom_punctuation rfl,
      after_of_feed (hcolon k),
      readFrom_chars j hmembers.1 _ _ (Or.inl rfl) _ (delimited_brace rest),
      readFrom_punctuation rfl]
    simp [place, after, feed, Document.ofMembers]
  | (k, j) :: (k', j') :: members =>
    rw [MembersWhole] at hmembers
    have hfeed : (place (.ofJson j) (.object done (some k) :: frames)).feed .comma =
        some (.building (.object ((some k, .ofJson j) :: done) none :: frames) .key) := rfl
    have htail := readFrom_members ((k', j') :: members) (by simp) hmembers.2 frames
      ((some k, .ofJson j) :: done) none .key (Or.inl rfl) rest
    rw [memberChars] at htail
    rw [memberChars, memberChars, separate, List.append_assoc, List.append_assoc,
      List.cons_append, List.cons_append, readFrom_quote,
      after_of_feed (feed_key he (joinPieces_quoted k)), readFrom_punctuation rfl,
      after_of_feed (hcolon k), readFrom_chars j hmembers.1 _ _ (Or.inl rfl) _ (delimited_comma _),
      readFrom_punctuation rfl, after_of_feed hfeed, htail]
    · simp [Document.ofMembers]
    · intro h
      cases h

end

/-- The text of a value reads as the document that says the same. -/
theorem read?_render {j : Json} (hj : j.IsWhole) :
    Document.read? j.render = some (.ofJson j) := by
  have hread := readFrom_chars j hj [] .value (Or.inl rfl) [] delimited_nil
  rw [List.append_nil] at hread
  simp only [Document.read?, render, String.toList_ofList]
  exact hread

end SessionGateway.Json
