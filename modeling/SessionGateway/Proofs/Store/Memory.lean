import SessionGateway.Store.Memory
import SessionGateway.Proofs.Table

/-!
# The memory store, key by key

What a reader finds under a key, as a function of the time, and how each command changes it. A key
is used either for a hash or for a text; a command changes at most the key that it names.
-/

namespace SessionGateway

namespace Duration

theorem lt_iff {a b : Duration} : a < b ↔ a.nanos < b.nanos := Iff.rfl

theorem le_iff {a b : Duration} : a ≤ b ↔ a.nanos ≤ b.nanos := Iff.rfl

@[simp] theorem nanos_add (a b : Duration) : (a + b).nanos = a.nanos + b.nanos := rfl

@[simp] theorem nanos_ofMillis (n : Nat) : (ofMillis n).nanos = n * 1000000 := rfl

@[simp] theorem millis_ofMillis (n : Nat) : (ofMillis n).millis = n := by
  rw [millis, nanos_ofMillis]
  omega

theorem millis_le {d : Duration} {n : Nat} (h : d ≤ ofMillis n) : d.millis ≤ n := by
  rw [le_iff, nanos_ofMillis] at h
  rw [millis]
  omega

theorem lt_of_le_of_lt {a b c : Duration} (hab : a ≤ b) (hbc : b < c) : a < c :=
  Nat.lt_of_le_of_lt hab hbc

theorem le_refl (a : Duration) : a ≤ a := Nat.le_refl _

theorem le_trans {a b c : Duration} (hab : a ≤ b) (hbc : b ≤ c) : a ≤ c := Nat.le_trans hab hbc

theorem ofMillis_le {m n : Nat} (h : m ≤ n) : ofMillis m ≤ ofMillis n :=
  Nat.mul_le_mul_right _ h

end Duration

namespace Store

/-- Whether a command may change what is under a key. -/
def Command.Changes (key : String) : Command → Prop
  | .hashPut key' .. | .hashDelete key' _ | .hashDeleteIf key' .. | .put key' .. | .delete key' =>
    key' = key
  | .hashGet .. | .hashGetAll _ | .get _ | .purgeExpired => False

/-- Whether a command lists a hash. -/
def Command.Lists : Command → Prop
  | .hashGetAll _ => True
  | _ => False

/-- Whether a command puts a text under a key. -/
def Command.PutsText (key : String) : Command → Prop
  | .put key' .. => key' = key
  | _ => False

/-- Whether a command puts a hash under a key. -/
def Command.PutsHash (key : String) : Command → Prop
  | .hashPut key' .. => key' = key
  | _ => False

def Value.fields : Value → Table String String
  | .hash fields => fields
  | .text _ => .empty

def Value.text? : Value → Option String
  | .hash _ => none
  | .text s => some s

namespace Memory

/-- The fields that a reader finds under a key at a time. -/
def fieldsAt (m : Memory) (now : Duration) (key : String) : Table String String :=
  match m.live? now key with
  | some s => s.value.fields
  | none => .empty

/-- The text that a reader finds under a key at a time. -/
def textAt (m : Memory) (now : Duration) (key : String) : Option String :=
  (m.live? now key).bind fun s => s.value.text?

/-- No text is under the key. -/
def IsHash (m : Memory) (now : Duration) (key : String) : Prop :=
  ∀ s deadline, m.live? now key ≠ some ⟨.text s, deadline⟩

/-- No hash is under the key. -/
def IsText (m : Memory) (now : Duration) (key : String) : Prop :=
  ∀ fields deadline, m.live? now key ≠ some ⟨.hash fields, deadline⟩

/-- The command is carried out at a time. A hash is listed in whatever order. -/
def Carries (now : Duration) : (k : Command) → Memory → Result k → Memory → Prop
  | .hashGetAll key, m, x, m' =>
    m' = m ∧ ((∃ e, (answer now (.hashGetAll key) m).1 = .error e ∧ x = .error e) ∨
      ∃ fields fields', (answer now (.hashGetAll key) m).1 = .ok fields ∧ x = .ok fields' ∧
        fields'.Perm fields)
  | k, m, x, m' => answer now k m = (x, m')

/-- Every key that is held counts. -/
def Unexpired (m : Memory) (now : Duration) : Prop :=
  ∀ key s, m.slots.get? key = some s → now < s.deadline

theorem unexpired_iff {m : Memory} {now : Duration} :
    m.Unexpired now ↔ ∀ s ∈ m.slots.values, now < s.deadline := by
  simp only [Table.mem_values_iff, forall_exists_index]
  exact forall_comm

instance (m : Memory) (now : Duration) : Decidable (m.Unexpired now) :=
  decidable_of_iff _ unexpired_iff.symm

section

variable {m m' : Memory} {now now' : Duration} {key key' field value expected : String}
  {ttl : Duration} {k : Command}

/-! ### What counts -/

theorem live?_eq_some_iff {s : Slot} :
    m.live? now key = some s ↔ m.slots.get? key = some s ∧ now < s.deadline := by
  simp [live?, Option.filter_eq_some_iff, Slot.isLive]

theorem live?_later (h : now ≤ now') :
    m.live? now' key = (m.live? now key).filter fun s => s.isLive now' := by
  simp only [live?, Option.filter_filter]
  congr
  funext s
  have hlive : s.isLive now' = true → s.isLive now = true := by
    simp only [Slot.isLive, decide_eq_true_eq]
    exact Duration.lt_of_le_of_lt h
  cases h' : s.isLive now' with
  | true => simp [hlive h']
  | false => simp

@[simp] theorem live?_empty : empty.live? now key = none := rfl

theorem live?_set {slot : Slot} :
    (m.set key slot).live? now key' =
      if key = key' then (some slot).filter fun s => s.isLive now else m.live? now key' := by
  simp only [live?, set, Table.get?_insert]
  split
  · rfl
  · rfl

theorem live?_eq_of_unexpired (h : m.Unexpired now) : m.live? now key = m.slots.get? key := by
  cases h' : m.slots.get? key with
  | none => simp only [live?, h', Option.filter_none]
  | some s => exact live?_eq_some_iff.mpr ⟨h', h key s h'⟩

theorem fieldsAt_congr (h : m'.live? now' key = m.live? now key) :
    m'.fieldsAt now' key = m.fieldsAt now key := by
  simp only [fieldsAt, h]

theorem textAt_congr (h : m'.live? now' key = m.live? now key) :
    m'.textAt now' key = m.textAt now key := by
  simp only [textAt, h]

theorem isHash_of_fieldsAt (h : (m.fieldsAt now key).get? field = some value) :
    m.IsHash now key := by
  intro s deadline hs
  rw [fieldsAt, hs] at h
  cases h

theorem isText_of_textAt (h : m.textAt now key = some value) : m.IsText now key := by
  intro fields deadline hs
  rw [textAt, hs] at h
  cases h

theorem IsHash.later (h : m.IsHash now key) (hnow : now ≤ now') : m.IsHash now' key := by
  intro s deadline hs
  rw [live?_later hnow, Option.filter_eq_some_iff] at hs
  exact h s deadline hs.1

theorem IsText.later (h : m.IsText now key) (hnow : now ≤ now') : m.IsText now' key := by
  intro fields deadline hs
  rw [live?_later hnow, Option.filter_eq_some_iff] at hs
  exact h fields deadline hs.1

theorem live?_of_later {s : Slot} (hnow : now ≤ now') (h : m.live? now' key = some s) :
    m.live? now key = some s := by
  rw [live?_later hnow, Option.filter_eq_some_iff] at h
  exact h.1

/-- Time only takes fields away. -/
theorem get?_fieldsAt_later (hnow : now ≤ now')
    (h : (m.fieldsAt now' key).get? field = some value) :
    (m.fieldsAt now key).get? field = some value := by
  cases hs : m.live? now' key with
  | none => rw [fieldsAt, hs] at h; cases h
  | some s =>
    rw [fieldsAt, hs] at h
    rw [fieldsAt, live?_of_later hnow hs]
    exact h

theorem textAt_later (hnow : now ≤ now') (h : m.textAt now' key = some value) :
    m.textAt now key = some value := by
  obtain ⟨s, hs, hvalue⟩ := Option.bind_eq_some_iff.mp h
  rw [textAt, live?_of_later hnow hs]
  exact hvalue

/-! ### Keys that a command leaves alone -/

theorem live?_deleteField_ne {test : String → Bool} (h : key ≠ key') :
    (m.deleteField now key field test).2.live? now' key' = m.live? now' key' := by
  rw [deleteField]
  split
  · rfl
  · rfl
  · split
    · rw [live?_set, if_neg h]
    · rfl

theorem live?_answer_of_not_changes (hnow : now ≤ now') (h : ¬ k.Changes key) :
    (answer now k m).2.live? now' key = m.live? now' key := by
  cases k with
  | hashPut key' field value ttl =>
    have hne : key' ≠ key := h
    rw [answer]
    split
    · rw [live?_set, if_neg hne]
    · rw [live?_set, if_neg hne]
    · rfl
  | hashGet key' field => rw [answer]; split <;> rfl
  | hashGetAll key' => rw [answer]; split <;> rfl
  | hashDelete key' field => exact live?_deleteField_ne h
  | hashDeleteIf key' field expected => exact live?_deleteField_ne h
  | put key' value ttl =>
    have hne : key' ≠ key := h
    rw [answer, live?_set, if_neg hne]
  | get key' => rw [answer]; split <;> rfl
  | delete key' =>
    rw [answer, live?, Table.get?_erase, if_neg (fun e => h e.symm), live?]
  | purgeExpired =>
    simp only [answer, live?, Table.get?_filter, Option.filter_filter]
    congr
    funext s
    have hlive : now' < s.deadline → now < s.deadline := Duration.lt_of_le_of_lt hnow
    simpa [Slot.isLive] using hlive

theorem carries_answer : Carries now k m (answer now k m).1 (answer now k m).2 := by
  cases k with
  | hashGetAll key =>
    have hsame : (answer now (.hashGetAll key) m).2 = m := by
      rw [answer]
      split <;> rfl
    refine ⟨hsame, ?_⟩
    cases hr : (answer now (.hashGetAll key) m).1 with
    | error e => exact .inl ⟨e, rfl, rfl⟩
    | ok fields => exact .inr ⟨fields, fields, rfl, rfl, .refl _⟩
  | _ => rfl

theorem eq_of_carries {x : Result k} (h : Carries now k m x m')
    (hk : ¬ k.Lists) :
    x = (answer now k m).1 ∧ m' = (answer now k m).2 := by
  have heq : answer now k m = (x, m') := by
    cases k with
    | hashGetAll key => exact absurd trivial hk
    | _ => exact h
  rw [heq]
  exact ⟨rfl, rfl⟩

/-! ### Commands on a hash -/

/-- A key that is used for a hash counts for nothing or is one. -/
theorem IsHash.cases (h : m.IsHash now key) :
    m.live? now key = none ∨
      ∃ fields deadline, m.live? now key = some ⟨.hash fields, deadline⟩ := by
  cases hs : m.live? now key with
  | none => exact .inl rfl
  | some s =>
    obtain ⟨value, deadline⟩ := s
    cases value with
    | hash fields => exact .inr ⟨fields, deadline, rfl⟩
    | text s => exact absurd hs (h s deadline)

theorem answer_hashPut (h : m.IsHash now key) :
    answer now (.hashPut key field value ttl) m =
      (.ok (), m.set key ⟨.hash ((m.fieldsAt now key).insert field value), now + ttl⟩) := by
  obtain hs | ⟨fields, deadline, hs⟩ := h.cases
  · simp only [answer, fieldsAt, hs]
  · simp only [answer, fieldsAt, hs, Value.fields]

theorem answer_hashGet (h : m.IsHash now key) :
    answer now (.hashGet key field) m = (.ok ((m.fieldsAt now key).get? field), m) := by
  obtain hs | ⟨fields, deadline, hs⟩ := h.cases
  · simp only [answer, fieldsAt, hs, Table.get?_empty]
  · simp only [answer, fieldsAt, hs, Value.fields]

theorem answer_hashGetAll (h : m.IsHash now key) :
    answer now (.hashGetAll key) m = (.ok (m.fieldsAt now key).entries, m) := by
  obtain hs | ⟨fields, deadline, hs⟩ := h.cases
  · simp only [answer, fieldsAt, hs]
    rfl
  · simp only [answer, fieldsAt, hs, Value.fields]

theorem deleteField_of_fails {test : String → Bool} (h : m.IsHash now key)
    (hf : ¬ ((m.fieldsAt now key).get? field).any test) :
    m.deleteField now key field test = (.ok false, m) := by
  obtain hs | ⟨fields, deadline, hs⟩ := h.cases
  · simp only [deleteField, hs]
  · simp only [fieldsAt, hs, Value.fields] at hf
    cases htext : fields.get? field with
    | none => simp [deleteField, hs, htext]
    | some text =>
      rw [htext, Option.any_some] at hf
      simp [deleteField, hs, htext, hf]

theorem deleteField_of_passes {test : String → Bool} (h : m.IsHash now key)
    (hp : ((m.fieldsAt now key).get? field).any test) :
    ∃ deadline, m.live? now key = some ⟨.hash (m.fieldsAt now key), deadline⟩ ∧
      m.deleteField now key field test =
        (.ok true, m.set key ⟨.hash ((m.fieldsAt now key).erase field), deadline⟩) := by
  obtain hs | ⟨fields, deadline, hs⟩ := h.cases
  · simp [fieldsAt, hs] at hp
  · simp only [fieldsAt, hs, Value.fields] at hp
    obtain ⟨text, htext, ht⟩ := Option.any_eq_true _ _ |>.mp hp
    refine ⟨deadline, ?_, ?_⟩
    · simp only [fieldsAt, hs, Value.fields]
    · simp [deleteField, hs, htext, ht, fieldsAt, Value.fields]

theorem deleteField_fst {test : String → Bool} (h : m.IsHash now key) :
    (m.deleteField now key field test).1 = .ok (((m.fieldsAt now key).get? field).any test) := by
  by_cases hp : ((m.fieldsAt now key).get? field).any test
  · obtain ⟨deadline, -, hdelete⟩ := deleteField_of_passes h hp
    rw [hdelete, hp]
  · rw [deleteField_of_fails h hp, Bool.eq_false_iff.mpr hp]

theorem live?_of_not_isHash (h : ¬ m.IsHash now key) :
    ∃ s deadline, m.live? now key = some ⟨.text s, deadline⟩ := by
  simpa only [IsHash, ne_eq, Classical.not_forall, Classical.not_not] using h

theorem answer_hashPut_of_not_isHash (h : ¬ m.IsHash now key) :
    answer now (.hashPut key field value ttl) m = (.error (.wrongType key), m) := by
  obtain ⟨s, deadline, hs⟩ := live?_of_not_isHash h
  simp only [answer, hs]

theorem deleteField_of_not_isHash {test : String → Bool} (h : ¬ m.IsHash now key) :
    m.deleteField now key field test = (.error (.wrongType key), m) := by
  obtain ⟨s, deadline, hs⟩ := live?_of_not_isHash h
  simp only [deleteField, hs]

theorem fieldsAt_set {fields : Table String String} {deadline : Duration} :
    (m.set key ⟨.hash fields, deadline⟩).fieldsAt now key =
      if now < deadline then fields else .empty := by
  rw [fieldsAt, live?_set, if_pos rfl, Option.filter_some, Slot.isLive]
  by_cases hlive : now < deadline <;> simp [hlive, Value.fields]

theorem fieldsAt_hashPut (h : m.IsHash now key) :
    (answer now (.hashPut key field value ttl) m).2.fieldsAt now' key =
      if now' < now + ttl then (m.fieldsAt now key).insert field value else .empty := by
  rw [answer_hashPut h, fieldsAt_set]

theorem get?_fieldsAt_deleteField {test : String → Bool} {field' : String} (h : m.IsHash now key)
    (hnow : now ≤ now') :
    ((m.deleteField now key field test).2.fieldsAt now' key).get? field' =
      if field' = field ∧ ((m.fieldsAt now key).get? field).any test then none
      else (m.fieldsAt now' key).get? field' := by
  by_cases hp : ((m.fieldsAt now key).get? field).any test
  · obtain ⟨deadline, hs, hdelete⟩ := deleteField_of_passes h hp
    have hlater : m.fieldsAt now' key = if now' < deadline then m.fieldsAt now key else .empty := by
      rw [fieldsAt, live?_later hnow, hs, Option.filter_some, Slot.isLive]
      by_cases hlive : now' < deadline <;> simp [hlive, Value.fields]
    simp only [hdelete, fieldsAt_set, hlater]
    by_cases hlive : now' < deadline
    · simp only [hlive, if_true, Table.get?_erase, hp, and_true]
    · simp [hlive]
  · rw [deleteField_of_fails h hp, if_neg (fun e => hp e.2)]

/-- A command on a hash goes well only if the key is used for one. -/
theorem isHash_of_hashPut (h : (answer now (.hashPut key field value ttl) m).1 = .ok ()) :
    m.IsHash now key := by
  intro s deadline hs
  simp [answer, hs] at h

theorem isHash_of_hashGet {found : Option String}
    (h : (answer now (.hashGet key field) m).1 = .ok found) : m.IsHash now key := by
  intro s deadline hs
  simp [answer, hs] at h

/-! ### Commands on a text -/

theorem answer_get (h : m.IsText now key) :
    answer now (.get key) m = (.ok (m.textAt now key), m) := by
  cases hs : m.live? now key with
  | none => simp only [answer, textAt, hs, Option.bind_none]
  | some s =>
    obtain ⟨value, deadline⟩ := s
    cases value with
    | hash fields => exact absurd hs (h fields deadline)
    | text s => simp only [answer, textAt, hs, Option.bind_some, Value.text?]

theorem textAt_put :
    (answer now (.put key value ttl) m).2.textAt now' key =
      if now' < now + ttl then some value else none := by
  rw [answer, textAt, live?_set, if_pos rfl, Option.filter_some, Slot.isLive]
  by_cases hnow : now' < now + ttl
  · rw [decide_eq_true hnow, if_pos rfl, if_pos hnow, Option.bind_some, Value.text?]
  · rw [decide_eq_false hnow, if_neg Bool.false_ne_true, if_neg hnow, Option.bind_none]

theorem live?_delete : (answer now (.delete key) m).2.live? now' key = none := by
  rw [answer, live?, Table.get?_erase, if_pos rfl, Option.filter_none]

/-! ### The use of a key -/

theorem IsHash.set {fields : Table String String} {deadline : Duration} :
    (m.set key ⟨.hash fields, deadline⟩).IsHash now key := by
  intro s deadline' hs
  rw [live?_set, if_pos rfl, Option.filter_eq_some_iff] at hs
  cases hs.1

theorem IsHash.deleteField {test : String → Bool} (h : m.IsHash now key) (hnow : now ≤ now') :
    (m.deleteField now key field test).2.IsHash now' key := by
  rw [Memory.deleteField]
  split
  · exact h.later hnow
  · exact h.later hnow
  · split
    · exact .set
    · exact h.later hnow

theorem IsHash.answer (h : m.IsHash now key) (hnow : now ≤ now') (hk : ¬ k.PutsText key) :
    (answer now k m).2.IsHash now' key := by
  by_cases hc : k.Changes key
  · cases k with
    | hashPut key' field value ttl =>
      obtain rfl : key' = key := hc
      rw [answer_hashPut h]
      exact .set
    | hashDelete key' field =>
      obtain rfl : key' = key := hc
      exact h.deleteField hnow
    | hashDeleteIf key' field expected =>
      obtain rfl : key' = key := hc
      exact h.deleteField hnow
    | put key' value ttl => exact absurd hc hk
    | delete key' =>
      obtain rfl : key' = key := hc
      intro s deadline hs
      rw [live?_delete] at hs
      cases hs
    | hashGet | hashGetAll | get | purgeExpired => exact hc.elim
  · intro s deadline hs
    rw [live?_answer_of_not_changes hnow hc] at hs
    exact h.later hnow s deadline hs

theorem IsText.deleteField {test : String → Bool} (h : m.IsText now key) (hnow : now ≤ now') :
    (m.deleteField now key field test).2.IsText now' key := by
  rw [Memory.deleteField]
  split
  · exact h.later hnow
  · exact h.later hnow
  · next fields deadline hs => exact absurd hs (h fields deadline)

theorem IsText.answer (h : m.IsText now key) (hnow : now ≤ now') (hk : ¬ k.PutsHash key) :
    (answer now k m).2.IsText now' key := by
  by_cases hc : k.Changes key
  · cases k with
    | hashPut key' field value ttl => exact absurd hc hk
    | hashDelete key' field =>
      obtain rfl : key' = key := hc
      exact h.deleteField hnow
    | hashDeleteIf key' field expected =>
      obtain rfl : key' = key := hc
      exact h.deleteField hnow
    | put key' value ttl =>
      obtain rfl : key' = key := hc
      intro fields deadline hs
      rw [Memory.answer, live?_set, if_pos rfl, Option.filter_eq_some_iff] at hs
      cases hs.1
    | delete key' =>
      obtain rfl : key' = key := hc
      intro fields deadline hs
      rw [live?_delete] at hs
      cases hs
    | hashGet | hashGetAll | get | purgeExpired => exact hc.elim
  · intro fields deadline hs
    rw [live?_answer_of_not_changes hnow hc] at hs
    exact h.later hnow fields deadline hs

/-! ### What is held, whether it counts or not -/

/-- A field is held with a text. -/
def Holds (m : Memory) (key field text : String) : Prop :=
  ∃ fields deadline, m.slots.get? key = some ⟨.hash fields, deadline⟩ ∧
    fields.get? field = some text

/-- A text is held. -/
def HoldsText (m : Memory) (key text : String) : Prop :=
  ∃ deadline, m.slots.get? key = some ⟨.text text, deadline⟩

theorem slots_set (key key' : String) (slot : Slot) :
    (m.set key slot).slots.get? key' = if key = key' then some slot else m.slots.get? key' :=
  Table.get?_insert _ _ _ _

theorem holds_of_hashPut (h : (answer now (.hashPut key field value ttl) m).1 = .ok ()) :
    (answer now (.hashPut key field value ttl) m).2.Holds key field value := by
  have hset : ∀ (fields : Table String String) (deadline : Duration),
      (m.set key ⟨.hash (fields.insert field value), deadline⟩).Holds key field value := by
    intro fields deadline
    refine ⟨fields.insert field value, deadline, ?_, ?_⟩
    · rw [slots_set, if_pos rfl]
    · rw [Table.get?_insert, if_pos rfl]
  rw [answer] at h ⊢
  split
  · exact hset _ _
  · exact hset _ _
  · next hs =>
    rw [hs] at h
    cases h

theorem holdsText_put : (answer now (.put key value ttl) m).2.HoldsText key value := by
  refine ⟨now + ttl, ?_⟩
  rw [answer, slots_set, if_pos rfl]

theorem Holds.put {key' text : String} (h : m.Holds key field text) (hne : key' ≠ key) :
    (answer now (.put key' value ttl) m).2.Holds key field text := by
  obtain ⟨fields, deadline, hslot, hfield⟩ := h
  refine ⟨fields, deadline, ?_, hfield⟩
  rw [answer, slots_set, if_neg hne, hslot]

/-- What was just put in a field is found beside what was there, if it counts at all. -/
theorem fieldsAt_hashPut_of_unexpired (h : m.IsHash now key)
    (hlive : (answer now (.hashPut key field value ttl) m).2.Unexpired now) :
    (answer now (.hashPut key field value ttl) m).2.fieldsAt now key =
      (m.fieldsAt now key).insert field value := by
  have hslot : (answer now (.hashPut key field value ttl) m).2.slots.get? key =
      some ⟨.hash ((m.fieldsAt now key).insert field value), now + ttl⟩ := by
    rw [answer_hashPut h, slots_set, if_pos rfl]
  rw [fieldsAt_hashPut h, if_pos (hlive key _ hslot)]

theorem textAt_put_of_unexpired (hlive : (answer now (.put key value ttl) m).2.Unexpired now) :
    (answer now (.put key value ttl) m).2.textAt now key = some value := by
  have hslot : (answer now (.put key value ttl) m).2.slots.get? key =
      some ⟨.text value, now + ttl⟩ := by
    rw [answer, slots_set, if_pos rfl]
  rw [textAt_put, if_pos (hlive key _ hslot)]

end

end Memory

end Store

end SessionGateway
