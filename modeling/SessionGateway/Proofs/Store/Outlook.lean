import Mathlib.Logic.Function.Basic
import SessionGateway.Proofs.Store.Memory

/-!
# What a store will show

A store is known by what readers find in it from now on, at each later instant, if nothing is done.
A hash without fields shows like a key that is not there, so it does not matter which of both a
store keeps. What each command makes of this outlook and how it is replied to is the contract of a
store. The memory store keeps to it on keys that serve for one kind of value each.
-/

namespace SessionGateway.Store

/-- What readers find at an instant: the fields of hashes, and texts. -/
@[ext]
structure Picture where
  fields : String → String → Option String
  text : String → Option String

/-- What readers will find at each instant in milliseconds. -/
abbrev Outlook : Type := Nat → Picture

namespace Picture

def setFields (P : Picture) (key : String) (fields : String → Option String) : Picture :=
  { P with fields := Function.update P.fields key fields }

def setText (P : Picture) (key : String) (text : Option String) : Picture :=
  { P with text := Function.update P.text key text }

def deleteField (P : Picture) (key field : String) : Picture :=
  P.setFields key (Function.update (P.fields key) field none)

/-- No fields. -/
def blank : String → Option String := fun _ => none

@[simp] theorem fields_setFields (P : Picture) (key : String) (fields : String → Option String) :
    (P.setFields key fields).fields key = fields := by
  simp only [setFields, Function.update_self]

theorem setFields_eq_self (P : Picture) (key : String) : P.setFields key (P.fields key) = P := by
  simp only [setFields, Function.update_eq_self]

theorem setFields_setFields (P : Picture) (key : String) (fields fields' : String → Option String) :
    (P.setFields key fields).setFields key fields' = P.setFields key fields' := by
  simp only [setFields, Function.update_idem]

@[simp] theorem fields_deleteField (P : Picture) (key field : String) :
    (P.deleteField key field).fields key = Function.update (P.fields key) field none := by
  simp only [deleteField, fields_setFields]

end Picture

namespace Command

/-- What a command at an instant makes of the outlook. -/
def after (t : Nat) : Command → Outlook → Outlook
  | .hashPut key field value ttl, V => fun t' =>
    (V t').setFields key
      (if t' < t + ttl.millis then Function.update ((V t).fields key) field (some value)
       else Picture.blank)
  | .hashDelete key field, V => fun t' => (V t').deleteField key field
  | .hashDeleteIf key field expected, V => fun t' =>
    if (V t).fields key field = some expected then (V t').deleteField key field else V t'
  | .put key value ttl, V => fun t' =>
    (V t').setText key (if t' < t + ttl.millis then some value else none)
  | .delete key, V => fun t' => (V t').setText key none
  | .hashGet .., V | .hashGetAll _, V | .get _, V | .purgeExpired, V => V

theorem after_of_not_changes {k : Command} {key : String} (h : ¬ k.Changes key) (t : Nat)
    (V : Outlook) (t' : Nat) :
    (k.after t V t').fields key = (V t').fields key ∧
      (k.after t V t').text key = (V t').text key := by
  cases k with
  | hashPut key' field value ttl => exact ⟨Function.update_of_ne (Ne.symm h) _ _, rfl⟩
  | hashDelete key' field => exact ⟨Function.update_of_ne (Ne.symm h) _ _, rfl⟩
  | hashDeleteIf key' field expected =>
    simp only [after]
    split
    · exact ⟨Function.update_of_ne (Ne.symm h) _ _, rfl⟩
    · exact ⟨rfl, rfl⟩
  | put key' value ttl => exact ⟨rfl, Function.update_of_ne (Ne.symm h) _ _⟩
  | delete key' => exact ⟨rfl, Function.update_of_ne (Ne.symm h) _ _⟩
  | hashGet | hashGetAll | get | purgeExpired => exact ⟨rfl, rfl⟩

/-- What a command makes of the outlook for a time is told by what is shown now and then. -/
theorem after_congr {k : Command} {t t' : Nat} {V V' : Outlook} (hnow : V t = V' t)
    (hthen : V t' = V' t') : k.after t V t' = k.after t V' t' := by
  cases k <;> simp only [after, hnow, hthen]

/-- A list of the fields of a hash, in whatever order. -/
def IsListing (fields : String → Option String) (l : List (String × String)) : Prop :=
  (l.map Prod.fst).Nodup ∧ ∀ field value, (field, value) ∈ l ↔ fields field = some value

/-- The replies to a command that is given when readers find a picture. -/
def Replied (P : Picture) : (k : Command) → Result k → Prop
  | .hashPut .., r => r = .ok ()
  | .hashGet key field, r => r = .ok (P.fields key field)
  | .hashGetAll key, r => ∃ l, r = .ok l ∧ IsListing (P.fields key) l
  | .hashDelete key field, r => r = .ok (P.fields key field).isSome
  | .hashDeleteIf key field expected, r => r = .ok (decide (P.fields key field = some expected))
  | .put .., r => r = .ok ()
  | .get key, r => r = .ok (P.text key)
  | .delete key, r => r = .ok (P.text key).isSome
  | .purgeExpired, r => ∃ n, r = .ok n

end Command

/-- A way to keep what the cache stores: how commands are carried out at an instant, and what a
state will show. -/
structure Backend (σ : Type) where
  answer : Nat → (k : Command) → σ → Result k × σ
  outlook : σ → Outlook

/-- A backend keeps to the contract for the commands that are admitted at an instant, in states that
fit, and its states go on to fit. -/
structure Backend.Sound {σ : Type} (B : Backend σ) (admits : Nat → Command → Prop)
    (fits : Nat → σ → Prop) : Prop where
  later : ∀ {t t' s}, fits t s → t ≤ t' → fits t' s
  kept : ∀ {t s k}, fits t s → admits t k → fits t (B.answer t k s).2
  replied : ∀ {t s k}, fits t s → admits t k →
    k.Replied (B.outlook s t) (B.answer t k s).1
  shown : ∀ {t s k}, fits t s → admits t k → ∀ t', t ≤ t' →
    B.outlook (B.answer t k s).2 t' = k.after t (B.outlook s) t'

theorem Backend.Sound.mono {σ : Type} {B : Backend σ} {admits admits' : Nat → Command → Prop}
    {fits : Nat → σ → Prop} (h : B.Sound admits fits) (hadmits : ∀ t k, admits' t k → admits t k) :
    B.Sound admits' fits where
  later hs ht := h.later hs ht
  kept hs hk := h.kept hs (hadmits _ _ hk)
  replied hs hk := h.replied hs (hadmits _ _ hk)
  shown hs hk := h.shown hs (hadmits _ _ hk)

/-- From an instant on, the fields of a hash stay until they go together. -/
def Lapses (V : Outlook) (t : Nat) (key : String) : Prop :=
  ∃ d, ∀ t', t ≤ t' →
    (V t').fields key = if t' < d then (V t).fields key else Picture.blank

/-! ### Keys that serve for one kind of value -/

/-- A command uses keys for what they serve for, hashes or texts, and writes for a set time. -/
def Command.Uses (hashes texts : String → Prop) (ttl : Duration) : Command → Prop
  | .hashPut key _ _ ttl' => hashes key ∧ ttl' = ttl
  | .hashGet key _ | .hashGetAll key | .hashDelete key _ | .hashDeleteIf key .. => hashes key
  | .put key _ ttl' => texts key ∧ ttl' = ttl
  | .get key | .delete key => texts key
  | .purgeExpired => True

namespace Memory

def backend : Backend Memory where
  answer t := answer (.ofMillis t)
  outlook m t := ⟨fun key => (m.fieldsAt (.ofMillis t) key).get?, m.textAt (.ofMillis t)⟩

/-- Every key holds the kind of value that it serves for, or nothing. -/
def Fits (hashes texts : String → Prop) (t : Nat) (m : Memory) : Prop :=
  (∀ key, hashes key → m.IsHash (.ofMillis t) key) ∧ ∀ key, texts key → m.IsText (.ofMillis t) key

section

variable {m : Memory} {t t' : Nat} {now : Duration} {key field value : String}
  {ttl : Duration} {k : Command}

theorem textAt_of_isHash (h : m.IsHash now key) : m.textAt now key = none := by
  obtain hs | ⟨fields, deadline, hs⟩ := h.cases
  · rw [textAt, hs, Option.bind_none]
  · rw [textAt, hs]
    rfl

theorem fieldsAt_of_isText (h : m.IsText now key) : m.fieldsAt now key = .empty := by
  cases hs : m.live? now key with
  | none => rw [fieldsAt, hs]
  | some s =>
    obtain ⟨value, deadline⟩ := s
    cases value with
    | hash fields => exact absurd hs (h fields deadline)
    | text s =>
      rw [fieldsAt, hs]
      rfl

theorem fits_answer {hashes texts : String → Prop} (hapart : ∀ key, hashes key → ¬ texts key)
    (h : m.Fits hashes texts t) (hk : k.Uses hashes texts ttl) :
    (answer (.ofMillis t) k m).2.Fits hashes texts t := by
  constructor
  · intro key hkey
    refine (h.1 key hkey).answer (Duration.le_refl _) ?_
    intro hputs
    cases k with
    | put key' value ttl' =>
      obtain rfl : key' = key := hputs
      exact hapart key' hkey hk.1
    | _ => exact hputs
  · intro key hkey
    refine (h.2 key hkey).answer (Duration.le_refl _) ?_
    intro hputs
    cases k with
    | hashPut key' field value ttl' =>
      obtain rfl : key' = key := hputs
      exact hapart key' hk.1 hkey
    | _ => exact hputs

theorem replied_answer {hashes texts : String → Prop} (h : m.Fits hashes texts t)
    (hk : k.Uses hashes texts ttl) :
    k.Replied (backend.outlook m t) (answer (.ofMillis t) k m).1 := by
  cases k with
  | hashPut key field value ttl' =>
    rw [answer_hashPut (h.1 key hk.1)]
    rfl
  | hashGet key field =>
    rw [answer_hashGet (h.1 key hk)]
    rfl
  | hashGetAll key =>
    rw [answer_hashGetAll (h.1 key hk)]
    exact ⟨_, rfl, Table.distinct _, fun _ _ => Table.mem_entries_iff _⟩
  | hashDelete key field =>
    show (m.deleteField (.ofMillis t) key field fun _ => true).1 = _
    rw [deleteField_fst (h.1 key hk)]
    cases hfield : (m.fieldsAt (.ofMillis t) key).get? field <;> simp [backend, hfield]
  | hashDeleteIf key field expected =>
    show (m.deleteField (.ofMillis t) key field (· = expected)).1 = _
    rw [deleteField_fst (h.1 key hk)]
    cases hfield : (m.fieldsAt (.ofMillis t) key).get? field <;> simp [backend, hfield]
  | put key value ttl' => rfl
  | get key =>
    rw [answer_get (h.2 key hk)]
    rfl
  | delete key =>
    have hsome : (m.live? (.ofMillis t) key).isSome = (m.textAt (.ofMillis t) key).isSome := by
      cases hs : m.live? (.ofMillis t) key with
      | none =>
        rw [textAt, hs]
        rfl
      | some s =>
        obtain ⟨value, deadline⟩ := s
        cases value with
        | hash fields => exact absurd hs (h.2 key hk fields deadline)
        | text s =>
          rw [textAt, hs]
          rfl
    exact congrArg Except.ok hsome
  | purgeExpired => exact ⟨_, rfl⟩

/-- A command changes the outlook of no key but its own. -/
theorem outlook_of_not_changes (ht : t ≤ t') (h : ¬ k.Changes key) :
    (backend.outlook (answer (.ofMillis t) k m).2 t').fields key =
        (backend.outlook m t').fields key ∧
      (backend.outlook (answer (.ofMillis t) k m).2 t').text key =
        (backend.outlook m t').text key := by
  have hlive := live?_answer_of_not_changes (m := m) (Duration.ofMillis_le ht) h
  constructor
  · simp only [backend, fieldsAt_congr hlive]
  · simp only [backend, textAt_congr hlive]

theorem ofMillis_lt_add_iff {n : Nat} :
    Duration.ofMillis t' < .ofMillis t + .ofMillis n ↔ t' < t + n := by
  simp only [Duration.lt_iff, Duration.nanos_add, Duration.nanos_ofMillis]
  omega

theorem get?_deleteField_eq (field : String) (test : String → Bool)
    (h : m.IsHash (.ofMillis t) key) (ht : t ≤ t') :
    ((m.deleteField (.ofMillis t) key field test).2.fieldsAt (.ofMillis t') key).get? =
      if ((m.fieldsAt (.ofMillis t) key).get? field).any test then
        Function.update ((m.fieldsAt (.ofMillis t') key).get?) field none
      else (m.fieldsAt (.ofMillis t') key).get? := by
  funext field'
  rw [get?_fieldsAt_deleteField h (Duration.ofMillis_le ht)]
  by_cases hpasses : ((m.fieldsAt (.ofMillis t) key).get? field).any test
  · by_cases hfield : field' = field
    · subst hfield
      rw [if_pos ⟨rfl, hpasses⟩, if_pos hpasses, Function.update_self]
    · rw [if_neg fun e => hfield e.1, if_pos hpasses, Function.update_of_ne hfield]
  · rw [if_neg fun e => hpasses e.2, if_neg hpasses]

theorem fields_of_hashPut {n : Nat} (h : m.IsHash (.ofMillis t) key) :
    ((answer (.ofMillis t) (.hashPut key field value (.ofMillis n)) m).2.fieldsAt
        (.ofMillis t') key).get? =
      if t' < t + (Duration.ofMillis n).millis then
        Function.update ((m.fieldsAt (.ofMillis t) key).get?) field (some value)
      else Picture.blank := by
  funext field'
  rw [fieldsAt_hashPut h, Duration.millis_ofMillis]
  by_cases hlive : t' < t + n
  · rw [if_pos (ofMillis_lt_add_iff.mpr hlive), if_pos hlive, Table.get?_insert]
    by_cases hfield : field = field'
    · rw [if_pos hfield, hfield, Function.update_self]
    · rw [if_neg hfield, Function.update_of_ne (Ne.symm hfield)]
  · rw [if_neg fun e => hlive (ofMillis_lt_add_iff.mp e), if_neg hlive]
    rfl

theorem fields_of_hashDelete (h : m.IsHash (.ofMillis t) key) (ht : t ≤ t') :
    ((answer (.ofMillis t) (.hashDelete key field) m).2.fieldsAt (.ofMillis t') key).get? =
      Function.update ((m.fieldsAt (.ofMillis t') key).get?) field none := by
  have hdelete := get?_deleteField_eq field (fun _ => true) h ht
  refine hdelete.trans ?_
  split
  · rfl
  · next hnone =>
    -- a field that is not there now will not be there later
    have hlater : (m.fieldsAt (.ofMillis t') key).get? field = none := by
      cases hfield : (m.fieldsAt (.ofMillis t') key).get? field with
      | none => rfl
      | some value =>
        rw [get?_fieldsAt_later (Duration.ofMillis_le ht) hfield] at hnone
        exact absurd rfl hnone
    rw [← hlater, Function.update_eq_self]

theorem fields_of_hashDeleteIf (field value : String) (h : m.IsHash (.ofMillis t) key)
    (ht : t ≤ t') :
    ((answer (.ofMillis t) (.hashDeleteIf key field value) m).2.fieldsAt (.ofMillis t') key).get? =
      if (m.fieldsAt (.ofMillis t) key).get? field = some value then
        Function.update ((m.fieldsAt (.ofMillis t') key).get?) field none
      else (m.fieldsAt (.ofMillis t') key).get? := by
  refine (get?_deleteField_eq field (· = value) h ht).trans ?_
  cases (m.fieldsAt (.ofMillis t) key).get? field <;> simp

/-- The memory store shows at its own key what the contract says. -/
theorem outlook_of_changes {hashes texts : String → Prop} {n : Nat}
    (hapart : ∀ key, hashes key → ¬ texts key) (h : m.Fits hashes texts t)
    (hk : k.Uses hashes texts (.ofMillis n)) (ht : t ≤ t') (hchanges : k.Changes key) :
    (backend.outlook (answer (.ofMillis t) k m).2 t').fields key =
        (k.after t (backend.outlook m) t').fields key ∧
      (backend.outlook (answer (.ofMillis t) k m).2 t').text key =
        (k.after t (backend.outlook m) t').text key := by
  have hkept := fits_answer hapart h hk
  have hle := Duration.ofMillis_le ht
  -- a key of hashes shows no text, and a key of texts no fields
  have hnotext : hashes key → (answer (.ofMillis t) k m).2.textAt (.ofMillis t') key =
      m.textAt (.ofMillis t') key := by
    intro hkey
    rw [textAt_of_isHash ((hkept.1 key hkey).later hle),
      textAt_of_isHash ((h.1 key hkey).later hle)]
  have hnofields : texts key → (answer (.ofMillis t) k m).2.fieldsAt (.ofMillis t') key =
      m.fieldsAt (.ofMillis t') key := by
    intro hkey
    rw [fieldsAt_of_isText ((hkept.2 key hkey).later hle),
      fieldsAt_of_isText ((h.2 key hkey).later hle)]
  cases k with
  | hashPut key' field value ttl =>
    obtain rfl : key' = key := hchanges
    obtain ⟨hkey, rfl⟩ := hk
    exact ⟨(fields_of_hashPut (h.1 key' hkey)).trans (Picture.fields_setFields _ key' _).symm,
      hnotext hkey⟩
  | hashDelete key' field =>
    obtain rfl : key' = key := hchanges
    exact ⟨(fields_of_hashDelete (h.1 key' hk) ht).trans
      (Picture.fields_deleteField (backend.outlook m t') key' field).symm, hnotext hk⟩
  | hashDeleteIf key' field expected =>
    obtain rfl : key' = key := hchanges
    have hfields := fields_of_hashDeleteIf field expected (h.1 key' hk) ht
    have hafter : (Command.hashDeleteIf key' field expected).after t (backend.outlook m) t' =
        if (m.fieldsAt (.ofMillis t) key').get? field = some expected then
          (backend.outlook m t').deleteField key' field else backend.outlook m t' := rfl
    rw [hafter]
    by_cases hfield : (m.fieldsAt (.ofMillis t) key').get? field = some expected
    · rw [if_pos hfield] at hfields ⊢
      exact ⟨hfields.trans (Picture.fields_deleteField (backend.outlook m t') key' field).symm,
        hnotext hk⟩
    · rw [if_neg hfield] at hfields ⊢
      exact ⟨hfields, hnotext hk⟩
  | put key' value ttl =>
    obtain rfl : key' = key := hchanges
    obtain ⟨hkey, rfl⟩ := hk
    constructor
    · exact congrArg Table.get? (hnofields hkey)
    · simp only [Command.after, Picture.setText, Function.update_self, Duration.millis_ofMillis,
        ← ofMillis_lt_add_iff]
      exact textAt_put
  | delete key' =>
    obtain rfl : key' = key := hchanges
    constructor
    · exact congrArg Table.get? (hnofields hk)
    · simp only [Command.after, Picture.setText, Function.update_self]
      exact congrArg (Option.bind · _) live?_delete
  | hashGet | hashGetAll | get | purgeExpired => exact hchanges.elim

end

/-- The memory store keeps to the contract of a store, where no key serves for two kinds of values
and all is written for the same whole number of milliseconds. -/
theorem sound_backend {hashes texts : String → Prop} (hapart : ∀ key, hashes key → ¬ texts key)
    (n : Nat) :
    backend.Sound (fun _ => Command.Uses hashes texts (.ofMillis n)) (Fits hashes texts) where
  later h ht :=
    ⟨fun key hkey => (h.1 key hkey).later (Duration.ofMillis_le ht),
      fun key hkey => (h.2 key hkey).later (Duration.ofMillis_le ht)⟩
  kept h hk := fits_answer hapart h hk
  replied h hk := replied_answer h hk
  shown {t s k} h hk t' ht := by
    have hkey : ∀ key, (backend.outlook (answer (.ofMillis t) k s).2 t').fields key =
          (k.after t (backend.outlook s) t').fields key ∧
        (backend.outlook (answer (.ofMillis t) k s).2 t').text key =
          (k.after t (backend.outlook s) t').text key := by
      intro key
      by_cases hchanges : k.Changes key
      · exact outlook_of_changes hapart h hk ht hchanges
      · have hafter := Command.after_of_not_changes hchanges t (backend.outlook s) t'
        obtain ⟨hfields, htext⟩ := outlook_of_not_changes (m := s) ht hchanges
        exact ⟨hfields.trans hafter.1.symm, htext.trans hafter.2.symm⟩
    exact Picture.ext (funext fun key => (hkey key).1) (funext fun key => (hkey key).2)

/-- The hashes of the memory store stay until they go. -/
theorem lapses (m : Memory) (t : Nat) (key : String) : Lapses (backend.outlook m) t key := by
  cases hslot : m.live? (.ofMillis t) key with
  | none =>
    refine ⟨0, ?_⟩
    intro t' ht
    have hgone : m.live? (.ofMillis t') key = none := by
      rw [live?_later (Duration.ofMillis_le ht), hslot, Option.filter_none]
    rw [if_neg (Nat.not_lt_zero t')]
    simp only [backend, fieldsAt, hgone]
    rfl
  | some slot =>
    -- the first instant in whole milliseconds at which the slot no longer counts
    refine ⟨(slot.deadline.nanos + 999999) / 1000000, ?_⟩
    intro t' ht
    have hlater : m.live? (.ofMillis t') key =
        if slot.isLive (.ofMillis t') then some slot else none := by
      rw [live?_later (Duration.ofMillis_le ht), hslot]
      rfl
    have hlive : slot.isLive (.ofMillis t') = true ↔
        t' < (slot.deadline.nanos + 999999) / 1000000 := by
      rw [Slot.isLive, decide_eq_true_eq, Duration.lt_iff, Duration.nanos_ofMillis]
      omega
    by_cases hthen : t' < (slot.deadline.nanos + 999999) / 1000000
    · rw [if_pos (hlive.mpr hthen), ← hslot] at hlater
      rw [if_pos hthen]
      simp only [backend, fieldsAt_congr hlater]
    · rw [if_neg fun e => hthen (hlive.mp e)] at hlater
      rw [if_neg hthen]
      simp only [backend, fieldsAt, hlater]
      rfl

/-- An empty store fits whatever its keys are to serve for. -/
theorem fits_empty (hashes texts : String → Prop) (t : Nat) : empty.Fits hashes texts t :=
  ⟨fun _ _ _ _ e => (nomatch e), fun _ _ _ _ e => (nomatch e)⟩

end Memory

end SessionGateway.Store
