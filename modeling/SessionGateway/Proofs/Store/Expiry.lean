import Mathlib.Logic.Function.Basic
import SessionGateway.Proofs.Store.Memory

/-!
# Expiry

A memory store holds a key past its deadline until it happens to drop it, so each of its commands
has to look at the time. Beside it stands an ideal store: it drops every key at the instant of its
deadline, and its commands take what they find for what is there. Over every history of commands the
two reply alike, purges aside. A purge tells how many held keys are past their deadline, and no
reply but that of another purge shows that it took place.
-/

namespace SessionGateway.Store

/-! ### The ideal store -/

/-- A store that holds nothing past its deadline. -/
structure Ideal where
  slot? : String → Option Slot

namespace Ideal

def empty : Ideal := ⟨fun _ => none⟩

/-- Drops every key whose deadline is reached. -/
def expire (s : Ideal) (now : Duration) : Ideal :=
  ⟨fun key => (s.slot? key).filter fun slot => ¬ slot.deadline ≤ now⟩

def set (s : Ideal) (key : String) (slot : Option Slot) : Ideal :=
  ⟨Function.update s.slot? key slot⟩

theorem slot?_set (s : Ideal) (key key' : String) (slot : Option Slot) :
    (s.set key slot).slot? key' = if key' = key then slot else s.slot? key' :=
  Function.update_apply _ _ _ _

/-- The hash under a key; where nothing is, it is empty. -/
def hash? (s : Ideal) (key : String) : Except CacheError (Table String String) :=
  match s.slot? key with
  | none => .ok .empty
  | some ⟨.hash fields, _⟩ => .ok fields
  | some ⟨.text _, _⟩ => .error (.wrongType key)

/-- The text under a key. -/
def text? (s : Ideal) (key : String) : Except CacheError (Option String) :=
  match s.slot? key with
  | none => .ok none
  | some ⟨.text text, _⟩ => .ok (some text)
  | some ⟨.hash _, _⟩ => .error (.wrongType key)

/-- Takes a field out of a hash. The hash stays until its deadline, even without fields. -/
def eraseField (s : Ideal) (key field : String) : Ideal :=
  s.set key ((s.slot? key).map fun slot => ⟨.hash (slot.value.fields.erase field), slot.deadline⟩)

/-- Deletes a field of a hash if its value passes a test. -/
def deleteField (s : Ideal) (key field : String) (test : String → Bool) :
    Except CacheError Bool × Ideal :=
  match s.hash? key with
  | .error e => (.error e, s)
  | .ok fields =>
    if (fields.get? field).any test then (.ok true, s.eraseField key field) else (.ok false, s)

/-- Carries a command out on what is there. Of the time, only the deadlines of writes are made. -/
def apply (now : Duration) : (c : Command) → Ideal → Result c × Ideal
  | .hashPut key field value ttl, s =>
    match s.hash? key with
    | .error e => (.error e, s)
    | .ok fields => (.ok (), s.set key (some ⟨.hash (fields.insert field value), now + ttl⟩))
  | .hashGet key field, s => ((s.hash? key).map (·.get? field), s)
  | .hashGetAll key, s => ((s.hash? key).map (·.entries), s)
  | .hashDelete key field, s => s.deleteField key field fun _ => true
  | .hashDeleteIf key field expected, s => s.deleteField key field (· = expected)
  | .put key value ttl, s => (.ok (), s.set key (some ⟨.text value, now + ttl⟩))
  | .get key, s => (s.text? key, s)
  | .delete key, s => (.ok (s.slot? key).isSome, s.set key none)
  | .purgeExpired, s => (.ok 0, s)

/-- What is past its deadline at a time is gone before a command is carried out. -/
def answer (now : Duration) (c : Command) (s : Ideal) : Result c × Ideal :=
  apply now c (s.expire now)

end Ideal

/-! ### Histories -/

/-- Commands with the times at which they are carried out, first come first. -/
abbrev History : Type := List (Duration × Command)

/-- The clock never goes back. -/
abbrev History.InOrder (h : History) : Prop := h.Pairwise fun x y => x.1 ≤ y.1

/-- A command with what it gave back. -/
abbrev Reply : Type := (c : Command) × Result c

section Runs

variable {σ : Type} (answer : Duration → (c : Command) → σ → Result c × σ)

/-- What the commands of a history give back, one after another. -/
def replies : σ → History → List Reply
  | _, [] => []
  | s, (now, c) :: rest => ⟨c, (answer now c s).1⟩ :: replies (answer now c s).2 rest

/-- The state that a history leaves. -/
def after : σ → History → σ
  | s, [] => s
  | s, (now, c) :: rest => after (answer now c s).2 rest

theorem replies_append (s : σ) (h h' : History) :
    replies answer s (h ++ h') = replies answer s h ++ replies answer (after answer s h) h' := by
  induction h generalizing s with
  | nil => rfl
  | cons x rest ih => rw [List.cons_append, replies, ih, replies, after, List.cons_append]

theorem length_replies (s : σ) (h : History) : (replies answer s h).length = h.length := by
  induction h generalizing s with
  | nil => rfl
  | cons x rest ih => rw [replies, List.length_cons, ih, List.length_cons]

end Runs

/-- The replies to everything but purges. -/
def asked (rs : List Reply) : List Reply := rs.filter fun r => r.1 ≠ .purgeExpired

/-! ### One step -/

namespace Memory

variable {m : Memory} {s : Ideal} {now now' : Duration} {key field : String}

/-- What counts in a memory at a time is what an ideal store holds then. -/
def Reflects (now : Duration) (m : Memory) (s : Ideal) : Prop :=
  ∀ key, (s.expire now).slot? key = m.live? now key

theorem isLive_eq (slot : Slot) (now : Duration) :
    slot.isLive now = decide (¬ slot.deadline ≤ now) := by
  rw [Slot.isLive, decide_eq_decide, Duration.lt_iff, Duration.le_iff]
  omega

theorem filter_isLive (slot : Option Slot) :
    (slot.filter fun x => ¬ x.deadline ≤ now) = slot.filter fun x => x.isLive now := by
  simp only [isLive_eq]

theorem Reflects.later (h : Reflects now m s) (hnow : now ≤ now') : Reflects now' m s := by
  intro key
  have hkey : ((s.slot? key).filter fun x => ¬ x.deadline ≤ now) = m.live? now key := h key
  show ((s.slot? key).filter fun x => ¬ x.deadline ≤ now') = m.live? now' key
  rw [live?_later hnow, ← hkey, filter_isLive, filter_isLive, Option.filter_filter]
  congr 1
  funext x
  have hlive : x.isLive now' = true → x.isLive now = true := by
    simp only [Slot.isLive, decide_eq_true_eq]
    exact Duration.lt_of_le_of_lt hnow
  cases hx : x.isLive now' with
  | true => rw [hlive hx, Bool.and_self]
  | false => rw [Bool.and_false]

/-- A command that changes at most one key keeps the two alike if it makes the same of that key. -/
theorem Reflects.of_key {m' : Memory} {s' : Ideal} {slot : Option Slot}
    (h : Reflects now m s)
    (hs : ∀ key', s'.slot? key' = if key' = key then slot else (s.expire now).slot? key')
    (hm : ∀ key', m'.live? now key' =
      if key' = key then slot.filter fun x => x.isLive now else m.live? now key') :
    Reflects now m' s' := by
  intro key'
  show ((s'.slot? key').filter fun x => ¬ x.deadline ≤ now) = m'.live? now key'
  rw [hs, hm, filter_isLive]
  by_cases hkey : key' = key
  · rw [if_pos hkey, if_pos hkey]
  · rw [if_neg hkey, if_neg hkey, h key', live?, Option.filter_filter]
    simp only [Bool.and_self]

theorem Reflects.set (h : Reflects now m s) (key : String) (slot : Slot) :
    Reflects now (m.set key slot) ((s.expire now).set key (some slot)) := by
  apply h.of_key (s.expire now |>.slot?_set key · (some slot))
  · intro key'
    rw [live?_set]
    by_cases hkey : key' = key
    · rw [if_pos hkey, if_pos hkey.symm]
    · rw [if_neg hkey, if_neg (Ne.symm hkey)]

theorem Reflects.expired (h : Reflects now m s) : Reflects now m (s.expire now) := by
  intro key
  show (((s.expire now).slot? key).filter fun x => ¬ x.deadline ≤ now) = m.live? now key
  rw [h key, filter_isLive, live?, Option.filter_filter]
  simp only [Bool.and_self]

/-- What a hash reads as in the ideal store, by what counts in the memory. -/
theorem Reflects.hash? (h : Reflects now m s) (key : String) :
    (s.expire now).hash? key =
      match m.live? now key with
      | none => .ok .empty
      | some ⟨.hash fields, _⟩ => .ok fields
      | some ⟨.text _, _⟩ => .error (.wrongType key) := by
  rw [Ideal.hash?, h key]

theorem Reflects.deleteField (h : Reflects now m s) (key field : String) (test : String → Bool) :
    (m.deleteField now key field test).1 = ((s.expire now).deleteField key field test).1 ∧
      Reflects now (m.deleteField now key field test).2
        ((s.expire now).deleteField key field test).2 := by
  rw [Memory.deleteField, Ideal.deleteField, h.hash? key]
  cases hs : m.live? now key with
  | none => exact ⟨rfl, h.expired⟩
  | some slot =>
    obtain ⟨value, deadline⟩ := slot
    cases value with
    | text text => exact ⟨rfl, h.expired⟩
    | hash fields =>
      have htest : ((fields.get? field).map test).getD false = (fields.get? field).any test := by
        cases fields.get? field <;> rfl
      have herase : (s.expire now).eraseField key field =
          (s.expire now).set key (some ⟨.hash (fields.erase field), deadline⟩) := by
        rw [Ideal.eraseField, h key, hs]
        rfl
      simp only [htest]
      by_cases hpass : (fields.get? field).any test = true
      · rw [if_pos hpass, if_pos hpass, herase]
        exact ⟨rfl, h.set key _⟩
      · rw [if_neg hpass, if_neg hpass]
        exact ⟨rfl, h.expired⟩

/-- One command: the two reply alike, purges aside, and are alike again afterwards. -/
theorem Reflects.answer (h : Reflects now m s) (c : Command) :
    (c ≠ .purgeExpired → (Memory.answer now c m).1 = (Ideal.answer now c s).1) ∧
      Reflects now (Memory.answer now c m).2 (Ideal.answer now c s).2 := by
  have hhash := h.hash?
  cases c with
  | hashPut key field value ttl =>
    rw [Memory.answer, Ideal.answer, Ideal.apply, hhash key]
    cases hs : m.live? now key with
    | none => exact ⟨fun _ => rfl, h.set key _⟩
    | some slot =>
      obtain ⟨value', deadline⟩ := slot
      cases value' with
      | text text => exact ⟨fun _ => rfl, h.expired⟩
      | hash fields => exact ⟨fun _ => rfl, h.set key _⟩
  | hashGet key field =>
    rw [Memory.answer, Ideal.answer, Ideal.apply, hhash key]
    cases hs : m.live? now key with
    | none => exact ⟨fun _ => rfl, h.expired⟩
    | some slot =>
      obtain ⟨value, deadline⟩ := slot
      cases value <;> exact ⟨fun _ => rfl, h.expired⟩
  | hashGetAll key =>
    rw [Memory.answer, Ideal.answer, Ideal.apply, hhash key]
    cases hs : m.live? now key with
    | none => exact ⟨fun _ => rfl, h.expired⟩
    | some slot =>
      obtain ⟨value, deadline⟩ := slot
      cases value <;> exact ⟨fun _ => rfl, h.expired⟩
  | hashDelete key field =>
    obtain ⟨hreply, hafter⟩ := h.deleteField key field fun _ => true
    exact ⟨fun _ => hreply, hafter⟩
  | hashDeleteIf key field expected =>
    obtain ⟨hreply, hafter⟩ := h.deleteField key field (· = expected)
    exact ⟨fun _ => hreply, hafter⟩
  | put key value ttl => exact ⟨fun _ => rfl, h.set key _⟩
  | get key =>
    rw [Memory.answer, Ideal.answer, Ideal.apply, Ideal.text?, h key]
    cases hs : m.live? now key with
    | none => exact ⟨fun _ => rfl, h.expired⟩
    | some slot =>
      obtain ⟨value, deadline⟩ := slot
      cases value <;> exact ⟨fun _ => rfl, h.expired⟩
  | delete key =>
    rw [Memory.answer, Ideal.answer, Ideal.apply, h key]
    refine ⟨fun _ => rfl, h.of_key (s.expire now |>.slot?_set key · none) ?_⟩
    intro key'
    rw [live?, Table.get?_erase]
    by_cases hkey : key' = key
    · rw [if_pos hkey, if_pos hkey, Option.filter_none]
    · rw [if_neg hkey, if_neg hkey, live?]
  | purgeExpired =>
    refine ⟨fun hne => absurd rfl hne, ?_⟩
    intro key
    have hkept : ¬ Command.Changes key .purgeExpired := fun hc => hc
    rw [live?_answer_of_not_changes (Duration.le_refl now) hkept]
    exact h.expired key

end Memory

/-! ### Whole histories -/

theorem asked_purge (x : Result .purgeExpired) (rs : List Reply) :
    asked (⟨.purgeExpired, x⟩ :: rs) = asked rs := rfl

theorem asked_cons {c : Command} (hc : c ≠ .purgeExpired) (x : Result c) (rs : List Reply) :
    asked (⟨c, x⟩ :: rs) = ⟨c, x⟩ :: asked rs :=
  List.filter_cons_of_pos (by simpa using hc)

namespace Ideal

end Ideal

namespace Memory

theorem Reflects.replies {m : Memory} {s : Ideal} {now : Duration} {h : History}
    (hs : Reflects now m s) (hlate : ∀ x ∈ h, now ≤ x.1) (hclock : h.InOrder) :
    asked (replies Memory.answer m h) = asked (replies Ideal.answer s h) := by
  induction h generalizing now m s with
  | nil => rfl
  | cons x rest ih =>
    obtain ⟨t, c⟩ := x
    obtain ⟨hrest, hclock⟩ := List.pairwise_cons.mp hclock
    obtain ⟨hreply, hafter⟩ := (hs.later (hlate (t, c) List.mem_cons_self)).answer c
    have htail := ih hafter hrest hclock
    rw [Store.replies, Store.replies]
    by_cases hc : c = .purgeExpired
    · subst hc
      rw [asked_purge, asked_purge, htail]
    · rw [asked_cons hc, asked_cons hc, hreply hc, htail]

end Memory

end SessionGateway.Store
