import Mathlib.Logic.Function.Basic
import SessionGateway.Proofs.Cache.Answers
import SessionGateway.Proofs.Cache.Keys

/-!
# What the memory holds of the last writings

A ledger tells for every place of the cache which text was last put there and when, unless it was
taken back. A memory mirrors a ledger if a text that was put is found for at least the time to live,
and nothing else is found. Writing, deleting, pruning and purging keep the mirror.
-/

namespace SessionGateway.SessionCache

open Store (Memory Command)
open Store.Memory

/-- Where the cache keeps a text: in a field of a hash, or under a key of its own. -/
inductive Place where
  | user (b : BrokerId) (field : String)
  | group (b : BrokerId) (field : String)
  | beat (b : BrokerId)
  | connection (id : ConnectionId)
  deriving DecidableEq

namespace Place

def key (c : SessionCache) : Place → String
  | .user b _ => c.userBucket b
  | .group b _ => c.groupBucket b
  | .beat _ => c.brokersKey
  | .connection id => c.connectionKey id

def field? : Place → Option String
  | .user _ field | .group _ field => some field
  | .beat b => some b.text
  | .connection _ => none

/-- The text that a reader finds at a place. -/
def read (c : SessionCache) (p : Place) (m : Memory) (now : Duration) : Option String :=
  match p.field? with
  | some field => (m.fieldsAt now (p.key c)).get? field
  | none => m.textAt now (p.key c)

variable {c : SessionCache} {p q : Place}

/-- No two places share a key and a field. -/
theorem eq_of_key (hkey : p.key c = q.key c) (hfield : p.field? = q.field?) : p = q := by
  cases p <;> cases q <;> simp only [key, field?, Option.some.injEq, reduceCtorEq] at hkey hfield
  case user.user => rw [(c.userBucket_inj).mp hkey, hfield]
  case user.group => exact absurd hkey (c.userBucket_ne_groupBucket _ _)
  case user.beat => exact absurd hkey (c.userBucket_ne_brokersKey _)
  case group.user => exact absurd hkey.symm (c.userBucket_ne_groupBucket _ _)
  case group.group => rw [(c.groupBucket_inj).mp hkey, hfield]
  case group.beat => exact absurd hkey (c.groupBucket_ne_brokersKey _)
  case beat.user => exact absurd hkey.symm (c.userBucket_ne_brokersKey _)
  case beat.group => exact absurd hkey.symm (c.groupBucket_ne_brokersKey _)
  case beat.beat b b' =>
    obtain ⟨text⟩ := b
    obtain ⟨text'⟩ := b'
    obtain rfl : text = text' := hfield
    rfl
  case connection.connection => rw [(c.connectionKey_inj).mp hkey]

/-- No key serves as a hash and as a text. -/
theorem key_ne (hp : p.field?.isSome) (hq : q.field? = none) : p.key c ≠ q.key c := by
  intro hkey
  cases p <;> cases q <;> simp only [key, field?, Option.isSome_none, reduceCtorEq] at hkey hp hq
  case user.connection => exact c.userBucket_ne_connectionKey _ _ hkey
  case group.connection => exact c.groupBucket_ne_connectionKey _ _ hkey
  case beat.connection => exact c.connectionKey_ne_brokersKey _ hkey.symm

/-- A key of a connection is that of no other place. -/
theorem eq_connection_of_key {id : ConnectionId} (hkey : (connection id).key c = p.key c) :
    p = .connection id := by
  cases hp : p.field? with
  | some field => exact absurd hkey.symm (key_ne (by rw [hp]; rfl) rfl)
  | none => exact (eq_of_key hkey hp.symm).symm

theorem read_of_field {field : String} (h : p.field? = some field) (m : Memory) (now : Duration) :
    p.read c m now = (m.fieldsAt now (p.key c)).get? field := by
  rw [read, h]

theorem read_of_none (h : p.field? = none) (m : Memory) (now : Duration) :
    p.read c m now = m.textAt now (p.key c) := by
  rw [read, h]

theorem read_of_not_changes {k : Command} {now now' : Duration} {m : Memory} (hnow : now ≤ now')
    (h : ¬ k.Changes (p.key c)) : p.read c (answer now k m).2 now' = p.read c m now' := by
  have hlive := live?_answer_of_not_changes (m := m) hnow h
  cases hf : p.field? with
  | some field => rw [read_of_field hf, read_of_field hf, fieldsAt_congr hlive]
  | none => rw [read_of_none hf, read_of_none hf, textAt_congr hlive]

theorem read_later {m : Memory} {now now' : Duration} {text : String} (hnow : now ≤ now')
    (h : p.read c m now' = some text) : p.read c m now = some text := by
  cases hf : p.field? with
  | some field =>
    rw [read_of_field hf] at h ⊢
    exact get?_fieldsAt_later hnow h
  | none =>
    rw [read_of_none hf] at h ⊢
    exact textAt_later hnow h

/-- Putting a field starts the time of the whole hash anew. -/
theorem read_hashPut {m : Memory} {now now' : Duration} {field text : String} {ttl : Duration}
    (hhash : m.IsHash now (p.key c)) (hf : p.field? = some field) (hq : q.field?.isSome)
    (hkey : p.key c = q.key c) :
    q.read c (answer now (.hashPut (p.key c) field text ttl) m).2 now' =
      if now' < now + ttl then if q = p then some text else q.read c m now else none := by
  obtain ⟨field', hg⟩ := Option.isSome_iff_exists.mp hq
  rw [read_of_field hg, read_of_field hg, ← hkey, fieldsAt_hashPut hhash]
  split
  · rw [Table.get?_insert]
    by_cases hpq : q = p
    · subst hpq
      rw [hf, Option.some.injEq] at hg
      rw [if_pos hg, if_pos rfl]
    · rw [if_neg hpq, if_neg]
      rintro rfl
      exact hpq (eq_of_key hkey.symm (hg.trans hf.symm))
  · rfl

/-- Deleting a field under a test leaves all other places as they are. -/
theorem read_deleteField {m : Memory} {now now' : Duration} {field : String}
    (test : String → Bool) (hhash : m.IsHash now (p.key c)) (hf : p.field? = some field)
    (hq : q.field?.isSome) (hkey : p.key c = q.key c) (hnow : now ≤ now') :
    q.read c (m.deleteField now (p.key c) field test).2 now' =
      if q = p ∧ (p.read c m now).any test then none else q.read c m now' := by
  obtain ⟨field', hg⟩ := Option.isSome_iff_exists.mp hq
  rw [read_of_field hg, ← hkey, get?_fieldsAt_deleteField hhash hnow, read_of_field hf,
    read_of_field hg, ← hkey]
  have hpq : q = p ↔ field' = field := by
    constructor
    · rintro rfl
      exact Option.some.inj (hg.symm.trans hf)
    · rintro rfl
      exact eq_of_key hkey.symm (hg.trans hf.symm)
  simp only [hpq]

/-- A place from an instant on holds what was last put there, for the time to live, or nothing. -/
structure Agrees (c : SessionCache) (p : Place) (last : Option (String × Nat)) (m : Memory)
    (t : Nat) : Prop where
  past : ∀ text s, last = some (text, s) → s ≤ t
  kept : ∀ text s, last = some (text, s) → ∀ t', t ≤ t' → t' < s + c.ttl.millis →
    p.read c m (.ofMillis t') = some text
  known : ∀ text, p.read c m (.ofMillis t) = some text → ∃ s, last = some (text, s)

theorem Agrees.later {last : Option (String × Nat)} {m : Memory} {t t' : Nat}
    (h : p.Agrees c last m t) (ht : t ≤ t') : p.Agrees c last m t' where
  past text s hlast := Nat.le_trans (h.past text s hlast) ht
  kept text s hlast t'' ht' := h.kept text s hlast t'' (Nat.le_trans ht ht')
  known text hread := h.known text (read_later (Duration.ofMillis_le ht) hread)

end Place

/-- The last text of every place with the time when it was put. -/
abbrev Ledger : Type := Place → Option (String × Nat)

structure Mirrors (c : SessionCache) (L : Ledger) (m : Memory) (t : Nat) : Prop where
  isHash : ∀ p : Place, p.field?.isSome → m.IsHash (.ofMillis t) (p.key c)
  isText : ∀ p : Place, p.field? = none → m.IsText (.ofMillis t) (p.key c)
  agrees : ∀ p : Place, p.Agrees c (L p) m t

namespace Mirrors

variable {c : SessionCache} {L L' : Ledger} {m : Memory} {t : Nat}

theorem empty (c : SessionCache) (t : Nat) : Mirrors c (fun _ => none) .empty t where
  isHash p hp s deadline h := by cases h
  isText p hp fields deadline h := by cases h
  agrees p := by
    refine ⟨by simp, by simp, ?_⟩
    intro text h
    cases hf : p.field? with
    | some field => rw [Place.read_of_field hf] at h; cases h
    | none => rw [Place.read_of_none hf] at h; cases h

theorem later {t' : Nat} (h : Mirrors c L m t) (ht : t ≤ t') : Mirrors c L m t' where
  isHash p hp := (h.isHash p hp).later (Duration.ofMillis_le ht)
  isText p hp := (h.isText p hp).later (Duration.ofMillis_le ht)
  agrees p := (h.agrees p).later ht

/-- A command has to be looked at only where it may change something. -/
theorem answer {k : Command} (h : Mirrors c L m t)
    (hhash : ∀ p : Place, p.field?.isSome → ¬ k.PutsText (p.key c))
    (htext : ∀ p : Place, p.field? = none → ¬ k.PutsHash (p.key c))
    (hsame : ∀ p : Place, ¬ k.Changes (p.key c) → L' p = L p)
    (hchanged : ∀ p : Place, k.Changes (p.key c) →
      p.Agrees c (L' p) (Memory.answer (.ofMillis t) k m).2 t) :
    Mirrors c L' (Memory.answer (.ofMillis t) k m).2 t where
  isHash p hp := (h.isHash p hp).answer (Duration.le_refl _) (hhash p hp)
  isText p hp := (h.isText p hp).answer (Duration.le_refl _) (htext p hp)
  agrees p := by
    by_cases hk : k.Changes (p.key c)
    · exact hchanged p hk
    · rw [hsame p hk]
      have hread := fun t' (ht : t ≤ t') =>
        Place.read_of_not_changes (m := m) (Duration.ofMillis_le ht) hk
      refine ⟨(h.agrees p).past, ?_, ?_⟩
      · intro text s hlast t' ht ht'
        rw [hread t' ht]
        exact (h.agrees p).kept text s hlast t' ht ht'
      · intro text htext
        rw [hread t (Nat.le_refl t)] at htext
        exact (h.agrees p).known text htext

/-- Time before the end of a text's life, as the store tells it. -/
theorem ofMillis_lt_add {s t' : Nat} (hs : s ≤ t) (ht' : t' < s + c.ttl.millis) :
    Duration.ofMillis t' < Duration.ofMillis t + c.ttl := by
  simp only [Duration.lt_iff, Duration.nanos_add, Duration.nanos_ofMillis]
  rw [Duration.millis] at ht'
  omega

theorem hashPut (h : Mirrors c L m t) {p : Place} {field text : String} {s : Nat}
    (hf : p.field? = some field) (hs : s ≤ t) :
    Mirrors c (Function.update L p (some (text, s)))
      (Memory.answer (.ofMillis t) (.hashPut (p.key c) field text c.ttl) m).2 t := by
  have hsome : p.field?.isSome := by rw [hf]; rfl
  refine h.answer (fun _ _ e => e) ?_ ?_ ?_
  · intro q hq e
    exact Place.key_ne hsome hq e
  · intro q hq
    exact Function.update_of_ne (fun e => hq (by rw [e]; exact rfl)) _ _
  · intro q hkey
    have hkey : p.key c = q.key c := hkey
    cases hg : q.field? with
    | none => exact absurd hkey (Place.key_ne hsome hg)
    | some field' =>
      have hread : ∀ t', q.read c (Memory.answer (.ofMillis t)
          (.hashPut (p.key c) field text c.ttl) m).2 (.ofMillis t') =
            if Duration.ofMillis t' < .ofMillis t + c.ttl then
              if q = p then some text else q.read c m (.ofMillis t) else none :=
        fun t' => Place.read_hashPut (h.isHash p hsome) hf (by rw [hg]; rfl) hkey
      by_cases hpq : q = p
      · subst hpq
        rw [Function.update_self]
        refine ⟨?_, ?_, ?_⟩
        · rintro _ _ ⟨rfl, rfl⟩
          exact hs
        · rintro _ _ ⟨rfl, rfl⟩ t' ht ht'
          rw [hread, if_pos (ofMillis_lt_add hs ht'), if_pos rfl]
        · intro text' htext'
          rw [hread, if_pos rfl] at htext'
          split at htext'
          · exact ⟨s, by rw [Option.some.inj htext']⟩
          · cases htext'
      · rw [Function.update_of_ne hpq]
        have hq := h.agrees q
        refine ⟨hq.past, ?_, ?_⟩
        · intro text' s' hlast t' ht ht'
          rw [hread, if_pos (ofMillis_lt_add (hq.past _ _ hlast) ht'), if_neg hpq]
          exact hq.kept text' s' hlast t (Nat.le_refl t) (by omega)
        · intro text' htext'
          rw [hread, if_neg hpq] at htext'
          split at htext'
          · exact hq.known text' htext'
          · cases htext'

theorem put (h : Mirrors c L m t) {id : ConnectionId} {text : String} {s : Nat} (hs : s ≤ t) :
    Mirrors c (Function.update L (.connection id) (some (text, s)))
      (Memory.answer (.ofMillis t) (.put (c.connectionKey id) text c.ttl) m).2 t := by
  refine h.answer ?_ (fun _ _ e => e) ?_ ?_
  · intro q hq e
    exact Place.key_ne (c := c) (q := .connection id) hq rfl e.symm
  · intro q hq
    exact Function.update_of_ne (fun e => hq (by rw [e]; exact rfl)) _ _
  · intro q hkey
    obtain rfl : q = .connection id := Place.eq_connection_of_key hkey
    have hread : ∀ t', (Place.connection id).read c (Memory.answer (.ofMillis t)
        (.put (c.connectionKey id) text c.ttl) m).2 (.ofMillis t') =
          if Duration.ofMillis t' < .ofMillis t + c.ttl then some text else none :=
      fun t' => textAt_put
    rw [Function.update_self]
    refine ⟨?_, ?_, ?_⟩
    · rintro _ _ ⟨rfl, rfl⟩
      exact hs
    · rintro _ _ ⟨rfl, rfl⟩ t' ht ht'
      rw [hread, if_pos (ofMillis_lt_add hs ht')]
    · intro text' htext'
      rw [hread] at htext'
      split at htext'
      · exact ⟨s, by rw [Option.some.inj htext']⟩
      · cases htext'

theorem delete (h : Mirrors c L m t) (id : ConnectionId) :
    Mirrors c (Function.update L (.connection id) none)
      (Memory.answer (.ofMillis t) (.delete (c.connectionKey id)) m).2 t := by
  refine h.answer (fun _ _ e => e) (fun _ _ e => e) ?_ ?_
  · intro q hq
    exact Function.update_of_ne (fun e => hq (by rw [e]; exact rfl)) _ _
  · intro q hkey
    obtain rfl : q = .connection id := Place.eq_connection_of_key hkey
    have hread : (Place.connection id).read c (Memory.answer (.ofMillis t)
        (.delete (c.connectionKey id)) m).2 (.ofMillis t) = none :=
      congrArg (Option.bind · _) live?_delete
    rw [Function.update_self]
    refine ⟨by simp, by simp, ?_⟩
    intro text htext
    rw [hread] at htext
    cases htext

/-- Deleting a field under a test leaves all other places as they are. -/
theorem read_deleteField (h : Mirrors c L m t) {p q : Place} {field : String} {t' : Nat}
    (test : String → Bool) (hf : p.field? = some field) (hkey : p.key c = q.key c) (ht : t ≤ t') :
    q.read c (m.deleteField (.ofMillis t) (p.key c) field test).2 (.ofMillis t') =
      if q = p ∧ (p.read c m (.ofMillis t)).any test then none
      else q.read c m (.ofMillis t') := by
  have hsome : p.field?.isSome := by rw [hf]; rfl
  cases hg : q.field? with
  | none => exact absurd hkey (Place.key_ne hsome hg)
  | some field' =>
    exact Place.read_deleteField test (h.isHash p hsome) hf (by rw [hg]; rfl) hkey
      (Duration.ofMillis_le ht)

theorem of_deleteField {k : Command} {p : Place} {field : String}
    (h : Mirrors c L m t) (test : String → Bool) (hf : p.field? = some field)
    (hk : ∀ key, k.Changes key ↔ p.key c = key) (htext : ∀ key, ¬ k.PutsText key)
    (hhash : ∀ key, ¬ k.PutsHash key)
    (hdelete : (Memory.answer (.ofMillis t) k m).2 =
      (m.deleteField (.ofMillis t) (p.key c) field test).2)
    (hsame : ∀ q, q ≠ p → L' q = L q)
    (hp : p.Agrees c (L' p) (m.deleteField (.ofMillis t) (p.key c) field test).2 t) :
    Mirrors c L' (Memory.answer (.ofMillis t) k m).2 t := by
  refine h.answer (fun _ _ => htext _) (fun _ _ => hhash _) ?_ ?_
  · intro q hq
    refine hsame q ?_
    rintro rfl
    exact hq ((hk _).mpr rfl)
  · intro q hkey
    rw [hdelete]
    by_cases hpq : q = p
    · rw [hpq]
      exact hp
    · have hread := fun t' (ht : t ≤ t') =>
        h.read_deleteField test hf ((hk _).mp hkey) ht
      rw [hsame q hpq]
      refine ⟨(h.agrees q).past, ?_, ?_⟩
      · intro text s hlast t' ht ht'
        rw [hread t' ht, if_neg fun e => hpq e.1]
        exact (h.agrees q).kept text s hlast t' ht ht'
      · intro text htext
        rw [hread t (Nat.le_refl t), if_neg fun e => hpq e.1] at htext
        exact (h.agrees q).known text htext

theorem hashDelete (h : Mirrors c L m t) {p : Place} {field : String}
    (hf : p.field? = some field) :
    Mirrors c (Function.update L p none)
      (Memory.answer (.ofMillis t) (.hashDelete (p.key c) field) m).2 t := by
  refine h.of_deleteField (fun _ => true) hf (fun _ => Iff.rfl) (fun _ e => e)
    (fun _ e => e) rfl (fun q hq => Function.update_of_ne hq _ _) ?_
  rw [Function.update_self]
  refine ⟨by simp, by simp, ?_⟩
  intro text htext
  rw [h.read_deleteField _ hf rfl (Nat.le_refl t)] at htext
  split at htext
  · cases htext
  · next hnone =>
    rw [htext] at hnone
    exact absurd ⟨rfl, rfl⟩ hnone

/-- The only text that may be found can be taken back. -/
theorem hashDeleteIf (h : Mirrors c L m t) {p : Place} {field text : String}
    (hf : p.field? = some field)
    (hread : ∀ text', p.read c m (.ofMillis t) = some text' → text' = text) :
    Mirrors c (Function.update L p none)
      (Memory.answer (.ofMillis t) (.hashDeleteIf (p.key c) field text) m).2 t := by
  refine h.of_deleteField (· = text) hf (fun _ => Iff.rfl) (fun _ e => e)
    (fun _ e => e) rfl (fun q hq => Function.update_of_ne hq _ _) ?_
  rw [Function.update_self]
  refine ⟨by simp, by simp, ?_⟩
  intro text' htext'
  rw [h.read_deleteField _ hf rfl (Nat.le_refl t)] at htext'
  split at htext'
  · cases htext'
  · next hnot =>
    obtain rfl := hread text' htext'
    rw [htext'] at hnot
    exact absurd ⟨rfl, by rw [Option.any_some, decide_eq_true rfl]⟩ hnot

/-- A text that is not found may as well have been taken back. -/
theorem forget (h : Mirrors c L m t) {p : Place} (hread : p.read c m (.ofMillis t) = none) :
    Mirrors c (Function.update L p none) m t where
  isHash := h.isHash
  isText := h.isText
  agrees q := by
    by_cases hq : q = p
    · subst hq
      rw [Function.update_self]
      refine ⟨by simp, by simp, ?_⟩
      intro text htext
      rw [hread] at htext
      cases htext
    · rw [Function.update_of_ne hq]
      exact h.agrees q

/-- Deleting a text whose life is over makes no difference. -/
theorem hashDeleteIf_of_stale (h : Mirrors c L m t) {p : Place} {field : String} (text : String)
    (hf : p.field? = some field) (hstale : ∀ s, L p = some (text, s) → s + c.ttl.millis ≤ t) :
    Mirrors c L (Memory.answer (.ofMillis t) (.hashDeleteIf (p.key c) field text) m).2 t := by
  refine h.of_deleteField (· = text) hf (fun _ => Iff.rfl) (fun _ e => e)
    (fun _ e => e) rfl (fun _ _ => rfl) ?_
  have hp := h.agrees p
  refine ⟨hp.past, ?_, ?_⟩
  · intro text' s hlast t' ht ht'
    have hnow := hp.kept text' s hlast t (Nat.le_refl t) (by omega)
    rw [h.read_deleteField _ hf rfl ht, hnow, if_neg]
    · exact hp.kept text' s hlast t' ht ht'
    · rintro ⟨-, htext⟩
      rw [Option.any_some, decide_eq_true_eq] at htext
      subst htext
      have := hstale s hlast
      omega
  · intro text' htext'
    rw [h.read_deleteField _ hf rfl (Nat.le_refl t)] at htext'
    split at htext'
    · cases htext'
    · exact hp.known text' htext'

theorem purge (h : Mirrors c L m t) :
    Mirrors c L (Memory.answer (.ofMillis t) .purgeExpired m).2 t :=
  h.answer (fun _ _ e => e) (fun _ _ e => e) (fun _ _ => rfl) (fun _ e => e.elim)

end Mirrors

end SessionGateway.SessionCache
