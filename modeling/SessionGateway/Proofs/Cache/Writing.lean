import SessionGateway.Proofs.Cache.Mirror
import SessionGateway.Proofs.Entry

/-!
# What the operations write

Each writing operation succeeds on a memory that mirrors a ledger and leaves one that mirrors the
ledger with the operation in it, under a time between its begin and its end. Pruning and purging
leave the ledger as it is: they delete nothing that counts.
-/

namespace SessionGateway.SessionCache

open Cache (Operation Answers horizon wallAt)
open Store (Memory)

/-- Whether the texts at a place carry a stamp. -/
def Place.IsSession : Place → Prop
  | .user .. | .group .. => True
  | .beat _ | .connection _ => False

/-- The texts of sessions carry the stamps of their times. -/
def Ledger.IsStamped (c : SessionCache) (origin : Nat) (L : Ledger) : Prop :=
  ∀ p text s, p.IsSession → L p = some (text, s) →
    Stamped.stampOf? text = some (c.stampAt (wallAt origin s))

/-- The text of an entry that is written at a time. -/
def stamped (c : SessionCache) (origin : Nat) (members : List (String × Option Json)) (s : Nat) :
    String :=
  Stamped.render members (c.stampAt (wallAt origin s))

/-- An operation succeeds and leaves a mirror of a ledger under some time at which it ran. -/
def Records {α : Type} (c : SessionCache) (t : Nat) (L' : Nat → Ledger) :
    Except CacheError α → Nat × Memory → Prop := fun r s' =>
  (∃ a, r = .ok a) ∧ ∃ s, t ≤ s ∧ s ≤ s'.1 ∧ Mirrors c (L' s) s'.2 s'.1

theorem Records.since {α : Type} {c : SessionCache} {t t' : Nat} {L' : Nat → Ledger}
    {r : Except CacheError α} {s' : Nat × Memory} (h : Records c t' L' r s') (ht : t ≤ t') :
    Records c t L' r s' := by
  obtain ⟨hok, s, hs, hst, hmirror⟩ := h
  exact ⟨hok, s, Nat.le_trans ht hs, hst, hmirror⟩

/-- The ledger without a user connection. -/
def Ledger.forget (L : Ledger) (e : UserEntry) : Ledger :=
  let p := Place.user e.owner (userField e.userId)
  Function.update (Function.update L (.connection e.connection) none) p
    ((L p).filter fun x => !names x.1 e.connection)

section

variable {c : SessionCache} {L : Ledger} {m : Memory} {t origin : Nat}

namespace Mirrors

/-- Reading the clock and putting a text that tells the time in a field. -/
theorem ensures_put_now (h : Mirrors c L m t) {p : Place} {field : String}
    (hf : p.field? = some field) (text : Int64 → String) :
    Operation.Ensures (Answers origin)
      (do
        let now ← Cache.wallClock
        Cache.command (.hashPut (p.key c) field (text now) c.ttl)) (t, m)
      (Records c t fun s => Function.update L p (some (text (wallAt origin s), s))) := by
  apply Cache.ensures_now
  intro s hts _
  refine Cache.ensures_command (fun e => e) fun t' hst _ => ?_
  have hnow := h.later (Nat.le_trans hts hst)
  have hhash := hnow.isHash p (by rw [hf]; rfl)
  have hok : (Memory.answer (.ofMillis t') (.hashPut (p.key c) field (text (wallAt origin s)) c.ttl)
      m).1 = .ok () := congrArg Prod.fst (Store.Memory.answer_hashPut hhash)
  exact ⟨⟨(), hok⟩, s, hts, hst, hnow.hashPut hf hst⟩

theorem ensures_refreshUser (h : Mirrors c L m t) (e : UserEntry) :
    (c.refreshUser e).Ensures (Answers origin) (t, m) (Records c t fun s =>
      Function.update L (.user e.owner (userField e.userId))
        (some (c.stamped origin e.members s, s))) :=
  h.ensures_put_now (p := .user e.owner (userField e.userId)) rfl
    fun now => Stamped.render e.members (c.stampAt now)

theorem ensures_refreshGroup (h : Mirrors c L m t) (e : GroupEntry) :
    (c.refreshGroup e).Ensures (Answers origin) (t, m) (Records c t fun s =>
      Function.update L (.group e.owner e.group) (some (c.stamped origin e.members s, s))) :=
  h.ensures_put_now (p := .group e.owner e.group) rfl
    fun now => Stamped.render e.members (c.stampAt now)

theorem ensures_registerBroker (h : Mirrors c L m t) (b : BrokerId) :
    (c.registerBroker b).Ensures (Answers origin) (t, m) (Records c t fun s =>
      Function.update L (.beat b) (some (toString (wallAt origin s).toInt, s))) :=
  h.ensures_put_now (p := .beat b) rfl fun now => toString now.toInt

theorem ensures_refreshConnection (h : Mirrors c L m t) (e : UserEntry) :
    (c.refreshConnection e).Ensures (Answers origin) (t, m) (Records c t fun s =>
      Function.update L (.connection e.connection) (some (e.toJson.render, s))) := by
  refine Cache.ensures_command (fun e => e) fun t' ht _ => ?_
  exact ⟨⟨(), rfl⟩, t', ht, Nat.le_refl t', (h.later ht).put (Nat.le_refl t')⟩

theorem ensures_deregisterBroker (h : Mirrors c L m t) (b : BrokerId) :
    (c.deregisterBroker b).Ensures (Answers origin) (t, m) (Records c t fun _ =>
      Function.update L (.beat b) none) := by
  refine Cache.ensures_command (fun e => e) fun t' ht _ => ?_
  have hnow := h.later ht
  exact ⟨⟨_, Store.Memory.deleteField_fst (hnow.isHash (.beat b) rfl)⟩, t', ht, Nat.le_refl t',
    hnow.hashDelete (p := .beat b) rfl⟩

theorem ensures_purge (h : Mirrors c L m t) :
    purgeStore.Ensures (Answers origin) (t, m) (Records c t fun _ => L) := by
  refine Cache.ensures_command (fun e => e) fun t' ht _ => ?_
  exact ⟨⟨_, rfl⟩, t', ht, Nat.le_refl t', (h.later ht).purge⟩

/-! ### Forgetting -/

theorem ensures_forgetUser (h : Mirrors c L m t) (e : UserEntry) :
    (c.forgetUser e).Ensures (Answers origin) (t, m) (Records c t fun _ => L.forget e) := by
  let p := Place.user e.owner (userField e.userId)
  have hL : (Function.update L (.connection e.connection) none) p = L p :=
    Function.update_of_ne (by simp [p]) _ _
  rw [forgetUser, Cache.ensures_bind]
  refine Cache.ensures_command (fun e => e) fun t₁ ht₁ _ => ?_
  have h₁ := (h.later ht₁).delete e.connection
  generalize (Store.Memory.answer (.ofMillis t₁) (.delete (c.connectionKey e.connection)) m).2 = m₁
    at h₁ ⊢
  show Operation.Ensures _ (Cache.command _ >>= _) _ _
  rw [Cache.ensures_bind]
  refine Cache.ensures_command (fun e => e) fun t₂ ht₂ _ => ?_
  have h₂ := h₁.later ht₂
  have ht := Nat.le_trans ht₁ ht₂
  have hbucket : m₁.IsHash (.ofMillis t₂) (c.userBucket e.owner) := h₂.isHash p rfl
  have hread : p.read c m₁ (.ofMillis t₂) =
    (m₁.fieldsAt (.ofMillis t₂) (c.userBucket e.owner)).get? (userField e.userId) := rfl
  rw [Store.Memory.answer_hashGet hbucket, ← hread]
  cases hfound : p.read c m₁ (.ofMillis t₂) with
  | none =>
    refine ⟨⟨false, rfl⟩, t₂, ht, Nat.le_refl t₂, ?_⟩
    -- what is left of the ledger's text, if anything, is not there any more
    rw [Ledger.forget]
    cases hleft : (L p).filter fun x => !names x.1 e.connection with
    | none => exact h₂.forget hfound
    | some x =>
      rw [Option.filter_eq_some_iff] at hleft
      rw [← hleft.1, ← hL, Function.update_eq_self]
      exact h₂
  | some text =>
    obtain ⟨s, hlast⟩ := (h₂.agrees p).known text hfound
    rw [hL] at hlast
    have hforget : L.forget e = Function.update (Function.update L (.connection e.connection) none)
        p ((some (text, s)).filter fun x => !names x.1 e.connection) := by
      rw [Ledger.forget, ← hlast]
    show Operation.Ensures _ (if names text e.connection then _ else _) _ _
    split
    · next hnames =>
      refine Cache.ensures_command (fun e => e) fun t₃ ht₃ _ => ?_
      have h₃ := h₂.later ht₃
      simp only [hforget, Option.filter_some, hnames]
      refine ⟨⟨_, Store.Memory.deleteField_fst (hbucket.later (Duration.ofMillis_le ht₃))⟩, t₃,
        Nat.le_trans ht ht₃, Nat.le_refl t₃, h₃.hashDeleteIf (p := p) rfl ?_⟩
      intro text' htext'
      have := Place.read_later (Duration.ofMillis_le ht₃) htext'
      rw [hfound, Option.some.injEq] at this
      exact this.symm
    · next hnames =>
      refine ⟨⟨false, rfl⟩, t₂, ht, Nat.le_refl t₂, ?_⟩
      rw [hforget, Option.filter_some, Bool.eq_false_iff.mpr hnames, Bool.not_false, if_pos rfl,
        ← hlast, ← hL, Function.update_eq_self]
      exact h₂

/-! ### Pruning -/

/-- One operation that keeps the ledger after another. -/
theorem ensures_bind_keeping {α β : Type} {op : Operation α} {f : α → Operation β}
    (hop : op.Ensures (Answers origin) (t, m) (Records c t fun _ => L))
    (hf : ∀ a t' m', t ≤ t' → Mirrors c L m' t' →
      (f a).Ensures (Answers origin) (t', m') (Records c t' fun _ => L)) :
    Operation.Ensures (Answers origin) (op >>= f) (t, m) (Records c t fun _ => L) := by
  rw [Cache.ensures_bind]
  refine hop.mono ?_
  rintro _ ⟨t', m'⟩ ⟨⟨a, rfl⟩, s, hs, hst, h'⟩
  have ht := Nat.le_trans hs hst
  exact (hf a t' m' ht h').mono fun r s' hr => hr.since ht

theorem ensures_hashGetAll (h : Mirrors c L m t) {p : Place} (hp : p.field?.isSome) :
    (Cache.command (.hashGetAll (p.key c))).Ensures (Answers origin) (t, m)
      (Records c t fun _ => L) := by
  apply Cache.ensures_hashGetAll (h.isHash p hp)
  intro t' fields ht _
  exact ⟨⟨fields, rfl⟩, t', ht, Nat.le_refl t', h.later ht⟩

/-- A stale text was put at least a time to live ago. -/
theorem stale_le {p : Place} {text : String} {s s₁ : Nat} (hL : L.IsStamped c origin)
    (hp : p.IsSession) (hlast : L p = some (text, s)) (hs : s ≤ s₁) (hs₁ : origin + s₁ < horizon)
    (hstale : isStale (wallAt origin s₁) text = true) : s + c.ttl.millis ≤ s₁ := by
  rw [isStale, hL p text s hp hlast] at hstale
  have hnot : ¬ wallAt origin s₁ < c.stampAt (wallAt origin s) :=
    Int64.not_lt.mpr (of_decide_eq_true hstale)
  rw [Cache.wallAt_lt_stampAt_iff c hs hs₁] at hnot
  omega

theorem ensures_pruneAmong (h : Mirrors c L m t) (hL : L.IsStamped c origin)
    (place : String → Place) {key : String} (hkey : ∀ field, (place field).key c = key)
    (hfield : ∀ field, (place field).field? = some field)
    (hsession : ∀ field, (place field).IsSession) {s₁ : Nat} (hs₁ : s₁ ≤ t)
    (hbound : origin + s₁ < horizon)
    (hpast : ∀ p text s, L p = some (text, s) → s ≤ s₁) (found : List (String × String)) :
    (pruneAmong key (wallAt origin s₁) found).Ensures (Answers origin) (t, m)
      (Records c t fun _ => L) := by
  induction found generalizing t m with
  | nil => exact ⟨⟨0, rfl⟩, t, Nat.le_refl t, Nat.le_refl t, h⟩
  | cons f rest ih =>
    obtain ⟨field, text⟩ := f
    have hrest : ∀ (gone : Bool) t' m', t ≤ t' → Mirrors c L m' t' →
        Operation.Ensures (Answers origin)
          (do
            let others ← pruneAmong key (wallAt origin s₁) rest
            return (if gone then 1 else 0) + others) (t', m') (Records c t' fun _ => L) := by
      intro gone t' m' ht h'
      refine ensures_bind_keeping (ih h' (Nat.le_trans hs₁ ht)) ?_
      intro others t'' m'' _ h''
      exact ⟨⟨_, rfl⟩, t'', Nat.le_refl t'', Nat.le_refl t'', h''⟩
    rw [pruneAmong]
    split
    · next hstale =>
      refine ensures_bind_keeping ?_ hrest
      refine Cache.ensures_command (fun e => e) fun t' ht _ => ?_
      have hnow := h.later ht
      have hmirror := hnow.hashDeleteIf_of_stale text (hfield field) (fun s hlast => by
        have := stale_le hL (hsession field) hlast (hpast _ _ _ hlast) hbound hstale
        omega)
      have hhash := hnow.isHash (place field) (by rw [hfield]; rfl)
      rw [hkey] at hmirror hhash
      exact ⟨⟨_, Store.Memory.deleteField_fst hhash⟩, t', ht, Nat.le_refl t', hmirror⟩
    · exact ensures_bind_keeping ⟨⟨false, rfl⟩, t, Nat.le_refl t, Nat.le_refl t, h⟩ hrest

theorem ensures_prune (h : Mirrors c L m t) (hL : L.IsStamped c origin) (b : BrokerId) :
    (c.prune b).Ensures (Answers origin) (t, m) (Records c t fun _ => L) := by
  apply Cache.ensures_now
  intro s₁ hs₁ hbound
  have h₁ := h.later hs₁
  have hpast : ∀ p text s, L p = some (text, s) → s ≤ s₁ := fun p => (h₁.agrees p).past
  refine Operation.Ensures.mono ?_ fun r s' (hr : Records c s₁ (fun _ => L) r s') => hr.since hs₁
  refine ensures_bind_keeping (h₁.ensures_hashGetAll (p := .group b "") rfl) ?_
  intro found t₂ m₂ ht₂ h₂
  refine ensures_bind_keeping (h₂.ensures_pruneAmong hL (.group b) (fun _ => rfl)
    (fun _ => rfl) (fun _ => trivial) ht₂ hbound hpast found) ?_
  intro groups t₃ m₃ ht₃ h₃
  refine ensures_bind_keeping (h₃.ensures_hashGetAll (p := .user b "") rfl) ?_
  intro found' t₄ m₄ ht₄ h₄
  refine ensures_bind_keeping (h₄.ensures_pruneAmong hL (.user b) (fun _ => rfl)
    (fun _ => rfl) (fun _ => trivial) (by omega) hbound hpast found') ?_
  intro users t₅ m₅ _ h₅
  exact ⟨⟨groups + users, rfl⟩, t₅, Nat.le_refl t₅, Nat.le_refl t₅, h₅⟩

end Mirrors

end

end SessionGateway.SessionCache
