import Mathlib.Order.Monotone.Basic
import SessionGateway.Proofs.Cache.Reading
import SessionGateway.Proofs.Store.Outlook

/-!
# One operation over two stores

Two stores that keep to one contract are put side by side on one clock. As long as both will show
the same, an operation of the cache gives back the same over either, and leaves both such that they
will show the same again. Only the order in which a hash lists its fields may differ, and so may
what a purge counts.
-/

namespace SessionGateway.Cache

open Store (Memory Command Backend Outlook Picture)

/-- Answers requests from a backend. The store and the wall clock are asked at given instants, one
after another. -/
def answerFrom {σ : Type} (B : Backend σ) (origin : Nat) (clock : Nat → Nat) :
    (r : Request) → Nat × σ → r.Answer × (Nat × σ)
  | .store k, (n, s) => ((B.answer (clock n) k s).1, n + 1, (B.answer (clock n) k s).2)
  | .wallClock, (n, s) => (wallAt origin (clock n), n + 1, s)
  | .log _, x => ((), x)

/-- What an operation gives back over a backend, and what it leaves. -/
def Operation.onBackend {σ α : Type} (op : Operation α) (B : Backend σ) (origin : Nat)
    (clock : Nat → Nat) (x : Nat × σ) : Except CacheError α × (Nat × σ) :=
  op.run.run (answerFrom B origin clock) x

/-- What operations give back that are run one after another. -/
def resultsOn {σ α : Type} (B : Backend σ) (origin : Nat) (clock : Nat → Nat) :
    List (Operation α) → Nat × σ → List (Except CacheError α)
  | [], _ => []
  | op :: rest, x =>
    (op.onBackend B origin clock x).1 ::
      resultsOn B origin clock rest (op.onBackend B origin clock x).2

/-- Two results are the same error, or two values that are alike. -/
inductive Agree {α β : Type} (R : α → β → Prop) : Except CacheError α → Except CacheError β → Prop
  | ok {a : α} {b : β} (h : R a b) : Agree R (.ok a) (.ok b)
  | error (e : CacheError) : Agree R (.error e) (.error e)

/-- Two backends on one clock that both keep to the contract of a store. -/
structure Comparison (σ τ : Type) where
  origin : Nat
  /-- The instants at which a store or the wall clock is asked. -/
  clock : Nat → Nat
  first : Backend σ
  second : Backend τ
  fits₁ : Nat → σ → Prop
  fits₂ : Nat → τ → Prop
  admits : Nat → Command → Prop
  onward : Monotone clock
  sound₁ : first.Sound admits fits₁
  sound₂ : second.Sound admits fits₂
  lapses : ∀ s t key, Store.Lapses (first.outlook s) t key

namespace Comparison

variable {σ τ α α' β β' : Type} (P : Comparison σ τ)

/-- From now on both show the same. -/
structure Alike (x : Nat × σ) (y : Nat × τ) : Prop where
  together : x.1 = y.1
  fits₁ : P.fits₁ (P.clock x.1) x.2
  fits₂ : P.fits₂ (P.clock y.1) y.2
  outlook : ∀ t, P.clock x.1 ≤ t → P.first.outlook x.2 t = P.second.outlook y.2 t

/-- Over states that show the same, two operations give back what is alike and leave states that
show the same again. -/
def Twins (R : α → β → Prop) (op : Operation α) (op' : Operation β) : Prop :=
  ∀ x y, P.Alike x y →
    Agree R (op.onBackend P.first P.origin P.clock x).1
        (op'.onBackend P.second P.origin P.clock y).1 ∧
      P.Alike (op.onBackend P.first P.origin P.clock x).2
        (op'.onBackend P.second P.origin P.clock y).2

/-! ### How operations are put together -/

theorem onBackend_bind {B : Backend σ} {origin : Nat} {clock : Nat → Nat} (op : Operation α)
    (f : α → Operation β) (x : Nat × σ) :
    Operation.onBackend (op >>= f) B origin clock x =
      match op.onBackend B origin clock x with
      | (.ok a, x') => (f a).onBackend B origin clock x'
      | (.error e, x') => (.error e, x') := by
  simp only [Operation.onBackend, ExceptT.run_bind, Program.bind_eq, Program.run_bind]
  generalize op.run.run (answerFrom B origin clock) x = r
  obtain ⟨e | a, x'⟩ := r
  · rfl
  · rfl

variable {P}

theorem Twins.bind {R : α → β → Prop} {R' : α' → β' → Prop} {op : Operation α} {op' : Operation β}
    {f : α → Operation α'} {f' : β → Operation β'} (h : P.Twins R op op')
    (hf : ∀ a b, R a b → P.Twins R' (f a) (f' b)) : P.Twins R' (op >>= f) (op' >>= f') := by
  intro x y hxy
  obtain ⟨hagree, hleft⟩ := h x y hxy
  rw [onBackend_bind, onBackend_bind]
  generalize op.onBackend P.first P.origin P.clock x = r at hagree hleft ⊢
  generalize op'.onBackend P.second P.origin P.clock y = r' at hagree hleft ⊢
  obtain ⟨r, x'⟩ := r
  obtain ⟨r', y'⟩ := r'
  cases hagree with
  | ok hab => exact hf _ _ hab x' y' hleft
  | error e => exact ⟨.error e, hleft⟩

theorem twins_pure {R : α → β → Prop} {a : α} {b : β} (h : R a b) : P.Twins R (pure a) (pure b) :=
  fun _ _ hxy => ⟨.ok h, hxy⟩

theorem twins_throw {R : α → β → Prop} (e : CacheError) : P.Twins R (throw e) (throw e) :=
  fun _ _ hxy => ⟨.error e, hxy⟩

theorem twins_log (e : Log.Event) : P.Twins Eq (log e) (log e) :=
  fun _ _ hxy => ⟨.ok rfl, hxy⟩

theorem twins_wallClock : P.Twins Eq wallClock wallClock := by
  intro x y hxy
  obtain ⟨n, s⟩ := x
  obtain ⟨n', s'⟩ := y
  obtain rfl : n = n' := hxy.together
  refine ⟨.ok rfl, rfl, ?_, ?_, ?_⟩
  · exact P.sound₁.later hxy.fits₁ (P.onward (Nat.le_succ n))
  · exact P.sound₂.later hxy.fits₂ (P.onward (Nat.le_succ n))
  · intro t ht
    exact hxy.outlook t (Nat.le_trans (P.onward (Nat.le_succ n)) ht)

/-! ### Commands -/

theorem perm_of_listings {fields : String → Option String} {l l' : List (String × String)}
    (h : Command.IsListing fields l) (h' : Command.IsListing fields l') : l.Perm l' := by
  have hnodup : ∀ {l : List (String × String)}, (l.map Prod.fst).Nodup → l.Nodup :=
    fun hl => (List.pairwise_map.mp hl).imp fun hne e => hne (congrArg Prod.fst e)
  rw [List.perm_ext_iff_of_nodup (hnodup h.1) (hnodup h'.1)]
  rintro ⟨field, value⟩
  rw [h.2, h'.2]

/-- Two lists of fields are alike if they differ at most in their order. -/
def SameFields (l l' : List (String × String)) : Prop :=
  l.Perm l' ∧ (l.map Prod.fst).Nodup

/-- What may be given back for one command over two stores. -/
def SameAnswer : (k : Command) → k.Answer → k.Answer → Prop
  | .hashGetAll _, l, l' => SameFields l l'
  | .purgeExpired, _, _ => True
  | .hashPut .., a, b => a = b
  | .hashGet .., a, b => a = b
  | .hashDelete .., a, b => a = b
  | .hashDeleteIf .., a, b => a = b
  | .put .., a, b => a = b
  | .get _, a, b => a = b
  | .delete _, a, b => a = b

theorem agree_of_replied {V : Picture} {k : Command} {r r' : Store.Result k} (h : k.Replied V r)
    (h' : k.Replied V r') : Agree (SameAnswer k) r r' := by
  cases k with
  | hashGetAll key =>
    obtain ⟨l, rfl, hl⟩ := h
    obtain ⟨l', rfl, hl'⟩ := h'
    exact .ok ⟨perm_of_listings hl hl', hl.1⟩
  | purgeExpired =>
    obtain ⟨n, rfl⟩ := h
    obtain ⟨n', rfl⟩ := h'
    exact .ok trivial
  | hashPut | hashGet | hashDelete | hashDeleteIf | put | get | delete =>
    rw [h, h']
    exact .ok rfl

theorem twins_command {k : Command} (hk : ∀ n, P.admits (P.clock n) k) :
    P.Twins (SameAnswer k) (command k) (command k) := by
  intro x y hxy
  obtain ⟨n, s⟩ := x
  obtain ⟨n', s'⟩ := y
  obtain rfl : n = n' := hxy.together
  have hreplied := P.sound₁.replied hxy.fits₁ (hk n)
  have hshow : P.first.outlook s (P.clock n) = P.second.outlook s' (P.clock n) :=
    hxy.outlook (P.clock n) (Nat.le_refl _)
  have hstep := P.onward (Nat.le_succ n)
  rw [hshow] at hreplied
  refine ⟨agree_of_replied hreplied (P.sound₂.replied hxy.fits₂ (hk n)), rfl, ?_, ?_, ?_⟩
  · exact P.sound₁.later (P.sound₁.kept hxy.fits₁ (hk n)) hstep
  · exact P.sound₂.later (P.sound₂.kept hxy.fits₂ (hk n)) hstep
  · intro t ht
    have hlater := Nat.le_trans hstep ht
    refine (P.sound₁.shown hxy.fits₁ (hk n) t hlater).trans ?_
    refine Eq.trans ?_ (P.sound₂.shown hxy.fits₂ (hk n) t hlater).symm
    exact Command.after_congr hshow (hxy.outlook t hlater)

end Comparison

end SessionGateway.Cache
