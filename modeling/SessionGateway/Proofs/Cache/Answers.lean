import SessionGateway.Cache
import SessionGateway.Proofs.Program.Runs
import SessionGateway.Proofs.Store.Memory

/-!
# Cache operations over a memory store

The store and the wall clock move together in whole milliseconds, from a start that is counted from
1970. An operation is run alone at an instant, or beside a clock that may advance before each of its
requests. Times stay below the greatest stamp, the year 292 million.
-/

namespace SessionGateway

namespace Cache

open Store (Memory)
open Program (Surroundings)

/-- The first time that no stamp can lie beyond. -/
def horizon : Nat := 9223372036854775807

/-- The wall clock at an instant. -/
def wallAt (origin t : Nat) : Int64 := Int64.ofNat (origin + t)

/-- Answers a request at an instant. -/
def answer (origin t : Nat) : (r : Request) → Memory → r.Answer × Memory
  | .store k, m => Memory.answer (.ofMillis t) k m
  | .wallClock, m => (wallAt origin t, m)
  | .log _, m => ((), m)

/-- What an operation gives back, and what it leaves, when it is run at an instant. -/
def Operation.at {α : Type} (op : Operation α) (origin t : Nat) (m : Memory) :
    Except CacheError α × Memory :=
  op.run.run (answer origin t) m

/-- A state is an instant and the memory; the clock may advance before a request is answered. -/
def Answers (origin : Nat) : Surroundings interface (Nat × Memory)
  | r, (t, m), x, (t', m') => t ≤ t' ∧ origin + t' < horizon ∧
    match r with
    | .store k => Memory.Carries (.ofMillis t') k m x m'
    | .wallClock => x = wallAt origin t' ∧ m' = m
    | .log _ => m' = m

/-- How a request may be answered at an instant; the store fails only if it may. -/
def AnswersAt (now : Duration) (wall : Int64) (fails : Bool) : Surroundings interface Memory
  | .store k, m, x, m' =>
    Memory.Carries now k m x m' ∨ fails = true ∧ m' = m ∧ ∃ e, x = .error e
  | .wallClock, m, x, m' => x = wall ∧ m' = m
  | .log _, m, _, m' => m' = m

/-- Every run of an operation ends in a way that satisfies a condition. -/
def Operation.Ensures {σ α : Type} (A : Surroundings interface σ) (op : Operation α) (s : σ)
    (Q : Except CacheError α → σ → Prop) : Prop :=
  Program.Ensures A op.run s fun _ r s' => Q r s'

/-! ### The clock -/

section

variable {origin s t : Nat}

theorem toInt_wallAt (h : origin + t < horizon) : (wallAt origin t).toInt = origin + t := by
  rw [horizon] at h
  rw [wallAt, Int64.toInt_ofNat_of_lt (by omega)]
  omega

theorem toInt_clamp (n : Int) :
    (clamp n).toInt = max (-9223372036854775808) (min 9223372036854775807 n) := by
  have hmin : Int64.minValue.toInt = -9223372036854775808 := by decide
  have hmax : Int64.maxValue.toInt = 9223372036854775807 := by decide
  rw [clamp, hmin, hmax, Int64.toInt_ofInt_of_le (by omega) (by omega)]

/-- A stamp counts for exactly the time to live. -/
theorem wallAt_lt_stampAt_iff (c : SessionCache) (hst : s ≤ t) (h : origin + t < horizon) :
    wallAt origin t < c.stampAt (wallAt origin s) ↔ t < s + c.ttl.millis := by
  rw [Int64.lt_iff_toInt_lt, SessionCache.stampAt, toInt_clamp, toInt_clamp, toInt_wallAt h,
    toInt_wallAt (by omega)]
  rw [horizon] at h
  omega

/-- A heartbeat is not too old for exactly the time to live. -/
theorem cutoffAt_le_wallAt_iff (c : SessionCache) (hst : s ≤ t) (h : origin + t < horizon) :
    c.cutoffAt (wallAt origin t) ≤ wallAt origin s ↔ t ≤ s + c.ttl.millis := by
  rw [Int64.le_iff_toInt_le, SessionCache.cutoffAt, toInt_clamp, toInt_clamp, toInt_wallAt h,
    toInt_wallAt (by omega)]
  rw [horizon] at h
  omega

variable {c : SessionCache}

theorem lt_add_ttl (httl : 1 ≤ c.ttl.millis) (now : Duration) : now < now + c.ttl := by
  rw [Duration.millis] at httl
  rw [Duration.lt_iff, Duration.nanos_add]
  omega

/-- What is stamped now counts. -/
theorem lt_stampAt {now : Int64} (httl : 1 ≤ c.ttl.millis) (hnow : now.toInt < horizon) :
    now < c.stampAt now := by
  have hlow := now.minValue_le_toInt
  have hmin : Int64.minValue.toInt = -9223372036854775808 := by decide
  rw [horizon] at hnow
  rw [Int64.lt_iff_toInt_lt, SessionCache.stampAt, toInt_clamp, toInt_clamp]
  omega

/-- A heartbeat of now is not too old. -/
theorem cutoffAt_le (now : Int64) : c.cutoffAt now ≤ now := by
  have hlow := now.minValue_le_toInt
  have hhigh := now.toInt_lt
  have hmin : Int64.minValue.toInt = -9223372036854775808 := by decide
  rw [Int64.le_iff_toInt_le, SessionCache.cutoffAt, toInt_clamp, toInt_clamp]
  omega

end

/-! ### Running an operation -/

section

variable {α β σ : Type} {A : Surroundings interface σ} {s : σ} {origin t : Nat} {m : Memory}

theorem Operation.Ensures.mono {op : Operation α} {Q Q' : Except CacheError α → σ → Prop}
    (h : op.Ensures A s Q) (hQ : ∀ r s', Q r s' → Q' r s') : op.Ensures A s Q' :=
  Program.Ensures.mono h fun _ r s' => hQ r s'

theorem ensures_bind {op : Operation α} {f : α → Operation β}
    {Q : Except CacheError β → σ → Prop} :
    Operation.Ensures A (op >>= f) s Q ↔ op.Ensures A s fun r s' =>
      match r with
      | .ok a => (f a).Ensures A s' Q
      | .error e => Q (.error e) s' := by
  simp only [Operation.Ensures, ExceptT.run_bind, Program.bind_eq, Program.ensures_bind]
  constructor
  · intro h
    refine Program.Ensures.mono h ?_
    rintro trace (e | a) s' h
    · exact h
    · exact h
  · intro h
    refine Program.Ensures.mono h ?_
    rintro trace (e | a) s' h
    · exact h
    · exact h

theorem ensures_command {k : Store.Command} {Q : Except CacheError k.Answer → Nat × Memory → Prop}
    (hk : ¬ k.Lists)
    (h : ∀ t', t ≤ t' → origin + t' < horizon →
      Q (Memory.answer (.ofMillis t') k m).1 (t', (Memory.answer (.ofMillis t') k m).2)) :
    (command k).Ensures (Answers origin) (t, m) Q := by
  rintro x ⟨t', m'⟩ ⟨ht, hbound, hx⟩
  obtain ⟨rfl, rfl⟩ := Memory.eq_of_carries hx hk
  exact h t' ht hbound

theorem ensures_hashGetAll {key : String}
    {Q : Except CacheError (List (String × String)) → Nat × Memory → Prop}
    (hhash : m.IsHash (.ofMillis t) key)
    (h : ∀ t' fields, t ≤ t' → fields.Perm (m.fieldsAt (.ofMillis t') key).entries →
      Q (.ok fields) (t', m)) :
    (command (.hashGetAll key)).Ensures (Answers origin) (t, m) Q := by
  rintro x ⟨t', m'⟩ ⟨ht, hbound, rfl, hx⟩
  rw [Memory.answer_hashGetAll (hhash.later (Duration.ofMillis_le ht))] at hx
  obtain ⟨e, ⟨⟩, -⟩ | ⟨_, fields, ⟨⟩, rfl, hperm⟩ := hx
  exact h t' fields ht hperm

theorem ensures_now {f : Int64 → Operation β} {Q : Except CacheError β → Nat × Memory → Prop}
    (h : ∀ t', t ≤ t' → origin + t' < horizon →
      (f (wallAt origin t')).Ensures (Answers origin) (t', m) Q) :
    Operation.Ensures (Answers origin) (wallClock >>= f) (t, m) Q := by
  rw [ensures_bind]
  rintro _ ⟨t', m'⟩ ⟨ht, hbound, rfl, rfl⟩
  exact h t' ht hbound

theorem only_bind {P : Request → Prop} {op : Operation α} {f : α → Operation β}
    (hop : op.run.Only P) (hf : ∀ a, (f a).run.Only P) : (op >>= f).run.Only P := by
  rw [ExceptT.run_bind]
  refine Program.Only.bind hop ?_
  rintro (e | a)
  · trivial
  · exact hf a

theorem only_pure {P : Request → Prop} (a : α) : (pure a : Operation α).run.Only P := trivial

theorem only_command {P : Request → Prop} {k : Store.Command} (h : P (.store k)) :
    (command k).run.Only P := ⟨h, fun _ => trivial⟩

/-- An operation that is run at an instant is run while the clock happens to stand still. -/
theorem runs_of_run (h : origin + t < horizon) (p : Program interface α) (m : Memory) :
    ∃ trace, p.Runs (Answers origin) (t, m) trace (p.run (answer origin t) m).1
      (t, (p.run (answer origin t) m).2) := by
  induction p generalizing m with
  | done a => exact ⟨[], .done a _⟩
  | ask r next ih =>
    obtain ⟨trace, hrun⟩ := ih (answer origin t r m).1 (answer origin t r m).2
    have hx : Answers origin r (t, m) (answer origin t r m).1 (t, (answer origin t r m).2) := by
      refine ⟨Nat.le_refl t, h, ?_⟩
      cases r with
      | store k => exact Memory.carries_answer
      | wallClock => exact ⟨rfl, rfl⟩
      | log e => rfl
    exact ⟨_, .ask hx hrun⟩

theorem Operation.Ensures.at {op : Operation α} {Q : Except CacheError α → Nat × Memory → Prop}
    (h : op.Ensures (Answers origin) (t, m) Q) (ht : origin + t < horizon) :
    Q (op.at origin t m).1 (t, (op.at origin t m).2) := by
  obtain ⟨trace, hrun⟩ := runs_of_run ht op.run m
  exact hrun.of_ensures h

theorem at_bind {op : Operation α} {f : α → Operation β} :
    Operation.at (op >>= f) origin t m =
      match op.at origin t m with
      | (.ok a, m') => (f a).at origin t m'
      | (.error e, m') => (.error e, m') := by
  simp only [Operation.at, ExceptT.run_bind, Program.bind_eq, Program.run_bind]
  generalize op.run.run (answer origin t) m = r
  obtain ⟨e | a, m'⟩ := r
  · rfl
  · rfl

theorem at_command {k : Store.Command} :
    (command k).at origin t m = Memory.answer (.ofMillis t) k m := rfl

end

end Cache

end SessionGateway
