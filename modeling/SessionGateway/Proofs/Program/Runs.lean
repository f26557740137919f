import SessionGateway.Program

/-!
# Runs of a program

How a program runs when its surroundings may answer a request in several ways. A run is told with
its exchanges, each a request with its answer and the state right after. What holds at the end of
every run is computed from the program backwards; what a program may ask for is read off its tree.
-/

namespace SessionGateway

/-- A request, its answer and the state right after the answer. -/
structure Exchange (I : Interface) (σ : Type) where
  request : I.Request
  answer : I.Answer request
  state : σ

namespace Program

variable {I : Interface} {σ α β : Type}

/-- The ways in which surroundings may answer a request, and the states that they may leave. -/
abbrev Surroundings (I : Interface) (σ : Type) : Type :=
  (r : I.Request) → σ → I.Answer r → σ → Prop

inductive Runs (A : Surroundings I σ) : Program I α → σ → List (Exchange I σ) → α → σ → Prop
  | done (a : α) (s : σ) : Runs A (.done a) s [] a s
  | ask {r : I.Request} {next : I.Answer r → Program I α} {s s' s'' : σ} {x : I.Answer r}
      {trace : List (Exchange I σ)} {a : α} (answered : A r s x s')
      (rest : Runs A (next x) s' trace a s'') :
      Runs A (.ask r next) s (⟨r, x, s'⟩ :: trace) a s''

/-- Every run from a state ends in a way that satisfies a condition. -/
def Ensures (A : Surroundings I σ) :
    Program I α → σ → (List (Exchange I σ) → α → σ → Prop) → Prop
  | .done a, s, Q => Q [] a s
  | .ask r next, s, Q =>
    ∀ x s', A r s x s' → (next x).Ensures A s' fun trace a s'' => Q (⟨r, x, s'⟩ :: trace) a s''

/-- Every request from a state on can be answered, and every run ends in a way that satisfies a
condition. -/
def Completes (A : Surroundings I σ) : Program I α → σ → (α → σ → Prop) → Prop
  | .done a, s, Q => Q a s
  | .ask r next, s, Q =>
    (∃ x s', A r s x s') ∧ ∀ x s', A r s x s' → (next x).Completes A s' Q

/-- The exchanges of a program each of whose requests is answered in one way. -/
def exchanges (answer : (r : I.Request) → σ → I.Answer r × σ) :
    Program I α → σ → List (Exchange I σ)
  | .done _, _ => []
  | .ask r next, s => ⟨r, (answer r s).1, (answer r s).2⟩ ::
    (next (answer r s).1).exchanges answer (answer r s).2

/-- A program asks for nothing outside a set of requests, whatever it is answered. -/
def Only (P : I.Request → Prop) : Program I α → Prop
  | .done _ => True
  | .ask r next => P r ∧ ∀ x, (next x).Only P

/-- However its requests are answered, a program ends with a value that satisfies a condition. -/
def Ends (Q : α → Prop) : Program I α → Prop
  | .done a => Q a
  | .ask _ next => ∀ x, (next x).Ends Q

section

variable {A : Surroundings I σ}

theorem Ensures.mono {p : Program I α} {s : σ} {Q Q' : List (Exchange I σ) → α → σ → Prop}
    (h : p.Ensures A s Q) (hQ : ∀ trace a s', Q trace a s' → Q' trace a s') :
    p.Ensures A s Q' := by
  induction p generalizing s Q Q' with
  | done a => exact hQ _ _ _ h
  | ask r next ih =>
    intro x s' hx
    exact ih x (h x s' hx) fun trace a s'' => hQ (⟨r, x, s'⟩ :: trace) a s''

theorem ensures_bind {p : Program I α} {f : α → Program I β} {s : σ}
    {Q : List (Exchange I σ) → β → σ → Prop} :
    (p.bind f).Ensures A s Q ↔
      p.Ensures A s fun trace a s' => (f a).Ensures A s' fun trace' b s'' =>
        Q (trace ++ trace') b s'' := by
  induction p generalizing s Q with
  | done a => rfl
  | ask r next ih =>
    constructor
    · intro h x s' hx
      exact (ih x).mp (h x s' hx)
    · intro h x s' hx
      exact (ih x).mpr (h x s' hx)

theorem Runs.of_ensures {p : Program I α} {s s' : σ} {trace : List (Exchange I σ)} {a : α}
    {Q : List (Exchange I σ) → α → σ → Prop} (hrun : p.Runs A s trace a s')
    (h : p.Ensures A s Q) : Q trace a s' := by
  induction hrun generalizing Q with
  | done a s => exact h
  | ask answered rest ih => exact ih (h _ _ answered)

/-- Answering every request in one way is one of the ways to run. -/
theorem Ensures.exchanges {answer : (r : I.Request) → σ → I.Answer r × σ}
    (hA : ∀ r s, A r s (answer r s).1 (answer r s).2) {p : Program I α} {s : σ}
    {Q : List (Exchange I σ) → α → σ → Prop} (h : p.Ensures A s Q) :
    Q (p.exchanges answer s) (p.run answer s).1 (p.run answer s).2 := by
  induction p generalizing s Q with
  | done a => exact h
  | ask r next ih => exact ih _ (h _ _ (hA r s))

/-- The condition computed backwards is exactly what holds of all runs. -/
theorem ensures_iff {p : Program I α} {s : σ} {Q : List (Exchange I σ) → α → σ → Prop} :
    p.Ensures A s Q ↔ ∀ trace a s', p.Runs A s trace a s' → Q trace a s' := by
  constructor
  · intro h trace a s' hrun
    exact hrun.of_ensures h
  · intro h
    induction p generalizing s Q with
    | done a => exact h _ _ _ (.done a s)
    | ask r next ih =>
      intro x s' hx
      apply ih x
      intro trace a s'' hrun
      exact h _ _ _ (.ask hx hrun)

theorem Runs.of_bind {p : Program I α} {f : α → Program I β} {s s' : σ}
    {trace : List (Exchange I σ)} {b : β} (h : (p.bind f).Runs A s trace b s') :
    ∃ trace₁ a s₁ trace₂, trace = trace₁ ++ trace₂ ∧ p.Runs A s trace₁ a s₁ ∧
      (f a).Runs A s₁ trace₂ b s' := by
  induction p generalizing s trace with
  | done a => exact ⟨[], a, s, trace, rfl, .done a s, h⟩
  | ask r next ih =>
    cases h with
    | ask answered rest =>
      obtain ⟨trace₁, a, s₁, trace₂, rfl, hp, hf⟩ := ih _ rest
      exact ⟨_, a, s₁, trace₂, rfl, .ask answered hp, hf⟩

theorem Runs.bind {p : Program I α} {f : α → Program I β} {s s₁ s' : σ}
    {trace₁ trace₂ : List (Exchange I σ)} {a : α} {b : β} (hp : p.Runs A s trace₁ a s₁)
    (hf : (f a).Runs A s₁ trace₂ b s') : (p.bind f).Runs A s (trace₁ ++ trace₂) b s' := by
  induction hp with
  | done a s => exact hf
  | ask answered rest ih => exact .ask answered (ih hf)

/-- What a way to answer every request makes of a program, seen through a part of the state, is one
of its runs. -/
theorem runs_run {τ : Type} (view : τ → σ) {answer : (r : I.Request) → τ → I.Answer r × τ}
    (hA : ∀ r t, A r (view t) (answer r t).1 (view (answer r t).2)) (p : Program I α) (t : τ) :
    ∃ trace, p.Runs A (view t) trace (p.run answer t).1 (view (p.run answer t).2) := by
  induction p generalizing t with
  | done a => exact ⟨[], .done a _⟩
  | ask r next ih =>
    obtain ⟨trace, hrun⟩ := ih (answer r t).1 (answer r t).2
    exact ⟨_, .ask (hA r t) hrun⟩

theorem Only.mono {P P' : I.Request → Prop} {p : Program I α} (h : p.Only P)
    (hP : ∀ r, P r → P' r) : p.Only P' := by
  induction p with
  | done a => trivial
  | ask r next ih => exact ⟨hP r h.1, fun x => ih x (h.2 x)⟩

theorem Only.bind {P : I.Request → Prop} {p : Program I α} {f : α → Program I β}
    (hp : p.Only P) (hf : ∀ a, (f a).Only P) : (p.bind f).Only P := by
  induction p with
  | done a => exact hf a
  | ask r next ih => exact ⟨hp.1, fun x => ih x (hp.2 x)⟩

theorem Only.of_mem {P : I.Request → Prop} {p : Program I α} (h : p.Only P) {s s' : σ}
    {trace : List (Exchange I σ)} {a : α} (hrun : p.Runs A s trace a s') :
    ∀ x ∈ trace, P x.request := by
  induction hrun with
  | done a s => intro x hx; cases hx
  | ask answered rest ih =>
    intro x hx
    rcases List.mem_cons.mp hx with rfl | hx
    · exact h.1
    · exact ih (h.2 _) x hx

/-- What every request of a program preserves holds when it ends. -/
theorem Only.ensures {P : I.Request → Prop} {p : Program I α} (h : p.Only P) {K : σ → Prop}
    (step : ∀ r s x s', P r → K s → A r s x s' → K s') {s : σ} (hs : K s) :
    p.Ensures A s fun trace _ s' => K s' ∧ ∀ x ∈ trace, P x.request := by
  induction p generalizing s with
  | done a => exact ⟨hs, fun x hx => nomatch hx⟩
  | ask r next ih =>
    intro x s' hx
    refine (ih x (h.2 x) (step r s x s' h.1 hs hx)).mono ?_
    rintro trace a s'' ⟨hs'', htrace⟩
    refine ⟨hs'', ?_⟩
    intro y hy
    rcases List.mem_cons.mp hy with rfl | hy
    · exact h.1
    · exact htrace y hy

theorem Only.requests {P : I.Request → Prop} {p : Program I α} (h : p.Only P) (s : σ) :
    p.Ensures A s fun trace _ _ => ∀ x ∈ trace, P x.request :=
  (h.ensures (K := fun _ => True) (fun _ _ _ _ _ _ _ => trivial) trivial).mono
    fun _ _ _ htrace => htrace.2

/-- A program that ends in one way ends in that way after any other. -/
theorem ensures_bind_any {p : Program I α} {f : α → Program I β} {s : σ}
    {Q : List (Exchange I σ) → β → σ → Prop}
    (h : ∀ trace a s', (f a).Ensures A s' fun trace' b s'' => Q (trace ++ trace') b s'') :
    (p.bind f).Ensures A s Q := by
  rw [ensures_bind, ensures_iff]
  intro trace a s' _
  exact h trace a s'

theorem Ensures.and {p : Program I α} {s : σ} {Q Q' : List (Exchange I σ) → α → σ → Prop}
    (h : p.Ensures A s Q) (h' : p.Ensures A s Q') :
    p.Ensures A s fun trace a s' => Q trace a s' ∧ Q' trace a s' := by
  induction p generalizing s Q Q' with
  | done a => exact ⟨h, h'⟩
  | ask r next ih =>
    intro x s' hx
    exact ih x (h x s' hx) (h' x s' hx)

/-- Surroundings that answer in fewer ways leave less to happen. -/
theorem Runs.mono {B : Surroundings I σ} {p : Program I α} {s s' : σ}
    {trace : List (Exchange I σ)} {a : α} (h : p.Runs A s trace a s')
    (hAB : ∀ r s x s', A r s x s' → B r s x s') : p.Runs B s trace a s' := by
  induction h with
  | done a s => exact .done a s
  | ask answered rest ih => exact .ask (hAB _ _ _ _ answered) ih

/-! ### Whatever is answered -/

theorem Ends.mono {Q Q' : α → Prop} {p : Program I α} (h : p.Ends Q) (hQ : ∀ a, Q a → Q' a) :
    p.Ends Q' := by
  induction p with
  | done a => exact hQ a h
  | ask r next ih => exact fun x => ih x (h x)

theorem ends_bind {Q : β → Prop} {p : Program I α} {f : α → Program I β} :
    (p.bind f).Ends Q ↔ p.Ends fun a => (f a).Ends Q := by
  induction p with
  | done a => rfl
  | ask r next ih =>
    constructor
    · intro h x
      exact (ih x).mp (h x)
    · intro h x
      exact (ih x).mpr (h x)

theorem ends_of_forall {Q : α → Prop} (h : ∀ a, Q a) (p : Program I α) : p.Ends Q := by
  induction p with
  | done a => exact h a
  | ask r next ih => exact ih

theorem Runs.of_ends {Q : α → Prop} {p : Program I α} {s s' : σ} {trace : List (Exchange I σ)}
    {a : α} (hrun : p.Runs A s trace a s') (h : p.Ends Q) : Q a := by
  induction hrun with
  | done a s => exact h
  | ask answered rest ih => exact ih (h _)

theorem Ends.of_run {τ : Type} {Q : α → Prop} {p : Program I α} (h : p.Ends Q)
    (answer : (r : I.Request) → τ → I.Answer r × τ) (t : τ) : Q (p.run answer t).1 := by
  induction p generalizing t with
  | done a => exact h
  | ask r next ih => exact ih _ (h _) _

/-- What follows on a program may ask for what its end allows. -/
theorem Only.bind_ends {P : I.Request → Prop} {Q : α → Prop} {p : Program I α}
    {f : α → Program I β} (hp : p.Only P) (hends : p.Ends Q) (hf : ∀ a, Q a → (f a).Only P) :
    (p.bind f).Only P := by
  induction p with
  | done a => exact hf a hends
  | ask r next ih => exact ⟨hp.1, fun x => ih x (hp.2 x) (hends x)⟩

section Expanding

variable {J : Interface} {f : (r : I.Request) → Program J (I.Answer r)}

theorem Ends.expand {Q : α → Prop} {p : Program I α} (h : p.Ends Q) :
    (p.expand f).Ends Q := by
  induction p with
  | done a => exact h
  | ask r next ih => exact ends_bind.mpr (ends_of_forall (fun x => ih x (h x)) (f r))

theorem only_expand {P : J.Request → Prop} (hf : ∀ r, (f r).Only P) (p : Program I α) :
    (p.expand f).Only P := by
  induction p with
  | done a => trivial
  | ask r next ih => exact (hf r).bind ih

end Expanding

/-! ### Coming to an end -/

theorem Completes.mono {p : Program I α} {s : σ} {Q Q' : α → σ → Prop} (h : p.Completes A s Q)
    (hQ : ∀ a s', Q a s' → Q' a s') : p.Completes A s Q' := by
  induction p generalizing s with
  | done a => exact hQ a s h
  | ask r next ih => exact ⟨h.1, fun x s' hx => ih x (h.2 x s' hx)⟩

theorem Completes.bind {p : Program I α} {f : α → Program I β} {s : σ} {Q : β → σ → Prop}
    (h : p.Completes A s fun a s' => (f a).Completes A s' Q) : (p.bind f).Completes A s Q := by
  induction p generalizing s with
  | done a => exact h
  | ask r next ih => exact ⟨h.1, fun x s' hx => ih x (h.2 x s' hx)⟩

theorem Completes.exists_runs {p : Program I α} {s : σ} {Q : α → σ → Prop}
    (h : p.Completes A s Q) : ∃ trace a s', p.Runs A s trace a s' := by
  induction p generalizing s with
  | done a => exact ⟨[], a, s, .done a s⟩
  | ask r next ih =>
    obtain ⟨⟨x, s', hx⟩, hrest⟩ := h
    obtain ⟨trace, a, s'', hrun⟩ := ih x (hrest x s' hx)
    exact ⟨_, a, s'', .ask hx hrun⟩

theorem Runs.of_completes {p : Program I α} {s s' : σ} {trace : List (Exchange I σ)} {a : α}
    {Q : α → σ → Prop} (hrun : p.Runs A s trace a s') (h : p.Completes A s Q) : Q a s' := by
  induction hrun with
  | done a s => exact h
  | ask answered rest ih => exact ih (h.2 _ _ answered)

/-- A program whose requests are always answered comes to an end. -/
theorem Only.exists_runs {P : I.Request → Prop} {p : Program I α} (h : p.Only P)
    (hA : ∀ r s, P r → ∃ x s', A r s x s') (s : σ) : ∃ trace a s', p.Runs A s trace a s' := by
  induction p generalizing s with
  | done a => exact ⟨[], a, s, .done a s⟩
  | ask r next ih =>
    obtain ⟨x, s', hx⟩ := hA r s h.1
    obtain ⟨trace, a, s'', hrun⟩ := ih x (h.2 x) s'
    exact ⟨_, a, s'', .ask hx hrun⟩

end

end Program

end SessionGateway
