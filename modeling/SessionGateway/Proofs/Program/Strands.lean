import Mathlib.Logic.Relation
import SessionGateway.Proofs.Program.Runs

/-!
# Programs side by side

Any number of calls whose programs are interleaved at their requests in any order. Every call is
kept with what is left to do for it and with a note of what it was answered; one that has ended
stays. One more program may run amid them.
-/

namespace SessionGateway

/-- A call with a note of its answers and with what is left to do for it. -/
structure Strand (I : Interface) (κ ν : Type) where
  call : κ
  note : ν
  left : Program I Unit

/-- Whether nothing is left to do for it. -/
def Strand.isDone {I : Interface} {κ ν : Type} (f : Strand I κ ν) : Bool :=
  match f.left with
  | .done _ => true
  | .ask .. => false

theorem Strand.isDone_iff {I : Interface} {κ ν : Type} {f : Strand I κ ν} :
    f.isDone = true ↔ f.left = .done () := by
  obtain ⟨call, note, left⟩ := f
  cases left with
  | done a => exact ⟨fun _ => rfl, fun _ => rfl⟩
  | ask r next => exact ⟨nofun, nofun⟩

/-- How calls are made and answered on a common state. -/
structure Ensemble (I : Interface) (κ ν σ : Type) where
  program : κ → Program I Unit
  /-- How a strand with a note is answered. -/
  answers : ν → Program.Surroundings I σ
  /-- What may happen to the state between two requests. -/
  drifts : σ → σ → Prop
  /-- Whether a call may be made beside the strands that there are. -/
  admits : List (Strand I κ ν) → κ → Prop
  /-- The note of a call that was answered nothing yet. -/
  blank : ν
  /-- The note after one more answer. -/
  notes : ν → (r : I.Request) → I.Answer r → ν

namespace Ensemble

structure Scene (I : Interface) (κ ν σ : Type) where
  state : σ
  /-- Newest first. -/
  strands : List (Strand I κ ν)

variable {I : Interface} {κ ν σ : Type} (E : Ensemble I κ ν σ)

inductive Step : Scene I κ ν σ → Scene I κ ν σ → Prop
  | drift {s s' : σ} {strands : List (Strand I κ ν)} (h : E.drifts s s') :
      Step ⟨s, strands⟩ ⟨s', strands⟩
  | call {s : σ} {strands : List (Strand I κ ν)} (c : κ) (h : E.admits strands c) :
      Step ⟨s, strands⟩ ⟨s, ⟨c, E.blank, E.program c⟩ :: strands⟩
  | answer {s s' : σ} {before after : List (Strand I κ ν)} {c : κ} {note : ν} {r : I.Request}
      {next : I.Answer r → Program I Unit} {x : I.Answer r} (h : E.answers note r s x s') :
      Step ⟨s, before ++ ⟨c, note, .ask r next⟩ :: after⟩
        ⟨s', before ++ ⟨c, E.notes note r x, next x⟩ :: after⟩

/-- The scenes that come about from a state without any calls. -/
inductive Reached (start : σ → Prop) : Scene I κ ν σ → Prop
  | start {s : σ} (h : start s) : Reached start ⟨s, []⟩
  | step {x y : Scene I κ ν σ} (reached : Reached start x) (h : E.Step x y) : Reached start y

theorem Reached.steps {E : Ensemble I κ ν σ} {start : σ → Prop} {x y : Scene I κ ν σ}
    (h : E.Reached start x) (hsteps : Relation.ReflTransGen E.Step x y) : E.Reached start y := by
  induction hsteps with
  | refl => exact h
  | tail _ hstep ih => exact ih.step hstep

/-- If each strand can be said to stand somewhere, and what is known of all of them is kept by every
step, it is known of every scene that is reached. -/
theorem Reached.ascribed {E : Ensemble I κ ν σ} {π : Type}
    {Known : σ → List (Strand I κ ν × π) → Prop} {start : σ → Prop} {x : Scene I κ ν σ}
    (hstart : ∀ s, start s → Known s [])
    (hdrift : ∀ s s' fs, Known s fs → E.drifts s s' → Known s' fs)
    (hcall : ∀ s fs c, Known s fs → E.admits (fs.map Prod.fst) c →
      ∃ p, Known s ((⟨c, E.blank, E.program c⟩, p) :: fs))
    (hanswer : ∀ s s' before after c note r next p a,
      Known s (before ++ (⟨c, note, .ask r next⟩, p) :: after) → E.answers note r s a s' →
      ∃ p', Known s' (before ++ (⟨c, E.notes note r a, next a⟩, p') :: after))
    (h : E.Reached start x) : ∃ fs, fs.map Prod.fst = x.strands ∧ Known x.state fs := by
  induction h with
  | start h => exact ⟨[], rfl, hstart _ h⟩
  | step _ hstep ih =>
    obtain ⟨fs, hstrands, hknown⟩ := ih
    cases hstep with
    | drift h => exact ⟨fs, hstrands, hdrift _ _ _ hknown h⟩
    | call c h =>
      subst hstrands
      obtain ⟨p, hknown'⟩ := hcall _ _ c hknown h
      exact ⟨_, rfl, hknown'⟩
    | answer h =>
      obtain ⟨before, rest, rfl, rfl, hrest⟩ := List.map_eq_append_iff.mp hstrands
      obtain ⟨⟨f, p⟩, after, rfl, rfl, rfl⟩ := List.map_eq_cons_iff.mp hrest
      obtain ⟨p', hknown'⟩ := hanswer _ _ _ _ _ _ _ _ _ _ hknown h
      refine ⟨_, ?_, hknown'⟩
      rw [List.map_append, List.map_cons]

/-- How a program that runs amid the strands is answered, as one with the first note: before each of
its answers the strands go on as they please. -/
def amid : Program.Surroundings I (Scene I κ ν σ) := fun r x a y =>
  ∃ z, Relation.ReflTransGen E.Step x z ∧ E.answers E.blank r z.state a y.state ∧
    y.strands = z.strands

theorem mem_middle {α : Type} {before after : List α} {f f' : α} :
    f ∈ before ++ f' :: after ↔ f = f' ∨ f ∈ before ++ after := by
  simp only [List.mem_append, List.mem_cons]
  exact or_left_comm

/-! ### Playing by evaluation -/

/-- What comes next: a call is made, the state drifts to a time, or the strand at a position is
moved some requests forward. -/
inductive Move (κ : Type) where
  | call (c : κ)
  | drift (time : Nat)
  | advance (position steps : Nat)

/-- Functions that go about as an ensemble may. -/
structure Player where
  answer : ν → (r : I.Request) → σ → Option (I.Answer r × σ)
  drift : Nat → σ → Option σ
  allow : List (Strand I κ ν) → κ → Bool
  /-- The states in which the functions can be relied on. -/
  Good : σ → Prop
  answers : ∀ {note r s x s'}, Good s → answer note r s = some (x, s') →
    E.answers note r s x s' ∧ Good s'
  drifts : ∀ {t s s'}, Good s → drift t s = some s' → E.drifts s s' ∧ Good s'
  admits : ∀ {strands c}, allow strands c = true → E.admits strands c

namespace Player

variable {E} (P : Player E)

def advance : Nat → Strand I κ ν → σ → Option (Strand I κ ν × σ)
  | n + 1, ⟨c, note, .ask r next⟩, s =>
    match P.answer note r s with
    | some (x, s') => advance n ⟨c, E.notes note r x, next x⟩ s'
    | none => none
  | _, f, s => some (f, s)

def play : List (Move κ) → Scene I κ ν σ → Option (Scene I κ ν σ)
  | [], x => some x
  | .call c :: moves, x =>
    if P.allow x.strands c then play moves ⟨x.state, ⟨c, E.blank, E.program c⟩ :: x.strands⟩
    else none
  | .drift t :: moves, x =>
    match P.drift t x.state with
    | some s => play moves ⟨s, x.strands⟩
    | none => none
  | .advance position steps :: moves, x =>
    match x.strands.drop position with
    | [] => none
    | f :: after =>
      match P.advance steps f x.state with
      | some (f, s) => play moves ⟨s, x.strands.take position ++ f :: after⟩
      | none => none

/-- Plays some moves before each request of a program and answers the request then. -/
def weave {α : Type} : List (List (Move κ)) → Program I α → Scene I κ ν σ →
    Option (List (Exchange I (Scene I κ ν σ)) × α × Scene I κ ν σ)
  | _, .done a, x => some ([], a, x)
  | [], .ask .., _ => none
  | moves :: rest, .ask r next, x =>
    match P.play moves x with
    | none => none
    | some z =>
      match P.answer E.blank r z.state with
      | none => none
      | some (a, s) => (weave rest (next a) ⟨s, z.strands⟩).map fun (trace, b, y) =>
        (⟨r, a, ⟨s, z.strands⟩⟩ :: trace, b, y)

variable {P} {start : σ → Prop}

theorem steps_advance (before after : List (Strand I κ ν)) {n : Nat} {f f' : Strand I κ ν}
    {s s' : σ} (hs : P.Good s) (hn : P.advance n f s = some (f', s')) :
    Relation.ReflTransGen E.Step ⟨s, before ++ f :: after⟩ ⟨s', before ++ f' :: after⟩ ∧
      P.Good s' := by
  induction n generalizing f s with
  | zero =>
    obtain ⟨rfl, rfl⟩ := Prod.mk.inj (Option.some.inj hn)
    exact ⟨.refl, hs⟩
  | succ n ih =>
    obtain ⟨c, note, left⟩ := f
    cases left with
    | done a =>
      obtain ⟨rfl, rfl⟩ := Prod.mk.inj (Option.some.inj hn)
      exact ⟨.refl, hs⟩
    | ask r next =>
      rw [advance] at hn
      split at hn
      · next x s₁ hx =>
        obtain ⟨hanswer, hs₁⟩ := P.answers hs hx
        obtain ⟨hsteps, hs'⟩ := ih hs₁ hn
        exact ⟨.head (.answer hanswer) hsteps, hs'⟩
      · cases hn

/-- What is played is a way for the strands to go on. -/
theorem steps_play {moves : List (Move κ)} {x y : Scene I κ ν σ} (hx : P.Good x.state)
    (hy : P.play moves x = some y) : Relation.ReflTransGen E.Step x y ∧ P.Good y.state := by
  induction moves generalizing x with
  | nil =>
    obtain rfl := Option.some.inj hy
    exact ⟨.refl, hx⟩
  | cons move moves ih =>
    cases move with
    | call c =>
      rw [play] at hy
      split at hy
      · next hc =>
        obtain ⟨hsteps, hgood⟩ := ih (x := ⟨x.state, _ :: x.strands⟩) hx hy
        exact ⟨.head (.call c (P.admits hc)) hsteps, hgood⟩
      · cases hy
    | drift t =>
      rw [play] at hy
      split at hy
      · next s hs =>
        obtain ⟨hdrift, hs'⟩ := P.drifts hx hs
        obtain ⟨hsteps, hgood⟩ := ih hs' hy
        exact ⟨.head (.drift hdrift) hsteps, hgood⟩
      · cases hy
    | advance position steps =>
      rw [play] at hy
      split at hy
      · cases hy
      · next f after hdrop =>
        split at hy
        · next f' s' hf =>
          have hx' : x = ⟨x.state, x.strands.take position ++ f :: after⟩ := by
            rw [← hdrop, List.take_append_drop]
          obtain ⟨hfirst, hs'⟩ := steps_advance (x.strands.take position) after hx hf
          obtain ⟨hsteps, hgood⟩ := ih hs' hy
          rw [← hx'] at hfirst
          exact ⟨hfirst.trans hsteps, hgood⟩
        · cases hy

/-- What is played is reached. -/
theorem reached_play {moves : List (Move κ)} {x y : Scene I κ ν σ} (h : E.Reached start x)
    (hx : P.Good x.state) (hy : P.play moves x = some y) : E.Reached start y :=
  h.steps (steps_play hx hy).1

/-- What is woven into the moves of the strands runs amid them. -/
theorem runs_weave {α : Type} {moves : List (List (Move κ))} {p : Program I α}
    {x y : Scene I κ ν σ} {trace : List (Exchange I (Scene I κ ν σ))} {a : α}
    (hx : P.Good x.state) (h : P.weave moves p x = some (trace, a, y)) :
    p.Runs E.amid x trace a y := by
  induction p generalizing moves x trace with
  | done b =>
    rw [weave] at h
    obtain ⟨rfl, hrest⟩ := Prod.mk.inj (Option.some.inj h)
    obtain ⟨rfl, rfl⟩ := Prod.mk.inj hrest
    exact .done _ _
  | ask r next ih =>
    cases moves with
    | nil => cases h
    | cons first rest =>
      rw [weave] at h
      split at h
      · cases h
      · next z hz =>
        obtain ⟨hsteps, hgood⟩ := steps_play hx hz
        split at h
        · cases h
        · next b s hs =>
          obtain ⟨hanswer, hs'⟩ := P.answers hgood hs
          obtain ⟨last, hrest, heq⟩ := Option.map_eq_some_iff.mp h
          cases heq
          exact .ask ⟨z, hsteps, hanswer, rfl⟩ (ih b hs' hrest)

end Player

end Ensemble

end SessionGateway
