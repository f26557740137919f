/-!
# Programs

A program asks its surroundings for one thing at a time and goes on with the answer. What may be
asked for, and the type of each answer, is its interface. A program is data: it can be run to its
end against one state, or moved forward one request at a time beside others.
-/

namespace SessionGateway

/-- What a program may ask for. -/
structure Interface where
  Request : Type
  Answer : Request → Type

/-- A program that ends with a value after finitely many requests. -/
inductive Program (I : Interface) (α : Type) : Type where
  | done (a : α)
  | ask (r : I.Request) (next : I.Answer r → Program I α)

namespace Program

variable {I J : Interface} {α β : Type}

def bind : Program I α → (α → Program I β) → Program I β
  | .done a, f => f a
  | .ask r next, f => .ask r fun x => (next x).bind f

instance : Monad (Program I) where
  pure := .done
  bind := bind

/-- The program of one request. -/
def request (r : I.Request) : Program I (I.Answer r) := .ask r .done

/-- Answers every request by a program over another interface. -/
def expand (f : (r : I.Request) → Program J (I.Answer r)) : Program I α → Program J α
  | .done a => .done a
  | .ask r next => (f r).bind fun x => (next x).expand f

/-- Runs a program to its end, every request being answered from a state. -/
def run {σ : Type} (answer : (r : I.Request) → σ → I.Answer r × σ) : Program I α → σ → α × σ
  | .done a, s => (a, s)
  | .ask r next, s =>
    let (x, s) := answer r s
    (next x).run answer s

/-- Runs a program to its end, every request being answered by an action. -/
def interpret {m : Type → Type} [Monad m] (answer : (r : I.Request) → m (I.Answer r)) :
    Program I α → m α
  | .done a => pure a
  | .ask r next => do (next (← answer r)).interpret answer

@[simp] theorem pure_eq (a : α) : (pure a : Program I α) = .done a := rfl

@[simp] theorem bind_eq (p : Program I α) (f : α → Program I β) : p >>= f = p.bind f := rfl

@[simp] theorem done_bind (a : α) (f : α → Program I β) : (done a : Program I α).bind f = f a := rfl

@[simp] theorem ask_bind (r : I.Request) (next : I.Answer r → Program I α) (f : α → Program I β) :
    (ask r next).bind f = .ask r fun x => (next x).bind f := rfl

theorem bind_done (p : Program I α) : p.bind .done = p := by
  induction p with
  | done a => rfl
  | ask r next ih => simp [bind, ih]

theorem bind_assoc {γ : Type} (p : Program I α) (f : α → Program I β) (g : β → Program I γ) :
    (p.bind f).bind g = p.bind fun a => (f a).bind g := by
  induction p with
  | done a => rfl
  | ask r next ih => simp [bind, ih]

instance : LawfulMonad (Program I) := LawfulMonad.mk' _
  (fun p => bind_done p) (fun _ _ => rfl) (fun p f g => bind_assoc p f g)

/-- Running one program after another is running them one after another. -/
theorem run_bind {σ : Type} (answer : (r : I.Request) → σ → I.Answer r × σ)
    (p : Program I α) (f : α → Program I β) (s : σ) :
    (p.bind f).run answer s = (f (p.run answer s).1).run answer (p.run answer s).2 := by
  induction p generalizing s with
  | done a => rfl
  | ask r next ih => exact ih (answer r s).1 (answer r s).2

end Program

end SessionGateway
