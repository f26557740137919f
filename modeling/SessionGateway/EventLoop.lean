import SessionGateway.Duration
/-!
# Event loops

Tasks under a clock that stands still while any of them can move, and then jumps to the earliest
time at which there is something to do. A loop runs with fuel; `plenty` outlasts every run in
practice.
-/

namespace SessionGateway

/-- Tasks with the state that they share. -/
structure EventLoop (σ : Type) where
  /-- Moves every task forward once; tells whether anything came of it. -/
  round : σ → Bool × σ
  /-- The earliest time at which there is something to do. -/
  due? : σ → Option Duration
  setTime : Duration → σ → σ

/-- The earlier of two times, if there is one. -/
def earlier : Option Duration → Option Duration → Option Duration
  | none, b => b
  | a, none => a
  | some a, some b => some (if b < a then b else a)

def earliest (ts : List (Option Duration)) : Option Duration := ts.foldl earlier none

namespace EventLoop

variable {σ : Type}

/-- More steps than any run takes. -/
def plenty : Nat := 0x4000000000000000

/-- Moves the tasks forward until nothing comes of it at this instant. -/
def settle (l : EventLoop σ) : Nat → σ → σ
  | 0, s => s
  | fuel + 1, s =>
    match l.round s with
    | (true, s) => l.settle fuel s
    | (false, s) => s

/-- Runs until a time, and settles there. -/
def runTo (l : EventLoop σ) (target : Duration) : Nat → σ → σ
  | 0, s => s
  | fuel + 1, s =>
    let s := l.settle plenty s
    match l.due? s with
    | some t =>
      if t < target then l.runTo target fuel (l.setTime t s)
      else l.settle plenty (l.setTime target s)
    | none => l.settle plenty (l.setTime target s)

/-- Runs as long as something is busy, and settles; what waits for nothing is left. -/
def runWhile (l : EventLoop σ) (busy : σ → Bool) : Nat → σ → σ
  | 0, s => s
  | fuel + 1, s =>
    let s := l.settle plenty s
    if busy s then
      match l.due? s with
      | some t => l.runWhile busy fuel (l.setTime t s)
      | none => s
    else s

end EventLoop

end SessionGateway
