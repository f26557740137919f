import SessionGateway.Node
/-!
# Dispatching frames

Every inbound frame is offered to every processor that is registered when it arrives, one after
another. The turns are independent: whatever one does, the next processor still has its turn, and no
failure closes the connection. A principal is resolved anew for each turn that needs one.
-/

namespace SessionGateway

structure Dispatch where
  /-- The text that is a sign of life and nothing else. -/
  heartbeat : String
  /-- How long a processor's turn may take. -/
  limit : Duration
  deriving Inhabited

/-- What became of a frame. -/
structure DispatchReport where
  heartbeat : Bool
  /-- How many turns ended well. -/
  delivered : Nat
  /-- The turns that did not, in the order of the processors. -/
  failures : List DispatchError

namespace Dispatch

open Node (ask measure)

/-- From how long on a turn counts as slow. -/
def slowTurn : Duration := .ofSeconds 5

/-- The principal for a processor's turn, if it needs one and there is a credential. -/
def principalFor (p : Processor) (a : Attributes) :
    NodeProgram (Except DispatchError (Option Principal)) := do
  match p.needsPrincipal, a.token? with
  | true, some token =>
    match ← ask (.identify token) with
    | .ok principal => return .ok (some principal)
    | .error e => return .error (.unauthenticated p.name e)
  | _, _ => return .ok none

/-- The result of a turn. -/
def judge (d : Dispatch) (p : Processor) : Node.Outcome → Except DispatchError Unit
  | .completed (.ok ()) => .ok ()
  | .completed (.error e) => .error (.processor p.name e)
  | .timedOut => .error (.timeout p.name d.limit)

/-- One processor's turn. -/
def deliver (d : Dispatch) (id : ConnectionId) (a : Attributes) (f : Frame) (p : Processor) :
    NodeProgram (Except DispatchError Unit) := do
  match ← principalFor p a with
  | .error e => return .error e
  | .ok principal =>
    let turn ← ask (.turn p ⟨id, a, principal⟩ f d.limit)
    measure (.turns p.name) 1
    if slowTurn ≤ turn.elapsed then
      Node.log (Log.warn "slow processor" [("processor", p.name)])
    return d.judge p turn.outcome

/-- Reports a turn that failed. -/
def reportFailure (f : Frame) (p : Processor) (e : DispatchError) : NodeProgram Unit := do
  Node.log (Log.error "processor failed"
    [("processor", p.name), ("kind", e.kind.label), ("frame", f.label)])
  measure (.failures p.name e.kind) 1

/-- The turns of some processors. -/
def fanOut (d : Dispatch) (id : ConnectionId) (a : Attributes) (f : Frame) :
    List Processor → NodeProgram DispatchReport
  | [] => return ⟨false, 0, []⟩
  | p :: rest => do
    match ← d.deliver id a f p with
    | .ok () =>
      let r ← d.fanOut id a f rest
      return { r with delivered := r.delivered + 1 }
    | .error e =>
      reportFailure f p e
      let r ← d.fanOut id a f rest
      return { r with failures := e :: r.failures }

/-- Offers a frame to the processors registered now. -/
def offer (d : Dispatch) (id : ConnectionId) (a : Attributes) (f : Frame) :
    NodeProgram DispatchReport := do
  d.fanOut id a f (← ask .processors)

/-- The processor named in the count of undecodable frames. -/
def noProcessor : String := "-"

/-- Dispatches a text frame. -/
def onText (d : Dispatch) (id : ConnectionId) (a : Attributes) (text : String) :
    NodeProgram DispatchReport := do
  if text = d.heartbeat then
    measure .heartbeats 1
    return ⟨true, 0, []⟩
  else
    measure .textFrames 1
    match Envelope.read? text with
    | some e => d.offer id a (.text e)
    | none =>
      let err := DispatchError.undecodable
      Node.log (Log.error "undecodable text frame"
        [("kind", err.kind.label), ("len", toString text.utf8ByteSize)])
      measure (.failures noProcessor err.kind) 1
      return ⟨false, 0, [err]⟩

/-- Dispatches a binary frame. -/
def onBinary (d : Dispatch) (id : ConnectionId) (a : Attributes) (payload : List UInt8) :
    NodeProgram DispatchReport := do
  measure .binaryFrames 1
  d.offer id a (.binary payload)

/-- Takes note of a pong. -/
def onPong (id : ConnectionId) : NodeProgram Unit := do
  measure .pongFrames 1
  Node.log (Log.info "pong received" [("conn_id", id.text)])

end Dispatch

end SessionGateway
