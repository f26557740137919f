import Mathlib.Data.List.Nodup
import SessionGateway.Proofs.Cluster.Answers

/-!
# The turns of processors

A frame that is dispatched gives each processor of the registry one turn, in the order of
registration. Processors and the identity service may answer anything, and the registry may change
at every turn. What comes of a processor's turn is told by what was answered in that turn alone.
-/

namespace SessionGateway

open Node (Request Turn)
open Program (Surroundings)

/-! ### Registries -/

namespace Registry

/-- Every processor is under its own name. -/
def IsNamed (r : Registry) : Prop := ∀ name p, r.processors.get? name = some p → p.name = name

theorem isNamed_empty : empty.IsNamed := nofun

theorem IsNamed.register {r : Registry} (h : r.IsNamed) (p : Processor) :
    (r.register p).IsNamed := by
  intro name q hq
  rw [Registry.register, Table.get?_insert] at hq
  split at hq
  · next hname =>
    rw [← hname, Option.some.inj hq]
  · exact h name q hq

theorem IsNamed.unregister {r : Registry} (h : r.IsNamed) (name : String) :
    (r.unregister name).2.IsNamed := by
  intro name' q hq
  rw [Registry.unregister, Table.get?_erase] at hq
  split at hq
  · cases hq
  · exact h name' q hq

theorem IsNamed.names_eq {r : Registry} (h : r.IsNamed) :
    r.snapshot.map (·.name) = r.names := by
  simp only [snapshot, names, Table.values, Table.keys, List.map_map]
  apply List.map_congr_left
  rintro ⟨name, p⟩ hp
  exact h name p ((Table.mem_entries_iff _).mp hp)

theorem IsNamed.nodup {r : Registry} (h : r.IsNamed) : (r.snapshot.map (·.name)).Nodup := by
  rw [h.names_eq]
  exact r.processors.distinct

end Registry

namespace Dispatch

/-! ### Frames that arrive -/

inductive Arrival where
  | text (s : String)
  | binary (payload : List UInt8)

/-- The frame that is offered to processors; a heartbeat and an undecodable text are not. -/
def Arrival.frame? (d : Dispatch) : Arrival → Option Frame
  | .text s => if s = d.heartbeat then none else (Envelope.read? s).map .text
  | .binary payload => some (.binary payload)

def Arrival.dispatch (d : Dispatch) (id : ConnectionId) (a : Attributes) :
    Arrival → NodeProgram DispatchReport
  | .text s => d.onText id a s
  | .binary payload => d.onBinary id a payload

/-- How requests may be answered as far as the registry of a node goes. While a credential is
resolved and while a processor has its turn, it may become any other registry. -/
def Answers : Surroundings Node.interface Registry
  | .processors, r, x, r' => x = r.snapshot ∧ r' = r
  | .identify _, _, _, _ => True
  | .turn .., _, _, _ => True
  | _, r, _, r' => r' = r

/-! ### What becomes of a turn -/

/-- A question put to the identity service or to a processor, with its answer. -/
inductive Consulted where
  | identity (credential : String) (answer : Except Identity.Error Principal)
  | processor (p : Processor) (c : FrameContext) (f : Frame) (limit : Duration) (turn : Turn)

def consulted? {σ : Type} : Exchange Node.interface σ → Option Consulted
  | ⟨.identify credential, x, _⟩ => some (.identity credential x)
  | ⟨.turn p c f limit, x, _⟩ => some (.processor p c f limit x)
  | _ => none

/-- What was answered in a processor's turn. -/
inductive Service where
  /-- The credential did not resolve, and the processor was not called. -/
  | skipped (p : Processor) (credential : String) (e : Identity.Error)
  /-- The processor was called, with the principal that was resolved from a credential, if any. -/
  | called (p : Processor) (resolved : Option (String × Principal)) (turn : Turn)

namespace Service

def processor : Service → Processor
  | .skipped p .. | .called p .. => p

/-- A credential was resolved just if the processor needs a principal and there is a credential, and
it was the connection's. -/
def Fits (a : Attributes) : Service → Prop
  | .skipped p credential _ => p.needsPrincipal = true ∧ a.token? = some credential
  | .called p resolved _ => resolved.map Prod.fst = if p.needsPrincipal then a.token? else none

/-- The questions of a turn, in order. -/
def consulted (d : Dispatch) (id : ConnectionId) (a : Attributes) (f : Frame) :
    Service → List Consulted
  | .skipped _ credential e => [.identity credential (.error e)]
  | .called p resolved turn =>
    (resolved.map fun r => Consulted.identity r.1 (.ok r.2)).toList ++
      [.processor p ⟨id, a, resolved.map Prod.snd⟩ f d.limit turn]

/-- Why the turn failed, if it did. -/
def failure? (d : Dispatch) : Service → Option DispatchError
  | .skipped p _ e => some (.unauthenticated p.name e)
  | .called p _ ⟨.completed (.error e), _⟩ => some (.processor p.name e)
  | .called p _ ⟨.timedOut, _⟩ => some (.timeout p.name d.limit)
  | .called _ _ ⟨.completed (.ok ()), _⟩ => none

theorem processorName?_failure {d : Dispatch} {s : Service} {e : DispatchError}
    (h : s.failure? d = some e) : e.processorName? = some s.processor.name := by
  rcases s with ⟨p, credential, err⟩ | ⟨p, resolved, ⟨⟨_ | _⟩ | _, elapsed⟩⟩ <;>
    simp only [failure?, Option.some.injEq, reduceCtorEq] at h <;> rw [← h] <;> rfl

end Service

/-- A dispatch that gave each of some processors one turn. -/
structure Serves {σ : Type} (d : Dispatch) (id : ConnectionId) (a : Attributes) (f : Frame)
    (processors : List Processor) (services : List Service)
    (trace : List (Exchange Node.interface σ)) (report : DispatchReport) : Prop where
  turns : services.map (·.processor) = processors
  fits : ∀ s ∈ services, s.Fits a
  /-- Nothing else was asked of the identity service or of a processor. -/
  consulted : trace.filterMap consulted? = services.flatMap (·.consulted d id a f)
  heartbeat : report.heartbeat = false
  delivered : report.delivered = services.countP fun s => (s.failure? d).isNone
  failures : report.failures = services.filterMap (·.failure? d)

section

variable {d : Dispatch} {id : ConnectionId} {a : Attributes} {f : Frame} {p : Processor}
  {r r' : Registry} {σ : Type}

/-! ### One turn -/

theorem principalFor_eq : principalFor p a =
    match p.needsPrincipal, a.token? with
    | true, some token => .ask (.identify token) fun
      | .ok principal => .done (.ok (some principal))
      | .error e => .done (.error (.unauthenticated p.name e))
    | _, _ => .done (.ok none) := by
  rw [principalFor]
  generalize p.needsPrincipal = needs
  generalize a.token? = token?
  cases needs with
  | false => rfl
  | true =>
    cases token? with
    | none => rfl
    | some token =>
      refine congrArg (Program.ask _) (funext ?_)
      rintro (e | principal)
      · rfl
      · rfl

/-- Calls a processor whose principal is settled. -/
def call (d : Dispatch) (id : ConnectionId) (a : Attributes) (f : Frame) (p : Processor)
    (principal : Option Principal) : NodeProgram (Except DispatchError Unit) :=
  .ask (.turn p ⟨id, a, principal⟩ f d.limit) fun turn =>
    .ask (.measure (.turns p.name) 1) fun _ =>
      if slowTurn ≤ turn.elapsed then
        .ask (.cache (.log (Log.warn "slow processor" [("processor", p.name)]))) fun _ =>
          .done (d.judge p turn.outcome)
      else .done (d.judge p turn.outcome)

theorem deliver_eq : d.deliver id a f p = (principalFor p a).bind fun
    | .error e => .done (.error e)
    | .ok principal => d.call id a f p principal := by
  rw [deliver]
  refine congrArg (Program.bind _) (funext ?_)
  rintro (e | principal)
  · rfl
  · refine congrArg (Program.ask _) (funext fun turn => ?_)
    refine congrArg (Program.ask _) (funext fun _ => ?_)
    split
    · rfl
    · rfl

/-- A turn that went as a service tells, with its result. -/
structure Gives (d : Dispatch) (id : ConnectionId) (a : Attributes) (f : Frame) (s : Service)
    (trace : List (Exchange Node.interface σ)) (res : Except DispatchError Unit) : Prop where
  fits : s.Fits a
  consulted : trace.filterMap consulted? = s.consulted d id a f
  result : res = (s.failure? d).elim (.ok ()) .error

theorem judge_eq (resolved : Option (String × Principal)) (turn : Turn) :
    d.judge p turn.outcome =
      ((Service.called p resolved turn).failure? d).elim (.ok ()) .error := by
  obtain ⟨⟨_ | _⟩ | _, elapsed⟩ := turn <;> rfl

theorem ensures_call (principal : Option Principal) :
    (d.call id a f p principal).Ensures Answers r fun trace res _ => ∃ turn,
      trace.filterMap consulted? = [.processor p ⟨id, a, principal⟩ f d.limit turn] ∧
        res = d.judge p turn.outcome := by
  rintro turn r₁ - ⟨⟩ r₂ -
  dsimp only
  split
  · rintro ⟨⟩ r₃ -
    exact ⟨turn, rfl, rfl⟩
  · exact ⟨turn, rfl, rfl⟩

variable (d id a f p r) in
theorem runs_call (principal : Option Principal) (turn : Turn) :
    ∃ trace, (d.call id a f p principal).Runs Answers r trace (d.judge p turn.outcome) r ∧
      trace.filterMap consulted? = [.processor p ⟨id, a, principal⟩ f d.limit turn] := by
  have hrest : ∀ s : Registry, ∃ trace, (if slowTurn ≤ turn.elapsed then
      .ask (.cache (.log (Log.warn "slow processor" [("processor", p.name)]))) fun _ =>
        .done (d.judge p turn.outcome)
      else .done (d.judge p turn.outcome) : NodeProgram _).Runs Answers s trace
        (d.judge p turn.outcome) s ∧ trace.filterMap consulted? = [] := by
    intro s
    split
    · exact ⟨_, .ask (x := ()) rfl (.done _ s), rfl⟩
    · exact ⟨_, .done _ s, rfl⟩
  obtain ⟨trace, hrun, hconsulted⟩ := hrest r
  refine ⟨⟨.turn p ⟨id, a, principal⟩ f d.limit, turn, r⟩ ::
    ⟨.measure (.turns p.name) 1, (), r⟩ :: trace, .ask trivial (.ask rfl hrun), ?_⟩
  exact congrArg (List.cons _) hconsulted

/-- Whatever is answered, a turn goes as some service tells. -/
theorem ensures_deliver : (d.deliver id a f p).Ensures Answers r fun trace res _ =>
    ∃ s : Service, s.processor = p ∧ Gives d id a f s trace res := by
  rw [deliver_eq, principalFor_eq]
  split
  · next token hneeds htoken =>
    rintro (e | principal) r₁ -
    · exact ⟨.skipped p token e, rfl, ⟨hneeds, htoken⟩, rfl, rfl⟩
    · refine (ensures_call (some principal)).mono ?_
      rintro trace res - ⟨turn, hconsulted, rfl⟩
      refine ⟨.called p (some (token, principal)) turn, rfl, ?_, ?_, judge_eq _ _⟩
      · simp only [Service.Fits, Option.map_some, hneeds, if_true, htoken]
      · exact congrArg (List.cons _) hconsulted
  · next hnot =>
    refine (ensures_call none).mono ?_
    rintro trace res - ⟨turn, hconsulted, rfl⟩
    refine ⟨.called p none turn, rfl, ?_, hconsulted, judge_eq _ _⟩
    cases hneeds : p.needsPrincipal with
    | false => simp [Service.Fits, hneeds]
    | true =>
      cases htoken : a.token? with
      | none => simp [Service.Fits, hneeds, htoken]
      | some token => exact absurd htoken (hnot token hneeds)

variable (d id f r) in
/-- Every service that fits may be what a turn comes to. -/
theorem runs_deliver {s : Service} (hs : s.Fits a) :
    ∃ trace res, (d.deliver id a f s.processor).Runs Answers r trace res r ∧
      Gives d id a f s trace res := by
  cases s with
  | skipped p credential e =>
    rw [Service.processor, deliver_eq, principalFor_eq, hs.1, hs.2]
    exact ⟨[⟨.identify credential, Except.error e, r⟩], _, .ask trivial (.done _ _), hs, rfl, rfl⟩
  | called p resolved turn =>
    obtain ⟨trace, hrun, hconsulted⟩ :=
      runs_call d id a f p r (resolved.map Prod.snd) turn
    rw [Service.processor, deliver_eq, principalFor_eq]
    cases resolved with
    | none =>
      refine ⟨trace, _, ?_, hs, hconsulted, judge_eq _ _⟩
      split
      · next token hneeds htoken => simp [Service.Fits, hneeds, htoken] at hs
      · exact hrun
    | some resolved =>
      obtain ⟨credential, principal⟩ := resolved
      have hfits : some credential = if p.needsPrincipal then a.token? else none := hs
      cases hneeds : p.needsPrincipal with
      | false => simp [hneeds] at hfits
      | true =>
        simp only [hneeds, if_true] at hfits
        rw [← hfits]
        refine ⟨⟨.identify credential, Except.ok principal, r⟩ :: trace, _, .ask trivial hrun, hs,
          ?_, judge_eq _ _⟩
        exact congrArg (List.cons _) hconsulted

/-! ### One turn after another -/

/-- Reports how a turn ended, if it failed. -/
def note (f : Frame) (p : Processor) : Except DispatchError Unit → NodeProgram Unit
  | .ok () => .done ()
  | .error e => reportFailure f p e

/-- Counts how a turn ended before those that follow it. -/
def tally (rest : DispatchReport) : Except DispatchError Unit → DispatchReport
  | .ok () => { rest with delivered := rest.delivered + 1 }
  | .error e => { rest with failures := e :: rest.failures }

theorem fanOut_cons (rest : List Processor) :
    d.fanOut id a f (p :: rest) = (d.deliver id a f p).bind fun res =>
      (note f p res).bind fun _ => (d.fanOut id a f rest).bind fun report =>
        .done (tally report res) := by
  rw [fanOut]
  refine congrArg (Program.bind _) (funext ?_)
  rintro (e | ⟨⟩)
  · rfl
  · rfl

theorem ensures_note (res : Except DispatchError Unit) :
    (note f p res).Ensures Answers r fun trace _ _ => trace.filterMap consulted? = [] := by
  obtain e | ⟨⟩ := res
  · rintro ⟨⟩ r₁ - ⟨⟩ r₂ -
    rfl
  · rfl

variable (f p r) in
theorem runs_note (res : Except DispatchError Unit) :
    ∃ trace, (note f p res).Runs Answers r trace () r ∧ trace.filterMap consulted? = [] := by
  obtain e | ⟨⟩ := res
  · exact ⟨_, .ask (x := ()) rfl (.ask (x := ()) rfl (.done () r)), rfl⟩
  · exact ⟨_, .done () r, rfl⟩

theorem Serves.cons {s : Service} {ps : List Processor} {services : List Service}
    {trace trace₁ trace₂ : List (Exchange Node.interface σ)} {res : Except DispatchError Unit}
    {report : DispatchReport} (hs : Gives d id a f s trace res)
    (hnote : trace₁.filterMap consulted? = []) (h : Serves d id a f ps services trace₂ report) :
    Serves d id a f (s.processor :: ps) (s :: services) (trace ++ (trace₁ ++ trace₂))
      (tally report res) where
  turns := by rw [List.map_cons, h.turns]
  fits := List.forall_mem_cons.mpr ⟨hs.fits, h.fits⟩
  consulted := by
    rw [List.filterMap_append, List.filterMap_append, hs.consulted, hnote, h.consulted]
    rfl
  heartbeat := by
    rw [hs.result]
    cases s.failure? d <;> exact h.heartbeat
  delivered := by
    rw [hs.result, List.countP_cons]
    cases s.failure? d with
    | none => exact congrArg (· + 1) h.delivered
    | some e => exact h.delivered
  failures := by
    rw [hs.result, List.filterMap_cons]
    cases s.failure? d with
    | none => exact h.failures
    | some e => exact congrArg (List.cons e) h.failures

theorem serves_nil :
    Serves d id a f [] [] ([] : List (Exchange Node.interface σ)) ⟨false, 0, []⟩ where
  turns := rfl
  fits _ hs := absurd hs List.not_mem_nil
  consulted := by rw [List.filterMap_nil, List.flatMap_nil]
  heartbeat := rfl
  delivered := by rw [List.countP_nil]
  failures := by rw [List.filterMap_nil]

theorem ensures_fanOut (ps : List Processor) :
    (d.fanOut id a f ps).Ensures Answers r fun trace report _ =>
      ∃ services, Serves d id a f ps services trace report := by
  -- the processors are settled, so it does not matter what registry a turn leaves
  induction ps generalizing r with
  | nil => exact ⟨[], serves_nil⟩
  | cons p rest ih =>
    rw [fanOut_cons, Program.ensures_bind]
    refine ensures_deliver.mono ?_
    rintro trace res r₁ ⟨s, rfl, hs⟩
    rw [Program.ensures_bind]
    refine (ensures_note res).mono ?_
    rintro trace₁ - r₂ hnote
    rw [Program.ensures_bind]
    refine ih.mono ?_
    rintro trace₂ report r₃ ⟨services, h⟩
    refine ⟨s :: services, ?_⟩
    rw [List.append_nil]
    exact h.cons hs hnote

variable (d id f r) in
theorem runs_fanOut {services : List Service} (h : ∀ s ∈ services, s.Fits a) :
    ∃ trace report, (d.fanOut id a f (services.map (·.processor))).Runs Answers r trace report r ∧
      Serves d id a f (services.map (·.processor)) services trace report := by
  induction services with
  | nil => exact ⟨[], _, .done _ r, serves_nil⟩
  | cons s rest ih =>
    obtain ⟨hs, hrest⟩ := List.forall_mem_cons.mp h
    obtain ⟨trace, res, hdeliver, hgives⟩ := runs_deliver d id f r hs
    obtain ⟨trace₁, hrun₁, hnote⟩ := runs_note f s.processor r res
    obtain ⟨trace₂, report, hrun₂, hserves⟩ := ih hrest
    refine ⟨trace ++ (trace₁ ++ trace₂), tally report res, ?_, hserves.cons hgives hnote⟩
    rw [List.map_cons, fanOut_cons, ← List.append_nil trace₂]
    exact hdeliver.bind (hrun₁.bind (hrun₂.bind (.done _ r)))

/-! ### What a report tells -/

theorem Serves.length {ps : List Processor} {services : List Service}
    {trace : List (Exchange Node.interface σ)} {report : DispatchReport}
    (h : Serves d id a f ps services trace report) :
    report.delivered + report.failures.length = ps.length := by
  have hsplit := List.length_eq_countP_add_countP (fun s => (Service.failure? d s).isNone)
    (l := services)
  have hrest : services.countP (fun s => ¬ (s.failure? d).isNone = true) =
      services.countP fun s => (s.failure? d).isSome := by
    apply List.countP_congr
    intro s _
    cases s.failure? d <;> simp
  rw [h.delivered, h.failures, List.length_filterMap_eq_countP, ← h.turns, List.length_map]
  omega

/-- Failures come in the order of the processors, at most one of each. -/
theorem Serves.sublist {ps : List Processor} {services : List Service}
    {trace : List (Exchange Node.interface σ)} {report : DispatchReport}
    (h : Serves d id a f ps services trace report) :
    (report.failures.map DispatchError.processorName?).Sublist (ps.map fun p => some p.name) := by
  have hnames : ∀ l : List Service,
      ((l.filterMap (·.failure? d)).map DispatchError.processorName?).Sublist
        (l.map fun s => some s.processor.name) := by
    intro l
    induction l with
    | nil => exact .slnil
    | cons s rest ih =>
      cases hs : s.failure? d with
      | none =>
        rw [List.filterMap_cons_none hs]
        exact ih.cons _
      | some e =>
        rw [List.filterMap_cons_some hs, List.map_cons, List.map_cons,
          Service.processorName?_failure hs]
        exact ih.cons_cons _
  rw [h.failures, ← h.turns, List.map_map]
  exact hnames services

/-- Whether a processor's failure is reported is told by its own turn. -/
theorem Serves.named_iff {ps : List Processor} {services : List Service}
    {trace : List (Exchange Node.interface σ)} {report : DispatchReport}
    (h : Serves d id a f ps services trace report) (hps : (ps.map (·.name)).Nodup) {s : Service}
    (hs : s ∈ services) :
    some s.processor.name ∈ report.failures.map DispatchError.processorName? ↔
      (s.failure? d).isSome := by
  rw [h.failures, List.mem_map]
  constructor
  · rintro ⟨e, he, hname⟩
    obtain ⟨s', hs', he⟩ := List.mem_filterMap.mp he
    rw [Service.processorName?_failure he, Option.some.injEq] at hname
    rw [← h.turns, List.map_map] at hps
    rw [← List.inj_on_of_nodup_map hps hs' hs hname, he]
    rfl
  · intro hsome
    obtain ⟨e, he⟩ := Option.isSome_iff_exists.mp hsome
    exact ⟨e, List.mem_filterMap.mpr ⟨s, hs, he⟩, Service.processorName?_failure he⟩

/-! ### Every frame -/

variable (id a) in
theorem dispatch_eq {m : Arrival} (hf : m.frame? d = some f) :
    ∃ meter, m.dispatch d id a = .ask (.measure meter 1) fun _ =>
      .ask .processors fun ps => d.fanOut id a f ps := by
  cases m with
  | text s =>
    rw [Arrival.frame?] at hf
    split at hf
    · cases hf
    · next hs =>
      obtain ⟨e, he, rfl⟩ := Option.map_eq_some_iff.mp hf
      refine ⟨.textFrames, ?_⟩
      rw [Arrival.dispatch, onText, if_neg hs, he]
      rfl
  | binary payload =>
    obtain rfl : Frame.binary payload = f := Option.some.inj hf
    exact ⟨.binaryFrames, rfl⟩

/-- What the dispatch of a frame may ask for. The only credential is the connection's own. -/
def Asks (a : Attributes) : Request → Prop
  | .identify credential => a.token? = some credential
  | .processors | .turn .. | .measure .. | .cache (.log _) => True
  | _ => False

theorem only_deliver (p : Processor) : (d.deliver id a f p).Only (Asks a) := by
  rw [deliver_eq]
  refine Program.Only.bind ?_ ?_
  · rw [principalFor_eq]
    split
    · next htoken =>
      refine ⟨htoken, ?_⟩
      rintro (e | principal)
      · trivial
      · trivial
    · trivial
  · rintro (e | principal)
    · trivial
    · refine ⟨trivial, fun turn => ⟨trivial, fun _ => ?_⟩⟩
      split
      · exact ⟨trivial, fun _ => trivial⟩
      · trivial

theorem only_fanOut (ps : List Processor) : (d.fanOut id a f ps).Only (Asks a) := by
  induction ps with
  | nil => trivial
  | cons p rest ih =>
    rw [fanOut_cons]
    refine (only_deliver p).bind fun res => Program.Only.bind ?_ fun _ => ih.bind fun _ => trivial
    rcases res with e | ⟨⟩
    · exact ⟨trivial, fun _ => ⟨trivial, fun _ => trivial⟩⟩
    · trivial

theorem only_dispatch (m : Arrival) : (m.dispatch d id a).Only (Asks a) := by
  cases m with
  | text s =>
    rw [Arrival.dispatch, onText]
    split
    · exact ⟨trivial, fun _ => trivial⟩
    · refine ⟨trivial, fun _ => ?_⟩
      dsimp only [Program.bind]
      cases Envelope.read? s with
      | none => exact ⟨trivial, fun _ => ⟨trivial, fun _ => trivial⟩⟩
      | some e => exact ⟨trivial, fun ps => only_fanOut ps⟩
  | binary payload => exact ⟨trivial, fun _ => ⟨trivial, fun ps => only_fanOut ps⟩⟩

/-- Each processor that is registered when a frame comes has one turn, and every way to answer the
questions of each turn may come about. Whether a turn is reported as failed is the same in any two
dispatches, of whatever registries, in which the same was answered in it. -/
theorem every_processor_served (d : Dispatch) (id : ConnectionId) (a : Attributes) {m : Arrival}
    {f : Frame} {r : Registry} (hf : m.frame? d = some f) (hr : r.IsNamed) :
    (∀ trace report r', (m.dispatch d id a).Runs Answers r trace report r' →
      ∃ services, Serves d id a f r.snapshot services trace report ∧
        report.delivered + report.failures.length = r.size ∧
        (report.failures.map DispatchError.processorName?).Sublist (r.names.map some)) ∧
    (∀ services, services.map (·.processor) = r.snapshot → (∀ s ∈ services, s.Fits a) →
      ∃ trace report r', (m.dispatch d id a).Runs Answers r trace report r' ∧
        Serves d id a f r.snapshot services trace report) ∧
    ∀ (r₁ : Registry), r₁.IsNamed →
      ∀ (services services₁ : List Service) (trace trace₁ : List (Exchange _ Registry))
        (report report₁ : DispatchReport),
        Serves d id a f r.snapshot services trace report →
        Serves d id a f r₁.snapshot services₁ trace₁ report₁ →
        ∀ s ∈ services, s ∈ services₁ →
          (some s.processor.name ∈ report.failures.map DispatchError.processorName? ↔
            some s.processor.name ∈ report₁.failures.map DispatchError.processorName?) := by
  obtain ⟨meter, hm⟩ := dispatch_eq id a hf
  refine ⟨?_, ?_, ?_⟩
  · rw [hm, ← Program.ensures_iff]
    rintro ⟨⟩ r₁ ⟨⟩ ps r₂ ⟨rfl, rfl⟩
    refine (ensures_fanOut _).mono ?_
    rintro trace report r' ⟨services, h⟩
    refine ⟨services, ⟨h.turns, h.fits, h.consulted, h.heartbeat, h.delivered, h.failures⟩, ?_, ?_⟩
    · rw [h.length, Registry.snapshot, Table.values, List.length_map]
      rfl
    · rw [← hr.names_eq, List.map_map]
      exact h.sublist
  · intro services hturns hfits
    obtain ⟨trace, report, hrun, h⟩ := runs_fanOut d id f r hfits
    rw [hturns] at hrun h
    rw [hm]
    exact ⟨_, report, r, .ask (x := ()) rfl (.ask ⟨rfl, rfl⟩ hrun),
      h.turns, h.fits, h.consulted, h.heartbeat, h.delivered, h.failures⟩
  · intro r₁ hr₁ services services₁ trace trace₁ report report₁ h h₁ s hs hs₁
    rw [h.named_iff hr.nodup hs, h₁.named_iff hr₁.nodup hs₁]

/-! ### The cluster by itself -/

/-- What the cluster does with a request is a way to answer it. -/
theorem answers_perform (b : BrokerId) (r : Request) (c : Cluster) :
    Answers r (c.registry b) (c.perform b r).1 ((c.perform b r).2.registry b) := by
  cases r with
  | cache r => cases r <;> rfl
  | acquire kind patience =>
    simp only [Cluster.perform]
    split
    · rfl
    · exact Cluster.registry_setLock c b kind _
  | release kind => exact Cluster.registry_setLock c b kind _
  | addUser | addGroup | withdrawUser | withdrawGroup | remove =>
    exact Cluster.registry_setDirectory c b _
  | processors => exact ⟨rfl, rfl⟩
  | identify | turn => trivial
  | directory | close | measure => rfl

end

/-- The first processor takes the second out of the registry. The second fails for good, the third
needs a principal, and the last only looks on. -/
def crowd : Registry :=
  (((Registry.empty.register ⟨"usher", false, false, .unregister "heckler"⟩).register
    ⟨"heckler", false, false, .fail "no"⟩).register
    ⟨"clerk", true, false, .observe⟩).register (.observer "guest")

theorem isNamed_crowd : crowd.IsNamed :=
  (((Registry.isNamed_empty.register _).register _).register _).register _

/-- All four have their turns, though the second is registered no more when its turn comes. -/
theorem crowd_served : ∃ trace report r',
    ((Arrival.binary [0]).dispatch ⟨"hb", .ofSeconds 1⟩ ⟨"c"⟩ (.ofList [("token", "old")])).Runs
      Answers crowd trace report r' ∧
    r'.names = ["usher", "clerk", "guest"] ∧
    report.failures = [.processor "heckler" (.failed "no"),
      .unauthenticated "clerk" (.rejected 401 "invalid_token")] ∧
    report.delivered = 2 ∧
    ∃ services, Serves ⟨"hb", .ofSeconds 1⟩ ⟨"c"⟩ (.ofList [("token", "old")]) (.binary [0])
      crowd.snapshot services trace report := by
  obtain ⟨trace, hrun⟩ := Program.runs_run (A := Answers) (fun c => Cluster.registry c ⟨"b"⟩)
    (answers_perform ⟨"b"⟩) ((Arrival.binary [0]).dispatch ⟨"hb", .ofSeconds 1⟩ ⟨"c"⟩
      (.ofList [("token", "old")])) (Cluster.empty.setRegistry ⟨"b"⟩ crowd)
  rw [Cluster.registry_setRegistry] at hrun
  obtain ⟨services, hserves, -⟩ :=
    (every_processor_served ⟨"hb", .ofSeconds 1⟩ ⟨"c"⟩ (.ofList [("token", "old")])
      (m := .binary [0]) rfl isNamed_crowd).1 _ _ _ hrun
  refine ⟨trace, _, _, hrun, ?_, ?_, ?_, services, hserves⟩
  · decide +kernel
  · decide +kernel
  · decide +kernel

end Dispatch

end SessionGateway
