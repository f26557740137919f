import SessionGateway.Reconcile
import SessionGateway.Proofs.Program.Runs

/-!
# The programs of a node, request by request

Each program of the lifecycle as the requests that it makes and what it does with their answers.
-/

namespace SessionGateway

open Node (cached)

theorem expand_bind {I J : Interface} {α β : Type}
    (g : (r : I.Request) → Program J (I.Answer r)) (p : Program I α) (f : α → Program I β) :
    (p.bind f).expand g = (p.expand g).bind fun a => (f a).expand g := by
  induction p with
  | done a => rfl
  | ask r next ih =>
    show (g r).bind _ = ((g r).bind _).bind _
    rw [Program.bind_assoc]
    exact congrArg (Program.bind _) (funext ih)

theorem cached_bind {α β : Type} (op : Cache.Operation α) (f : α → Cache.Operation β) :
    cached (op >>= f) = (cached op).bind fun
      | .error e => .done (.error e)
      | .ok a => cached (f a) := by
  simp only [cached, ExceptT.run_bind, Program.bind_eq, expand_bind]
  refine congrArg (Program.bind _) (funext ?_)
  rintro (e | a)
  · rfl
  · rfl

/-! ### Writing to the cache -/

namespace SessionCache

variable (c : SessionCache)

/-- Reads the clock and puts an entry with its stamp in a field. -/
def putStamped (key field : String) (members : List (String × Option Json)) :
    NodeProgram (Except CacheError Unit) :=
  .ask (.cache .wallClock) fun now => .ask (.cache (.store (.hashPut key field
    (Stamped.render members (c.stampAt now)) c.ttl))) .done

theorem cached_refreshUser (e : UserEntry) :
    cached (c.refreshUser e) = c.putStamped (c.userBucket e.owner) (userField e.userId) e.members :=
  rfl

theorem cached_refreshGroup (e : GroupEntry) :
    cached (c.refreshGroup e) = c.putStamped (c.groupBucket e.owner) e.group e.members :=
  rfl

theorem cached_publishUser (e : UserEntry) :
    cached (c.publishUser e) =
      (c.putStamped (c.userBucket e.owner) (userField e.userId) e.members).bind fun
        | .ok _ =>
          .ask (.cache (.store (.put (c.connectionKey e.connection) e.toJson.render c.ttl))) .done
        | .error e => .done (.error e) := by
  rw [cached, publishUser]
  show Program.ask _ _ = Program.ask _ _
  congr 1
  funext now
  show Program.ask _ _ = Program.ask _ _
  congr 1
  funext x
  cases x <;> rfl

theorem cached_forgetUser (e : UserEntry) :
    cached (do let _ ← c.forgetUser e) =
      .ask (.cache (.store (.delete (c.connectionKey e.connection)))) fun
        | .error err => .done (.error err)
        | .ok _ => .ask (.cache (.store (.hashGet (c.userBucket e.owner) (userField e.userId)))) fun
          | .error err => .done (.error err)
          | .ok none => .done (.ok ())
          | .ok (some text) =>
            if names text e.connection then
              .ask (.cache (.store (.hashDeleteIf (c.userBucket e.owner) (userField e.userId)
                text))) fun
                | .error err => .done (.error err)
                | .ok _ => .done (.ok ())
            else .done (.ok ()) := by
  rw [cached, forgetUser]
  show Program.ask _ _ = Program.ask _ _
  congr 1
  funext x
  cases x with
  | error err => rfl
  | ok gone =>
    show Program.ask _ _ = Program.ask _ _
    congr 1
    funext y
    rcases y with err | _ | text
    · rfl
    · rfl
    · cases hnames : names text e.connection with
      | true =>
        simp only [Program.done_bind, ExceptT.bindCont, hnames, if_true]
        show Program.ask _ _ = Program.ask _ _
        congr 1
        funext z
        cases z <;> rfl
      | false =>
        simp only [Program.done_bind, ExceptT.bindCont, hnames, Bool.false_eq_true, if_false]
        rfl

end SessionCache

/-! ### Opening -/

namespace Lifecycle

variable (l : Lifecycle)

theorem holding_eq {α : Type} (kind : ConnectionKind) (patience : Option Duration)
    (body : NodeProgram α) :
    Node.holding kind patience body = .ask (.acquire kind patience) fun
      | true => body.bind fun a => .ask (.release kind) fun _ => .done (some a)
      | false => .done none := by
  rw [Node.holding]
  show Program.ask _ _ = Program.ask _ _
  congr 1
  funext x
  cases x <;> rfl

theorem restoreUser_eq (failed : UserEntry) :
    l.restoreUser failed = .ask .directory fun d =>
      (match survivor? d failed.userId with
        | some e => cached (l.cache.refreshUser e)
        | none => cached (do let _ ← l.cache.forgetUser failed)).bind fun
        | .ok () => .done ()
        | .error _ => Node.log (Log.warn "could not restore user cache field after rollback"
          [("user_id", SessionCache.userField failed.userId),
            ("survivor", if (survivor? d failed.userId).isSome then "true" else "false")]) := by
  rw [restoreUser]
  show Program.ask _ _ = Program.ask _ _
  congr 1
  funext d
  simp only [Program.done_bind]
  cases survivor? d failed.userId <;> rfl

theorem enrolUser_eq (s : UserSession) :
    l.enrolUser s = .ask (.addUser s) fun replaced =>
      (cached (l.cache.publishUser s.entry)).bind fun
        | .ok () =>
          (Node.log (Log.info "end-user session registered"
            [("user_id", toString s.principal.userId.toInt),
              ("tenant_id", toString s.principal.tenantId.toInt)])).bind fun _ =>
            (countRegistered .endUser replaced).bind fun _ => .done (.ok s.principal)
        | .error e => .ask (.withdrawUser s.entry.connection s.transport) fun withdrawn =>
          (countWithdrawn .endUser withdrawn replaced).bind fun _ =>
            (l.restoreUser s.entry).bind fun _ => .done (.error (.cache e)) := rfl

theorem enrolGroup_eq (s : GroupSession) :
    l.enrolGroup s = .ask (.addGroup s) fun replaced =>
      (cached (l.cache.refreshGroup s.entry)).bind fun
        | .ok () =>
          (Node.log (Log.info "group session registered" [("group", s.entry.group)])).bind fun _ =>
            (countRegistered .groupSecret replaced).bind fun _ => .done (.ok ())
        | .error e => .ask (.withdrawGroup s.entry.connection s.transport) fun withdrawn =>
          (countWithdrawn .groupSecret withdrawn replaced).bind fun _ =>
            .done (.error (.cache e)) := rfl

theorem registering_eq {α : Type} (kind : ConnectionKind)
    (body : NodeProgram (Except OpenError α)) :
    l.registering kind body = (Node.holding kind (some l.patience) body).bind fun
      | some r => .done r
      | none => (Node.measure (.lockTimeouts kind) 1).bind fun _ =>
        .done (.error (.lockTimeout l.patience)) := rfl

theorem registerUser_eq (id : ConnectionId) (t : Transport) :
    l.registerUser id t =
      match t.attributes.token? with
      | none => .done (.error .unclassified)
      | some token => .ask (.identify token) fun
        | .error e => .done (.error (.identity e))
        | .ok p => l.registering .endUser (l.enrolUser ⟨.ofPrincipal id p l.broker, p, t⟩) := rfl

theorem registerGroup_eq (id : ConnectionId) (t : Transport) :
    l.registerGroup id t =
      match t.attributes.group? with
      | none => .done (.error .unclassified)
      | some group =>
        l.registering .groupSecret (l.enrolGroup ⟨⟨id, group, l.broker⟩, t⟩) := rfl

theorem register_eq (t : Transport) :
    l.register t =
      match t.id? with
      | none => .done (.error .unrecognizedTransport)
      | some id =>
        match t.attributes.classify with
        | none => .done (.error .unclassified)
        | some .endUser =>
          (l.registerUser id t).bind fun r => .done (r.map fun _ => .endUserActive)
        | some .groupSecret =>
          (l.registerGroup id t).bind fun r => .done (r.map fun _ => .groupActive) := rfl

theorem onOpen_eq (t : Transport) :
    l.onOpen t = (l.register t).bind fun
      | .ok s => .done s
      | .error (.lockTimeout _) =>
        (Node.log (Log.warn "registration abandoned, connection left unregistered")).bind fun _ =>
          .done .unregistered
      | .error e => .ask (.measure (.rejected e.kind) 1) fun _ =>
        .ask (.close t) fun _ => .done .closed := rfl

/-! ### Publishing again -/

theorem republishUser_eq (id : ConnectionId) :
    l.republishUser id = .ask .directory fun d =>
      match d.userSession? id with
      | none => .done (.ok false)
      | some s => (cached (l.cache.publishUser s.entry)).bind fun r =>
        .done (r.map fun _ => true) := rfl

theorem republishGroup_eq (id : ConnectionId) :
    l.republishGroup id = .ask .directory fun d =>
      match d.groupSession? id with
      | none => .done (.ok false)
      | some s => (cached (l.cache.refreshGroup s.entry)).bind fun r =>
        .done (r.map fun _ => true) := rfl

theorem republishAll_cons (kind : ConnectionKind)
    (publish : ConnectionId → NodeProgram (Except CacheError Bool)) (id : ConnectionId)
    (rest : List ConnectionId) :
    republishAll kind publish (id :: rest) = (Node.holding kind none (publish id)).bind fun
      | some (.error e) => .done (.error e)
      | some (.ok true) => (republishAll kind publish rest).bind fun r => .done (r.map (· + 1))
      | some (.ok false) | none => republishAll kind publish rest := rfl

theorem republish_eq :
    l.republish = .ask .directory fun d =>
      (republishAll .endUser l.republishUser (d.userEntries.map (·.connection))).bind fun
        | .error e => .done (.error e)
        | .ok m => .ask .directory fun d' =>
          (republishAll .groupSecret l.republishGroup (d'.groupEntries.map (·.connection))).bind
            fun r => .done (r.map fun n => (m, n)) := rfl

/-! ### Closing and passes -/

theorem onClose_eq (id : ConnectionId) :
    onClose id = .ask (.remove id) fun
      | none => .done none
      | some kind => (Node.measure (.active kind) (-1)).bind fun _ =>
        (Node.log (Log.info "session removed" [("conn_id", id.text), ("kind", kind.label)])).bind
          fun _ => .done (some kind) := rfl

theorem onTransportError_eq (t : Transport) (error : String) :
    onTransportError t error =
      (Node.log (Log.warn "transport error" [("error", error)])).bind fun _ =>
        .ask (.close t) fun _ =>
          match t.id? with
          | none => .done none
          | some id => onClose id := rfl

theorem run_mk_bind {α β : Type} (p : NodeProgram (Except CacheError α))
    (f : α → ExceptT CacheError (Program Node.interface) β) :
    (ExceptT.mk p >>= f).run = p.bind fun
      | .error e => .done (.error e)
      | .ok a => (f a).run := by
  rw [ExceptT.run_bind]
  show Program.bind p _ = Program.bind p _
  congr 1
  funext x
  cases x <;> rfl

theorem tick_eq :
    l.tick = (cached (l.cache.registerBroker l.broker)).bind fun
      | .error e => .done (.error e)
      | .ok _ => l.republish.bind fun
        | .error e => .done (.error e)
        | .ok published => (cached (l.cache.prune l.broker)).bind fun
          | .error e => .done (.error e)
          | .ok pruned => (cached SessionCache.purgeStore).bind fun
            | .error e => .done (.error e)
            | .ok swept => .done (.ok ⟨published.1, published.2, pruned, swept⟩) := by
  rw [tick]
  simp only [run_mk_bind]
  refine congrArg (Program.bind _) (funext ?_)
  rintro (e | u)
  · rfl
  refine congrArg (Program.bind _) (funext ?_)
  rintro (e | published)
  · rfl
  refine congrArg (Program.bind _) (funext ?_)
  rintro (e | pruned)
  · rfl
  refine congrArg (Program.bind _) (funext ?_)
  rintro (e | swept)
  · rfl
  · rfl

end Lifecycle

end SessionGateway
