import SessionGateway.Proofs.Cache.Keys
import SessionGateway.Proofs.Lifecycle.Events
import SessionGateway.Proofs.Lifecycle.Requests
import SessionGateway.Proofs.Store.Memory

/-!
# What each program of a node may ask for

Whatever it is answered, a program of the lifecycle asks only for what belongs to it, and for some
of that only while it has the lock of a kind. Each program is walked through once. Who needs to know
less of it weakens what it may ask for.
-/

namespace SessionGateway

open Node (Request cached)

namespace Node.Request

/-- A request that neither takes a lock nor gives one back. -/
def KeepsLocks : Request → Prop
  | .acquire .. | .release _ => False
  | _ => True

/-- A request of one who publishes a session that is in place or takes it back. It leaves a key of
the store alone. -/
def IsWork (key : String) : Request → Prop
  | .cache (.store k) => ¬ k.Changes key
  | .cache _ | .directory | .withdrawUser .. | .withdrawGroup .. | .measure .. => True
  | _ => False

variable {key : String} {r : Request}

theorem IsIdle.work (h : r.IsIdle) : r.IsWork key := by
  cases r with
  | cache r =>
    cases r with
    | store k => exact h.elim
    | wallClock | log => trivial
  | measure => trivial
  | identify | acquire | release | directory | addUser | addGroup | withdrawUser | withdrawGroup
  | remove | close | processors | turn => exact h.elim

theorem IsWork.keepsLocks (h : r.IsWork key) : r.KeepsLocks := by
  cases r with
  | acquire | release => exact h.elim
  | cache | identify | directory | addUser | addGroup | withdrawUser | withdrawGroup | remove
  | close | measure | processors | turn => trivial

end Node.Request

namespace Lifecycle

variable {l : Lifecycle} {c : SessionCache} {α β : Type} {kind : ConnectionKind}
  {id : ConnectionId} {t : Transport}

/-! ### Programs that take locks -/

/-- A program that, whatever it is answered, asks only for what is allowed with the lock that it
has, or with none, and ends with the lock of a kind, or none. -/
def Orderly (Q : Option ConnectionKind → Request → Prop) (there : Option ConnectionKind) :
    NodeProgram α → Option ConnectionKind → Prop
  | .done _, place => place = there
  | .ask r next, place => Q place r ∧ ∀ x, Orderly Q there (next x) ((event r x).placeAfter place)

section

variable {Q Q' : Option ConnectionKind → Request → Prop}
  {place there between : Option ConnectionKind} {p : NodeProgram α}

theorem Orderly.mono (h : Orderly Q there p place) (hQ : ∀ place r, Q place r → Q' place r) :
    Orderly Q' there p place := by
  induction p generalizing place with
  | done a => exact h
  | ask r next ih => exact ⟨hQ place r h.1, fun x => ih x (h.2 x)⟩

theorem Orderly.only {P : Request → Prop} (h : Orderly Q there p place)
    (hP : ∀ place r, Q place r → P r) : p.Only P := by
  induction p generalizing place with
  | done a => trivial
  | ask r next ih => exact ⟨hP place r h.1, fun x => ih x (h.2 x)⟩

theorem Orderly.bind {f : α → NodeProgram β} (h : Orderly Q between p place)
    (hf : ∀ a, Orderly Q there (f a) between) : Orderly Q there (p.bind f) place := by
  induction p generalizing place with
  | done a =>
    obtain rfl : place = between := h
    exact hf a
  | ask r next ih => exact ⟨h.1, fun x => ih x (h.2 x)⟩

theorem placeAfter_of_keepsLocks {r : Request} (h : r.KeepsLocks) (x : r.Answer) :
    (event r x).placeAfter place = place := by
  cases r with
  | cache r =>
    cases r with
    | store command => cases command <;> cases x <;> rfl
    | wallClock | log => rfl
  | acquire | release => exact h.elim
  | withdrawUser | withdrawGroup | remove => cases x <;> rfl
  | measure m n => cases m <;> rfl
  | identify | directory | addUser | addGroup | close | processors | turn => rfl

/-- A program that takes no lock stays where it is. -/
theorem Orderly.of_only (h : p.Only fun r : Request => Q place r ∧ r.KeepsLocks) :
    Orderly Q place p place := by
  induction p with
  | done a => rfl
  | ask r next ih =>
    obtain ⟨⟨hQ, hkeeps⟩, hrest⟩ := h
    refine ⟨hQ, fun x => ?_⟩
    rw [placeAfter_of_keepsLocks hkeeps]
    exact ih x (hrest x)

theorem orderly_holding {patience : Option Duration}
    (hacquire : Q none (.acquire kind patience)) (hrelease : Q (some kind) (.release kind))
    (h : p.Only fun r : Request => Q (some kind) r ∧ r.KeepsLocks) :
    Orderly Q none (Node.holding kind patience p) none := by
  rw [holding_eq]
  refine ⟨hacquire, ?_⟩
  rintro (_ | _)
  · rfl
  · exact (Orderly.of_only h).bind fun a => ⟨hrelease, fun _ => rfl⟩

theorem orderly_registering {body : NodeProgram (Except OpenError α)}
    (hacquire : Q none (.acquire kind (some l.patience))) (hrelease : Q (some kind) (.release kind))
    (hidle : ∀ r, r.IsIdle → Q none r)
    (h : body.Only fun r : Request => Q (some kind) r ∧ r.KeepsLocks) :
    Orderly Q none (l.registering kind body) none := by
  rw [l.registering_eq]
  refine (orderly_holding hacquire hrelease h).bind ?_
  rintro (_ | r)
  · exact ⟨hidle _ trivial, fun _ => rfl⟩
  · rfl

end

/-! ### Writing to the cache -/

theorem only_work {key : String} {p : NodeProgram α} (h : p.Only Request.IsIdle) :
    p.Only (Request.IsWork key) :=
  h.mono fun _ => Request.IsIdle.work

theorem only_cache (op : Cache.Operation α) :
    (cached op).Only fun r : Request => ∃ q, r = .cache q := by
  rw [cached]
  refine Program.only_expand (fun q => ?_) _
  exact ⟨⟨q, rfl⟩, fun _ => trivial⟩

theorem only_putStamped {bucket field key : String} (members : List (String × Option Json))
    (h : bucket ≠ key) : (c.putStamped bucket field members).Only (Request.IsWork key) :=
  ⟨trivial, fun _ => ⟨h, fun _ => trivial⟩⟩

theorem only_refreshUser (e : UserEntry) :
    (cached (c.refreshUser e)).Only (Request.IsWork c.brokersKey) := by
  rw [c.cached_refreshUser]
  exact only_putStamped _ (c.userBucket_ne_brokersKey e.owner)

theorem only_refreshGroup (e : GroupEntry) :
    (cached (c.refreshGroup e)).Only (Request.IsWork c.brokersKey) := by
  rw [c.cached_refreshGroup]
  exact only_putStamped _ (c.groupBucket_ne_brokersKey e.owner)

theorem only_publishUser (e : UserEntry) :
    (cached (c.publishUser e)).Only (Request.IsWork c.brokersKey) := by
  rw [c.cached_publishUser]
  refine (only_putStamped _ (c.userBucket_ne_brokersKey e.owner)).bind ?_
  rintro (err | ⟨⟩)
  · trivial
  · exact ⟨c.connectionKey_ne_brokersKey e.connection, fun _ => trivial⟩

theorem only_forgetUser (e : UserEntry) :
    (cached (do let _ ← c.forgetUser e)).Only (Request.IsWork c.brokersKey) := by
  rw [c.cached_forgetUser]
  refine ⟨c.connectionKey_ne_brokersKey e.connection, ?_⟩
  rintro (err | gone)
  · trivial
  refine ⟨id, ?_⟩
  rintro (err | _ | text)
  · trivial
  · trivial
  dsimp only
  split
  · refine ⟨c.userBucket_ne_brokersKey e.owner, ?_⟩
    rintro (err | gone)
    · trivial
    · trivial
  · trivial

/-! ### Opening -/

theorem only_restoreUser (l : Lifecycle) (failed : UserEntry) :
    (l.restoreUser failed).Only (Request.IsWork l.cache.brokersKey) := by
  rw [l.restoreUser_eq]
  refine ⟨trivial, fun d => Program.Only.bind ?_ ?_⟩
  · cases survivor? d failed.userId with
    | none => exact only_forgetUser failed
    | some e => exact only_refreshUser e
  · rintro (err | ⟨⟩)
    · exact only_work (only_log _)
    · trivial

theorem only_enrolUser (l : Lifecycle) (s : UserSession) :
    (l.enrolUser s).Only fun r : Request => r = .addUser s ∨ r.IsWork l.cache.brokersKey := by
  rw [l.enrolUser_eq]
  refine ⟨.inl rfl, fun replaced => Program.Only.mono ?_ fun _ => .inr⟩
  refine (only_publishUser s.entry).bind ?_
  rintro (err | ⟨⟩)
  · refine ⟨trivial, fun withdrawn => ?_⟩
    refine (only_work (only_countWithdrawn _ _ _)).bind fun _ => ?_
    exact (only_restoreUser l _).bind fun _ => trivial
  · refine (only_work (only_log _)).bind fun _ => ?_
    exact (only_work (only_countRegistered _ _)).bind fun _ => trivial

theorem only_enrolGroup (l : Lifecycle) (s : GroupSession) :
    (l.enrolGroup s).Only fun r : Request => r = .addGroup s ∨ r.IsWork l.cache.brokersKey := by
  rw [l.enrolGroup_eq]
  refine ⟨.inl rfl, fun replaced => Program.Only.mono ?_ fun _ => .inr⟩
  refine (only_refreshGroup s.entry).bind ?_
  rintro (err | ⟨⟩)
  · refine ⟨trivial, fun withdrawn => ?_⟩
    exact (only_work (only_countWithdrawn _ _ _)).bind fun _ => trivial
  · refine (only_work (only_log _)).bind fun _ => ?_
    exact (only_work (only_countRegistered _ _)).bind fun _ => trivial

/-- What one may ask for who registers a connection as of a kind. -/
inductive RegistrationAsks (l : Lifecycle) (id : ConnectionId) :
    ConnectionKind → Option ConnectionKind → Request → Prop
  | identify (token : String) : RegistrationAsks l id .endUser none (.identify token)
  | acquire (kind : ConnectionKind) :
      RegistrationAsks l id kind none (.acquire kind (some l.patience))
  | addUser {s : UserSession} (own : s.entry.connection = id) :
      RegistrationAsks l id .endUser (some .endUser) (.addUser s)
  | addGroup {s : GroupSession} (own : s.entry.connection = id) :
      RegistrationAsks l id .groupSecret (some .groupSecret) (.addGroup s)
  | work {kind : ConnectionKind} {place : Option ConnectionKind} {r : Request}
      (work : r.IsWork l.cache.brokersKey) : RegistrationAsks l id kind place r
  | release (kind : ConnectionKind) : RegistrationAsks l id kind (some kind) (.release kind)

theorem orderly_registerUser (l : Lifecycle) (id : ConnectionId) (t : Transport) :
    Orderly (RegistrationAsks l id .endUser) none (l.registerUser id t) none := by
  rw [l.registerUser_eq]
  cases t.attributes.token? with
  | none => rfl
  | some token =>
    refine ⟨.identify token, ?_⟩
    rintro (err | p)
    · rfl
    · refine orderly_registering (.acquire _) (.release _) (fun _ hr => .work hr.work)
        ((l.only_enrolUser _).mono ?_)
      rintro r (rfl | hr)
      · exact ⟨.addUser rfl, trivial⟩
      · exact ⟨.work hr, hr.keepsLocks⟩

theorem orderly_registerGroup (l : Lifecycle) (id : ConnectionId) (t : Transport) :
    Orderly (RegistrationAsks l id .groupSecret) none (l.registerGroup id t) none := by
  rw [l.registerGroup_eq]
  cases t.attributes.group? with
  | none => rfl
  | some group =>
    refine orderly_registering (.acquire _) (.release _) (fun _ hr => .work hr.work)
      ((l.only_enrolGroup _).mono ?_)
    rintro r (rfl | hr)
    · exact ⟨.addGroup rfl, trivial⟩
    · exact ⟨.work hr, hr.keepsLocks⟩

/-- A connection is registered under its own id and as of the kind that its attributes describe. -/
theorem orderly_register (l : Lifecycle) (t : Transport) :
    Orderly (fun place r => ∃ id kind, t.id? = some id ∧ t.attributes.classify = some kind ∧
      RegistrationAsks l id kind place r) none (l.register t) none := by
  rw [l.register_eq]
  cases hid : t.id? with
  | none => rfl
  | some id =>
    cases hkind : t.attributes.classify with
    | none => rfl
    | some kind =>
      have hasks : ∀ place r, RegistrationAsks l id kind place r → ∃ id' kind', some id = some id' ∧
          some kind = some kind' ∧ RegistrationAsks l id' kind' place r :=
        fun _ _ h => ⟨id, kind, rfl, rfl, h⟩
      cases kind with
      | endUser => exact ((l.orderly_registerUser id t).mono hasks).bind fun _ => rfl
      | groupSecret => exact ((l.orderly_registerGroup id t).mono hasks).bind fun _ => rfl

/-- What one may ask for who opens a connection. -/
inductive OpeningAsks (l : Lifecycle) (t : Transport) : Option ConnectionKind → Request → Prop
  | register {id : ConnectionId} {kind : ConnectionKind} {place : Option ConnectionKind}
      {r : Request} (own : t.id? = some id) (described : t.attributes.classify = some kind)
      (asks : RegistrationAsks l id kind place r) : OpeningAsks l t place r
  | report {place : Option ConnectionKind} {r : Request} (idle : r.IsIdle) : OpeningAsks l t place r
  | close : OpeningAsks l t none (.close t)

theorem orderly_onOpen (l : Lifecycle) (t : Transport) :
    Orderly (OpeningAsks l t) none (l.onOpen t) none := by
  rw [l.onOpen_eq]
  refine ((l.orderly_register t).mono ?_).bind ?_
  · rintro place r ⟨id, kind, hid, hkind, hasks⟩
    exact .register hid hkind hasks
  · rintro (err | state)
    · cases err with
      | lockTimeout d => exact ⟨.report trivial, fun _ => rfl⟩
      | unrecognizedTransport | unclassified | identity | cache =>
        exact ⟨.report trivial, fun _ => ⟨.close, fun _ => rfl⟩⟩
    · rfl

/-! ### Publishing again -/

/-- What one may ask for who publishes again. -/
inductive RepublishingAsks (l : Lifecycle) : Option ConnectionKind → Request → Prop
  | acquire (kind : ConnectionKind) : RepublishingAsks l none (.acquire kind none)
  | work {place : Option ConnectionKind} {r : Request} (work : r.IsWork l.cache.brokersKey) :
      RepublishingAsks l place r
  | release (kind : ConnectionKind) : RepublishingAsks l (some kind) (.release kind)

theorem only_republishUser (l : Lifecycle) (id : ConnectionId) :
    (l.republishUser id).Only (Request.IsWork l.cache.brokersKey) := by
  rw [l.republishUser_eq]
  refine ⟨trivial, fun d => ?_⟩
  dsimp only
  cases d.userSession? id with
  | none => trivial
  | some s => exact (only_publishUser s.entry).bind fun _ => trivial

theorem only_republishGroup (l : Lifecycle) (id : ConnectionId) :
    (l.republishGroup id).Only (Request.IsWork l.cache.brokersKey) := by
  rw [l.republishGroup_eq]
  refine ⟨trivial, fun d => ?_⟩
  dsimp only
  cases d.groupSession? id with
  | none => trivial
  | some s => exact (only_refreshGroup s.entry).bind fun _ => trivial

theorem orderly_republishAll {publish : ConnectionId → NodeProgram (Except CacheError Bool)}
    (h : ∀ id, (publish id).Only (Request.IsWork l.cache.brokersKey)) (ids : List ConnectionId) :
    Orderly (RepublishingAsks l) none (republishAll kind publish ids) none := by
  induction ids with
  | nil => rfl
  | cons id rest ih =>
    rw [republishAll_cons]
    refine (orderly_holding (.acquire kind) (.release kind)
      ((h id).mono fun _ hr => ⟨.work hr, hr.keepsLocks⟩)).bind ?_
    rintro (_ | err | _ | _)
    · exact ih
    · rfl
    · exact ih
    · exact ih.bind fun _ => rfl

theorem orderly_republish (l : Lifecycle) :
    Orderly (RepublishingAsks l) none l.republish none := by
  rw [l.republish_eq]
  refine ⟨.work trivial, fun d => (orderly_republishAll l.only_republishUser _).bind ?_⟩
  rintro (err | m)
  · rfl
  · exact ⟨.work trivial, fun d' =>
      (orderly_republishAll l.only_republishGroup _).bind fun _ => rfl⟩

/-! ### Closing -/

theorem only_onClose (id : ConnectionId) :
    (onClose id).Only fun r : Request => r = .remove id ∨ r.IsIdle := by
  rw [onClose_eq]
  refine ⟨.inl rfl, ?_⟩
  rintro (_ | kind)
  · trivial
  · exact ⟨.inr trivial, fun _ => ⟨.inr trivial, fun _ => trivial⟩⟩

theorem only_onTransportError (t : Transport) (error : String) :
    (onTransportError t error).Only fun r : Request =>
      r = .close t ∨ (∃ id, t.id? = some id ∧ r = .remove id) ∨ r.IsIdle := by
  rw [onTransportError_eq]
  refine ((only_log _).mono fun _ hr => .inr (.inr hr)).bind fun _ => ⟨.inl rfl, fun _ => ?_⟩
  cases t.id? with
  | none => trivial
  | some id => exact (only_onClose id).mono fun _ hr => .inr (hr.imp_left fun heq => ⟨id, rfl, heq⟩)

end Lifecycle

end SessionGateway
