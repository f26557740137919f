import SessionGateway.Proofs.Lifecycle.Footprints

/-!
# What a call goes through

Calls that register, publish again or remove, and the phases that each goes through. A session that
was put in place is published or taken back while the lock of its kind is held, and whatever that
changes is counted before anything else is asked for.
-/

namespace SessionGateway

open Node (Request cached)

/-- A request that only reports. -/
def Node.Request.isReport : Request → Bool
  | .cache (.log _) | .measure .. => true
  | _ => false

namespace Lifecycle

/-! ### Errands -/

/-- A call of the controller. -/
inductive Errand where
  | opens (t : Transport)
  | registersUser (id : ConnectionId) (t : Transport)
  | registersGroup (id : ConnectionId) (t : Transport)
  | republishes
  | closes (id : ConnectionId)
  | fails (t : Transport) (error : String)

namespace Errand

/-- What is done for a call, whatever comes of it. -/
def program (l : Lifecycle) : Errand → NodeProgram Unit
  | .opens t => (l.onOpen t).bind fun _ => .done ()
  | .registersUser id t => (l.registerUser id t).bind fun _ => .done ()
  | .registersGroup id t => (l.registerGroup id t).bind fun _ => .done ()
  | .republishes => l.republish.bind fun _ => .done ()
  | .closes id => (onClose id).bind fun _ => .done ()
  | .fails t error => (onTransportError t error).bind fun _ => .done ()

/-- The connection that a call registers. -/
def registers? : Errand → Option ConnectionId
  | .opens t => if t.attributes.classify.isSome then t.id? else none
  | .registersUser id _ | .registersGroup id _ => some id
  | .republishes | .closes _ | .fails .. => none

/-- The connection that a call removes. -/
def removes? : Errand → Option ConnectionId
  | .closes id => some id
  | .fails t _ => t.id?
  | .opens _ | .registersUser .. | .registersGroup .. | .republishes => none

/-- Neither call removes the connection that the other registers. -/
def Apart (c c' : Errand) : Prop :=
  (∀ id ∈ c.registers?, c'.removes? ≠ some id) ∧ ∀ id ∈ c'.registers?, c.removes? ≠ some id

instance (c c' : Errand) : Decidable (c.Apart c') := inferInstanceAs (Decidable (_ ∧ _))

theorem Apart.symm {c c' : Errand} (h : c.Apart c') : c'.Apart c := And.symm h

end Errand

/-! ### Phases -/

inductive Phase where
  | outside
  /-- The lock of a kind is held. -/
  | inside (kind : ConnectionKind)
  /-- A session was put in place and is not published; `fresh` if it replaced none. -/
  | enrolled (kind : ConnectionKind) (id : ConnectionId) (handle : Nat) (fresh : Bool)
  /-- So many sessions of a kind are still to be counted. -/
  | owing (place : Option ConnectionKind) (kind : ConnectionKind) (n : Int)

namespace Phase

/-- The kind whose lock is held. -/
def place : Phase → Option ConnectionKind
  | .outside => none
  | .inside kind | .enrolled kind .. => some kind
  | .owing place .. => place

def inPlace : Option ConnectionKind → Phase
  | none => .outside
  | some kind => .inside kind

/-- The kind of a first session under its id that is in place and not published. -/
def pending? : Phase → Option ConnectionKind
  | .enrolled kind _ _ true => some kind
  | _ => none

/-- How many sessions of a kind are in the directory, or gone from it if negative, without being
counted. -/
def debt : Phase → ConnectionKind → Int
  | .enrolled kind _ _ true, kind' => if kind = kind' then 1 else 0
  | .owing _ kind n, kind' => if kind = kind' then n else 0
  | _, _ => 0

def isOwing : Phase → Bool
  | .owing .. => true
  | _ => false

/-- How a call goes on from one phase to another. -/
inductive Next (c : Errand) : Phase → Event → Phase → Prop
  | nothing {p : Phase} : Next c p .nothing p
  | took {kind : ConnectionKind} : Next c .outside (.took kind) (.inside kind)
  | gave {kind : ConnectionKind} : Next c (.inside kind) (.gave kind) .outside
  | put {kind : ConnectionKind} {id : ConnectionId} {h : Nat} {fresh : Bool}
      (own : c.registers? = some id) :
      Next c (.inside kind) (.put kind id h fresh) (.enrolled kind id h fresh)
  | aside {p : Phase} {kind : ConnectionKind}
      (other : ∀ id h fresh, p ≠ .enrolled kind id h fresh) : Next c p (.published kind) p
  | published {kind : ConnectionKind} {id : ConnectionId} {h : Nat} :
      Next c (.enrolled kind id h true) (.published kind) (.owing (some kind) kind 1)
  | renewed {kind : ConnectionKind} {id : ConnectionId} {h : Nat} :
      Next c (.enrolled kind id h false) (.published kind) (.inside kind)
  | undone {kind : ConnectionKind} {id : ConnectionId} {h : Nat} :
      Next c (.enrolled kind id h true) (.dropped kind id) (.inside kind)
  /-- The session that was replaced is lost. -/
  | lost {kind : ConnectionKind} {id : ConnectionId} {h : Nat} :
      Next c (.enrolled kind id h false) (.dropped kind id) (.owing (some kind) kind (-1))
  | removed {kind : ConnectionKind} {id : ConnectionId} (own : c.removes? = some id) :
      Next c .outside (.dropped kind id) (.owing none kind (-1))
  | counted {place : Option ConnectionKind} {kind : ConnectionKind} {n : Int} :
      Next c (.owing place kind n) (.counted kind n) (inPlace place)

end Phase

/-- What a call has in place and not published, once a request is answered. -/
def pendingAfter (pending : Option ConnectionKind) : Event → Option ConnectionKind
  | .put kind _ _ true => some kind
  | .published kind | .dropped kind _ => if pending = some kind then none else pending
  | _ => pending

namespace Phase.Next

variable {c : Errand} {p p' : Phase} {e : Event}

theorem pending?_eq (h : Next c p e p') : p'.pending? = pendingAfter p.pending? e := by
  cases h with
  | nothing | took | gave => rfl
  | @put kind id h fresh => cases fresh <;> rfl
  | @aside p kind other =>
    have hp : p.pending? ≠ some kind := by
      cases p with
      | enrolled kind' id h fresh =>
        cases fresh with
        | true =>
          intro heq
          obtain rfl := Option.some.inj heq
          exact other id h true rfl
        | false => exact nofun
      | _ => exact nofun
    rw [pendingAfter, if_neg hp]
  | published | undone => exact (if_pos rfl).symm
  | renewed | lost | removed => rfl
  | @counted place => cases place <;> rfl

/-- What a call comes to owe is what the directory gains and is not counted. -/
theorem debt_eq (h : Next c p e p') (kind : ConnectionKind) :
    p'.debt kind + e.counts kind = p.debt kind + e.gains kind := by
  cases h with
  | nothing | took | gave | aside | published | renewed => simp [debt, Event.gains, Event.counts]
  | @put kind' id h fresh => cases fresh <;> simp [debt, Event.gains, Event.counts]
  | @undone kind' =>
    simp only [debt, Event.gains, Event.counts]
    split <;> rfl
  | lost | removed => simp [debt, Event.gains, Event.counts]
  | @counted place => cases place <;> simp [debt, inPlace, Event.gains, Event.counts]

end Phase.Next

/-! ### Going through phases -/

/-- What an answer tells while a session that was put in place is still there. -/
def Phase.Expects (p : Phase) (e : Event) : Prop :=
  ∀ kind id h fresh, p = .enrolled kind id h fresh → e ≠ .missed kind id h

/-- A program goes through phases as a call may, whatever it is answered, and ends in a way that
satisfies a condition. While something is to be counted it only reports. -/
def Follows {α : Type} (c : Errand) : NodeProgram α → Phase → (Phase → α → Prop) → Prop
  | .done a, p, Q => Q p a
  | .ask r next, p, Q => (p.isOwing = true → r.isReport = true) ∧
    ∀ x, p.Expects (event r x) →
      ∃ p', Phase.Next c p (event r x) p' ∧ Follows c (next x) p' Q

section

variable {l : Lifecycle} {c : Errand} {p p' : Phase} {α β : Type} {kind : ConnectionKind}
  {id : ConnectionId}

theorem Follows.mono {prog : NodeProgram α} {Q Q' : Phase → α → Prop} (h : Follows c prog p Q)
    (hQ : ∀ p a, Q p a → Q' p a) : Follows c prog p Q' := by
  induction prog generalizing p with
  | done a => exact hQ p a h
  | ask r next ih =>
    refine ⟨h.1, fun x hx => ?_⟩
    obtain ⟨p', hnext, hrest⟩ := h.2 x hx
    exact ⟨p', hnext, ih x hrest⟩

theorem Follows.bind {prog : NodeProgram α} {f : α → NodeProgram β} {Q : Phase → β → Prop}
    (h : Follows c prog p fun p a => Follows c (f a) p Q) : Follows c (prog.bind f) p Q := by
  induction prog generalizing p with
  | done a => exact h
  | ask r next ih =>
    refine ⟨h.1, fun x hx => ?_⟩
    obtain ⟨p', hnext, hrest⟩ := h.2 x hx
    exact ⟨p', hnext, ih x hrest⟩

/-- A request whose answers tell nothing leaves the phase as it is. -/
theorem follows_ask {r : Request} {next : r.Answer → NodeProgram α} {Q : Phase → α → Prop}
    (hr : p.isOwing = true → r.isReport = true) (hsilent : ∀ x, event r x = .nothing)
    (h : ∀ x, Follows c (next x) p Q) : Follows c (.ask r next) p Q := by
  refine ⟨hr, fun x _ => ⟨p, ?_, h x⟩⟩
  rw [hsilent]
  exact .nothing

/-- A request to the cache under a lock leaves the phase as it is. -/
theorem follows_cache {prog : NodeProgram α}
    (hprog : prog.Only fun r => ∃ q, r = Request.cache q) {Q : Phase → α → Prop}
    (hQ : ∀ a, Q (.inside kind) a) : Follows c prog (.inside kind) Q := by
  induction prog with
  | done a => exact hQ a
  | ask r next ih =>
    obtain ⟨⟨q, rfl⟩, hrest⟩ := hprog
    refine ⟨nofun, fun x _ => ⟨_, ?_, ih x (hrest x)⟩⟩
    cases q with
    | store command =>
      cases command <;> cases x <;> first | exact .nothing | exact .aside nofun
    | wallClock | log => exact .nothing

/-! ### Reports -/

theorem follows_log (e : Log.Event) {Q : Phase → Unit → Prop} (h : Q p ()) :
    Follows c (Node.log e) p Q :=
  follows_ask (fun _ => rfl) (fun _ => rfl) fun _ => h

theorem follows_measure (m : Meter) (n : Int) (hm : ∀ kind, m ≠ .active kind)
    {Q : Phase → Unit → Prop} (h : Q p ()) : Follows c (Node.measure m n) p Q := by
  refine follows_ask (fun _ => rfl) (fun _ => ?_) fun _ => h
  cases m with
  | active kind => exact absurd rfl (hm kind)
  | _ => rfl

/-- What is owed is counted. -/
theorem follows_count (place : Option ConnectionKind) (kind : ConnectionKind) (n : Int)
    {Q : Phase → Unit → Prop} (h : Q (.inPlace place) ()) :
    Follows c (Node.measure (.active kind) n) (.owing place kind n) Q :=
  ⟨fun _ => rfl, fun _ _ => ⟨_, .counted, h⟩⟩

/-- The phase once an entry was published. -/
def Phase.published (kind : ConnectionKind) (fresh : Bool) : Phase :=
  if fresh then .owing (some kind) kind 1 else .inside kind

theorem follows_countRegistered (kind : ConnectionKind) (replaced : Bool) :
    Follows c (countRegistered kind replaced) (.published kind !replaced)
      fun p _ => p = .inside kind := by
  refine Follows.bind (follows_measure (.registered kind) 1 nofun ?_)
  cases replaced with
  | true => rfl
  | false => exact follows_count (some kind) kind 1 rfl

/-- The phase once an entry was taken back. -/
def Phase.withdrawn (kind : ConnectionKind) (fresh : Bool) : Phase :=
  if fresh then .inside kind else .owing (some kind) kind (-1)

theorem follows_countWithdrawn (kind : ConnectionKind) (replaced : Bool) :
    Follows c (countWithdrawn kind true replaced) (.withdrawn kind !replaced)
      fun p _ => p = .inside kind := by
  cases replaced with
  | true => exact follows_count (some kind) kind (-1) rfl
  | false => exact rfl

/-! ### Publishing -/

theorem next_published (kind : ConnectionKind) (id : ConnectionId) (h : Nat) (fresh : Bool) :
    Phase.Next c (.enrolled kind id h fresh) (.published kind) (.published kind fresh) := by
  cases fresh with
  | true => exact .published
  | false => exact .renewed

theorem next_withdrawn (kind : ConnectionKind) (id : ConnectionId) (h : Nat) (fresh : Bool) :
    Phase.Next c (.enrolled kind id h fresh) (.dropped kind id) (.withdrawn kind fresh) := by
  cases fresh with
  | true => exact .undone
  | false => exact .lost

/-- An entry that was put in place is published, or is still to be published after a failure. -/
def Attempted (kind : ConnectionKind) (id : ConnectionId) (h : Nat) (fresh : Bool) (p : Phase) :
    Except CacheError Unit → Prop
  | .ok _ => p = .published kind fresh
  | .error _ => p = .enrolled kind id h fresh

theorem follows_refreshGroup (e : GroupEntry) (h : Nat) (fresh : Bool) :
    Follows c (cached (l.cache.refreshGroup e)) (.enrolled .groupSecret id h fresh)
      (Attempted .groupSecret id h fresh) := by
  rw [SessionCache.cached_refreshGroup]
  refine follows_ask nofun (fun _ => rfl) fun now => ⟨nofun, ?_⟩
  rintro (err | ⟨⟩) -
  · exact ⟨_, .nothing, rfl⟩
  · exact ⟨_, next_published _ _ _ _, rfl⟩

theorem follows_publishUser (e : UserEntry) (h : Nat) (fresh : Bool) :
    Follows c (cached (l.cache.publishUser e)) (.enrolled .endUser id h fresh)
      (Attempted .endUser id h fresh) := by
  rw [SessionCache.cached_publishUser]
  refine follows_ask nofun (fun _ => rfl) fun now => ⟨nofun, ?_⟩
  rintro (err | ⟨⟩) -
  · exact ⟨_, .nothing, rfl⟩
  · refine ⟨_, .aside nofun, nofun, ?_⟩
    rintro (err | ⟨⟩) -
    · exact ⟨_, .nothing, rfl⟩
    · exact ⟨_, next_published _ _ _ _, rfl⟩

theorem follows_restoreUser (failed : UserEntry) :
    Follows c (l.restoreUser failed) (.inside kind) fun p _ => p = .inside kind := by
  rw [l.restoreUser_eq]
  refine follows_ask nofun (fun _ => rfl) fun d => Follows.bind (follows_cache ?_ ?_)
  · cases survivor? d failed.userId <;> exact only_cache _
  · rintro (err | ⟨⟩)
    · exact follows_log _ rfl
    · exact rfl

/-! ### Registering -/

theorem follows_enrolUser (s : UserSession) (own : c.registers? = some s.entry.connection) :
    Follows c (l.enrolUser s) (.inside .endUser) fun p _ => p = .inside .endUser := by
  rw [l.enrolUser_eq]
  refine ⟨nofun, fun replaced _ => ⟨_, .put own, Follows.bind ?_⟩⟩
  refine (follows_publishUser s.entry _ _).mono ?_
  rintro p (err | ⟨⟩) rfl
  · refine ⟨nofun, ?_⟩
    rintro (_ | _) hexpected
    · -- nobody else removes the connection, so it cannot have gone
      exact absurd rfl (hexpected _ _ _ _ rfl)
    · refine ⟨_, next_withdrawn _ _ _ _, Follows.bind ?_⟩
      refine (follows_countWithdrawn .endUser replaced).mono ?_
      rintro p ⟨⟩ rfl
      exact Follows.bind ((follows_restoreUser s.entry).mono fun _ _ hp => hp)
  · refine Follows.bind (follows_log _ (Follows.bind ?_))
    exact (follows_countRegistered .endUser replaced).mono fun _ _ hp => hp

theorem follows_enrolGroup (s : GroupSession) (own : c.registers? = some s.entry.connection) :
    Follows c (l.enrolGroup s) (.inside .groupSecret) fun p _ => p = .inside .groupSecret := by
  rw [l.enrolGroup_eq]
  refine ⟨nofun, fun replaced _ => ⟨_, .put own, Follows.bind ?_⟩⟩
  refine (follows_refreshGroup s.entry _ _).mono ?_
  rintro p (err | ⟨⟩) rfl
  · refine ⟨nofun, ?_⟩
    rintro (_ | _) hexpected
    · exact absurd rfl (hexpected _ _ _ _ rfl)
    · refine ⟨_, next_withdrawn _ _ _ _, Follows.bind ?_⟩
      exact (follows_countWithdrawn .groupSecret replaced).mono fun _ _ hp => hp
  · refine Follows.bind (follows_log _ (Follows.bind ?_))
    exact (follows_countRegistered .groupSecret replaced).mono fun _ _ hp => hp

theorem follows_holding {patience : Option Duration} {body : NodeProgram α}
    (h : Follows c body (.inside kind) fun p _ => p = .inside kind) :
    Follows c (Node.holding kind patience body) .outside fun p _ => p = .outside := by
  rw [holding_eq]
  refine ⟨nofun, ?_⟩
  rintro (_ | _) -
  · exact ⟨_, .nothing, rfl⟩
  · refine ⟨_, .took, Follows.bind (h.mono ?_)⟩
    rintro p a rfl
    exact ⟨nofun, fun _ _ => ⟨_, .gave, rfl⟩⟩

theorem follows_registering {body : NodeProgram (Except OpenError α)}
    (h : Follows c body (.inside kind) fun p _ => p = .inside kind) :
    Follows c (l.registering kind body) .outside fun p _ => p = .outside := by
  rw [l.registering_eq]
  refine Follows.bind ((follows_holding h).mono ?_)
  rintro p (_ | r) rfl
  · exact Follows.bind (follows_measure (.lockTimeouts kind) 1 nofun rfl)
  · exact rfl

theorem follows_registerUser (t : Transport) (own : c.registers? = some id) :
    Follows c (l.registerUser id t) .outside fun p _ => p = .outside := by
  rw [l.registerUser_eq]
  cases t.attributes.token? with
  | none => exact rfl
  | some token =>
    refine follows_ask nofun (fun _ => rfl) ?_
    rintro (err | principal)
    · exact rfl
    · exact follows_registering (follows_enrolUser _ own)

theorem follows_registerGroup (t : Transport) (own : c.registers? = some id) :
    Follows c (l.registerGroup id t) .outside fun p _ => p = .outside := by
  rw [l.registerGroup_eq]
  cases t.attributes.group? with
  | none => exact rfl
  | some group => exact follows_registering (follows_enrolGroup _ own)

theorem follows_onOpen (t : Transport) :
    Follows (.opens t) (l.onOpen t) .outside fun p _ => p = .outside := by
  have hregister : Follows (.opens t) (l.register t) .outside fun p _ => p = .outside := by
    rw [l.register_eq]
    cases hid : t.id? with
    | none => exact rfl
    | some id =>
      cases hkind : t.attributes.classify with
      | none => exact rfl
      | some kind =>
        have own : (Errand.opens t).registers? = some id := by
          rw [Errand.registers?, hkind, hid]
          rfl
        cases kind with
        | endUser =>
          exact Follows.bind ((follows_registerUser t own).mono fun _ _ hp => hp)
        | groupSecret =>
          exact Follows.bind ((follows_registerGroup t own).mono fun _ _ hp => hp)
  rw [l.onOpen_eq]
  refine Follows.bind (hregister.mono ?_)
  rintro p res rfl
  split
  · exact rfl
  · exact Follows.bind (follows_log _ rfl)
  · refine Follows.bind (follows_measure (.rejected _) 1 nofun ?_)
    exact follows_ask nofun (fun _ => rfl) fun _ => rfl

/-! ### Publishing again and removing -/

theorem follows_republishAll {publish : ConnectionId → NodeProgram (Except CacheError Bool)}
    (h : ∀ id, Follows c (publish id) (.inside kind) fun p _ => p = .inside kind)
    (ids : List ConnectionId) :
    Follows c (republishAll kind publish ids) .outside fun p _ => p = .outside := by
  induction ids with
  | nil => exact rfl
  | cons id rest ih =>
    rw [republishAll_cons]
    refine Follows.bind ((follows_holding (h id)).mono ?_)
    rintro p (_ | err | _ | _) rfl
    · exact ih
    · exact rfl
    · exact ih
    · exact Follows.bind (ih.mono fun _ _ hp => hp)

theorem follows_republish : Follows c l.republish .outside fun p _ => p = .outside := by
  rw [l.republish_eq]
  refine follows_ask nofun (fun _ => rfl) fun d => Follows.bind ?_
  refine (follows_republishAll (fun id => ?_) _).mono ?_
  · rw [l.republishUser_eq]
    refine follows_ask nofun (fun _ => rfl) fun d => ?_
    cases d.userSession? id with
    | none => exact rfl
    | some s => exact Follows.bind (follows_cache (only_cache _) fun _ => rfl)
  · rintro p (err | m) rfl
    · exact rfl
    · refine follows_ask nofun (fun _ => rfl) fun d => Follows.bind ?_
      refine (follows_republishAll (fun id => ?_) _).mono fun _ _ hp => hp
      rw [l.republishGroup_eq]
      refine follows_ask nofun (fun _ => rfl) fun d => ?_
      cases d.groupSession? id with
      | none => exact rfl
      | some s => exact Follows.bind (follows_cache (only_cache _) fun _ => rfl)

theorem follows_onClose (own : c.removes? = some id) :
    Follows c (onClose id) .outside fun p _ => p = .outside := by
  rw [onClose_eq]
  refine ⟨nofun, ?_⟩
  rintro (_ | kind) -
  · exact ⟨_, .nothing, rfl⟩
  · refine ⟨_, .removed own, Follows.bind (follows_count none kind (-1) ?_)⟩
    exact Follows.bind (follows_log _ rfl)

theorem follows_program (c : Errand) :
    Follows c (c.program l) .outside fun p _ => p = .outside := by
  have hend : ∀ {α : Type} {prog : NodeProgram α},
      Follows c prog .outside (fun p _ => p = .outside) →
      Follows c (prog.bind fun _ => .done ()) .outside fun p _ => p = .outside :=
    fun h => Follows.bind (h.mono fun _ _ hp => hp)
  cases c with
  | opens t => exact hend (follows_onOpen t)
  | registersUser id t => exact hend (follows_registerUser t rfl)
  | registersGroup id t => exact hend (follows_registerGroup t rfl)
  | republishes => exact hend follows_republish
  | closes id => exact hend (follows_onClose rfl)
  | fails t error =>
    refine hend (Follows.bind (follows_log _ ?_))
    refine Follows.bind (follows_ask nofun (fun _ => rfl) fun _ => ?_)
    cases hid : t.id? with
    | none => exact rfl
    | some id => exact follows_onClose hid

end

end Lifecycle

end SessionGateway
