import SessionGateway.Proofs.Lifecycle.Republishing

/-!
# After a connection was closed

What a directory holds under an id once a call that removes it has ended, for as long as nobody
registers the id again, while any other calls register, publish again and remove. Removing takes a
connection from one scope, the users' if they hold it. So nothing is left of the connection unless
both scopes held its id, and then the group's session stays.
-/

namespace SessionGateway

open Node (Answers Request)
open Relation (ReflTransGen)

namespace Node.Request

/-- The scope and the id under which a session is put in place. -/
def registers? : Request → Option (ConnectionKind × ConnectionId)
  | .addUser s => some (.endUser, s.entry.connection)
  | .addGroup s => some (.groupSecret, s.entry.connection)
  | _ => none

/-- The id of a session that may be taken away. -/
def takes? : Request → Option ConnectionId
  | .remove id | .withdrawUser id _ | .withdrawGroup id _ => some id
  | _ => none

end Node.Request

namespace Directory

/-- There is nothing of a connection: no search finds it, and nothing that is sent is passed to what
was registered under its id. -/
structure Gone (d : Directory) (id : ConnectionId) : Prop where
  contains : d.contains id = false
  connection : ∀ text cs, d.sendToConnection id text cs = (false, cs)
  users : ∀ userId, ∀ e ∈ d.sessionsOfUser userId, e.1 ≠ id
  groups : ∀ group, ∀ e ∈ d.sessionsOfGroup group, e.1 ≠ id

/-- Both scopes hold an id. -/
def Doubles (d : Directory) (id : ConnectionId) : Prop :=
  (d.userSession? id).isSome = true ∧ (d.groupSession? id).isSome = true

variable {d : Directory} {id : ConnectionId} {r : Request}

theorem contains_eq_false_iff : d.contains id = false ↔ d.Absent id := by
  rw [contains, kindOf, Absent, Table.contains, Table.contains, userSession?, groupSession?]
  cases d.users.get? id with
  | some s => simp
  | none =>
    cases d.groups.get? id with
    | some s => simp
    | none => simp

theorem Absent.gone (h : d.Absent id) : d.Gone id := by
  obtain ⟨huser, hgroup⟩ := h
  refine ⟨contains_eq_false_iff.mpr ⟨huser, hgroup⟩, fun text cs => ?_, ?_, ?_⟩
  · rw [userSession?] at huser
    rw [groupSession?] at hgroup
    rw [sendToConnection, transport?, huser, hgroup]
    rfl
  · rintro userId ⟨id', s⟩ he rfl
    have hheld := d.users.mem_entries_iff.mp (List.mem_of_mem_filter he)
    rw [userSession?, hheld] at huser
    cases huser
  · rintro group ⟨id', s⟩ he rfl
    have hheld := d.groups.mem_entries_iff.mp (List.mem_of_mem_filter he)
    rw [groupSession?, hheld] at hgroup
    cases hgroup

theorem gone_iff_absent : d.Gone id ↔ d.Absent id :=
  ⟨fun h => contains_eq_false_iff.mp h.contains, Absent.gone⟩

/-! ### One request -/

theorem userSession?_remove (d : Directory) (id : ConnectionId) :
    (d.remove id).2.userSession? id = none := by
  rw [remove]
  split
  · rw [userSession?, Table.get?_erase, if_pos rfl]
  · next hnone =>
    have hnone : d.userSession? id = none := Option.not_isSome_iff_eq_none.mp hnone
    split
    · exact hnone
    · exact hnone

/-- Removing stops at the users if they hold the id. -/
theorem groupSession?_remove (d : Directory) (id : ConnectionId) :
    (d.remove id).2.groupSession? id =
      if (d.userSession? id).isSome then d.groupSession? id else none := by
  rw [remove, show d.users.contains id = (d.userSession? id).isSome from rfl]
  split
  · rfl
  · split
    · rw [groupSession?, Table.get?_erase, if_pos rfl]
    · next hnone => exact Option.not_isSome_iff_eq_none.mp hnone

/-- Without being registered as a user's no session comes to be under an id. -/
theorem userSession?_of_directoryAfter (hr : r.registers? ≠ some (.endUser, id)) {s : UserSession}
    (h : (r.directoryAfter d).userSession? id = some s) : d.userSession? id = some s := by
  cases r with
  | addUser s' =>
    rw [Node.Request.directoryAfter, userSession?_addUser] at h
    split at h
    · next heq => exact absurd (congrArg (fun i => some (ConnectionKind.endUser, i)) heq) hr
    · exact h
  | addGroup s' => exact h
  | _ => exact (Lifecycle.loses_directoryAfter (by rintro _ ⟨⟩) (by rintro _ ⟨⟩)).users id s h

theorem groupSession?_of_directoryAfter (hr : r.registers? ≠ some (.groupSecret, id))
    {s : GroupSession} (h : (r.directoryAfter d).groupSession? id = some s) :
    d.groupSession? id = some s := by
  cases r with
  | addGroup s' =>
    rw [Node.Request.directoryAfter, groupSession?_addGroup] at h
    split at h
    · next heq => exact absurd (congrArg (fun i => some (ConnectionKind.groupSecret, i)) heq) hr
    · exact h
  | addUser s' => exact h
  | _ => exact (Lifecycle.loses_directoryAfter (by rintro _ ⟨⟩) (by rintro _ ⟨⟩)).groups id s h

/-- A group's session stays while it is neither replaced nor taken away. -/
theorem groupSession?_directoryAfter (hr : r.registers? ≠ some (.groupSecret, id))
    (htakes : r.takes? ≠ some id) : (r.directoryAfter d).groupSession? id = d.groupSession? id := by
  have herase : ∀ id', id' ≠ id → (d.groups.erase id').get? id = d.groups.get? id := by
    intro id' hne
    rw [Table.get?_erase, if_neg hne.symm]
  cases r with
  | addGroup s =>
    rw [Node.Request.directoryAfter, groupSession?_addGroup, if_neg]
    rintro rfl
    exact hr rfl
  | withdrawUser id' t => exact withdrawUser_groups d id' t id
  | withdrawGroup id' t =>
    have hne : id' ≠ id := fun heq => htakes (congrArg some heq)
    obtain heq | heq := d.withdrawGroup_eq id' t
    · rw [Node.Request.directoryAfter, heq]
    · rw [Node.Request.directoryAfter, heq]
      exact herase id' hne
  | remove id' =>
    have hne : id' ≠ id := fun heq => htakes (congrArg some heq)
    rw [Node.Request.directoryAfter, remove]
    split
    · rfl
    · split
      · exact herase id' hne
      · rfl
  | _ => rfl

end Directory

/-! ### Records -/

/-- What a node was asked for, newest first, each request with the directory before it. -/
abbrev Record : Type := List (Directory × Request)

namespace Record

/-- Nobody registers an id. -/
def Spares (id : ConnectionId) (h : Record) : Prop :=
  ∀ e ∈ h, e.2.registers?.map Prod.snd ≠ some id

/-- The requests lead from no connections to a directory. -/
inductive Leads (b : BrokerId) : Record → Directory → Prop
  | start : Leads b [] (.empty b)
  | ask {h : Record} {d : Directory} (r : Request) (leads : Leads b h d) :
      Leads b ((d, r) :: h) (r.directoryAfter d)

variable {b : BrokerId} {d d' : Directory} {r : Request} {since before : Record}
  {kind : ConnectionKind} {id : ConnectionId}

theorem Leads.split (h : Leads b (since ++ (d, r) :: before) d') : Leads b before d := by
  induction since generalizing d' with
  | nil => cases h with | ask _ leads => exact leads
  | cons e since ih => cases h with | ask _ leads => exact ih leads

/-- Without being registered as one of a kind an id is not held as one. -/
theorem Leads.held?_eq_none (h : Leads b before d)
    (hnone : ∀ e ∈ before, e.2.registers? ≠ some (kind, id)) : d.held? kind id = none := by
  induction h with
  | start => cases kind <;> rfl
  | @ask h d r leads ih =>
    rw [List.forall_mem_cons] at hnone
    have hbefore := ih hnone.2
    refine Option.eq_none_iff_forall_ne_some.mpr fun e he => ?_
    cases kind with
    | endUser =>
      obtain ⟨s, hs, -⟩ := Option.map_eq_some_iff.mp he
      rw [Directory.held?, Directory.userSession?_of_directoryAfter hnone.1 hs] at hbefore
      cases hbefore
    | groupSecret =>
      obtain ⟨s, hs, -⟩ := Option.map_eq_some_iff.mp he
      rw [Directory.held?, Directory.groupSession?_of_directoryAfter hnone.1 hs] at hbefore
      cases hbefore

theorem registers?_ne (h : r.registers?.map Prod.snd ≠ some id) (kind : ConnectionKind) :
    r.registers? ≠ some (kind, id) :=
  fun heq => h (congrArg (Option.map Prod.snd) heq)

theorem Leads.userSession? (h : Leads b (since ++ (d, .remove id) :: before) d')
    (hspares : Spares id since) : d'.userSession? id = none := by
  induction since generalizing d' with
  | nil => cases h with | ask _ leads => exact d.userSession?_remove id
  | cons e since ih =>
    obtain ⟨hfirst, hrest⟩ := List.forall_mem_cons.mp hspares
    cases h with
    | ask r leads =>
      refine Option.eq_none_iff_forall_ne_some.mpr fun s hs => ?_
      have hbefore := Directory.userSession?_of_directoryAfter (registers?_ne hfirst .endUser) hs
      rw [ih leads hrest] at hbefore
      cases hbefore

/-- What is left under an id is a group's session that was there beside a user's. -/
theorem Leads.groupSession? (h : Leads b (since ++ (d, .remove id) :: before) d')
    (hspares : Spares id since) {s : GroupSession} (hs : d'.groupSession? id = some s) :
    d.Doubles id ∧ d.groupSession? id = some s := by
  induction since generalizing d' with
  | nil =>
    cases h with
    | ask _ leads =>
      rw [Node.Request.directoryAfter, d.groupSession?_remove] at hs
      split at hs
      · next huser => exact ⟨⟨huser, by rw [hs]; rfl⟩, hs⟩
      · cases hs
  | cons e since ih =>
    obtain ⟨hfirst, hrest⟩ := List.forall_mem_cons.mp hspares
    cases h with
    | ask r leads =>
      have hne := registers?_ne hfirst .groupSecret
      exact ih leads hrest (Directory.groupSession?_of_directoryAfter hne hs)

/-- It is left until the id is taken away once more. -/
theorem Leads.lingers (h : Leads b (since ++ (d, .remove id) :: before) d')
    (hspares : Spares id since) (hdoubles : d.Doubles id)
    (huntaken : ∀ e ∈ since, e.2.takes? ≠ some id) :
    d'.groupSession? id = d.groupSession? id := by
  induction since generalizing d' with
  | nil =>
    cases h with
    | ask _ leads => rw [Node.Request.directoryAfter, d.groupSession?_remove, if_pos hdoubles.1]
  | cons e since ih =>
    obtain ⟨hfirst, hrest⟩ := List.forall_mem_cons.mp hspares
    obtain ⟨htakes, hlater⟩ := List.forall_mem_cons.mp huntaken
    cases h with
    | ask r leads =>
      have hne := registers?_ne hfirst .groupSecret
      rw [Directory.groupSession?_directoryAfter hne htakes, ih leads hrest hlater]

end Record

namespace Lifecycle

open Record (Leads Spares)

/-! ### Calls on record -/

/-- Any calls may be made at any time, the store may fail without effect, and between two requests
anything may happen that leaves the directory of the node alone. What is asked for is recorded. -/
def recorded (l : Lifecycle) : Ensemble Node.interface Errand Unit (Cluster × Record) where
  program := Errand.program l
  answers _ r s x s' := Answers l.broker true r s.1 x s'.1 ∧
    s'.2 = (s.1.directory l.broker, r) :: s.2
  drifts s s' := s'.1.directory l.broker = s.1.directory l.broker ∧ s'.2 = s.2
  admits _ _ := True
  blank := ()
  notes _ _ _ := ()

/-- The cluster and its record, with the calls under way. -/
abbrev Chapter : Type := Ensemble.Scene Node.interface Errand Unit (Cluster × Record)

/-- A node that holds no connection and was asked for nothing. -/
def Fresh (l : Lifecycle) (s : Cluster × Record) : Prop :=
  s.1.directory l.broker = .empty l.broker ∧ s.2 = []

section

variable {l : Lifecycle} {x y z : Chapter} {c : Errand} {id : ConnectionId} {α : Type}

/-- The record is of what happened to the directory. -/
def Chapter.IsTrue (l : Lifecycle) (x : Chapter) : Prop :=
  Leads l.broker x.state.2 (x.state.1.directory l.broker)

theorem isTrue_of_answer {r : Request} {a : r.Answer} (h : x.IsTrue l)
    (ha : (recorded l).answers () r x.state a y.state) : y.IsTrue l := by
  obtain ⟨hanswer, hrecord⟩ := ha
  rw [Chapter.IsTrue, hrecord, directory_of_answer hanswer]
  exact .ask r h

theorem isTrue_of_step (h : x.IsTrue l) (hstep : (recorded l).Step x y) : y.IsTrue l := by
  cases hstep with
  | drift hdrift =>
    obtain ⟨hdirectory, hrecord⟩ := hdrift
    rw [Chapter.IsTrue, hdirectory, hrecord]
    exact h
  | call => exact h
  | answer hanswer => exact isTrue_of_answer h hanswer

theorem isTrue_of_steps (h : x.IsTrue l) (hsteps : ReflTransGen (recorded l).Step x y) :
    y.IsTrue l := by
  induction hsteps with
  | refl => exact h
  | tail _ hstep ih => exact isTrue_of_step ih hstep

theorem isTrue_of_reached (h : (recorded l).Reached (Fresh l) x) : x.IsTrue l := by
  induction h with
  | start hstart =>
    obtain ⟨hdirectory, hrecord⟩ := hstart
    rw [Chapter.IsTrue, hdirectory, hrecord]
    exact .start
  | step _ hstep ih => exact isTrue_of_step ih hstep

theorem isTrue_of_runs {p : NodeProgram α} {trace : List (Exchange Node.interface Chapter)}
    {a : α} (h : x.IsTrue l) (hrun : p.Runs (recorded l).amid x trace a y) : y.IsTrue l := by
  induction hrun with
  | done a x => exact h
  | ask answered rest ih =>
    obtain ⟨w, hsteps, hanswer, -⟩ := answered
    exact ih (isTrue_of_answer (isTrue_of_steps h hsteps) hanswer)

theorem suffix_of_steps (h : ReflTransGen (recorded l).Step x y) : x.state.2 <:+ y.state.2 := by
  induction h with
  | refl => exact List.suffix_rfl
  | tail _ hstep ih =>
    cases hstep with
    | drift hdrift =>
      simp only [hdrift.2]
      exact ih
    | call => exact ih
    | answer hanswer =>
      simp only [hanswer.2]
      exact ih.trans (List.suffix_cons _ _)

/-- All that a program asks for amid the calls comes to be on record. -/
theorem recorded_of_runs {p : NodeProgram α} {trace : List (Exchange Node.interface Chapter)}
    {a : α} (h : p.Runs (recorded l).amid x trace a y) : x.state.2 <:+ y.state.2 ∧
      ∀ e ∈ trace, ∃ since d before,
        y.state.2 = since ++ (d, e.request) :: (before ++ x.state.2) := by
  induction h with
  | done a x => exact ⟨List.suffix_rfl, fun _ he => absurd he List.not_mem_nil⟩
  | @ask r next x x' y a trace b answered rest ih =>
    obtain ⟨w, hsteps, ⟨-, hrecord⟩, -⟩ := answered
    obtain ⟨meanwhile, hmeanwhile⟩ := suffix_of_steps hsteps
    obtain ⟨⟨since, hsince⟩, hrest⟩ := ih
    rw [hrecord, ← hmeanwhile] at hsince hrest
    refine ⟨⟨since ++ (w.state.1.directory l.broker, r) :: meanwhile, ?_⟩,
      List.forall_mem_cons.mpr ⟨?_, fun e he => ?_⟩⟩
    · rw [← hsince, List.append_assoc, List.cons_append]
    · exact ⟨since, _, meanwhile, hsince.symm⟩
    · obtain ⟨since, d, before, heq⟩ := hrest e he
      refine ⟨since, d, before ++ (w.state.1.directory l.broker, r) :: meanwhile, ?_⟩
      rw [heq, List.append_assoc, List.cons_append]

theorem exists_remove_of_onClose {trace : List (Exchange Node.interface Chapter)}
    {kind : Option ConnectionKind} (h : (onClose id).Runs (recorded l).amid x trace kind y) :
    ∃ e ∈ trace, e.request = .remove id := by
  rw [onClose_eq] at h
  cases h with
  | ask answered rest => exact ⟨_, List.mem_cons_self, rfl⟩

/-- A call that removes a connection asks for that. -/
theorem exists_remove_of_run {trace : List (Exchange Node.interface Chapter)}
    (hremoves : c.removes? = some id)
    (h : (c.program l).Runs (recorded l).amid x trace () y) :
    ∃ e ∈ trace, e.request = .remove id := by
  cases c with
  | closes id' =>
    obtain rfl := Option.some.inj hremoves
    obtain ⟨trace, kind, w, rest, rfl, hclose, -⟩ := h.of_bind
    obtain ⟨e, he, hrequest⟩ := exists_remove_of_onClose hclose
    exact ⟨e, List.mem_append_left _ he, hrequest⟩
  | fails t error =>
    have hid : t.id? = some id := hremoves
    obtain ⟨trace, kind, w, rest, rfl, hfails, -⟩ := h.of_bind
    rw [onTransportError_eq] at hfails
    obtain ⟨log, _, v, trace, rfl, -, hfails⟩ := hfails.of_bind
    cases hfails with
    | ask answered hclose =>
      simp only [hid] at hclose
      obtain ⟨e, he, hrequest⟩ := exists_remove_of_onClose hclose
      refine ⟨e, List.mem_append_left _ (List.mem_append_right _ ?_), hrequest⟩
      exact List.mem_cons_of_mem _ he
  | opens | registersUser | registersGroup | republishes => cases hremoves

end

/-- What became of an id that was removed from a directory, since nobody registers it. -/
structure Departed (id : ConnectionId) (since : Record) (d : Directory) (before : Record)
    (d' : Directory) : Prop where
  /-- Nothing is left, unless a user's session and a group's were under the id. -/
  gone : ¬ d.Doubles id → d'.Gone id
  /-- Then the group's is left, until the id is taken away once more. -/
  gone_iff : (∀ e ∈ since, e.2.takes? ≠ some id) → (d'.Gone id ↔ ¬ d.Doubles id)
  left : ∀ s, d'.groupSession? id = some s → d.groupSession? id = some s
  user : d'.userSession? id = none
  /-- It takes a registration as a user and one as a member of a group. -/
  single : ∀ kind, (∀ e ∈ before, e.2.registers? ≠ some (kind, id)) → ¬ d.Doubles id

theorem departed_of_leads {b : BrokerId} {id : ConnectionId} {since before : Record}
    {d d' : Directory} (h : Leads b (since ++ (d, .remove id) :: before) d')
    (hspares : Spares id since) : Departed id since d before d' := by
  have huser := h.userSession? hspares
  have hgone : ¬ d.Doubles id → d'.Gone id := by
    intro hsingle
    refine Directory.Absent.gone ⟨huser, Option.eq_none_iff_forall_ne_some.mpr fun s hs => ?_⟩
    exact hsingle (h.groupSession? hspares hs).1
  refine ⟨hgone, fun huntaken => ⟨fun hgone' hdoubles => ?_, hgone⟩,
    fun s hs => (h.groupSession? hspares hs).2, huser, fun kind hnone hdoubles => ?_⟩
  · obtain ⟨-, hnone⟩ := Directory.gone_iff_absent.mp hgone'
    have hsome := hdoubles.2
    rw [← h.lingers hspares hdoubles huntaken, hnone] at hsome
    cases hsome
  · have hheld := h.split.held?_eq_none hnone
    cases kind with
    | endUser =>
      have hsome := hdoubles.1
      rw [Option.map_eq_none_iff.mp hheld] at hsome
      cases hsome
    | groupSecret =>
      have hsome := hdoubles.2
      rw [Option.map_eq_none_iff.mp hheld] at hsome
      cases hsome

/-- A call that removes a connection asks the directory for it. From then on, until somebody
registers the id again, nothing is left of the connection, save for a group's session that was under
the id beside a user's. -/
theorem departed_once_closed {l : Lifecycle} {x y z : Chapter} {c : Errand} {id : ConnectionId}
    {trace : List (Exchange Node.interface Chapter)}
    (hreached : (recorded l).Reached (Fresh l) x) (hremoves : c.removes? = some id)
    (hrun : (c.program l).Runs (recorded l).amid x trace () y)
    (hlater : ReflTransGen (recorded l).Step y z) :
    (∃ since d before, z.state.2 = since ++ (d, .remove id) :: (before ++ x.state.2)) ∧
      ∀ since d before, z.state.2 = since ++ (d, .remove id) :: before → Spares id since →
        Departed id since d before (z.state.1.directory l.broker) := by
  obtain ⟨e, he, hrequest⟩ := exists_remove_of_run hremoves hrun
  obtain ⟨-, hrecorded⟩ := recorded_of_runs hrun
  obtain ⟨since, d, before, hy⟩ := hrecorded e he
  obtain ⟨later, hz⟩ := suffix_of_steps hlater
  rw [hrequest] at hy
  refine ⟨⟨later ++ since, d, before, by rw [← hz, hy, List.append_assoc]⟩, ?_⟩
  intro since d before hz hspares
  have htrue := isTrue_of_steps (isTrue_of_runs (isTrue_of_reached hreached) hrun) hlater
  rw [Chapter.IsTrue, hz] at htrue
  exact departed_of_leads htrue hspares

/-! ### One that goes and one that stays -/

theorem answers_recorded (l : Lifecycle) {r : Request} {s : Cluster × Record} {x : r.Answer}
    {s' : Cluster × Record} (hs : Node.Behaves true s.1.store)
    (hx : (if Node.isFree l.broker s.1 r then some (s.1.perform l.broker r) else none).map
      (fun p => (p.1, p.2, (s.1.directory l.broker, r) :: s.2)) = some (x, s')) :
    (recorded l).answers () r s x s' ∧ Node.Behaves true s'.1.store := by
  obtain ⟨⟨a, k⟩, hfree, heq⟩ := Option.map_eq_some_iff.mp hx
  obtain ⟨rfl, rfl⟩ := Prod.mk.inj heq
  obtain ⟨hanswer, hbehaves⟩ := answers_of_free l hs hfree
  exact ⟨⟨hanswer, rfl⟩, hbehaves⟩

/-- Calls on record as the cluster answers them by itself. -/
def recording (l : Lifecycle) : Ensemble.Player (recorded l) where
  answer _ r s := (if Node.isFree l.broker s.1 r then some (s.1.perform l.broker r) else none).map
    fun p => (p.1, p.2, (s.1.directory l.broker, r) :: s.2)
  drift t s := some ({ s.1 with now := .ofMillis t }, s.2)
  allow _ _ := true
  Good s := Node.Behaves true s.1.store
  answers := answers_recorded l
  drifts {t s s'} hs hd := by
    obtain rfl := Option.some.inj hd
    exact ⟨⟨rfl, rfl⟩, hs⟩
  admits _ := trivial

/-- What came on record since another moment. -/
def newsSince (x y : Chapter) : Record :=
  y.state.2.take (y.state.2.length - x.state.2.length)

theorem news_append {x y : Chapter} (h : x.state.2 <:+ y.state.2) :
    y.state.2 = newsSince x y ++ x.state.2 := by
  obtain ⟨new, hnew⟩ := h
  rw [newsSince, ← hnew, List.length_append, Nat.add_sub_cancel, List.take_left]

/-- The user's other connection opens while the first one closes, and all is published again later.
Nothing is left of the first. -/
theorem visitor_departed : ∃ (x y z : Chapter) (trace : List (Exchange Node.interface Chapter)),
    (recorded porter).Reached (Fresh porter) x ∧
    (x.state.1.directory porter.broker).contains ⟨"c"⟩ = true ∧
    ((Errand.closes ⟨"c"⟩).program porter).Runs (recorded porter).amid x trace () y ∧
    ReflTransGen (recorded porter).Step y z ∧
    (z.state.1.directory porter.broker).Gone ⟨"c"⟩ ∧
    (z.state.1.directory porter.broker).contains ⟨"d"⟩ = true := by
  have hplay : ((recording porter).play [.call (.opens visitor), .advance 0 20]
      ⟨(doorstep, []), []⟩).any (fun x : Chapter =>
      (x.state.1.directory porter.broker).contains ⟨"c"⟩ &&
      ((recording porter).weave [[.call (.opens companion), .advance 0 20], [], []]
        ((Errand.closes ⟨"c"⟩).program porter) x).any
          fun res : List (Exchange Node.interface Chapter) × Unit × Chapter =>
            res.2.2.state.1.store.intrusion.isNone && res.2.2.state.1.store.purges &&
            ((recording porter).play [.call .republishes, .advance 0 20] res.2.2).any
              fun z : Chapter =>
                (newsSince x z).all (fun e => e.2.registers?.map Prod.snd ≠ some ⟨"c"⟩) &&
                z.state.2.all (fun e => e.2.registers? ≠ some (.groupSecret, ⟨"c"⟩)) &&
                (z.state.1.directory porter.broker).contains ⟨"d"⟩) = true := by decide +kernel
  obtain ⟨x, hx, htest⟩ := (Option.any_eq_true _ _).mp hplay
  obtain ⟨hthere, htest⟩ := Bool.and_eq_true_iff.mp htest
  obtain ⟨⟨trace, _, y⟩, hwoven, htest⟩ := (Option.any_eq_true _ _).mp htest
  simp only [Bool.and_eq_true, Option.isNone_iff_eq_none] at htest
  obtain ⟨⟨hintrusion, hpurges⟩, htest⟩ := htest
  obtain ⟨z, hz, htest⟩ := (Option.any_eq_true _ _).mp htest
  simp only [Bool.and_eq_true, decide_eq_true_eq, List.all_eq_true] at htest
  obtain ⟨⟨hspares, hsingle⟩, hother⟩ := htest
  have hgood : Node.Behaves true doorstep.store := ⟨rfl, rfl, nofun⟩
  obtain ⟨hsteps, hgood'⟩ := Ensemble.Player.steps_play (x := ⟨(doorstep, []), []⟩) hgood hx
  have hstart : Fresh porter (doorstep, []) := ⟨rfl, rfl⟩
  have hreached := (Ensemble.Reached.start hstart).steps hsteps
  have hrun := Ensemble.Player.runs_weave hgood' hwoven
  have hlast : Node.Behaves true y.state.1.store := ⟨hintrusion, hpurges, nofun⟩
  have hlater := (Ensemble.Player.steps_play (x := y) hlast hz).1
  obtain ⟨⟨since, d, before, hrecord⟩, hdeparted⟩ := departed_once_closed hreached rfl hrun hlater
  have hnews := news_append ((recorded_of_runs hrun).1.trans (suffix_of_steps hlater))
  have hsince : Spares ⟨"c"⟩ since := by
    have hsplit : since ++ (d, .remove ⟨"c"⟩) :: before = newsSince x z := by
      rw [hrecord, ← List.cons_append, ← List.append_assoc] at hnews
      exact List.append_cancel_right hnews
    intro e he
    apply hspares
    rw [← hsplit]
    exact List.mem_append_left _ he
  have hgone := hdeparted since d _ hrecord hsince
  refine ⟨x, y, z, trace, hreached, hthere, hrun, hlater, hgone.gone ?_, hother⟩
  refine hgone.single .groupSecret fun e he => hsingle e ?_
  rw [hrecord]
  exact List.mem_append_right _ (List.mem_cons_of_mem _ he)

/-! ### An id under which something is left -/

/-- A member of the group `g` under the id of `visitor`. -/
def roommate : Transport := ⟨1, some (⟨"c"⟩, 1), .ofList [("secretKey", "s"), ("group", "g")]⟩

/-- The node of `doorstep` with the connections of `visitor` and of `roommate`. -/
def vestibule : Cluster :=
  { doorstep with connections := .ofList ([visitor, roommate].mapIdx fun n t =>
      (n, { id := ⟨"c"⟩, attributes := t.attributes, capacity := 1, openedAt := .zero,
            lastHeard := .zero })) }

/-- An id is registered for a user and for a group, and its connection is closed. What is sent to
the group still reaches the id. -/
theorem doubled_id_lingers : ∃ (x y : Chapter) (trace : List (Exchange Node.interface Chapter)),
    (recorded porter).Reached (Fresh porter) x ∧
    ((Errand.closes ⟨"c"⟩).program porter).Runs (recorded porter).amid x trace () y ∧
    y.state.2 = newsSince x y ++ x.state.2 ∧ Spares ⟨"c"⟩ (newsSince x y) ∧
    (y.state.1.directory porter.broker).contains ⟨"c"⟩ = true ∧
    ((y.state.1.directory porter.broker).sendToConnection ⟨"c"⟩ "late"
      y.state.1.connections).1 = true ∧
    ((y.state.1.directory porter.broker).sendToGroup "g" "late" y.state.1.connections).1 = 1 := by
  have hplay : ((recording porter).play
      [.call (.opens visitor), .advance 0 20, .call (.opens roommate), .advance 0 20]
      ⟨(vestibule, []), []⟩).any (fun x : Chapter =>
      ((recording porter).weave [[], [], []] ((Errand.closes ⟨"c"⟩).program porter) x).any
        fun res : List (Exchange Node.interface Chapter) × Unit × Chapter =>
          (newsSince x res.2.2).all (fun e => e.2.registers?.map Prod.snd ≠ some ⟨"c"⟩) &&
          (res.2.2.state.1.directory porter.broker).contains ⟨"c"⟩ &&
          ((res.2.2.state.1.directory porter.broker).sendToConnection ⟨"c"⟩ "late"
            res.2.2.state.1.connections).1 &&
          ((res.2.2.state.1.directory porter.broker).sendToGroup "g" "late"
            res.2.2.state.1.connections).1 = 1) = true := by decide +kernel
  obtain ⟨x, hx, htest⟩ := (Option.any_eq_true _ _).mp hplay
  obtain ⟨⟨trace, _, y⟩, hwoven, htest⟩ := (Option.any_eq_true _ _).mp htest
  simp only [Bool.and_eq_true, decide_eq_true_eq, List.all_eq_true] at htest
  obtain ⟨⟨⟨hspares, hcontains⟩, hsent⟩, hgroup⟩ := htest
  have hgood : Node.Behaves true vestibule.store := ⟨rfl, rfl, nofun⟩
  obtain ⟨hsteps, hgood'⟩ :=
    Ensemble.Player.steps_play (x := ⟨(vestibule, []), []⟩) hgood hx
  have hstart : Fresh porter (vestibule, []) := ⟨rfl, rfl⟩
  have hreached := (Ensemble.Reached.start hstart).steps hsteps
  have hrun := Ensemble.Player.runs_weave hgood' hwoven
  exact ⟨x, y, trace, hreached, hrun, news_append (recorded_of_runs hrun).1, hspares, hcontains,
    hsent, hgroup⟩

end Lifecycle

end SessionGateway
