import SessionGateway.Proofs.Lifecycle.Gauge

/-!
# One at a time under a lock

Calls that register, publish again and remove, interleaved at their requests in any order, even if
one removes what another registers. Every call takes one lock at a time and puts sessions in place
only under the lock of their kind. So while somebody has the lock of a kind, all that the others can
do to the sessions of that kind is to take some away.
-/

namespace SessionGateway

open Node (Answers Request)
open Relation (ReflTransGen)

/-! ### Entries of a directory -/

/-- What is published of a session of a kind. -/
abbrev ConnectionKind.Entry : ConnectionKind → Type
  | .endUser => UserEntry
  | .groupSecret => GroupEntry

namespace Directory

/-- The entry of the session of a kind under an id. -/
def held? (d : Directory) : (kind : ConnectionKind) → ConnectionId → Option kind.Entry
  | .endUser, id => (d.userSession? id).map (·.entry)
  | .groupSecret, id => (d.groupSession? id).map (·.entry)

/-- Every session is under the id of its own connection. -/
structure Keyed (d : Directory) : Prop where
  users : ∀ id s, d.userSession? id = some s → s.entry.connection = id
  groups : ∀ id s, d.groupSession? id = some s → s.entry.connection = id

/-- From one directory to another no session came, though some may have gone. -/
structure Loses (d d' : Directory) : Prop where
  users : ∀ id s, d'.userSession? id = some s → d.userSession? id = some s
  groups : ∀ id s, d'.groupSession? id = some s → d.groupSession? id = some s

/-- As far as one kind is concerned, no session came. -/
def Sheds (kind : ConnectionKind) (d d' : Directory) : Prop :=
  ∀ id e, d'.held? kind id = some e → d.held? kind id = some e

variable {d d' d'' : Directory} {kind : ConnectionKind}

theorem Sheds.refl (kind : ConnectionKind) (d : Directory) : Sheds kind d d := fun _ _ h => h

theorem Sheds.trans (h : Sheds kind d d') (h' : Sheds kind d' d'') : Sheds kind d d'' :=
  fun id e he => h id e (h' id e he)

theorem Loses.sheds (h : Loses d d') (kind : ConnectionKind) : Sheds kind d d' := by
  intro id e he
  cases kind with
  | endUser =>
    obtain ⟨s, hs, rfl⟩ := Option.map_eq_some_iff.mp he
    exact Option.map_eq_some_iff.mpr ⟨s, h.users id s hs, rfl⟩
  | groupSecret =>
    obtain ⟨s, hs, rfl⟩ := Option.map_eq_some_iff.mp he
    exact Option.map_eq_some_iff.mpr ⟨s, h.groups id s hs, rfl⟩

theorem keyed_empty (b : BrokerId) : (empty b).Keyed := ⟨nofun, nofun⟩

theorem Keyed.of_loses (h : d.Keyed) (hloses : Loses d d') : d'.Keyed :=
  ⟨fun id s hs => h.users id s (hloses.users id s hs),
    fun id s hs => h.groups id s (hloses.groups id s hs)⟩

theorem Keyed.addUser (h : d.Keyed) (s : UserSession) : (d.addUser s).Keyed := by
  refine ⟨fun id s' hs' => ?_, h.groups⟩
  rw [userSession?_addUser] at hs'
  split at hs'
  · next hid =>
    obtain rfl := Option.some.inj hs'
    exact hid
  · exact h.users id s' hs'

theorem Keyed.addGroup (h : d.Keyed) (s : GroupSession) : (d.addGroup s).Keyed := by
  refine ⟨h.users, fun id s' hs' => ?_⟩
  rw [groupSession?_addGroup] at hs'
  split at hs'
  · next hid =>
    obtain rfl := Option.some.inj hs'
    exact hid
  · exact h.groups id s' hs'

end Directory

namespace Node.Request

/-- What a request makes of the directory. -/
def directoryAfter : Request → Directory → Directory
  | .addUser s, d => d.addUser s
  | .addGroup s, d => d.addGroup s
  | .withdrawUser id t, d => (d.withdrawUser id t).2
  | .withdrawGroup id t, d => (d.withdrawGroup id t).2
  | .remove id, d => (d.remove id).2
  | _, d => d

end Node.Request

namespace Lifecycle

open Directory (Keyed Loses Sheds)

section

variable {b : BrokerId} {fails : Bool} {r : Request} {x : r.Answer} {k k' : Cluster}
  {kind : ConnectionKind}

theorem directory_of_answer (h : Answers b fails r k x k') :
    k'.directory b = r.directoryAfter (k.directory b) := by
  cases r with
  | cache r =>
    cases r with
    | store command =>
      rw [h.1]
      rfl
    | wallClock | log => cases h; rfl
  | identify credential =>
    obtain rfl : k' = k := h
    rfl
  | acquire kind patience =>
    obtain ⟨-, -, rfl⟩ | ⟨-, -, rfl⟩ := h
    · exact k.directory_setLock b kind _
    · rfl
  | release kind =>
    cases h
    exact k.directory_setLock b kind _
  | addUser | addGroup | withdrawUser | withdrawGroup | remove =>
    cases h
    exact k.directory_setDirectory b _
  | directory | close | measure | processors =>
    cases h
    rfl
  | turn p c f limit =>
    obtain rfl : (k.turn b p c f limit).2 = k' := congrArg Prod.snd h
    rw [Cluster.turn]
    split
    · rfl
    · split
      · rfl
      · cases p.work with
        | register | unregister => exact Cluster.directory_setRegistry _ b _
        | observe | pause | fail | refuse | echo | route => rfl

theorem loses_directoryAfter {d : Directory} (huser : ∀ s, r ≠ .addUser s)
    (hgroup : ∀ s, r ≠ .addGroup s) : Loses d (r.directoryAfter d) := by
  cases r with
  | addUser s => exact absurd rfl (huser s)
  | addGroup s => exact absurd rfl (hgroup s)
  | withdrawUser id t =>
    refine ⟨fun _ _ hs => Directory.userSession?_of_withdraw hs, fun id' s hs => ?_⟩
    rw [← hs, Node.Request.directoryAfter, Directory.withdrawUser_groups]
  | withdrawGroup id t =>
    refine ⟨fun id' s hs => ?_, fun _ _ hs => Directory.groupSession?_of_withdraw hs⟩
    rw [← hs, Node.Request.directoryAfter, Directory.withdrawGroup_users]
  | remove id =>
    exact ⟨fun _ _ hs => Directory.userSession?_of_remove hs,
      fun _ _ hs => Directory.groupSession?_of_remove hs⟩
  | cache | identify | acquire | release | directory | close | measure | processors | turn =>
    exact ⟨fun _ _ hs => hs, fun _ _ hs => hs⟩

theorem keyed_of_answer (h : Answers b fails r k x k') (hk : (k.directory b).Keyed) :
    (k'.directory b).Keyed := by
  rw [directory_of_answer h]
  cases r with
  | addUser s => exact hk.addUser s
  | addGroup s => exact hk.addGroup s
  | _ => exact hk.of_loses (loses_directoryAfter nofun nofun)

/-- Only what puts a session of a kind in place brings one to the directory. -/
theorem sheds_of_answer (h : Answers b fails r k x k')
    (hput : ∀ id handle fresh, event r x ≠ .put kind id handle fresh) :
    Sheds kind (k.directory b) (k'.directory b) := by
  rw [directory_of_answer h]
  cases r with
  | addUser s =>
    cases kind with
    | endUser => exact absurd rfl (hput _ _ _)
    | groupSecret => exact Sheds.refl .groupSecret (k.directory b)
  | addGroup s =>
    cases kind with
    | endUser => exact Sheds.refl .endUser (k.directory b)
    | groupSecret => exact absurd rfl (hput _ _ _)
  | _ =>
    refine Loses.sheds (loses_directoryAfter ?_ ?_) kind
    · exact nofun
    · exact nofun

end

/-! ### Programs that keep to their locks -/

/-- A request that befits a call with the lock of a kind, or with none, whatever it is answered. -/
def Befitting (place : Option ConnectionKind) (r : Request) : Prop :=
  ∀ x, (event r x).Befits place

section

variable {l : Lifecycle} {place : Option ConnectionKind} {r : Request} {key : String}
  {kind : ConnectionKind} {id : ConnectionId} {t : Transport}

theorem befitting_of_work (h : r.IsWork key) : Befitting place r := by
  intro x
  cases r with
  | cache r =>
    cases r with
    | store command => cases command <;> cases x <;> trivial
    | wallClock | log => trivial
  | withdrawUser | withdrawGroup => cases x <;> trivial
  | measure m n => cases m <;> trivial
  | directory => trivial
  | identify | acquire | release | addUser | addGroup | remove | close | processors | turn =>
    exact h.elim

theorem befitting_acquire {patience : Option Duration} :
    Befitting none (.acquire kind patience) := by
  rintro (_ | _)
  · trivial
  · rfl

theorem befitting_remove : Befitting place (.remove id) := by
  rintro (_ | _)
  · trivial
  · trivial

theorem RegistrationAsks.befitting (h : l.RegistrationAsks id kind place r) :
    Befitting place r := by
  cases h with
  | identify token => exact fun _ => trivial
  | acquire kind => exact befitting_acquire
  | addUser own | addGroup own => exact fun _ => rfl
  | work work => exact befitting_of_work work
  | release kind => exact fun _ => rfl

theorem OpeningAsks.befitting (h : l.OpeningAsks t place r) : Befitting place r := by
  cases h with
  | register own described asks => exact asks.befitting
  | report idle => exact befitting_of_work (idle.work : r.IsWork l.cache.brokersKey)
  | close => exact fun _ => trivial

theorem RepublishingAsks.befitting (h : l.RepublishingAsks place r) : Befitting place r := by
  cases h with
  | acquire kind => exact befitting_acquire
  | work work => exact befitting_of_work work
  | release kind => exact fun _ => rfl

theorem orderly_onClose (id : ConnectionId) : Orderly Befitting none (onClose id) none := by
  refine .of_only ((only_onClose id).mono ?_)
  rintro r (rfl | hr)
  · exact ⟨befitting_remove, trivial⟩
  · have work : r.IsWork "" := hr.work
    exact ⟨befitting_of_work work, work.keepsLocks⟩

theorem orderly_onTransportError (t : Transport) (error : String) :
    Orderly Befitting none (onTransportError t error) none := by
  refine .of_only ((only_onTransportError t error).mono ?_)
  rintro r (rfl | ⟨id, -, rfl⟩ | hr)
  · exact ⟨fun _ => trivial, trivial⟩
  · exact ⟨befitting_remove, trivial⟩
  · have work : r.IsWork "" := hr.work
    exact ⟨befitting_of_work work, work.keepsLocks⟩

theorem orderly_program (c : Errand) : Orderly Befitting none (c.program l) none := by
  cases c with
  | opens t => exact ((l.orderly_onOpen t).mono fun _ _ h => h.befitting).bind fun _ => rfl
  | registersUser id t =>
    exact ((l.orderly_registerUser id t).mono fun _ _ h => h.befitting).bind fun _ => rfl
  | registersGroup id t =>
    exact ((l.orderly_registerGroup id t).mono fun _ _ h => h.befitting).bind fun _ => rfl
  | republishes => exact (l.orderly_republish.mono fun _ _ h => h.befitting).bind fun _ => rfl
  | closes id => exact (orderly_onClose id).bind fun _ => rfl
  | fails t error => exact (orderly_onTransportError t error).bind fun _ => rfl

end

/-! ### Callers -/

/-- Any calls may be made at any time. The store may fail without effect. Between two requests
anything may happen that leaves the locks and the directory of the node alone. The note of a call is
the kind whose lock it has. -/
def callers (l : Lifecycle) : Ensemble Node.interface Errand (Option ConnectionKind) Cluster where
  program := Errand.program l
  answers _ := Answers l.broker true
  drifts k k' := k'.directory l.broker = k.directory l.broker ∧
    ∀ kind, (k'.site l.broker).lock kind = (k.site l.broker).lock kind
  admits _ _ := True
  blank := none
  notes place r x := (event r x).placeAfter place

/-- The cluster with the calls under way. -/
abbrev Moment : Type := Ensemble.Scene Node.interface Errand (Option ConnectionKind) Cluster

/-- The entry that the directory of the node holds of a connection. -/
def Moment.held? (x : Moment) (l : Lifecycle) (kind : ConnectionKind) (id : ConnectionId) :
    Option kind.Entry :=
  (x.state.directory l.broker).held? kind id

/-- How many calls have the lock of a kind. -/
def insiders (strands : List Runner) (kind : ConnectionKind) : Nat :=
  strands.countP fun f => f.note = some kind

/-- A node that holds no connection yet and whose locks are free. -/
structure Starts (l : Lifecycle) (k : Cluster) : Prop where
  directory : k.directory l.broker = .empty l.broker
  locks : ∀ kind, (k.site l.broker).lock kind = .free

/-- What every step preserves while one who is not among the calls has the lock of a kind, or none:
no lock is had twice. -/
structure InOrder (l : Lifecycle) (here : Option ConnectionKind) (x : Moment) : Prop where
  keyed : (x.state.directory l.broker).Keyed
  orderly : ∀ f ∈ x.strands, Orderly Befitting none f.left f.note
  locks : ∀ kind, Sole ((x.state.site l.broker).lock kind)
    (insiders x.strands kind + if here = some kind then 1 else 0)

section

variable {l : Lifecycle} {here : Option ConnectionKind} {x y : Moment} {k k' : Cluster}
  {kind : ConnectionKind} {before after strands : List Runner} {f : Runner}

theorem insiders_middle : insiders (before ++ f :: after) kind =
    insiders (before ++ after) kind + if f.note = some kind then 1 else 0 := by
  simp only [insiders, List.countP_append, List.countP_cons, decide_eq_true_eq]
  omega

theorem Starts.inOrder (h : Starts l k) : InOrder l none ⟨k, []⟩ := by
  refine ⟨?_, nofun, fun kind => ?_⟩
  · simp only [h.directory]
    exact Directory.keyed_empty l.broker
  · simp only [h.locks]
    exact ⟨rfl, rfl⟩

/-- Whoever is answered, each lock stays with one at most. -/
theorem sole_of_answer {n : ConnectionKind → Nat} {place : Option ConnectionKind} {r : Request}
    {a : r.Answer}
    (h : ∀ kind, Sole ((k.site l.broker).lock kind) (n kind + if place = some kind then 1 else 0))
    (ha : Answers l.broker true r k a k') (hbefits : (event r a).Befits place)
    (kind : ConnectionKind) : Sole ((k'.site l.broker).lock kind)
      (n kind + if (event r a).placeAfter place = some kind then 1 else 0) := by
  obtain ⟨htells, hlocks, -, -⟩ := effect_of_answer ha
  rw [hlocks]
  refine (h kind).answered hbefits fun htook => ?_
  rw [htook] at htells
  exact htells

/-- Two do not have the same lock. -/
theorem InOrder.note_ne (h : InOrder l (some kind) x) (hf : f ∈ x.strands) :
    f.note ≠ some kind := by
  intro hnote
  have hinside := (h.locks kind).inside
  have hpos : 0 < insiders x.strands kind :=
    List.countP_pos_iff.mpr ⟨f, hf, decide_eq_true hnote⟩
  rw [if_pos rfl] at hinside
  split at hinside <;> omega

/-- A step of the calls leaves the locks in order. It brings no session of the kind whose lock one
who is not among them has. -/
theorem InOrder.step (h : InOrder l here x) (hstep : (callers l).Step x y) :
    InOrder l here y ∧ ∀ kind, here = some kind →
      Sheds kind (x.state.directory l.broker) (y.state.directory l.broker) := by
  cases hstep with
  | @drift k k' strands hdrift =>
    obtain ⟨hdirectory, hlocks⟩ := hdrift
    refine ⟨⟨?_, h.orderly, fun kind => ?_⟩, fun kind _ => ?_⟩
    · simp only [hdirectory]
      exact h.keyed
    · simp only [hlocks]
      exact h.locks kind
    · simp only [hdirectory]
      exact Sheds.refl _ _
  | @call k strands c _ =>
    refine ⟨⟨h.keyed, ?_, fun kind => ?_⟩, fun kind _ => Sheds.refl _ _⟩
    · intro f hf
      rcases List.mem_cons.mp hf with rfl | hf
      · exact orderly_program c
      · exact h.orderly f hf
    · have hsame : insiders (⟨c, none, (callers l).program c⟩ :: strands) kind =
          insiders strands kind := List.countP_cons_of_neg nofun
      exact hsame ▸ h.locks kind
  | @answer k k' before after c note r next a ha =>
    have hself : (⟨c, note, .ask r next⟩ : Runner) ∈ before ++ ⟨c, note, .ask r next⟩ :: after :=
      Ensemble.mem_middle.mpr (.inl rfl)
    obtain ⟨hbefitting, hrest⟩ := h.orderly _ hself
    have hbefits := hbefitting a
    refine ⟨⟨keyed_of_answer ha h.keyed, ?_, ?_⟩, ?_⟩
    · intro f hf
      rcases Ensemble.mem_middle.mp hf with rfl | hf
      · exact hrest a
      · exact h.orderly f (Ensemble.mem_middle.mpr (.inr hf))
    · intro kind
      have hlocks : ∀ kind, Sole ((k.site l.broker).lock kind)
          (insiders (before ++ after) kind + (if here = some kind then 1 else 0) +
            if note = some kind then 1 else 0) := by
        intro kind
        have hlock := h.locks kind
        rw [insiders_middle, Nat.add_right_comm] at hlock
        exact hlock
      have hlock := sole_of_answer hlocks ha hbefits kind
      rw [Nat.add_right_comm] at hlock
      rw [insiders_middle]
      exact hlock
    · rintro kind rfl
      refine sheds_of_answer ha fun id handle fresh hput => ?_
      rw [hput] at hbefits
      exact h.note_ne hself hbefits

theorem InOrder.steps (h : InOrder l here x) (hsteps : ReflTransGen (callers l).Step x y) :
    InOrder l here y ∧ ∀ kind, here = some kind →
      Sheds kind (x.state.directory l.broker) (y.state.directory l.broker) := by
  induction hsteps with
  | refl => exact ⟨h, fun kind _ => Sheds.refl _ _⟩
  | tail _ hstep ih =>
    obtain ⟨horder, hsheds⟩ := ih
    obtain ⟨horder', hsheds'⟩ := horder.step hstep
    exact ⟨horder', fun kind hkind => (hsheds kind hkind).trans (hsheds' kind hkind)⟩

theorem inOrder_of_reached (h : (callers l).Reached (Starts l) x) : InOrder l none x := by
  induction h with
  | start h => exact Starts.inOrder h
  | step _ hstep ih => exact (ih.step hstep).1

/-- One who is answered amid the calls leaves the locks in order, and so do the calls meanwhile. -/
theorem InOrder.amid {r : Request} {a : r.Answer} (h : InOrder l here x)
    (ha : (callers l).amid r x a y) (hbefits : (event r a).Befits here) :
    InOrder l ((event r a).placeAfter here) y ∧ ∀ kind, here = some kind →
      (∀ id handle fresh, event r a ≠ .put kind id handle fresh) →
      Sheds kind (x.state.directory l.broker) (y.state.directory l.broker) := by
  obtain ⟨z, hsteps, hanswer, hstrands⟩ := ha
  obtain ⟨horder, hsheds⟩ := h.steps hsteps
  refine ⟨⟨keyed_of_answer hanswer horder.keyed, ?_, ?_⟩, fun kind hkind hput => ?_⟩
  · rw [hstrands]
    exact horder.orderly
  · rw [hstrands]
    exact sole_of_answer horder.locks hanswer hbefits
  · exact (hsheds kind hkind).trans (sheds_of_answer hanswer hput)

end

end Lifecycle

end SessionGateway
