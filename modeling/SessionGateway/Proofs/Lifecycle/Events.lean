import SessionGateway.Proofs.Cluster.Answers
import SessionGateway.Proofs.Directory

/-!
# What a request does to a node

The answer to a request tells what became of the locks, the sessions and the gauges of the node: a
lock was taken or given back, a session was put in place, taken back or left alone, an entry was
written, or sessions were counted.
-/

namespace SessionGateway

open Node (Answers Request)

/-! ### Sessions by kind -/

namespace Directory

/-- How many sessions of a kind there are. -/
def count (d : Directory) : ConnectionKind → Nat
  | .endUser => d.userCount
  | .groupSecret => d.groupCount

/-- The handle of the transport of the session of a kind under an id. -/
def handle? (d : Directory) : ConnectionKind → ConnectionId → Option Nat
  | .endUser, id => (d.userSession? id).map (·.transport.handle)
  | .groupSecret, id => (d.groupSession? id).map (·.transport.handle)

theorem count_pos_of_handle? {d : Directory} {kind : ConnectionKind} {id : ConnectionId} {h : Nat}
    (hh : d.handle? kind id = some h) : 0 < d.count kind := by
  cases kind with
  | endUser =>
    obtain ⟨s, hs, -⟩ := Option.map_eq_some_iff.mp hh
    exact List.length_pos_of_mem ((Table.mem_entries_iff d.users).mpr hs)
  | groupSecret =>
    obtain ⟨s, hs, -⟩ := Option.map_eq_some_iff.mp hh
    exact List.length_pos_of_mem ((Table.mem_entries_iff d.groups).mpr hs)

end Directory

/-- How many sessions of a kind were counted. -/
def Cluster.gauge (k : Cluster) (kind : ConnectionKind) : Int :=
  (k.meters.get? (.active kind)).getD 0

namespace Lifecycle

/-! ### Events -/

inductive Event where
  | nothing
  | took (kind : ConnectionKind)
  | gave (kind : ConnectionKind)
  /-- A session was put under an id, with the handle of its transport; `fresh` if it replaced
  none. -/
  | put (kind : ConnectionKind) (id : ConnectionId) (handle : Nat) (fresh : Bool)
  /-- The session under an id is gone. -/
  | dropped (kind : ConnectionKind) (id : ConnectionId)
  /-- Nothing with a handle was there to be taken back. -/
  | missed (kind : ConnectionKind) (id : ConnectionId) (handle : Nat)
  /-- The last text of an entry of a kind was written. -/
  | published (kind : ConnectionKind)
  | counted (kind : ConnectionKind) (n : Int)

/-- What an answer tells. Of a user the text under the connection is written last, of a group there
is only the field. -/
def event : (r : Request) → r.Answer → Event
  | .cache (.store (.put ..)), .ok _ => .published .endUser
  | .cache (.store (.hashPut ..)), .ok _ => .published .groupSecret
  | .acquire kind _, true => .took kind
  | .release kind, _ => .gave kind
  | .addUser s, replaced => .put .endUser s.entry.connection s.transport.handle !replaced
  | .addGroup s, replaced => .put .groupSecret s.entry.connection s.transport.handle !replaced
  | .withdrawUser id _, true => .dropped .endUser id
  | .withdrawUser id t, false => .missed .endUser id t.handle
  | .withdrawGroup id _, true => .dropped .groupSecret id
  | .withdrawGroup id t, false => .missed .groupSecret id t.handle
  | .remove id, some kind => .dropped kind id
  | .measure (.active kind) n, _ => .counted kind n
  | _, _ => .nothing

namespace Event

def lockAfter : Event → ConnectionKind → Lock → Lock
  | .took kind, kind', l => if kind = kind' then l.join.2 else l
  | .gave kind, kind', l => if kind = kind' then l.pass else l
  | _, _, l => l

/-- The kind whose lock a call has once it was answered. -/
def placeAfter : Event → Option ConnectionKind → Option ConnectionKind
  | .took kind, _ => some kind
  | .gave _, _ => none
  | _, place => place

/-- Whether a call with the lock of a kind, or with none, may be answered so: it takes a lock while
it has none, gives back the one it has, and puts sessions only of the kind of its lock. -/
def Befits : Event → Option ConnectionKind → Prop
  | .took _, place => place = none
  | .gave kind, place | .put kind _ _ _, place => place = some kind
  | _, _ => True

def handleAfter : Event → ConnectionKind → ConnectionId → Option Nat → Option Nat
  | .put kind id h _, kind', id', old => if kind = kind' ∧ id = id' then some h else old
  | .dropped kind id, kind', id', old => if kind = kind' ∧ id = id' then none else old
  | _, _, _, old => old

/-- How many more sessions of a kind there are. -/
def gains : Event → ConnectionKind → Int
  | .put kind _ _ true, kind' => if kind = kind' then 1 else 0
  | .dropped kind _, kind' => if kind = kind' then -1 else 0
  | _, _ => 0

/-- How many more sessions of a kind are counted. -/
def counts : Event → ConnectionKind → Int
  | .counted kind n, kind' => if kind = kind' then n else 0
  | _, _ => 0

/-- What an event tells of the state before it. -/
def Tells (b : BrokerId) (k : Cluster) : Event → Prop
  | .took kind => ((k.site b).lock kind).holder = none
  | .missed kind id h => (k.directory b).handle? kind id ≠ some h
  | _ => True

/-- An event that leaves locks, sessions and gauges as they are. -/
def IsSilent : Event → Prop
  | .nothing | .missed .. | .published _ => True
  | _ => False

/-- A directory before and after an event. -/
structure Turns (e : Event) (d d' : Directory) : Prop where
  count : ∀ kind, (d'.count kind : Int) = d.count kind + e.gains kind
  handle : ∀ kind id, d'.handle? kind id = e.handleAfter kind id (d.handle? kind id)

/-- A node before and after an event. -/
structure Effect (b : BrokerId) (e : Event) (k k' : Cluster) : Prop where
  tells : e.Tells b k
  locks : ∀ kind, (k'.site b).lock kind = e.lockAfter kind ((k.site b).lock kind)
  turns : e.Turns (k.directory b) (k'.directory b)
  gauge : ∀ kind, k'.gauge kind = k.gauge kind + e.counts kind

/-! ### Directories -/

variable {d : Directory}

theorem IsSilent.turns {e : Event} (he : e.IsSilent) : e.Turns d d := by
  cases e with
  | nothing | missed | published =>
    exact ⟨fun kind => (Int.add_zero _).symm, fun kind id => rfl⟩
  | took | gave | put | dropped | counted => exact he.elim

variable (d) in
theorem turns_addUser (s : UserSession) :
    Turns (.put .endUser s.entry.connection s.transport.handle
      !d.users.contains s.entry.connection) d (d.addUser s) := by
  constructor
  · rintro (_ | _)
    · have hsize := d.users.size_insert s.entry.connection s
      simp only [Directory.count, Directory.userCount, Directory.addUser, hsize]
      cases d.users.contains s.entry.connection <;> simp [gains]
    · cases d.users.contains s.entry.connection <;> exact (Int.add_zero _).symm
  · rintro (_ | _) id
    · simp only [Directory.handle?, handleAfter, Directory.userSession?_addUser, true_and]
      split <;> rfl
    · rfl

variable (d) in
theorem turns_addGroup (s : GroupSession) :
    Turns (.put .groupSecret s.entry.connection s.transport.handle
      !d.groups.contains s.entry.connection) d (d.addGroup s) := by
  constructor
  · rintro (_ | _)
    · cases d.groups.contains s.entry.connection <;> exact (Int.add_zero _).symm
    · have hsize := d.groups.size_insert s.entry.connection s
      simp only [Directory.count, Directory.groupCount, Directory.addGroup, hsize]
      cases d.groups.contains s.entry.connection <;> simp [gains]
  · rintro (_ | _) id
    · rfl
    · simp only [Directory.handle?, handleAfter, Directory.groupSession?_addGroup, true_and]
      split <;> rfl

theorem turns_eraseUser {id : ConnectionId} (h : d.users.contains id = true) :
    Turns (.dropped .endUser id) d { d with users := d.users.erase id } := by
  constructor
  · rintro (_ | _)
    · have hsize := d.users.size_erase id
      rw [if_pos h] at hsize
      simp only [Directory.count, Directory.userCount, gains, if_true]
      omega
    · exact (Int.add_zero _).symm
  · rintro (_ | _) id'
    · simp only [Directory.handle?, handleAfter, Directory.userSession?, Table.get?_erase,
        true_and, eq_comm (a := id')]
      split <;> rfl
    · rfl

theorem turns_eraseGroup {id : ConnectionId} (h : d.groups.contains id = true) :
    Turns (.dropped .groupSecret id) d { d with groups := d.groups.erase id } := by
  constructor
  · rintro (_ | _)
    · exact (Int.add_zero _).symm
    · have hsize := d.groups.size_erase id
      rw [if_pos h] at hsize
      simp only [Directory.count, Directory.groupCount, gains, if_true]
      omega
  · rintro (_ | _) id'
    · rfl
    · simp only [Directory.handle?, handleAfter, Directory.groupSession?, Table.get?_erase,
        true_and, eq_comm (a := id')]
      split <;> rfl

variable (d) in
theorem turns_withdrawUser (id : ConnectionId) (t : Transport) :
    Turns (event (.withdrawUser id t) (d.withdrawUser id t).1) d (d.withdrawUser id t).2 ∧
      ((d.withdrawUser id t).1 = false → d.handle? .endUser id ≠ some t.handle) := by
  have hmissed : Turns (.missed .endUser id t.handle) d d := IsSilent.turns trivial
  rw [Directory.withdrawUser]
  cases hs : d.users.get? id with
  | none => exact ⟨hmissed, fun _ => by simp [Directory.handle?, Directory.userSession?, hs]⟩
  | some s =>
    by_cases hhandle : s.transport.handle = t.handle
    · simp only [if_pos hhandle]
      refine ⟨turns_eraseUser ?_, by rintro ⟨⟩⟩
      rw [Table.contains, hs, Option.isSome_some]
    · simp only [if_neg hhandle]
      exact ⟨hmissed, fun _ => by simp [Directory.handle?, Directory.userSession?, hs, hhandle]⟩

variable (d) in
theorem turns_withdrawGroup (id : ConnectionId) (t : Transport) :
    Turns (event (.withdrawGroup id t) (d.withdrawGroup id t).1) d (d.withdrawGroup id t).2 ∧
      ((d.withdrawGroup id t).1 = false → d.handle? .groupSecret id ≠ some t.handle) := by
  have hmissed : Turns (.missed .groupSecret id t.handle) d d := IsSilent.turns trivial
  rw [Directory.withdrawGroup]
  cases hs : d.groups.get? id with
  | none => exact ⟨hmissed, fun _ => by simp [Directory.handle?, Directory.groupSession?, hs]⟩
  | some s =>
    by_cases hhandle : s.transport.handle = t.handle
    · simp only [if_pos hhandle]
      refine ⟨turns_eraseGroup ?_, by rintro ⟨⟩⟩
      rw [Table.contains, hs, Option.isSome_some]
    · simp only [if_neg hhandle]
      exact ⟨hmissed, fun _ => by simp [Directory.handle?, Directory.groupSession?, hs, hhandle]⟩

variable (d) in
theorem turns_remove (id : ConnectionId) :
    Turns (event (.remove id) (d.remove id).1) d (d.remove id).2 := by
  rw [Directory.remove]
  split
  · next h => exact turns_eraseUser h
  · split
    · next h => exact turns_eraseGroup h
    · exact IsSilent.turns trivial

/-! ### Nodes -/

variable {b : BrokerId} {e : Event} {k k' : Cluster}

theorem IsSilent.effect (he : e.IsSilent) (tells : e.Tells b k) (hsites : k'.sites = k.sites)
    (hmeters : k'.meters = k.meters) : Effect b e k k' where
  tells := tells
  locks kind := by
    simp only [Cluster.site, hsites]
    cases e <;> first | rfl | exact he.elim
  turns := by
    rw [Cluster.directory_congr hsites]
    exact he.turns
  gauge kind := by
    simp only [Cluster.gauge, hmeters]
    cases e <;> first | exact (Int.add_zero _).symm | exact he.elim

theorem effect_setLock {kind : ConnectionKind} {f : Lock → Lock} (tells : e.Tells b k)
    (hlock : ∀ kind' old, e.lockAfter kind' old = if kind = kind' then f old else old)
    (hturns : e.Turns (k.directory b) (k.directory b)) (hcounts : ∀ kind', e.counts kind' = 0) :
    Effect b e k (k.setLock b kind (f ((k.site b).lock kind))) where
  tells := tells
  locks kind' := by
    rw [Cluster.lock_setLock, hlock]
    split
    · next heq => rw [heq]
    · rfl
  turns := by
    rw [Cluster.directory_setLock]
    exact hturns
  gauge kind' := by
    rw [hcounts, Int.add_zero]
    rfl

theorem effect_setDirectory {d' : Directory} (tells : e.Tells b k)
    (hturns : e.Turns (k.directory b) d') (hlock : ∀ kind old, e.lockAfter kind old = old)
    (hcounts : ∀ kind, e.counts kind = 0) : Effect b e k (k.setDirectory b d') where
  tells := tells
  locks kind := by rw [Cluster.lock_setDirectory, hlock]
  turns := by
    rw [Cluster.directory_setDirectory]
    exact hturns
  gauge kind := by
    rw [hcounts, Int.add_zero]
    rfl

theorem gauge_measure (k : Cluster) (m : Meter) (n : Int) (kind : ConnectionKind) :
    (k.measure m n).gauge kind = k.gauge kind + if m = .active kind then n else 0 := by
  simp only [Cluster.gauge, Cluster.measure, Meters.add, Table.get?_insert]
  split
  · next h => rw [h, Option.getD_some]
  · rw [Int.add_zero]

variable (k) in
theorem effect_measure (m : Meter) (n : Int) :
    Effect b (event (.measure m n) ()) k (k.measure m n) := by
  have hgauge := gauge_measure k m n
  cases m with
  | active kind =>
    refine ⟨trivial, fun _ => rfl, ⟨fun _ => (Int.add_zero _).symm, fun _ _ => rfl⟩, ?_⟩
    intro kind'
    simp only [hgauge, Meter.active.injEq]
    rfl
  | _ =>
    refine ⟨trivial, fun _ => rfl, IsSilent.turns trivial, ?_⟩
    intro kind'
    rw [hgauge, if_neg nofun]
    rfl

variable (k) in
theorem effect_turn (p : Processor) (x : FrameContext) (f : Frame) (limit : Duration) :
    Effect b .nothing k (k.turn b p x f limit).2 := by
  have hregistry : ∀ r, Effect b .nothing k (k.setRegistry b r) := by
    intro r
    refine ⟨trivial, fun kind => k.lock_setRegistry b r kind, ?_, fun _ => (Int.add_zero _).symm⟩
    rw [Cluster.directory_setRegistry]
    exact IsSilent.turns trivial
  have hsame : ∀ k' : Cluster, k'.sites = k.sites → k'.meters = k.meters →
      Effect b .nothing k k' := fun k' => IsSilent.effect trivial trivial
  rw [Cluster.turn]
  split
  · exact hsame _ rfl rfl
  · split
    · exact hsame _ rfl rfl
    · cases p.work with
      | register | unregister => exact hregistry _
      | observe | pause | fail | refuse | echo | route => exact hsame _ rfl rfl

end Event

open Event (Effect) in
/-- The answer to a request tells all that became of locks, sessions and gauges. -/
theorem effect_of_answer {b : BrokerId} {fails : Bool} {r : Request} {x : r.Answer}
    {k k' : Cluster} (h : Answers b fails r k x k') : Effect b (event r x) k k' := by
  have hsame : ∀ {k' : Cluster}, k'.sites = k.sites → k'.meters = k.meters →
      Effect b .nothing k k' := Event.IsSilent.effect trivial trivial
  cases r with
  | cache r =>
    cases r with
    | store command =>
      obtain ⟨hk', -⟩ := h
      have hsilent : (event (.cache (.store command)) x).IsSilent ∧
          (event (.cache (.store command)) x).Tells b k := by
        cases command <;> cases x <;> exact ⟨trivial, trivial⟩
      exact hsilent.1.effect hsilent.2 (by rw [hk']) (by rw [hk'])
    | wallClock => cases h; exact hsame rfl rfl
    | log e => cases h; exact hsame rfl rfl
  | identify credential =>
    obtain rfl : k' = k := h
    exact hsame rfl rfl
  | acquire kind patience =>
    obtain ⟨rfl, hfree, rfl⟩ | ⟨rfl, -, rfl⟩ := h
    · exact Event.effect_setLock (f := fun l => l.join.2) hfree (fun _ _ => rfl)
        ⟨fun _ => (Int.add_zero _).symm, fun _ _ => rfl⟩ fun _ => rfl
    · exact hsame rfl rfl
  | release kind =>
    cases h
    exact Event.effect_setLock (f := Lock.pass) trivial (fun _ _ => rfl)
      ⟨fun _ => (Int.add_zero _).symm, fun _ _ => rfl⟩ fun _ => rfl
  | directory => cases h; exact hsame rfl rfl
  | addUser s =>
    cases h
    exact Event.effect_setDirectory trivial (Event.turns_addUser _ s) (fun _ _ => rfl) fun _ => by
      cases (k.directory b).users.contains s.entry.connection <;> rfl
  | addGroup s =>
    cases h
    exact Event.effect_setDirectory trivial (Event.turns_addGroup _ s) (fun _ _ => rfl) fun _ => by
      cases (k.directory b).groups.contains s.entry.connection <;> rfl
  | withdrawUser id t =>
    cases h
    obtain ⟨hturns, hmissed⟩ := Event.turns_withdrawUser (k.directory b) id t
    refine Event.effect_setDirectory ?_ hturns ?_ ?_
    · cases hgone : ((k.directory b).withdrawUser id t).1 with
      | true => trivial
      | false => exact hmissed hgone
    · cases ((k.directory b).withdrawUser id t).1 <;> exact fun _ _ => rfl
    · cases ((k.directory b).withdrawUser id t).1 <;> exact fun _ => rfl
  | withdrawGroup id t =>
    cases h
    obtain ⟨hturns, hmissed⟩ := Event.turns_withdrawGroup (k.directory b) id t
    refine Event.effect_setDirectory ?_ hturns ?_ ?_
    · cases hgone : ((k.directory b).withdrawGroup id t).1 with
      | true => trivial
      | false => exact hmissed hgone
    · cases ((k.directory b).withdrawGroup id t).1 <;> exact fun _ _ => rfl
    · cases ((k.directory b).withdrawGroup id t).1 <;> exact fun _ => rfl
  | remove id =>
    cases h
    refine Event.effect_setDirectory ?_ (Event.turns_remove _ id) ?_ ?_
    · cases ((k.directory b).remove id).1 <;> trivial
    · cases ((k.directory b).remove id).1 <;> exact fun _ _ => rfl
    · cases ((k.directory b).remove id).1 <;> exact fun _ => rfl
  | close t => cases h; exact hsame rfl rfl
  | measure m n => cases h; exact Event.effect_measure k m n
  | processors => cases h; exact hsame rfl rfl
  | turn p c f limit =>
    obtain rfl : (k.turn b p c f limit).2 = k' := congrArg Prod.snd h
    exact Event.effect_turn k p c f limit

end Lifecycle

end SessionGateway
