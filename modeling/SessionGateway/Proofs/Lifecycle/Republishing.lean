import Mathlib.Data.List.Nodup
import SessionGateway.Proofs.Lifecycle.Agreement
import SessionGateway.Proofs.Lifecycle.Places

/-!
# Publishing again amid other calls

A pass that publishes the connections of a node again while any other calls register, register anew
and close. It goes by what the directory held when the pass began, but what it writes of a
connection is what the directory holds once the pass has the lock for it.
-/

namespace SessionGateway

open Node (Answers Request cached)

namespace Directory

/-- The connections of a kind, as a pass lists them before it takes any lock. -/
def connections (d : Directory) : ConnectionKind → List ConnectionId
  | .endUser => d.userEntries.map (·.connection)
  | .groupSecret => d.groupEntries.map (·.connection)

variable {d : Directory}

theorem Keyed.connections_endUser (h : d.Keyed) : d.connections .endUser = d.users.keys := by
  rw [connections, userEntries, List.map_map]
  exact Table.map_values_eq_keys h.users

theorem Keyed.connections_groupSecret (h : d.Keyed) :
    d.connections .groupSecret = d.groups.keys := by
  rw [connections, groupEntries, List.map_map]
  exact Table.map_values_eq_keys h.groups

theorem Keyed.nodup_connections (h : d.Keyed) (kind : ConnectionKind) :
    (d.connections kind).Nodup := by
  cases kind with
  | endUser =>
    rw [h.connections_endUser]
    exact d.users.distinct
  | groupSecret =>
    rw [h.connections_groupSecret]
    exact d.groups.distinct

theorem Keyed.mem_connections_iff (h : d.Keyed) {kind : ConnectionKind} {id : ConnectionId} :
    id ∈ d.connections kind ↔ (d.held? kind id).isSome = true := by
  cases kind with
  | endUser =>
    rw [h.connections_endUser, ← Table.contains_iff_mem_keys, held?, Option.isSome_map]
    rfl
  | groupSecret =>
    rw [h.connections_groupSecret, ← Table.contains_iff_mem_keys, held?, Option.isSome_map]
    rfl

end Directory

namespace Lifecycle

open Directory (Sheds)

/-! ### One connection -/

/-- Publishes an entry. -/
def publishing (l : Lifecycle) :
    (kind : ConnectionKind) → kind.Entry → NodeProgram (Except CacheError Unit)
  | .endUser, e => cached (l.cache.publishUser e)
  | .groupSecret, e => cached (l.cache.refreshGroup e)

/-- Publishes a connection again, of either kind. -/
def republishing (l : Lifecycle) (kind : ConnectionKind) (id : ConnectionId) :
    NodeProgram (Except CacheError Bool) :=
  .ask .directory fun d =>
    match d.held? kind id with
    | none => .done (.ok false)
    | some e => (l.publishing kind e).bind fun r => .done (r.map fun _ => true)

theorem republishing_endUser (l : Lifecycle) : l.republishing .endUser = l.republishUser := by
  funext id
  rw [l.republishUser_eq, republishing]
  congr 1
  funext d
  simp only [Directory.held?]
  cases d.userSession? id <;> rfl

theorem republishing_groupSecret (l : Lifecycle) :
    l.republishing .groupSecret = l.republishGroup := by
  funext id
  rw [l.republishGroup_eq, republishing]
  congr 1
  funext d
  simp only [Directory.held?]
  cases d.groupSession? id <;> rfl

/-- A pass goes through the connections of one kind and then of the other. -/
theorem republish_eq_republishing (l : Lifecycle) :
    l.republish = .ask .directory fun d =>
      (republishAll .endUser (l.republishing .endUser) (d.connections .endUser)).bind fun
        | .error e => .done (.error e)
        | .ok m => .ask .directory fun d' => (republishAll .groupSecret
            (l.republishing .groupSecret) (d'.connections .groupSecret)).bind
              fun r => .done (r.map fun n => (m, n)) := by
  rw [l.republish_eq, republishing_endUser, republishing_groupSecret]
  rfl

/-- What a pass does for one connection. -/
structure Turn (kind : ConnectionKind) where
  id : ConnectionId
  /-- The moment at which the pass has taken the lock. -/
  locked : Moment
  /-- The entry that it writes. -/
  written : Option kind.Entry
  /-- All that the pass asks for from taking the lock to giving it back. -/
  exchanges : List (Exchange Node.interface Moment)

namespace Turn

variable {kind : ConnectionKind}

/-- How a turn goes: with the lock the pass looks into the directory, and then it either goes on or
publishes an entry. -/
inductive Goes (l : Lifecycle) : Turn kind → Prop
  | skips {id : ConnectionId} {locked read released : Moment} {d : Directory} :
      Goes l ⟨id, locked, none, [⟨.acquire kind none, true, locked⟩, ⟨.directory, d, read⟩,
        ⟨.release kind, (), released⟩]⟩
  | writes {id : ConnectionId} {locked read done released : Moment} {d : Directory}
      {e : kind.Entry} {writing : List (Exchange Node.interface Moment)}
      (run : (l.publishing kind e).Runs (callers l).amid read writing (.ok ()) done) :
      Goes l ⟨id, locked, some e, ⟨.acquire kind none, true, locked⟩ :: ⟨.directory, d, read⟩ ::
        writing ++ [⟨.release kind, (), released⟩]⟩

/-- Whether a turn writes for a connection. -/
def writesFor (t : Turn kind) (id : ConnectionId) : Bool := t.id = id && t.written.isSome

/-- What a turn writes is what the directory holds under the lock. -/
structure Faithful (l : Lifecycle) (t : Turn kind) : Prop where
  current : ∀ e, t.written = some e → t.locked.held? l kind t.id = some e
  settled : ∀ e, t.written = some e → ∀ z ∈ t.exchanges, ∀ e',
    z.state.held? l kind t.id = some e' → e' = e
  gone : t.written = none → ∃ z ∈ t.exchanges, z.state.held? l kind t.id = none

end Turn

section

variable {l : Lifecycle} {kind : ConnectionKind} {id : ConnectionId} {x y : Moment}
  {trace : List (Exchange Node.interface Moment)} {α : Type}

/-- The store does not fail. -/
def Unfailing (trace : List (Exchange Node.interface Moment)) : Prop :=
  ∀ z ∈ trace, failed z.request z.answer = false

/-- An entry is published unless the store fails. -/
theorem ensures_publishing {A : Program.Surroundings Node.interface Moment} (e : kind.Entry) :
    (l.publishing kind e).Ensures A x fun trace r _ => Unfailing trace → r = .ok () := by
  have hput : ∀ (key field : String) (members : List (String × Option Json)) (x : Moment),
      (l.cache.putStamped key field members).Ensures A x
        fun trace r _ => Unfailing trace → r = .ok () := by
    rintro key field members x now y - (err | ⟨⟩) z -
    · intro htrace
      cases htrace _ (.tail _ (.head _))
    · exact fun _ => rfl
  cases kind with
  | groupSecret => exact hput _ _ _ _
  | endUser =>
    rw [publishing, SessionCache.cached_publishUser, Program.ensures_bind]
    refine (hput _ _ _ _).mono ?_
    rintro trace (err | ⟨⟩) y h
    · intro htrace
      rw [List.append_nil] at htrace
      cases h htrace
    · rintro (err | ⟨⟩) z -
      · intro htrace
        cases htrace _ (List.mem_append_right _ (.head _))
      · exact fun _ => rfl

/-- While the pass has the lock and only uses the cache, no session of the kind comes. -/
theorem InOrder.runs_cache {p : NodeProgram α} {a : α} (h : InOrder l (some kind) x)
    (hp : p.Only fun r => ∃ q, r = Request.cache q)
    (hrun : p.Runs (callers l).amid x trace a y) :
    InOrder l (some kind) y ∧
      (∀ z ∈ trace, Sheds kind (x.state.directory l.broker) (z.state.state.directory l.broker)) ∧
      Sheds kind (x.state.directory l.broker) (y.state.directory l.broker) := by
  induction hrun with
  | done a x => exact ⟨h, fun _ hz => absurd hz List.not_mem_nil, Sheds.refl _ _⟩
  | @ask r next x y z a trace b answered rest ih =>
    obtain ⟨⟨q, rfl⟩, hrest⟩ := hp
    have hevent : (event (.cache q) a).Befits (some kind) ∧
        (event (.cache q) a).placeAfter (some kind) = some kind ∧
        ∀ kind' id handle fresh, event (.cache q) a ≠ .put kind' id handle fresh := by
      cases q with
      | store command => cases command <;> cases a <;> exact ⟨trivial, rfl, nofun⟩
      | wallClock | log => exact ⟨trivial, rfl, nofun⟩
    obtain ⟨hbefits, hplace, hput⟩ := hevent
    obtain ⟨horder, hsheds⟩ := h.amid answered hbefits
    rw [hplace] at horder
    have hfirst := hsheds kind rfl (hput kind)
    obtain ⟨horder', htrace, hlast⟩ := ih horder (hrest a)
    refine ⟨horder', ?_, hfirst.trans hlast⟩
    intro w hw
    rcases List.mem_cons.mp hw with rfl | hw
    · exact hfirst
    · exact hfirst.trans (htrace w hw)

theorem only_publishing (e : kind.Entry) :
    (l.publishing kind e).Only fun r => ∃ q, r = Request.cache q := by
  cases kind <;> exact only_cache _

theorem acquired_amid {acquired : Bool}
    (ha : (callers l).amid (.acquire kind none) x acquired y) : acquired = true := by
  obtain ⟨z, -, ⟨rfl, -⟩ | ⟨-, ⟨⟩, -⟩, -⟩ := ha
  rfl

theorem directory_amid {d : Directory} (ha : (callers l).amid .directory x d y) :
    d = y.state.directory l.broker := by
  obtain ⟨z, -, hanswer, -⟩ := ha
  obtain ⟨rfl, hstate⟩ := Prod.mk.inj hanswer
  rw [← hstate]

/-- What a turn writes is faithful if no session of the kind came since the lock was taken. -/
theorem faithful_of_sheds {t : Turn kind} {read : Exchange Node.interface Moment}
    (hread : read ∈ t.exchanges) (hwritten : read.state.held? l kind t.id = t.written)
    (hsheds : ∀ z ∈ t.exchanges,
      Sheds kind (t.locked.state.directory l.broker) (z.state.state.directory l.broker)) :
    t.Faithful l := by
  have hcurrent : ∀ e, t.written = some e → t.locked.held? l kind t.id = some e :=
    fun e he => hsheds read hread t.id e (hwritten.trans he)
  refine ⟨hcurrent, ?_, fun hnone => ⟨read, hread, hwritten.trans hnone⟩⟩
  intro e he z hz e' he'
  have hlocked := hsheds z hz t.id e' he'
  exact Option.some.inj (hlocked.symm.trans (hcurrent e he))

/-- A connection has its turn once the pass has the lock for it. -/
theorem turn_of_run {r : Option (Except CacheError Bool)} (h : InOrder l none x)
    (hrun : (Node.holding kind none (l.republishing kind id)).Runs (callers l).amid x trace r y)
    (hstore : Unfailing trace) :
    InOrder l none y ∧ ∃ t : Turn kind, t.id = id ∧ t.exchanges = trace ∧ t.Goes l ∧
      t.Faithful l ∧ r = some (.ok t.written.isSome) := by
  rw [holding_eq] at hrun
  cases hrun with | @ask _ _ _ locked _ acquired _ _ hacquire hrun =>
  obtain rfl := acquired_amid hacquire
  obtain ⟨hlocked, -⟩ := h.amid hacquire rfl
  cases hrun with | @ask _ _ _ read _ d _ _ hdirectory hrun =>
  obtain rfl := directory_amid hdirectory
  obtain ⟨horder, hsheds⟩ := hlocked.amid hdirectory trivial
  have hread : Sheds kind (locked.state.directory l.broker) (read.state.directory l.broker) :=
    hsheds kind rfl nofun
  cases hentry : (read.state.directory l.broker).held? kind id with
  | none =>
    simp only [hentry] at hrun
    cases hrun with | @ask _ _ _ released _ _ _ _ hrelease hrun =>
    cases hrun
    obtain ⟨hfree, hsheds⟩ := horder.amid hrelease rfl
    refine ⟨hfree, ⟨id, locked, none, _⟩, rfl, rfl, .skips, ?_, rfl⟩
    refine faithful_of_sheds (.tail _ (.head _)) hentry ?_
    simp only [List.forall_mem_cons]
    exact ⟨Sheds.refl _ _, hread, hread.trans (hsheds kind rfl nofun),
      fun _ hz => absurd hz List.not_mem_nil⟩
  | some e =>
    simp only [hentry] at hrun
    rw [Program.bind_assoc] at hrun
    obtain ⟨writing, res, done, rest, rfl, hpublish, hrun⟩ := hrun.of_bind
    cases hrun with | @ask _ _ _ released _ _ _ _ hrelease hrun =>
    cases hrun
    have hwriting : Unfailing writing := fun z hz =>
      hstore z (.tail _ (.tail _ (List.mem_append_left _ hz)))
    obtain rfl := hpublish.of_ensures (ensures_publishing e) hwriting
    obtain ⟨hdone, hwrites, hlast⟩ := horder.runs_cache (only_publishing e) hpublish
    obtain ⟨hfree, hsheds⟩ := hdone.amid hrelease rfl
    refine ⟨hfree, ⟨id, locked, some e, _⟩, rfl, rfl, .writes hpublish, ?_, rfl⟩
    refine faithful_of_sheds (.tail _ (.head _)) hentry ?_
    simp only [List.forall_mem_cons, List.forall_mem_append]
    exact ⟨Sheds.refl _ _, hread, fun z hz => hread.trans (hwrites z hz),
      (hread.trans hlast).trans (hsheds kind rfl nofun), fun _ hz => absurd hz List.not_mem_nil⟩

/-! ### One kind after the other -/

/-- The turns of a pass for some connections. -/
structure Turns (l : Lifecycle) (kind : ConnectionKind) (ids : List ConnectionId)
    (turns : List (Turn kind)) : Prop where
  ids : turns.map (·.id) = ids
  goes : ∀ t ∈ turns, t.Goes l
  faithful : ∀ t ∈ turns, t.Faithful l

/-- How many connections were written. -/
def writes (turns : List (Turn kind)) : Nat := turns.countP (·.written.isSome)

/-- The connections have their turns one after another, and those that were written are counted. -/
theorem turns_of_run {ids : List ConnectionId} {r : Except CacheError Nat} (h : InOrder l none x)
    (hrun : (republishAll kind (l.republishing kind) ids).Runs (callers l).amid x trace r y)
    (hstore : Unfailing trace) :
    InOrder l none y ∧ ∃ turns, Turns l kind ids turns ∧ turns.flatMap (·.exchanges) = trace ∧
      r = .ok (writes turns) := by
  induction ids generalizing x trace r with
  | nil =>
    cases hrun
    exact ⟨h, [], ⟨rfl, nofun, nofun⟩, rfl, rfl⟩
  | cons id rest ih =>
    rw [republishAll_cons] at hrun
    obtain ⟨first, res, z, later, rfl, hfirst, hlater⟩ := hrun.of_bind
    obtain ⟨horder, t, hid, rfl, hgoes, hfaithful, rfl⟩ :=
      turn_of_run h hfirst fun z hz => hstore z (List.mem_append_left _ hz)
    have hunfailing : Unfailing later := fun z hz => hstore z (List.mem_append_right _ hz)
    have hcons : ∀ {turns}, Turns l kind rest turns → Turns l kind (id :: rest) (t :: turns) := by
      rintro turns ⟨hids, hgoes', hfaithful'⟩
      exact ⟨by rw [List.map_cons, hid, hids], List.forall_mem_cons.mpr ⟨hgoes, hgoes'⟩,
        List.forall_mem_cons.mpr ⟨hfaithful, hfaithful'⟩⟩
    cases hwritten : t.written with
    | none =>
      simp only [hwritten] at hlater
      obtain ⟨hfree, turns, hturns, rfl, rfl⟩ := ih horder hlater hunfailing
      refine ⟨hfree, t :: turns, hcons hturns, rfl, ?_⟩
      rw [writes, writes, List.countP_cons_of_neg (by rw [hwritten]; exact nofun)]
    | some e =>
      simp only [hwritten] at hlater
      obtain ⟨later, res, z, nothing, rfl, hrest, hdone⟩ := hlater.of_bind
      cases hdone
      rw [List.append_nil] at hunfailing ⊢
      obtain ⟨hfree, turns, hturns, rfl, rfl⟩ := ih horder hrest hunfailing
      refine ⟨hfree, t :: turns, hcons hturns, rfl, ?_⟩
      rw [writes, writes, List.countP_cons_of_pos (by rw [hwritten]; rfl)]
      rfl

/-- What is so for either kind, kind by kind. -/
def byKind {β : ConnectionKind → Type} (user : β .endUser) (group : β .groupSecret) :
    (kind : ConnectionKind) → β kind
  | .endUser => user
  | .groupSecret => group

/-- A pass lists the connections of each kind and gives each its turn. -/
theorem turns_of_republish {r : Except CacheError (Nat × Nat)} (h : InOrder l none x)
    (hrun : l.republish.Runs (callers l).amid x trace r y) (hstore : Unfailing trace) :
    ∃ (listed : ConnectionKind → Moment) (turns : (kind : ConnectionKind) → List (Turn kind)),
      (∀ kind, ((listed kind).state.directory l.broker).Keyed) ∧
      (∀ kind, Turns l kind (((listed kind).state.directory l.broker).connections kind)
        (turns kind)) ∧
      trace =
        ⟨.directory, (listed .endUser).state.directory l.broker, listed .endUser⟩ ::
          (turns .endUser).flatMap (·.exchanges) ++
        ⟨.directory, (listed .groupSecret).state.directory l.broker, listed .groupSecret⟩ ::
          (turns .groupSecret).flatMap (·.exchanges) ∧
      r = .ok (writes (turns .endUser), writes (turns .groupSecret)) := by
  rw [l.republish_eq_republishing] at hrun
  cases hrun with | @ask _ _ _ first _ d _ _ hlook hrun =>
  obtain rfl := directory_amid hlook
  obtain ⟨horder, -⟩ := h.amid hlook trivial
  obtain ⟨trace₁, res, z, trace₂, rfl, hfirst, hrun⟩ := hrun.of_bind
  obtain ⟨hfree, users, husers, rfl, rfl⟩ := turns_of_run horder hfirst fun w hw =>
    hstore w (.tail _ (List.mem_append_left _ hw))
  cases hrun with | @ask _ _ _ second _ d _ trace₂ hlook' hrun =>
  obtain rfl := directory_amid hlook'
  obtain ⟨horder', -⟩ := hfree.amid hlook' trivial
  obtain ⟨trace₂, res, z, trace₃, rfl, hsecond, hrun⟩ := hrun.of_bind
  obtain ⟨-, groups, hgroups, rfl, rfl⟩ := turns_of_run horder' hsecond fun w hw =>
    hstore w (.tail _ (List.mem_append_right _ (.tail _ (List.mem_append_left _ hw))))
  cases hrun
  refine ⟨byKind first second, byKind users groups, ?_, ?_, ?_, rfl⟩
  · rintro (_ | _)
    · exact horder.keyed
    · exact horder'.keyed
  · rintro (_ | _)
    · exact husers
    · exact hgroups
  · rw [List.append_nil]
    rfl

/-! ### What the directory holds all along -/

/-- One who is written in a turn is written in no other. -/
theorem countP_writesFor {turns : List (Turn kind)} (h : (turns.map (·.id)).Nodup) {t : Turn kind}
    (ht : t ∈ turns) (hwritten : t.written.isSome = true) :
    turns.countP (·.writesFor t.id) = 1 := by
  have hsome : 0 < turns.countP (·.writesFor t.id) :=
    List.countP_pos_iff.mpr ⟨t, ht, by rw [Turn.writesFor, hwritten]; simp⟩
  have hle : turns.countP (·.writesFor t.id) ≤ (turns.map (·.id)).count t.id := by
    rw [List.count, List.countP_map]
    refine List.countP_mono_left fun t' _ h' => ?_
    rw [Turn.writesFor, Bool.and_eq_true, decide_eq_true_eq] at h'
    exact beq_iff_eq.mpr h'.1
  have hone := List.nodup_iff_count_le_one.mp h t.id
  omega

/-- A connection that is listed and stays is written in its turn. -/
theorem Turns.steady {d : Directory} {turns : List (Turn kind)}
    (h : Turns l kind (d.connections kind) turns) (hd : d.Keyed)
    (hlisted : (d.held? kind id).isSome = true)
    (hheld : ∀ t ∈ turns, ∀ z ∈ t.exchanges, (z.state.held? l kind id).isSome = true) :
    turns.countP (·.writesFor id) = 1 ∧ ∃ t ∈ turns, t.id = id ∧ ∃ e, t.written = some e ∧
      ∀ z ∈ t.exchanges, z.state.held? l kind id = some e := by
  have hmem : id ∈ turns.map (·.id) := by
    rw [h.ids]
    exact hd.mem_connections_iff.mpr hlisted
  obtain ⟨t, ht, rfl⟩ := List.mem_map.mp hmem
  obtain ⟨-, hsettled, hgone⟩ := h.faithful t ht
  cases hwritten : t.written with
  | none =>
    obtain ⟨z, hz, hnone⟩ := hgone hwritten
    have hsome := hheld t ht z hz
    rw [hnone] at hsome
    cases hsome
  | some e =>
    have hnodup : (turns.map (·.id)).Nodup := h.ids ▸ hd.nodup_connections kind
    refine ⟨countP_writesFor hnodup ht (by rw [hwritten]; rfl), t, ht, rfl, e, hwritten, ?_⟩
    intro z hz
    obtain ⟨e', he'⟩ := Option.isSome_iff_exists.mp (hheld t ht z hz)
    rw [he', hsettled e hwritten z hz e' he']

end

/-- What a pass did for each connection, and what it answers. A connection that is registered as a
user and as a member of a group is one of each kind. -/
structure Republished (l : Lifecycle) (trace : List (Exchange Node.interface Moment))
    (r : Except CacheError (Nat × Nat)) (turns : (kind : ConnectionKind) → List (Turn kind)) :
    Prop where
  /-- The pass consists of its turns, each kind after a look into the directory. -/
  exchanges : ∃ first second : Moment, trace =
    ⟨.directory, first.state.directory l.broker, first⟩ ::
      (turns .endUser).flatMap (·.exchanges) ++
    ⟨.directory, second.state.directory l.broker, second⟩ ::
      (turns .groupSecret).flatMap (·.exchanges)
  goes : ∀ kind, ∀ t ∈ turns kind, t.Goes l
  /-- What is written of a connection is what the directory held when the lock was taken. -/
  current : ∀ kind, ∀ t ∈ turns kind, ∀ e, t.written = some e →
    t.locked.held? l kind t.id = some e
  /-- A connection that was gone when the lock was taken is not written. -/
  closed : ∀ kind, ∀ t ∈ turns kind, t.locked.held? l kind t.id = none → t.written = none
  /-- No connection of a kind has two turns. -/
  once : ∀ kind, ((turns kind).map (·.id)).Nodup
  /-- A connection that the directory holds all along is written exactly once, and what is written
  is what the directory holds from taking the lock to giving it back. -/
  steady : ∀ kind id, (∀ z ∈ trace, (z.state.held? l kind id).isSome = true) →
    (turns kind).countP (·.writesFor id) = 1 ∧
      ∃ t ∈ turns kind, t.id = id ∧ ∃ e, t.written = some e ∧
        ∀ z ∈ t.exchanges, z.state.held? l kind id = some e
  counted : r = .ok (writes (turns .endUser), writes (turns .groupSecret))

/-- However a pass is interleaved with calls that register, register anew and close: unless the
store fails for it, it writes what the directory holds under the lock of each connection, and tells
how many it wrote. -/
theorem republish_amid_calls (l : Lifecycle) {x y : Moment}
    {trace : List (Exchange Node.interface Moment)} {r : Except CacheError (Nat × Nat)}
    (hx : (callers l).Reached (Starts l) x)
    (hrun : l.republish.Runs (callers l).amid x trace r y) (hstore : Unfailing trace) :
    ∃ turns, Republished l trace r turns := by
  obtain ⟨listed, turns, hkeyed, hturns, rfl, rfl⟩ :=
    turns_of_republish (inOrder_of_reached hx) hrun hstore
  refine ⟨turns, ⟨listed .endUser, listed .groupSecret, rfl⟩, fun kind => (hturns kind).goes,
    fun kind t ht => ((hturns kind).faithful t ht).current, ?_, ?_, ?_, rfl⟩
  · intro kind t ht hnone
    cases hwritten : t.written with
    | none => rfl
    | some e =>
      have hcurrent := ((hturns kind).faithful t ht).current e hwritten
      rw [hnone] at hcurrent
      cases hcurrent
  · intro kind
    rw [(hturns kind).ids]
    exact (hkeyed kind).nodup_connections kind
  · intro kind id hheld
    -- both listings and all turns are part of the pass
    simp only [List.forall_mem_append, List.forall_mem_cons, List.mem_flatMap] at hheld
    obtain ⟨⟨hfirst, husers⟩, hsecond, hgroups⟩ := hheld
    refine (hturns kind).steady (hkeyed kind) ?_ ?_
    · cases kind with
      | endUser => exact hfirst
      | groupSecret => exact hsecond
    · cases kind with
      | endUser => exact fun t ht z hz => husers z ⟨t, ht, hz⟩
      | groupSecret => exact fun t ht z hz => hgroups z ⟨t, ht, hz⟩

/-! ### A pass that is overtaken -/

/-- Callers as the cluster answers them by itself. -/
def calling (l : Lifecycle) : Ensemble.Player (callers l) where
  answer _ r k := if Node.isFree l.broker k r then some (k.perform l.broker r) else none
  drift t k := some { k with now := .ofMillis t }
  allow _ _ := true
  Good k := Node.Behaves true k.store
  answers := answers_of_free l
  drifts {t k k'} hk hd := by
    obtain rfl := Option.some.inj hd
    exact ⟨⟨rfl, fun _ => rfl⟩, hk⟩
  admits _ := trivial

/-- The node of `doorstep`, where a second credential is accepted for another user. -/
def lobby : Cluster :=
  { doorstep with
    accounts := doorstep.accounts.insert "pass" ⟨.ok ⟨8, 1, none, none, "pass"⟩, .zero⟩ }

/-- A connection of the other user under the id of `visitor`. -/
def successor : Transport := ⟨2, some (⟨"c"⟩, 0), .ofList [("token", "pass")]⟩

/-- Two connections of one user are there when the pass begins. -/
def arrivals : List (Ensemble.Move Errand) :=
  [.call (.opens visitor), .advance 0 20, .call (.opens companion), .advance 0 20]

/-- Before the pass takes its first lock, one of them closes and the id of the other is registered
for another user. -/
def departures : List (List (Ensemble.Move Errand)) :=
  [[], [.call (.closes ⟨"d"⟩), .advance 0 9, .call (.opens successor), .advance 0 20],
    [], [], [], [], [], [], [], [], []]

/-- The fields that are put. -/
def fieldsPut (trace : List (Exchange Node.interface Moment)) : List String :=
  trace.filterMap fun z =>
    match z.request with
    | .cache (.store (.hashPut _ field _ _)) => some field
    | _ => none

/-- One of two listed connections is written, under the user that it was registered for last. -/
theorem successor_republished : ∃ (x y : Moment) (trace : List (Exchange Node.interface Moment))
    (turns : (kind : ConnectionKind) → List (Turn kind)),
    (callers porter).Reached (Starts porter) x ∧
    (x.state.directory porter.broker).connections .endUser = [⟨"c"⟩, ⟨"d"⟩] ∧
    (x.held? porter .endUser ⟨"c"⟩).map (·.userId) = some 7 ∧
    porter.republish.Runs (callers porter).amid x trace (.ok (1, 0)) y ∧ Unfailing trace ∧
    fieldsPut trace = ["8"] ∧ Republished porter trace (.ok (1, 0)) turns := by
  have hplay : ((calling porter).play arrivals ⟨lobby, []⟩).any (fun x : Moment =>
      (x.state.directory porter.broker).connections .endUser = [⟨"c"⟩, ⟨"d"⟩] &&
      (x.held? porter .endUser ⟨"c"⟩).map (·.userId) = some 7 &&
      ((calling porter).weave departures porter.republish x).any fun res =>
        res.1.all (fun z => !failed z.request z.answer) &&
        res.2.1.toOption = some (1, 0) && fieldsPut res.1 = ["8"]) = true := by decide +kernel
  obtain ⟨x, hx, htest⟩ := (Option.any_eq_true _ _).mp hplay
  simp only [Bool.and_eq_true, decide_eq_true_eq] at htest
  obtain ⟨⟨hlisted, huser⟩, hwoven⟩ := htest
  obtain ⟨⟨trace, r, y⟩, hwoven, hrest⟩ := (Option.any_eq_true _ _).mp hwoven
  simp only [Bool.and_eq_true, decide_eq_true_eq, List.all_eq_true, Bool.not_eq_true'] at hrest
  obtain ⟨⟨hstore, hr⟩, hfields⟩ := hrest
  have hr : r = .ok (1, 0) := by
    cases r with
    | error e => cases hr
    | ok n => exact congrArg Except.ok (Option.some.inj hr)
  subst hr
  have hstart : Starts porter lobby := ⟨rfl, fun kind => by cases kind <;> rfl⟩
  have hgood : Node.Behaves true lobby.store := ⟨rfl, rfl, nofun⟩
  obtain ⟨hsteps, hgood'⟩ := Ensemble.Player.steps_play (x := ⟨lobby, []⟩) hgood hx
  have hreached := (Ensemble.Reached.start hstart).steps hsteps
  have hrun := Ensemble.Player.runs_weave hgood' hwoven
  obtain ⟨turns, hturns⟩ := republish_amid_calls porter hreached hrun hstore
  exact ⟨x, y, trace, turns, hreached, hlisted, huser, hrun, hstore, hfields, hturns⟩

end Lifecycle

end SessionGateway
