import SessionGateway.Proofs.Lifecycle.Rollback

/-!
# A group's registration that is taken back

A group's registration that cannot be published is taken out of the directory with whatever was
there under its id, and the cache stays as it is. So the two agree about the failed connection just
if the group's field did not tell of it before: an id that was published earlier and is registered
again stays in the field when the directory has lost it, also while other members of the group are
still there.
-/

namespace SessionGateway

open Exchange (failures)
open Node (AnswersLater cached)
open Store (Memory)

theorem Store.Memory.answer_hashPut_of_error {now : Duration} {key field value : String}
    {ttl : Duration} {m : Memory} {err : CacheError}
    (h : (answer now (.hashPut key field value ttl) m).1 = .error err) :
    (answer now (.hashPut key field value ttl) m).2 = m := by
  by_cases hhash : m.IsHash now key
  · rw [answer_hashPut hhash] at h
    cases h
  · rw [answer_hashPut_of_not_isHash hhash]

namespace Lifecycle

variable {l : Lifecycle} {b : BrokerId} {k k' k'' : Cluster} {group : String} {id : ConnectionId}

/-! ### Membership -/

/-- The field of a group on the node tells of a connection. -/
def FieldNames (l : Lifecycle) (group : String) (id : ConnectionId) (k : Cluster) : Prop :=
  ∃ text s, (k.memory.fieldsAt k.now (l.cache.groupBucket l.broker)).get? group = some text ∧
    Stamped.readGroup? text = some s ∧ s.entry.connection = id

/-- The directory of the node holds a connection for a group. -/
def Holds (l : Lifecycle) (group : String) (id : ConnectionId) (k : Cluster) : Prop :=
  ∃ s, (k.directory l.broker).groupSession? id = some s ∧ s.entry.group = group

/-- What should be so between the directory and the group's field once the registration of a
connection has failed. -/
structure InStep (l : Lifecycle) (group : String) (failed : ConnectionId) (k k' : Cluster) :
    Prop where
  /-- The field tells of the failed connection only if the directory holds it. -/
  dropped : FieldNames l group failed k' → Holds l group failed k'
  /-- If the group has members and the field told of the failed connection, it tells of one of
  them. -/
  renamed : (∃ id, Holds l group id k') → FieldNames l group failed k →
    ∃ id, Holds l group id k' ∧ FieldNames l group id k'

theorem fieldNames_iff : FieldNames l group id k ↔
    (((k.memory.fieldsAt k.now (l.cache.groupBucket l.broker)).get? group).bind
      Stamped.readGroup?).map (·.entry.connection) = some id := by
  simp only [FieldNames, Option.map_eq_some_iff, Option.bind_eq_some_iff]
  constructor
  · rintro ⟨text, s, htext, hread, hid⟩
    exact ⟨s, ⟨text, htext, hread⟩, hid⟩
  · rintro ⟨s, ⟨text, htext, hread⟩, hid⟩
    exact ⟨text, s, htext, hread, hid⟩

theorem holds_iff : Holds l group id k ↔
    ((k.directory l.broker).groupSession? id).map (·.entry.group) = some group := by
  rw [Holds, Option.map_eq_some_iff]

instance : Decidable (FieldNames l group id k) := decidable_of_iff _ fieldNames_iff.symm

instance : Decidable (Holds l group id k) := decidable_of_iff _ holds_iff.symm

/-- What the field tells of later, it told of before, if the memory has stayed the same. -/
theorem FieldNames.before (h : FieldNames l group id k') (hrests : Rests k k') :
    FieldNames l group id k := by
  obtain ⟨text, s, htext, hread, hid⟩ := h
  rw [hrests.memory] at htext
  exact ⟨text, s, Memory.get?_fieldsAt_later hrests.elapsed htext, hread, hid⟩

theorem FieldNames.unique {id' : ConnectionId} (h : FieldNames l group id k)
    (h' : FieldNames l group id' k) : id = id' := by
  obtain ⟨text, s, htext, hread, rfl⟩ := h
  obtain ⟨text', s', htext', hread', rfl⟩ := h'
  obtain rfl : text = text' := Option.some.inj (htext.symm.trans htext')
  obtain rfl : s = s' := Option.some.inj (hread.symm.trans hread')
  rfl

/-! ### Taking back -/

/-- A member's registration is undone: the directory has lost what it held under the id, and the
memory of the cache is as it was. -/
structure MemberTakenBack (l : Lifecycle) (id : ConnectionId) (k k' : Cluster) : Prop where
  rests : Rests k k'
  users : ∀ id', (k'.directory l.broker).userSession? id' = (k.directory l.broker).userSession? id'
  groups : ∀ id', (k'.directory l.broker).groupSession? id' =
    if id' = id then none else (k.directory l.broker).groupSession? id'

theorem MemberTakenBack.around {k₀ k₁ : Cluster} (h : MemberTakenBack l id k k')
    (hbefore : Rests k₀ k) (hsame : k.directory l.broker = k₀.directory l.broker)
    (hafter : Rests k' k₁) (hsame' : k₁.directory l.broker = k'.directory l.broker) :
    MemberTakenBack l id k₀ k₁ where
  rests := (hbefore.trans h.rests).trans hafter
  users id' := by rw [hsame', h.users, hsame]
  groups id' := by rw [hsame', h.groups, hsame]

theorem MemberTakenBack.not_holds (h : MemberTakenBack l id k k') : ¬ Holds l group id k' := by
  rintro ⟨s, hs, -⟩
  rw [h.groups, if_pos rfl] at hs
  cases hs

/-- The directory and the field are in step just if the field does not tell of the connection any
more, and did not before unless the group has no members left. -/
theorem MemberTakenBack.inStep_iff (h : MemberTakenBack l id k k') :
    InStep l group id k k' ↔ ¬ FieldNames l group id k' ∧
      (FieldNames l group id k → ∀ id', ¬ Holds l group id' k') := by
  constructor
  · intro hstep
    have hgone : ¬ FieldNames l group id k' := fun hnames => h.not_holds (hstep.dropped hnames)
    refine ⟨hgone, ?_⟩
    intro hnamed id' hmember
    obtain ⟨other, hother, hnames⟩ := hstep.renamed ⟨id', hmember⟩ hnamed
    obtain rfl := hnamed.unique (hnames.before h.rests)
    exact hgone hnames
  · rintro ⟨hgone, hnobody⟩
    constructor
    · intro hnames
      exact absurd hnames hgone
    · rintro ⟨id', hmember⟩ hnamed
      exact absurd hmember (hnobody hnamed id')

theorem addGroup_later {s : GroupSession} {x : Bool}
    (h : AnswersLater b true (.addGroup s) k x k') :
    Rests k k' ∧ k'.directory b = (k.directory b).addGroup s := by
  refine ⟨⟨elapsed_answer h, ?_⟩, directory_addGroup h⟩
  obtain ⟨now, -, ⟨⟩⟩ := h
  rfl

theorem withdrawGroup_later {t : Transport} {x : Bool}
    (h : AnswersLater b true (.withdrawGroup id t) k x k') :
    Rests k k' ∧ k'.directory b = ((k.directory b).withdrawGroup id t).2 := by
  have helapsed := elapsed_answer h
  obtain ⟨now, -, ⟨⟩⟩ := h
  exact ⟨⟨helapsed, rfl⟩, Cluster.directory_setDirectory _ _ _⟩

/-- A member that was put in place is taken back, with what it replaced. -/
theorem groupSession?_takenBack (d : Directory) (s : GroupSession) (id : ConnectionId) :
    ((d.addGroup s).withdrawGroup s.entry.connection s.transport).2.groupSession? id =
      if id = s.entry.connection then none else d.groupSession? id := by
  have hheld : (d.addGroup s).groupSession? s.entry.connection = some s := by
    rw [d.groupSession?_addGroup, if_pos rfl]
  rw [Directory.withdrawGroup_of_held hheld]
  show ((d.groups.insert _ _).erase _).get? id = _
  rw [Table.get?_erase, Table.get?_insert]
  by_cases hid : id = s.entry.connection
  · rw [if_pos hid, if_pos hid]
  · rw [if_neg hid, if_neg (fun heq => hid heq.symm), if_neg hid]
    rfl

/-- Writing the group's field goes well, or its only command fails and leaves the memory alone. -/
theorem ensures_refreshGroup_counted (c : SessionCache) (e : GroupEntry) :
    (cached (c.refreshGroup e)).Ensures (AnswersLater l.broker true) k fun trace r k' =>
      k'.sites = k.sites ∧ ((r = .ok () ∧ failures trace = 0) ∨
        (∃ err, r = .error err) ∧ failures trace = 1 ∧ Rests k k') := by
  rw [c.cached_refreshGroup]
  intro now k₁ hclock x k₂ hput
  obtain ⟨hrests₁, hsites₁, -⟩ := clock_later hclock
  obtain ⟨hnow, hsites₂, houtcome⟩ := answered_later (by exact fun e => e) hput
  refine ⟨hsites₂.trans hsites₁, ?_⟩
  rcases x with err | ⟨⟩
  · have hmemory : k₂.memory = k₁.memory := by
      obtain ⟨hx, hcarried⟩ | ⟨hkept, -⟩ := houtcome
      · exact hcarried.trans (Memory.answer_hashPut_of_error hx.symm)
      · exact hkept
    exact .inr ⟨⟨err, rfl⟩, rfl, hrests₁.trans ⟨hnow, hmemory⟩⟩
  · exact .inl ⟨rfl, rfl⟩

theorem ensures_enrolGroup_takenBack (s : GroupSession) :
    (l.enrolGroup s).Ensures (AnswersLater l.broker true) k fun trace r k' =>
      failures trace = 1 →
        (∃ err, r = .error (.cache err)) ∧ MemberTakenBack l s.entry.connection k k' := by
  rw [l.enrolGroup_eq]
  intro replaced k₁ hadd
  obtain ⟨hrests₁, hdirectory₁⟩ := addGroup_later hadd
  rw [Program.ensures_bind]
  refine (ensures_refreshGroup_counted l.cache s.entry).mono ?_
  rintro trace r k₂ ⟨hsites₂, ⟨rfl, hnone⟩ | ⟨⟨err, rfl⟩, -, hrests₂⟩⟩
  · refine ensures_idle_bind (only_log _) fun trace₁ _ k₃ _ hidle₁ => ?_
    refine ensures_idle_bind (only_countRegistered _ _) fun trace₂ _ k₄ _ hidle₂ => ?_
    intro hone
    simp [hnone, Exchange.failures_of_idle hidle₁, Exchange.failures_of_idle hidle₂,
      Exchange.failsStore] at hone
  · intro withdrawn k₃ hwithdraw
    obtain ⟨hrests₃, hdirectory₃⟩ := withdrawGroup_later hwithdraw
    rw [Cluster.directory_congr hsites₂, hdirectory₁] at hdirectory₃
    rw [Program.ensures_bind]
    refine (ensures_rests (only_countWithdrawn _ _ _)).mono ?_
    rintro trace₄ _ k₄ ⟨hrests₄, hsites₄, -⟩ -
    have hdirectory₄ := (Cluster.directory_congr hsites₄).trans hdirectory₃
    refine ⟨⟨err, rfl⟩, ((hrests₁.trans hrests₂).trans hrests₃).trans hrests₄, ?_, ?_⟩
    · intro id'
      rw [hdirectory₄]
      exact Directory.withdrawGroup_users _ _ _ id'
    · intro id'
      rw [hdirectory₄]
      exact groupSession?_takenBack _ s id'

theorem ensures_registering_memberTakenBack (s : GroupSession) :
    (l.registering .groupSecret (l.enrolGroup s)).Ensures (AnswersLater l.broker true) k
      fun trace r k' => failures trace = 1 →
        (∃ err, r = .error (.cache err)) ∧ MemberTakenBack l s.entry.connection k k' := by
  simp only [l.registering_eq, Program.ensures_bind, holding_eq]
  rintro x k₁ hacquire
  obtain ⟨hrests₁, hdirectory₁⟩ := quiet_later hacquire trivial
  cases x with
  | true =>
    rw [Program.ensures_bind]
    refine (ensures_enrolGroup_takenBack s).mono ?_
    rintro trace r k₂ htaken ⟨⟩ k₃ hrelease hsum
    obtain ⟨hrests₃, hdirectory₃⟩ := quiet_later hrelease trivial
    obtain ⟨herror, htaken⟩ := htaken (by simpa [Exchange.failsStore] using hsum)
    exact ⟨herror, htaken.around hrests₁ hdirectory₁ hrests₃ hdirectory₃⟩
  | false =>
    refine ensures_idle_bind (only_measure _ _) fun trace _ k₂ _ hidle => ?_
    intro hsum
    simp [Exchange.failures_of_idle hidle, Exchange.failsStore] at hsum

/-- A member's registration whose command of the store fails is undone in the directory and leaves
the cache as it was, from any state and whatever the cache holds. Hence the directory and the
group's field are in step afterwards just if the field does not tell of the failed connection any
more, and did not before unless the group has no members left. -/
theorem registerGroup_takenBack (l : Lifecycle) (id : ConnectionId) (t : Transport) (k : Cluster)
    {trace : List (Exchange Node.interface Cluster)} {r : Except OpenError Unit}
    (hrun : (l.registerGroup id t).Runs (AnswersLater l.broker true) k trace r k')
    (hfailed : failures trace = 1) :
    ∃ group err, t.attributes.group? = some group ∧ r = .error (.cache err) ∧
      MemberTakenBack l id k k' ∧
      (InStep l group id k k' ↔ ¬ FieldNames l group id k' ∧
        (FieldNames l group id k → ∀ id', ¬ Holds l group id' k')) := by
  rw [l.registerGroup_eq] at hrun
  cases hgroup : t.attributes.group? with
  | none =>
    rw [hgroup] at hrun
    cases hrun
    cases hfailed
  | some group =>
    rw [hgroup] at hrun
    obtain ⟨⟨err, rfl⟩, htaken⟩ :=
      hrun.of_ensures (ensures_registering_memberTakenBack _) hfailed
    exact ⟨group, err, rfl, rfl, htaken, htaken.inStep_iff⟩

/-- A connection of the group `g`. -/
def ofGroup (handle : Nat) (id : ConnectionId) : Transport :=
  ⟨handle, some (id, 0), .ofList [("secretKey", "s"), ("group", "g")]⟩

/-- The members `d` and `c` are in, `c` published last, and the next writing of a field fails. -/
def twoMembers : Cluster :=
  let k := ((porter.registerGroup ⟨"d"⟩ (ofGroup 0 ⟨"d"⟩)).run (Cluster.perform porter.broker)
    doorstep).2
  let k := ((porter.registerGroup ⟨"c"⟩ (ofGroup 1 ⟨"c"⟩)).run (Cluster.perform porter.broker) k).2
  { k with store := { k.store with outages := Table.empty.insert .hashPut ⟨0, some 1⟩ } }

/-- What comes of a registration under an id there. -/
def afterFailure (id : ConnectionId) : Cluster :=
  ((porter.registerGroup id (ofGroup 2 id)).run (Cluster.perform porter.broker) twoMembers).2

theorem exists_runs_twoMembers (id : ConnectionId)
    (hgoes : Node.goesThrough porter.broker (porter.registerGroup id (ofGroup 2 id)) twoMembers =
      true)
    (hfailed : failures ((porter.registerGroup id (ofGroup 2 id)).exchanges
      (Cluster.perform porter.broker) twoMembers) = 1) :
    ∃ trace r, (porter.registerGroup id (ofGroup 2 id)).Runs (AnswersLater porter.broker true)
      twoMembers trace r (afterFailure id) ∧ failures trace = 1 := by
  have hstore : Node.Behaves true twoMembers.store := ⟨rfl, rfl, nofun⟩
  have hrun := (Node.runs_exchanges porter.broker hgoes hstore).mono fun _ _ _ _ h => h.later
  exact ⟨_, _, hrun, hfailed⟩

/-- A member that comes for the first time leaves the directory and the field in step. -/
theorem newcomer_inStep : ∃ trace r k',
    (porter.registerGroup ⟨"e"⟩ (ofGroup 2 ⟨"e"⟩)).Runs (AnswersLater porter.broker true) twoMembers
      trace r k' ∧ failures trace = 1 ∧ InStep porter "g" ⟨"e"⟩ twoMembers k' := by
  obtain ⟨trace, r, hrun, hfailed⟩ := exists_runs_twoMembers ⟨"e"⟩ (by decide +kernel)
    (by decide +kernel)
  obtain ⟨group, err, hgroup, -, -, hstep⟩ :=
    registerGroup_takenBack porter ⟨"e"⟩ (ofGroup 2 ⟨"e"⟩) twoMembers hrun hfailed
  obtain rfl : "g" = group := Option.some.inj hgroup
  have hnew : ¬ FieldNames porter "g" ⟨"e"⟩ twoMembers := by decide +kernel
  have hstill : ¬ FieldNames porter "g" ⟨"e"⟩ (afterFailure ⟨"e"⟩) := by decide +kernel
  exact ⟨trace, r, _, hrun, hfailed, hstep.mpr ⟨hstill, fun h => absurd h hnew⟩⟩

/-- A member whose registration is renewed is lost from the directory. The field still tells of it,
although `d` is still there. -/
theorem renewed_member_lingers : ∃ trace r k',
    (porter.registerGroup ⟨"c"⟩ (ofGroup 2 ⟨"c"⟩)).Runs (AnswersLater porter.broker true) twoMembers
      trace r k' ∧ failures trace = 1 ∧ FieldNames porter "g" ⟨"c"⟩ twoMembers ∧
      FieldNames porter "g" ⟨"c"⟩ k' ∧ ¬ Holds porter "g" ⟨"c"⟩ k' ∧ Holds porter "g" ⟨"d"⟩ k' ∧
      ¬ InStep porter "g" ⟨"c"⟩ twoMembers k' := by
  obtain ⟨trace, r, hrun, hfailed⟩ := exists_runs_twoMembers ⟨"c"⟩ (by decide +kernel)
    (by decide +kernel)
  have hnamed : FieldNames porter "g" ⟨"c"⟩ (afterFailure ⟨"c"⟩) := by decide +kernel
  have hlost : ¬ Holds porter "g" ⟨"c"⟩ (afterFailure ⟨"c"⟩) := by decide +kernel
  exact ⟨trace, r, _, hrun, hfailed, by decide +kernel, hnamed, hlost, by decide +kernel,
    fun hstep => hlost (hstep.dropped hnamed)⟩

end Lifecycle

end SessionGateway
