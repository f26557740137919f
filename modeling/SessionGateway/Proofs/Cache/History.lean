import SessionGateway.Proofs.Cache.Reading

/-!
# Lookups after any history

Any number of nodes write to one store that was empty at first, each operation at an instant. What a
lookup finds is told by the history alone: for each living broker its last entry while it counts,
unless that very connection was forgotten since. Histories are listed newest first.
-/

namespace SessionGateway.SessionCache

open Cache (Operation Answers horizon wallAt)
open Store (Memory)

/-- What a node may do to the cache. -/
inductive Op where
  | refreshUser (e : UserEntry)
  | refreshGroup (e : GroupEntry)
  | refreshConnection (e : UserEntry)
  | forgetUser (e : UserEntry)
  | registerBroker (b : BrokerId)
  | deregisterBroker (b : BrokerId)
  | prune (b : BrokerId)
  | purge
  deriving DecidableEq, Repr

def Op.perform (c : SessionCache) : Op → Operation Unit
  | .refreshUser e => c.refreshUser e
  | .refreshGroup e => c.refreshGroup e
  | .refreshConnection e => c.refreshConnection e
  | .forgetUser e => do let _ ← c.forgetUser e
  | .registerBroker b => c.registerBroker b
  | .deregisterBroker b => do let _ ← c.deregisterBroker b
  | .prune b => do let _ ← c.prune b
  | .purge => do let _ ← purgeStore

/-- Operations with the instants at which they were given, newest first. -/
abbrev History : Type := List (Nat × Op)

/-- No operation of a history comes before an older one, or after an instant. -/
def History.EndsBy : History → Nat → Prop
  | [], _ => True
  | (s, _) :: older, t => s ≤ t ∧ History.EndsBy older s

/-- The memory that a history leaves. -/
def memoryAfter (c : SessionCache) (origin : Nat) : History → Memory
  | [] => .empty
  | (s, op) :: older => ((op.perform c).at origin s (memoryAfter c origin older)).2

/-- The last entry that a broker wrote for a user, with its time, unless its connection was
forgotten since. -/
def lastUser (b : BrokerId) (userId : Int64) : History → Option (UserEntry × Nat)
  | [] => none
  | (s, .refreshUser e) :: older =>
    if e.owner = b ∧ e.userId = userId then some (e, s) else lastUser b userId older
  | (_, .forgetUser e) :: older =>
    if e.owner = b ∧ e.userId = userId then
      (lastUser b userId older).filter fun x => x.1.connection ≠ e.connection
    else lastUser b userId older
  | _ :: older => lastUser b userId older

/-- The last entry that a broker wrote for a group, with its time. -/
def lastGroup (b : BrokerId) (group : String) : History → Option (GroupEntry × Nat)
  | [] => none
  | (s, .refreshGroup e) :: older =>
    if e.owner = b ∧ e.group = group then some (e, s) else lastGroup b group older
  | _ :: older => lastGroup b group older

/-- The last entry that was written for a connection alone, with its time, unless it was forgotten
since. -/
def lastConnection (id : ConnectionId) : History → Option (UserEntry × Nat)
  | [] => none
  | (s, .refreshConnection e) :: older =>
    if e.connection = id then some (e, s) else lastConnection id older
  | (_, .forgetUser e) :: older => if e.connection = id then none else lastConnection id older
  | _ :: older => lastConnection id older

/-- The last heartbeat of a broker, unless it has left since. -/
def lastBeat (b : BrokerId) : History → Option Nat
  | [] => none
  | (s, .registerBroker b') :: older => if b' = b then some s else lastBeat b older
  | (_, .deregisterBroker b') :: older => if b' = b then none else lastBeat b older
  | _ :: older => lastBeat b older

theorem spec_of_lastUser {b : BrokerId} {userId : Int64} {h : History} {e : UserEntry} {s : Nat}
    (hlast : lastUser b userId h = some (e, s)) : e.owner = b ∧ e.userId = userId := by
  induction h with
  | nil => cases hlast
  | cons x older ih =>
    obtain ⟨s', op⟩ := x
    cases op with
    | refreshUser e' =>
      rw [lastUser] at hlast
      split at hlast
      · next he =>
        cases hlast
        exact he
      · exact ih hlast
    | forgetUser e' =>
      rw [lastUser] at hlast
      split at hlast
      · exact ih (Option.filter_eq_some_iff.mp hlast).1
      · exact ih hlast
    | _ => exact ih hlast

theorem spec_of_lastGroup {b : BrokerId} {group : String} {h : History} {e : GroupEntry} {s : Nat}
    (hlast : lastGroup b group h = some (e, s)) : e.owner = b ∧ e.group = group := by
  induction h with
  | nil => cases hlast
  | cons x older ih =>
    obtain ⟨s', op⟩ := x
    cases op with
    | refreshGroup e' =>
      rw [lastGroup] at hlast
      split at hlast
      · next he =>
        cases hlast
        exact he
      · exact ih hlast
    | _ => exact ih hlast

/-! ### The ledger of a history -/

/-- A ledger with an operation entered under a time. -/
def Op.enter (c : SessionCache) (origin s : Nat) : Op → Ledger → Ledger
  | .refreshUser e, L =>
    Function.update L (.user e.owner (userField e.userId)) (some (c.stamped origin e.members s, s))
  | .refreshGroup e, L =>
    Function.update L (.group e.owner e.group) (some (c.stamped origin e.members s, s))
  | .refreshConnection e, L =>
    Function.update L (.connection e.connection) (some (e.toJson.render, s))
  | .forgetUser e, L => L.forget e
  | .registerBroker b, L =>
    Function.update L (.beat b) (some (toString (wallAt origin s).toInt, s))
  | .deregisterBroker b, L => Function.update L (.beat b) none
  | .prune _, L | .purge, L => L

/-- The places that an operation writes. -/
def Op.Writes : Op → Place → Prop
  | .refreshUser e, p => p = .user e.owner (userField e.userId)
  | .refreshGroup e, p => p = .group e.owner e.group
  | .refreshConnection e, p => p = .connection e.connection
  | .forgetUser e, p => p = .user e.owner (userField e.userId) ∨ p = .connection e.connection
  | .registerBroker b, p | .deregisterBroker b, p => p = .beat b
  | .prune _, _ | .purge, _ => False

def ledgerOf (c : SessionCache) (origin : Nat) : History → Ledger
  | [] => fun _ => none
  | (s, op) :: older => op.enter c origin s (ledgerOf c origin older)

section

variable {c : SessionCache} {origin t : Nat} {h : History}

theorem names_stamped (e e' : UserEntry) (s : Nat) :
    names (c.stamped origin e.members s) e'.connection = decide (e.connection = e'.connection) := by
  simp only [names, stamped, Stamped.readUser?_render]

theorem enter_of_not_writes {op : Op} {p : Place} (hp : ¬ op.Writes p) (s : Nat) (L : Ledger) :
    op.enter c origin s L p = L p := by
  cases op with
  | forgetUser e =>
    rw [Op.enter, Ledger.forget, Function.update_of_ne fun hpe => hp (.inl hpe),
      Function.update_of_ne fun hpe => hp (.inr hpe)]
  | prune | purge => rfl
  | _ => exact Function.update_of_ne hp _ _

theorem isStamped_enter {L : Ledger} (hL : L.IsStamped c origin) (op : Op) (s : Nat) :
    (op.enter c origin s L).IsStamped c origin := by
  intro p text s' hp hlast
  by_cases hwrites : op.Writes p
  · cases op with
    | refreshUser e =>
      obtain rfl : p = .user e.owner (userField e.userId) := hwrites
      simp only [Op.enter, Function.update_self, Option.some.injEq, Prod.mk.injEq] at hlast
      obtain ⟨rfl, rfl⟩ := hlast
      exact Stamped.stampOf?_render_user e _
    | refreshGroup e =>
      obtain rfl : p = .group e.owner e.group := hwrites
      simp only [Op.enter, Function.update_self, Option.some.injEq, Prod.mk.injEq] at hlast
      obtain ⟨rfl, rfl⟩ := hlast
      exact Stamped.stampOf?_render_group e _
    | forgetUser e =>
      obtain rfl | rfl := hwrites
      · rw [Op.enter, Ledger.forget, Function.update_self, Option.filter_eq_some_iff] at hlast
        exact hL _ text s' hp hlast.1
      · exact hp.elim
    | refreshConnection e =>
      obtain rfl : p = .connection e.connection := hwrites
      exact hp.elim
    | registerBroker b | deregisterBroker b =>
      obtain rfl : p = .beat b := hwrites
      exact hp.elim
    | prune | purge => exact hwrites.elim
  · rw [enter_of_not_writes hwrites] at hlast
    exact hL p text s' hp hlast

theorem isStamped_ledgerOf (h : History) : (ledgerOf c origin h).IsStamped c origin := by
  induction h with
  | nil => intro p text s _ hlast; cases hlast
  | cons x older ih => exact isStamped_enter ih x.2 x.1

theorem ledgerOf_cons {s : Nat} {op : Op} {p : Place} (hp : ¬ op.Writes p) (older : History) :
    ledgerOf c origin ((s, op) :: older) p = ledgerOf c origin older p :=
  enter_of_not_writes hp s _

theorem ledgerOf_user (b : BrokerId) (userId : Int64) (h : History) :
    ledgerOf c origin h (.user b (userField userId)) =
      (lastUser b userId h).map fun x => (c.stamped origin x.1.members x.2, x.2) := by
  induction h with
  | nil => rfl
  | cons x older ih =>
    obtain ⟨s, op⟩ := x
    have hplace : ∀ e : UserEntry, ¬ (e.owner = b ∧ e.userId = userId) →
        Place.user b (userField userId) ≠ .user e.owner (userField e.userId) := by
      intro e hne hp
      rw [Place.user.injEq, userField_inj] at hp
      exact hne ⟨hp.1.symm, hp.2.symm⟩
    cases op with
    | refreshUser e =>
      rw [lastUser]
      split
      · next he =>
        obtain ⟨rfl, rfl⟩ := he
        exact Function.update_self _ _ _
      · next he =>
        rw [ledgerOf_cons, ih]
        exact hplace e he
    | forgetUser e =>
      rw [lastUser]
      split
      · next he =>
        obtain ⟨rfl, rfl⟩ := he
        simp only [ledgerOf, Op.enter, Ledger.forget, Function.update_self, ih]
        cases lastUser e.owner e.userId older with
        | none => rfl
        | some x =>
          simp only [Option.map_some, Option.filter_some, names_stamped]
          by_cases hconnection : x.1.connection = e.connection <;> simp [hconnection]
      · next he =>
        rw [ledgerOf_cons, ih]
        rintro (hp | hp)
        · exact hplace e he hp
        · cases hp
    | refreshGroup | refreshConnection | registerBroker | deregisterBroker | prune | purge =>
      rw [ledgerOf_cons]
      · exact ih
      · intro hp
        cases hp

theorem ledgerOf_group (b : BrokerId) (group : String) (h : History) :
    ledgerOf c origin h (.group b group) =
      (lastGroup b group h).map fun x => (c.stamped origin x.1.members x.2, x.2) := by
  induction h with
  | nil => rfl
  | cons x older ih =>
    obtain ⟨s, op⟩ := x
    cases op with
    | refreshGroup e =>
      rw [lastGroup]
      split
      · next he =>
        obtain ⟨rfl, rfl⟩ := he
        exact Function.update_self _ _ _
      · next he =>
        rw [ledgerOf_cons, ih]
        intro hp
        obtain ⟨hb, hgroup⟩ := Place.group.inj hp
        exact he ⟨hb.symm, hgroup.symm⟩
    | forgetUser e =>
      rw [ledgerOf_cons]
      · exact ih
      · rintro (hp | hp) <;> cases hp
    | refreshUser | refreshConnection | registerBroker | deregisterBroker | prune | purge =>
      rw [ledgerOf_cons]
      · exact ih
      · intro hp
        cases hp

theorem ledgerOf_connection (id : ConnectionId) (h : History) :
    ledgerOf c origin h (.connection id) =
      (lastConnection id h).map fun x => (x.1.toJson.render, x.2) := by
  induction h with
  | nil => rfl
  | cons x older ih =>
    obtain ⟨s, op⟩ := x
    cases op with
    | refreshConnection e =>
      rw [lastConnection]
      split
      · next he =>
        obtain rfl := he
        exact Function.update_self _ _ _
      · next he =>
        rw [ledgerOf_cons, ih]
        intro hp
        exact he (Place.connection.inj hp).symm
    | forgetUser e =>
      rw [lastConnection]
      split
      · next he =>
        obtain rfl := he
        have hne : Place.connection e.connection ≠ .user e.owner (userField e.userId) := nofun
        rw [ledgerOf, Op.enter, Ledger.forget, Function.update_of_ne hne, Function.update_self,
          Option.map_none]
      · next he =>
        rw [ledgerOf_cons, ih]
        rintro (hp | hp)
        · cases hp
        · exact he (Place.connection.inj hp).symm
    | refreshUser | refreshGroup | registerBroker | deregisterBroker | prune | purge =>
      rw [ledgerOf_cons]
      · exact ih
      · intro hp
        cases hp

theorem ledgerOf_beat (b : BrokerId) (h : History) :
    ledgerOf c origin h (.beat b) =
      (lastBeat b h).map fun s => (toString (wallAt origin s).toInt, s) := by
  induction h with
  | nil => rfl
  | cons x older ih =>
    obtain ⟨s, op⟩ := x
    cases op with
    | registerBroker b' =>
      rw [lastBeat]
      split
      · next hb =>
        obtain rfl := hb
        exact Function.update_self _ _ _
      · next hb =>
        rw [ledgerOf_cons, ih]
        intro hp
        exact hb (Place.beat.inj hp).symm
    | deregisterBroker b' =>
      rw [lastBeat]
      split
      · next hb =>
        obtain rfl := hb
        exact Function.update_self _ _ _
      · next hb =>
        rw [ledgerOf_cons, ih]
        intro hp
        exact hb (Place.beat.inj hp).symm
    | forgetUser e =>
      rw [ledgerOf_cons]
      · exact ih
      · rintro (hp | hp) <;> cases hp
    | refreshUser | refreshGroup | refreshConnection | prune | purge =>
      rw [ledgerOf_cons]
      · exact ih
      · intro hp
        cases hp

/-! ### The memory mirrors the ledger -/

theorem ensures_perform {L : Ledger} {m : Memory} (hm : Mirrors c L m t)
    (hL : L.IsStamped c origin) (op : Op) :
    (op.perform c).Ensures (Answers origin) (t, m)
      (Records c t fun s => op.enter c origin s L) := by
  have hdiscard : ∀ {α : Type} {op : Operation α} {L' : Nat → Ledger},
      op.Ensures (Answers origin) (t, m) (Records c t L') →
      Operation.Ensures (Answers origin) (do let _ ← op) (t, m) (Records c t L') := by
    intro α op L' hop
    rw [Cache.ensures_bind]
    refine hop.mono ?_
    rintro _ s' ⟨⟨a, rfl⟩, hs⟩
    exact ⟨⟨(), rfl⟩, hs⟩
  cases op with
  | refreshUser e => exact hm.ensures_refreshUser e
  | refreshGroup e => exact hm.ensures_refreshGroup e
  | refreshConnection e => exact hm.ensures_refreshConnection e
  | forgetUser e => exact hdiscard (hm.ensures_forgetUser e)
  | registerBroker b => exact hm.ensures_registerBroker b
  | deregisterBroker b => exact hdiscard (hm.ensures_deregisterBroker b)
  | prune b => exact hdiscard (hm.ensures_prune hL b)
  | purge => exact hdiscard hm.ensures_purge

theorem mirrors_memoryAfter {h : History} (hend : h.EndsBy t) (ht : origin + t < horizon) :
    Mirrors c (ledgerOf c origin h) (memoryAfter c origin h) t := by
  induction h generalizing t with
  | nil => exact .empty c t
  | cons x older ih =>
    obtain ⟨s, op⟩ := x
    obtain ⟨hst, holder⟩ := hend
    have hs : origin + s < horizon := by omega
    have hrecords := (ensures_perform (ih holder hs) (isStamped_ledgerOf older) op).at hs
    obtain ⟨-, s', hle, hge, hmirror⟩ := hrecords
    obtain rfl : s' = s := Nat.le_antisymm hge hle
    exact hmirror.later hst

/-- What lookups find in a memory that mirrors a history. -/
theorem Mirrors.located {m : Memory} (hm : Mirrors c (ledgerOf c origin h) m t)
    (ht : origin + t < horizon) :
    ∃ bs : List BrokerId,
      c.brokers.at origin t m = (.ok bs, m) ∧
      bs.Pairwise (fun a b => a.text < b.text) ∧
      (∀ b s, lastBeat b h = some s → t < s + c.ttl.millis → b ∈ bs) ∧
      (∀ b ∈ bs, ∃ s, lastBeat b h = some s ∧ t ≤ s + c.ttl.millis) ∧
      (∀ userId, (c.locateUser userId).at origin t m =
        (.ok (bs.filterMap fun b => c.current t (lastUser b userId h)), m)) ∧
      ∀ group, (c.locateGroup group).at origin t m =
        (.ok (bs.filterMap fun b => c.current t (lastGroup b group h)), m) := by
  have hbeats : ∀ b text s, ledgerOf c origin h (.beat b) = some (text, s) →
      text = toString (wallAt origin s).toInt ∧ lastBeat b h = some s := by
    intro b text s hlast
    rw [ledgerOf_beat, Option.map_eq_some_iff] at hlast
    obtain ⟨s', hs', ⟨⟩⟩ := hlast
    exact ⟨rfl, hs'⟩
  obtain ⟨bs, hbs, hsorted, hlisted, hliving⟩ :=
    hm.brokers_at ht fun b text s hlast => (hbeats b text s hlast).1
  refine ⟨bs, hbs, hsorted, ?_, ?_, ?_, ?_⟩
  · intro b s hlast hlive
    refine hlisted b (toString (wallAt origin s).toInt) s ?_ hlive
    simp only [ledgerOf_beat, hlast, Option.map_some]
  · intro b hb
    obtain ⟨text, s, hlast, hlive⟩ := hliving b hb
    exact ⟨s, (hbeats b text s hlast).2, hlive⟩
  · intro userId
    simp only [locateUser, Cache.at_bind, hbs]
    exact hm.locateIn_at Stamped.readUser?_render ht (fun _ => rfl)
      (fun b => ledgerOf_user b userId h) bs
  · intro group
    simp only [locateGroup, Cache.at_bind, hbs]
    exact hm.locateIn_at Stamped.readGroup?_render ht (fun _ => rfl)
      (fun b => ledgerOf_group b group h) bs

/-- After any history the brokers that are listed are those with a heartbeat that is not too old,
and a lookup finds the last entry of each that counts, in the order of the brokers' ids. -/
theorem located_after_history (c : SessionCache) (origin t : Nat) (h : History)
    (hend : h.EndsBy t) (ht : origin + t < horizon) :
    ∃ bs : List BrokerId,
      c.brokers.at origin t (memoryAfter c origin h) = (.ok bs, memoryAfter c origin h) ∧
      bs.Pairwise (fun a b => a.text < b.text) ∧
      (∀ b s, lastBeat b h = some s → t < s + c.ttl.millis → b ∈ bs) ∧
      (∀ b ∈ bs, ∃ s, lastBeat b h = some s ∧ t ≤ s + c.ttl.millis) ∧
      (∀ userId, (c.locateUser userId).at origin t (memoryAfter c origin h) =
        (.ok (bs.filterMap fun b => c.current t (lastUser b userId h)), memoryAfter c origin h)) ∧
      ∀ group, (c.locateGroup group).at origin t (memoryAfter c origin h) =
        (.ok (bs.filterMap fun b => c.current t (lastGroup b group h)), memoryAfter c origin h) :=
  (mirrors_memoryAfter hend ht).located ht

end

/-- Two devices of one user on two nodes, one of which has left since; the device of the other is
forgotten under a wrong name. -/
def twoNodes : History :=
  [(50, .prune ⟨"b"⟩), (45, .deregisterBroker ⟨"b"⟩),
    (40, .forgetUser ⟨⟨"x"⟩, 1, 7, none, "t", ⟨"a"⟩⟩),
    (30, .registerBroker ⟨"b"⟩), (20, .refreshUser ⟨⟨"d"⟩, 1, 7, some 2, "u", ⟨"b"⟩⟩),
    (10, .refreshUser ⟨⟨"c"⟩, 1, 7, none, "t", ⟨"a"⟩⟩), (0, .registerBroker ⟨"a"⟩)]

theorem located_after_twoNodes :
    let c : SessionCache := ⟨"k", .ofMillis 100⟩
    let m := memoryAfter c 1700000000000 twoNodes
    ∃ (bs : List BrokerId) (found : List UserEntry),
      c.brokers.at 1700000000000 60 m = (.ok bs, m) ∧ ⟨"a"⟩ ∈ bs ∧ ⟨"b"⟩ ∉ bs ∧
      (c.locateUser 7).at 1700000000000 60 m = (.ok found, m) ∧
      ⟨⟨"c"⟩, 1, 7, none, "t", ⟨"a"⟩⟩ ∈ found := by
  obtain ⟨bs, hbs, -, hlisted, hliving, hlocate, -⟩ := located_after_history ⟨"k", .ofMillis 100⟩
    1700000000000 60 twoNodes (by simp [twoNodes, History.EndsBy]) (by decide)
  have ha : ⟨"a"⟩ ∈ bs := hlisted ⟨"a"⟩ 0 rfl (by decide)
  refine ⟨bs, _, hbs, ha, ?_, hlocate 7, List.mem_filterMap.mpr ⟨⟨"a"⟩, ha, rfl⟩⟩
  intro hb
  obtain ⟨s, hs, -⟩ := hliving ⟨"b"⟩ hb
  cases hs

end SessionGateway.SessionCache
