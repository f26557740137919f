import SessionGateway.Proofs.Cache.History
import SessionGateway.Proofs.Cluster.Answers
import SessionGateway.Proofs.Directory
import SessionGateway.Proofs.Lifecycle.Requests

/-!
# Sessions that are kept alive

A node opens and closes connections and makes passes, one after another, while time goes by. What it
writes to the cache is a history. As long as less than the time to live has passed since the last
pass and since every registration after it, lookups find all that the directory holds.
-/

namespace SessionGateway

open Node (AnswersInMillis Request cached)
open SessionCache (Op History Mirrors Records ledgerOf lastUser lastGroup lastConnection lastBeat)

namespace Lifecycle

/-! ### What a history keeps -/

/-- A time that does not come before all of some marks. -/
def Since (marks : List Nat) (s : Nat) : Prop := ∃ mark ∈ marks, mark ≤ s

/-- Something was written since the marks. -/
def Kept {α : Type} (marks : List Nat) (last : Option (α × Nat)) : Prop :=
  ∃ a s, last = some (a, s) ∧ Since marks s

/-- The entry was written for its connection since the marks, and some entry for its user. -/
def UserKept (marks : List Nat) (h : History) (e : UserEntry) : Prop :=
  (∃ s, lastConnection e.connection h = some (e, s) ∧ Since marks s) ∧
    Kept marks (lastUser e.owner e.userId h)

def GroupKept (marks : List Nat) (h : History) (e : GroupEntry) : Prop :=
  Kept marks (lastGroup e.owner e.group h)

def BeatKept (marks : List Nat) (h : History) (b : BrokerId) : Prop :=
  ∃ s, lastBeat b h = some s ∧ Since marks s

/-- An operation that takes nothing back, and writes for a connection alone only what a directory
has of it. -/
def Renews (d : Directory) : Op → Prop
  | .refreshConnection e => ∃ s, d.userSession? e.connection = some s ∧ s.entry = e
  | .forgetUser _ | .deregisterBroker _ => False
  | _ => True

/-- Operations since some marks that take nothing back follow on a history. -/
inductive Renewed (d : Directory) (marks : List Nat) (h : History) : History → Prop
  | refl : Renewed d marks h h
  | step {h' : History} {s : Nat} {op : Op} (earlier : Renewed d marks h h') (hs : Since marks s)
      (hop : Renews d op) : Renewed d marks h ((s, op) :: h')

section

variable {d : Directory} {marks marks' : List Nat} {s : Nat} {op : Op} {h h' h'' : History}

theorem Since.mono (hs : Since marks s) (hm : marks ⊆ marks') : Since marks' s := by
  obtain ⟨mark, hmark, hle⟩ := hs
  exact ⟨mark, hm hmark, hle⟩

theorem Kept.mono {α : Type} {last : Option (α × Nat)} (hk : Kept marks last)
    (hm : marks ⊆ marks') : Kept marks' last := by
  obtain ⟨a, s, hlast, hs⟩ := hk
  exact ⟨a, s, hlast, hs.mono hm⟩

theorem UserKept.mono {e : UserEntry} (hk : UserKept marks h e) (hm : marks ⊆ marks') :
    UserKept marks' h e := by
  obtain ⟨⟨s, hlast, hs⟩, huser⟩ := hk
  exact ⟨⟨s, hlast, hs.mono hm⟩, huser.mono hm⟩

theorem BeatKept.mono {b : BrokerId} (hk : BeatKept marks h b) (hm : marks ⊆ marks') :
    BeatKept marks' h b := by
  obtain ⟨s, hlast, hs⟩ := hk
  exact ⟨s, hlast, hs.mono hm⟩

theorem Renewed.mono (hr : Renewed d marks h h') (hm : marks ⊆ marks') :
    Renewed d marks' h h' := by
  induction hr with
  | refl => exact .refl
  | step earlier hs hop ih => exact .step ih (hs.mono hm) hop

theorem Renewed.trans (hr : Renewed d marks h h') (hr' : Renewed d marks h' h'') :
    Renewed d marks h h'' := by
  induction hr' with
  | refl => exact hr
  | step earlier hs hop ih => exact .step ih hs hop

/-- What is written now or was kept before is kept. -/
theorem Kept.renew {α : Type} {last last' : Option (α × Nat)} (hk : Kept marks last)
    (hs : Since marks s) (hlast : (∃ a, last' = some (a, s)) ∨ last' = last) :
    Kept marks last' := by
  obtain ⟨a, rfl⟩ | rfl := hlast
  · exact ⟨a, s, rfl, hs⟩
  · exact hk

theorem lastUser_cons (hop : Renews d op) (b : BrokerId) (userId : Int64) :
    (∃ e, lastUser b userId ((s, op) :: h) = some (e, s)) ∨
      lastUser b userId ((s, op) :: h) = lastUser b userId h := by
  cases op with
  | refreshUser e =>
    rw [lastUser]
    split
    · exact .inl ⟨e, rfl⟩
    · exact .inr rfl
  | forgetUser | deregisterBroker => exact hop.elim
  | _ => exact .inr rfl

theorem lastGroup_cons (hop : Renews d op) (b : BrokerId) (group : String) :
    (∃ e, lastGroup b group ((s, op) :: h) = some (e, s)) ∨
      lastGroup b group ((s, op) :: h) = lastGroup b group h := by
  cases op with
  | refreshGroup e =>
    rw [lastGroup]
    split
    · exact .inl ⟨e, rfl⟩
    · exact .inr rfl
  | forgetUser | deregisterBroker => exact hop.elim
  | _ => exact .inr rfl

theorem lastBeat_cons (hop : Renews d op) (b : BrokerId) :
    lastBeat b ((s, op) :: h) = some s ∨ lastBeat b ((s, op) :: h) = lastBeat b h := by
  cases op with
  | registerBroker b' =>
    rw [lastBeat]
    split
    · exact .inl rfl
    · exact .inr rfl
  | forgetUser | deregisterBroker => exact hop.elim
  | _ => exact .inr rfl

theorem lastConnection_cons {u : UserSession} (hop : Renews d op)
    (hu : d.userSession? u.entry.connection = some u) :
    lastConnection u.entry.connection ((s, op) :: h) = some (u.entry, s) ∨
      lastConnection u.entry.connection ((s, op) :: h) =
        lastConnection u.entry.connection h := by
  cases op with
  | refreshConnection e =>
    rw [lastConnection]
    split
    · next he =>
      obtain ⟨u', hu', rfl⟩ := hop
      simp only [he, hu, Option.some.injEq] at hu'
      rw [hu']
      exact .inl rfl
    · exact .inr rfl
  | forgetUser | deregisterBroker => exact hop.elim
  | _ => exact .inr rfl

theorem Renewed.userKept {u : UserSession} (hr : Renewed d marks h h')
    (hu : d.userSession? u.entry.connection = some u) (hk : UserKept marks h u.entry) :
    UserKept marks h' u.entry := by
  induction hr with
  | refl => exact hk
  | step earlier hs hop ih =>
    obtain ⟨⟨s', hlast, hs'⟩, huser⟩ := ih
    refine ⟨?_, huser.renew hs (lastUser_cons hop _ _)⟩
    rcases lastConnection_cons hop hu with hnew | hsame
    · exact ⟨_, hnew, hs⟩
    · exact ⟨s', hsame.trans hlast, hs'⟩

theorem Renewed.groupKept {e : GroupEntry} (hr : Renewed d marks h h')
    (hk : GroupKept marks h e) : GroupKept marks h' e := by
  induction hr with
  | refl => exact hk
  | step earlier hs hop ih => exact Kept.renew ih hs (lastGroup_cons hop _ _)

theorem Renewed.beatKept {b : BrokerId} (hr : Renewed d marks h h') (hk : BeatKept marks h b) :
    BeatKept marks h' b := by
  induction hr with
  | refl => exact hk
  | step earlier hs hop ih =>
    rcases lastBeat_cons hop b with hnew | hsame
    · exact ⟨_, hnew, hs⟩
    · obtain ⟨s', hlast, hs'⟩ := ih
      exact ⟨s', hsame.trans hlast, hs'⟩

end

/-! ### What a program writes -/

/-- The memory tells what a history has come to. -/
structure Reflects (c : SessionCache) (k : Cluster) (h : History) : Prop where
  inTime : Cluster.epoch + k.now.millis < Cache.horizon
  mirrors : Mirrors c (ledgerOf c Cluster.epoch h) k.memory k.now.millis

/-- A program is at work since a time on a node with a directory, and the memory reflects a
history. -/
structure Writing (c : SessionCache) (b : BrokerId) (d : Directory) (since : Nat) (k : Cluster)
    (h : History) : Prop where
  reflects : Reflects c k h
  directory : k.directory b = d
  late : since ≤ k.now.millis

/-- It went well, and what was written since goes on a history and satisfies a condition. -/
def Continues {α : Type} (c : SessionCache) (b : BrokerId) (d : Directory) (since : Nat)
    (h : History) (P : History → Prop) (r : Except CacheError α) (k' : Cluster) : Prop :=
  (∃ a, r = .ok a) ∧ ∃ h', Writing c b d since k' h' ∧ Renewed d [since] h h' ∧ P h'

section

variable {b : BrokerId} {c : SessionCache} {d : Directory} {k k' : Cluster} {h h' : History}
  {since : Nat}

theorem Reflects.later (hr : Reflects c k h) (hmemory : k'.memory = k.memory)
    (htime : k.now.millis ≤ k'.now.millis) (hin : Cluster.epoch + k'.now.millis < Cache.horizon) :
    Reflects c k' h := by
  refine ⟨hin, ?_⟩
  rw [hmemory]
  exact hr.mirrors.later htime

theorem time_answer {r : Request} {x : r.Answer} (hx : AnswersInMillis b r k x k') :
    k.now.millis ≤ k'.now.millis ∧ Cluster.epoch + k'.now.millis < Cache.horizon := by
  obtain ⟨t, ht, hin, hx⟩ := hx
  rw [hx.now_eq, Duration.millis_ofMillis]
  exact ⟨Duration.millis_le ht, hin⟩

theorem quiet_of_answers {fails : Bool} {r : Request} {x : r.Answer}
    (hx : Node.Answers b fails r k x k') (hr : r.IsQuiet) :
    k'.directory b = k.directory b ∧ k'.memory = k.memory := by
  cases r with
  | cache r =>
    cases r with
    | store command => exact hr.elim
    | _ => cases hx; exact ⟨rfl, rfl⟩
  | identify credential =>
    obtain rfl : k' = k := hx
    exact ⟨rfl, rfl⟩
  | acquire kind patience =>
    obtain ⟨-, -, rfl⟩ | ⟨-, -, rfl⟩ := hx
    · exact ⟨Cluster.directory_setLock _ _ _ _, rfl⟩
    · exact ⟨rfl, rfl⟩
  | release kind =>
    cases hx
    exact ⟨Cluster.directory_setLock _ _ _ _, rfl⟩
  | directory | close | measure =>
    cases hx
    exact ⟨rfl, rfl⟩
  | addUser | addGroup | withdrawUser | withdrawGroup | remove | processors | turn =>
    exact hr.elim

theorem quiet_answer {r : Request} {x : r.Answer} (hx : AnswersInMillis b r k x k')
    (hr : r.IsQuiet) : k'.directory b = k.directory b ∧ k'.memory = k.memory := by
  obtain ⟨t, -, -, hx⟩ := hx
  have hsame := quiet_of_answers hx hr
  exact hsame

theorem Writing.quiet {r : Request} {x : r.Answer} (hw : Writing c b d since k h)
    (hx : AnswersInMillis b r k x k') (hr : r.IsQuiet) : Writing c b d since k' h := by
  obtain ⟨hdirectory, hmemory⟩ := quiet_answer hx hr
  obtain ⟨htime, hin⟩ := time_answer hx
  constructor
  · exact hw.reflects.later hmemory htime hin
  · exact hdirectory.trans hw.directory
  · exact Nat.le_trans hw.late htime

/-- An operation on a node does to the node's memory what it does to a memory by itself. -/
theorem ensures_cached {α : Type} {op : Cache.Operation α}
    {Q : Except CacheError α → Nat × Store.Memory → Prop}
    (hin : Cluster.epoch + k.now.millis < Cache.horizon)
    (hop : op.Ensures (Cache.Answers Cluster.epoch) (k.now.millis, k.memory) Q) :
    (cached op).Ensures (AnswersInMillis b) k fun _ r k' => k'.sites = k.sites ∧
      Cluster.epoch + k'.now.millis < Cache.horizon ∧ Q r (k'.now.millis, k'.memory) := by
  rw [cached]
  unfold Cache.Operation.Ensures at hop
  generalize op.run = p at hop ⊢
  induction p generalizing k with
  | done a => exact ⟨rfl, hin, hop⟩
  | ask r next ih =>
    intro x k₁ hx
    obtain ⟨-, hin₁⟩ := time_answer hx
    obtain ⟨t, ht, hbound, hx⟩ := hx
    have hnow : k₁.now.millis = t := by rw [hx.now_eq, Duration.millis_ofMillis]
    have hsites : k₁.sites = k.sites := by
      cases r with
      | store command => rw [hx.1]
      | _ => cases hx; rfl
    have hanswer : Cache.Answers Cluster.epoch r (k.now.millis, k.memory) x
        (k₁.now.millis, k₁.memory) := by
      rw [hnow]
      refine ⟨Duration.millis_le ht, hbound, ?_⟩
      cases r with
      | store command =>
        obtain ⟨-, hcarried | ⟨⟨⟩, -⟩⟩ := hx
        exact hcarried
      | wallClock =>
        cases hx
        exact ⟨by simp only [Cluster.wallClock, Duration.millis_ofMillis, Cache.wallAt], rfl⟩
      | log e =>
        cases hx
        rfl
    refine (ih x hin₁ (hop x _ hanswer)).mono ?_
    rintro trace r k₂ ⟨hsites₂, hin₂, hQ⟩
    exact ⟨hsites₂.trans hsites, hin₂, hQ⟩

/-- One operation of the cache, entered into the history. -/
theorem Writing.ensures_op {α : Type} {op : Cache.Operation α} {x : Op}
    (hw : Writing c b d since k h) (hx : Renews d x)
    (hop : op.Ensures (Cache.Answers Cluster.epoch) (k.now.millis, k.memory)
      (Records c k.now.millis fun s => x.enter c Cluster.epoch s (ledgerOf c Cluster.epoch h))) :
    (cached op).Ensures (AnswersInMillis b) k fun _ r k' =>
      Continues c b d since h (fun h' => ∃ s, Since [since] s ∧ h' = (s, x) :: h) r k' := by
  refine (ensures_cached hw.reflects.inTime hop).mono ?_
  rintro trace r k' ⟨hsites, hin, hok, s, hs, hst, hmirrors⟩
  have hlate : since ≤ s := Nat.le_trans hw.late hs
  have hsince : Since [since] s := ⟨since, List.mem_singleton_self _, hlate⟩
  refine ⟨hok, (s, x) :: h, ⟨⟨hin, hmirrors⟩, ?_, Nat.le_trans hlate hst⟩, ?_, s, hsince, rfl⟩
  · exact (Cluster.directory_congr hsites).trans hw.directory
  · exact .step .refl hsince hx

theorem ensures_continues_bind {α β : Type} {p : NodeProgram (Except CacheError α)}
    {f : Except CacheError α → NodeProgram (Except CacheError β)} {P Q : History → Prop}
    (hp : p.Ensures (AnswersInMillis b) k fun _ r k' => Continues c b d since h P r k')
    (hf : ∀ a k' h', Writing c b d since k' h' → Renewed d [since] h h' → P h' →
      (f (.ok a)).Ensures (AnswersInMillis b) k' fun _ r k'' => Continues c b d since h' Q r k'') :
    (p.bind f).Ensures (AnswersInMillis b) k fun _ r k'' => Continues c b d since h Q r k'' := by
  rw [Program.ensures_bind]
  refine hp.mono ?_
  rintro trace _ k' ⟨⟨a, rfl⟩, h', hw', hr', hP⟩
  refine (hf a k' h' hw' hr' hP).mono ?_
  rintro trace' r k'' ⟨hok, h'', hw'', hr'', hQ⟩
  exact ⟨hok, h'', hw'', hr'.trans hr'', hQ⟩

theorem Writing.ensures_publishUser {u : UserSession} (hw : Writing c b d since k h)
    (hu : d.userSession? u.entry.connection = some u) :
    (cached (c.publishUser u.entry)).Ensures (AnswersInMillis b) k fun _ r k' =>
      Continues c b d since h (fun h' => UserKept [since] h' u.entry) r k' := by
  rw [SessionCache.publishUser, cached_bind]
  refine ensures_continues_bind (hw.ensures_op (x := .refreshUser u.entry) trivial
    (hw.reflects.mirrors.ensures_refreshUser _)) ?_
  rintro _ k₁ _ hw₁ - ⟨s₁, hs₁, rfl⟩
  refine (hw₁.ensures_op (x := .refreshConnection u.entry) ⟨u, hu, rfl⟩
    (hw₁.reflects.mirrors.ensures_refreshConnection _)).mono ?_
  rintro trace r k₂ ⟨hok, _, hw₂, hr₂, s₂, hs₂, rfl⟩
  refine ⟨hok, _, hw₂, hr₂, ⟨s₂, ?_, hs₂⟩, u.entry, s₁, ?_, hs₁⟩
  · rw [lastConnection, if_pos rfl]
  · exact if_pos ⟨rfl, rfl⟩

theorem Writing.ensures_refreshGroup (hw : Writing c b d since k h) (e : GroupEntry) :
    (cached (c.refreshGroup e)).Ensures (AnswersInMillis b) k fun _ r k' =>
      Continues c b d since h (fun h' => GroupKept [since] h' e) r k' := by
  refine (hw.ensures_op (x := .refreshGroup e) trivial
    (hw.reflects.mirrors.ensures_refreshGroup _)).mono ?_
  rintro trace r k' ⟨hok, _, hw', hr', s, hs, rfl⟩
  refine ⟨hok, _, hw', hr', e, s, ?_, hs⟩
  rw [lastGroup, if_pos ⟨rfl, rfl⟩]

/-! ### A pass -/

theorem answer_directory {x : Directory} (hx : AnswersInMillis b .directory k x k') :
    x = k.directory b := by
  obtain ⟨t, -, -, ⟨⟩⟩ := hx
  rfl

theorem Writing.ensures_holding {α : Type} {kind : ConnectionKind}
    {body : NodeProgram (Except CacheError α)} {P : History → Prop} (hw : Writing c b d since k h)
    (hbody : ∀ k', Writing c b d since k' h →
      body.Ensures (AnswersInMillis b) k' fun _ r k'' => Continues c b d since h P r k'') :
    (Node.holding kind none body).Ensures (AnswersInMillis b) k fun _ r k' =>
      ∃ x, r = some x ∧ Continues c b d since h P x k' := by
  rw [holding_eq]
  intro x k₁ hx
  have hw₁ := hw.quiet hx trivial
  cases x with
  | false =>
    obtain ⟨t, -, -, ⟨⟨⟩, -⟩ | ⟨-, ⟨⟩, -⟩⟩ := hx
  | true =>
    rw [Program.ensures_bind]
    refine (hbody k₁ hw₁).mono ?_
    rintro trace r k₂ ⟨hok, h', hw₂, hr, hP⟩ _ k₃ hrelease
    exact ⟨r, rfl, hok, h', hw₂.quiet hrelease trivial, hr, hP⟩

/-- Publishing one connection after another does what each of them does. -/
theorem Writing.ensures_republishAll {kind : ConnectionKind}
    {publish : ConnectionId → NodeProgram (Except CacheError Bool)}
    {Good : ConnectionId → History → Prop}
    (hgood : ∀ id h h', Renewed d [since] h h' → Good id h → Good id h')
    (hpublish : ∀ id k h, Writing c b d since k h →
      (publish id).Ensures (AnswersInMillis b) k fun _ r k' =>
        Continues c b d since h (Good id) r k')
    (hw : Writing c b d since k h) (ids : List ConnectionId) :
    (republishAll kind publish ids).Ensures (AnswersInMillis b) k fun _ r k' =>
      Continues c b d since h (fun h' => ∀ id ∈ ids, Good id h') r k' := by
  induction ids generalizing k h with
  | nil => exact ⟨⟨0, rfl⟩, h, hw, .refl, fun id hid => nomatch hid⟩
  | cons id rest ih =>
    rw [republishAll_cons, Program.ensures_bind]
    refine (hw.ensures_holding fun k' hw' => hpublish id k' h hw').mono ?_
    rintro trace _ k₁ ⟨_, rfl, ⟨there, rfl⟩, h₁, hw₁, hr₁, hid⟩
    have hkept : ∀ h₂, Renewed d [since] h₁ h₂ → (∀ id ∈ rest, Good id h₂) →
        ∀ id' ∈ id :: rest, Good id' h₂ := by
      intro h₂ hr₂ hrest id' hid'
      rcases List.mem_cons.mp hid' with rfl | hid'
      · exact hgood _ _ _ hr₂ hid
      · exact hrest id' hid'
    cases there with
    | false =>
      refine (ih hw₁).mono ?_
      rintro trace' r k₂ ⟨hok, h₂, hw₂, hr₂, hrest⟩
      exact ⟨hok, h₂, hw₂, hr₁.trans hr₂, hkept h₂ hr₂ hrest⟩
    | true =>
      show (Program.bind _ _).Ensures _ _ _
      rw [Program.ensures_bind]
      refine (ih hw₁).mono ?_
      rintro trace' _ k₂ ⟨⟨n, rfl⟩, h₂, hw₂, hr₂, hrest⟩
      exact ⟨⟨n + 1, rfl⟩, h₂, hw₂, hr₁.trans hr₂, hkept h₂ hr₂ hrest⟩

/-- All that a directory holds is kept. -/
structure AllKept (marks : List Nat) (h : History) (d : Directory) : Prop where
  users : ∀ id u, d.userSession? id = some u → UserKept marks h u.entry
  groups : ∀ id g, d.groupSession? id = some g → GroupKept marks h g.entry

/-- The sessions of a directory are filed under their own ids and belong to a node. -/
structure Owned (b : BrokerId) (d : Directory) : Prop where
  users : ∀ id u, d.userSession? id = some u → u.entry.connection = id ∧ u.entry.owner = b
  groups : ∀ id g, d.groupSession? id = some g → g.entry.connection = id ∧ g.entry.owner = b

theorem Writing.ensures_republishUser {l : Lifecycle} (hd : Owned l.broker d)
    (hw : Writing l.cache l.broker d since k h) (id : ConnectionId) :
    (l.republishUser id).Ensures (AnswersInMillis l.broker) k fun _ r k' =>
      Continues l.cache l.broker d since h
        (fun h' => ∀ u, d.userSession? id = some u → UserKept [since] h' u.entry) r k' := by
  rw [l.republishUser_eq]
  intro d' k₁ hx
  have hw₁ := hw.quiet hx trivial
  obtain rfl : d' = d := (answer_directory hx).trans hw.directory
  dsimp only
  cases hu : d'.userSession? id with
  | none => exact ⟨⟨false, rfl⟩, h, hw₁, .refl, fun _ => nofun⟩
  | some u =>
    obtain ⟨hid, -⟩ := hd.users id u hu
    show (Program.bind _ _).Ensures _ _ _
    rw [Program.ensures_bind]
    refine (hw₁.ensures_publishUser (hid ▸ hu)).mono ?_
    rintro trace _ k₂ ⟨⟨⟨⟩, rfl⟩, h', hw₂, hr, hkept⟩
    refine ⟨⟨true, rfl⟩, h', hw₂, hr, ?_⟩
    rintro _ ⟨⟩
    exact hkept

theorem Writing.ensures_republishGroup {l : Lifecycle}
    (hw : Writing l.cache l.broker d since k h) (id : ConnectionId) :
    (l.republishGroup id).Ensures (AnswersInMillis l.broker) k fun _ r k' =>
      Continues l.cache l.broker d since h
        (fun h' => ∀ g, d.groupSession? id = some g → GroupKept [since] h' g.entry) r k' := by
  rw [l.republishGroup_eq]
  intro d' k₁ hx
  have hw₁ := hw.quiet hx trivial
  obtain rfl : d' = d := (answer_directory hx).trans hw.directory
  dsimp only
  cases hg : d'.groupSession? id with
  | none => exact ⟨⟨false, rfl⟩, h, hw₁, .refl, fun _ => nofun⟩
  | some g =>
    show (Program.bind _ _).Ensures _ _ _
    rw [Program.ensures_bind]
    refine (hw₁.ensures_refreshGroup g.entry).mono ?_
    rintro trace _ k₂ ⟨⟨⟨⟩, rfl⟩, h', hw₂, hr, hkept⟩
    refine ⟨⟨true, rfl⟩, h', hw₂, hr, ?_⟩
    rintro _ ⟨⟩
    exact hkept

/-- Publishing again writes all that the directory holds. -/
theorem Writing.ensures_republish {l : Lifecycle} (hd : Owned l.broker d)
    (hw : Writing l.cache l.broker d since k h) :
    l.republish.Ensures (AnswersInMillis l.broker) k fun _ r k' =>
      Continues l.cache l.broker d since h (fun h' => AllKept [since] h' d) r k' := by
  rw [l.republish_eq]
  intro d' k₁ hx
  have hw₁ := hw.quiet hx trivial
  obtain rfl : d' = d := (answer_directory hx).trans hw.directory
  refine ensures_continues_bind (hw₁.ensures_republishAll ?_
    (fun id _ _ hw' => hw'.ensures_republishUser hd id) _) ?_
  · intro id h h' hr hkept u hu
    obtain ⟨hid, -⟩ := hd.users id u hu
    exact hr.userKept (hid ▸ hu) (hkept u hu)
  rintro m k₂ h₂ hw₂ hr₂ husers d'' k₃ hx'
  have hw₃ := hw₂.quiet hx' trivial
  obtain rfl : d'' = d' := (answer_directory hx').trans hw₂.directory
  rw [Program.ensures_bind]
  refine (hw₃.ensures_republishAll ?_
    (fun id _ _ hw' => hw'.ensures_republishGroup id) _).mono ?_
  · intro id h h' hr hkept g hg
    exact hr.groupKept (hkept g hg)
  rintro trace _ k₄ ⟨⟨n, rfl⟩, h₄, hw₄, hr₄, hgroups⟩
  refine ⟨⟨(m, n), rfl⟩, h₄, hw₄, hr₄, ?_, ?_⟩
  · intro id u hu
    obtain ⟨hid, -⟩ := hd.users id u hu
    have hmem : id ∈ d''.userEntries.map (·.connection) := by
      simp only [Directory.userEntries, List.map_map, List.mem_map]
      exact ⟨u, (Table.mem_values_iff _).mpr ⟨id, hu⟩, hid⟩
    exact hr₄.userKept (hid ▸ hu) (husers id hmem u hu)
  · intro id g hg
    obtain ⟨hid, -⟩ := hd.groups id g hg
    have hmem : id ∈ d''.groupEntries.map (·.connection) := by
      simp only [Directory.groupEntries, List.map_map, List.mem_map]
      exact ⟨g, (Table.mem_values_iff _).mpr ⟨id, hg⟩, hid⟩
    exact hgroups id hmem g hg

theorem Writing.ensures_tick {l : Lifecycle} (hd : Owned l.broker d)
    (hw : Writing l.cache l.broker d since k h) :
    l.tick.Ensures (AnswersInMillis l.broker) k fun _ r k' =>
      Continues l.cache l.broker d since h
        (fun h' => AllKept [since] h' d ∧ BeatKept [since] h' l.broker) r k' := by
  rw [l.tick_eq]
  refine ensures_continues_bind (hw.ensures_op (x := .registerBroker l.broker) trivial
    (hw.reflects.mirrors.ensures_registerBroker _)) ?_
  rintro _ k₁ _ hw₁ - ⟨s, hs, rfl⟩
  have hbeat : BeatKept [since] ((s, .registerBroker l.broker) :: h) l.broker :=
    ⟨s, if_pos rfl, hs⟩
  refine ensures_continues_bind (hw₁.ensures_republish hd) ?_
  rintro published k₂ h₂ hw₂ hr₂ hkept
  have hstamped : (ledgerOf l.cache Cluster.epoch h₂).IsStamped l.cache Cluster.epoch :=
    SessionCache.isStamped_ledgerOf h₂
  refine ensures_continues_bind (hw₂.ensures_op (x := .prune l.broker) trivial
    (hw₂.reflects.mirrors.ensures_prune hstamped _)) ?_
  rintro pruned k₃ h₃ hw₃ hr₃ -
  refine ensures_continues_bind (hw₃.ensures_op (x := .purge) trivial
    hw₃.reflects.mirrors.ensures_purge) ?_
  rintro swept k₄ h₄ hw₄ hr₄ -
  have hr := hr₃.trans hr₄
  refine ⟨⟨_, rfl⟩, h₄, hw₄, .refl, ⟨?_, ?_⟩, (hr₂.trans hr).beatKept hbeat⟩
  · intro id u hu
    obtain ⟨hid, -⟩ := hd.users id u hu
    exact hr.userKept (hid ▸ hu) (hkept.users id u hu)
  · intro id g hg
    exact hr.groupKept (hkept.groups id g hg)

end

/-! ### Opening and closing -/

/-- The time at which a connection was registered. -/
def mark? (x : Exchange Node.interface Cluster) : Option Nat :=
  match x.request with
  | .addUser _ | .addGroup _ => some x.state.now.millis
  | _ => none

def registrations (trace : List (Exchange Node.interface Cluster)) : List Nat :=
  trace.filterMap mark?

/-- What a node wrote since the marks keeps all that its directory holds, and its heartbeat once it
has made a pass. -/
structure Upheld (l : Lifecycle) (k : Cluster) (ticked : Bool) (marks : List Nat) : Prop where
  owned : Owned l.broker (k.directory l.broker)
  kept : ∃ h, Reflects l.cache k h ∧ AllKept marks h (k.directory l.broker) ∧
    (ticked = true → BeatKept marks h l.broker)

/-- A program keeps up a node, with the marks of its own registrations. -/
def Upholds {α : Type} (l : Lifecycle) (p : NodeProgram α) : Prop :=
  ∀ k ticked marks, Upheld l k ticked marks →
    p.Ensures (AnswersInMillis l.broker) k fun trace _ k' =>
      Upheld l k' ticked (registrations trace ++ marks)

section

variable {l : Lifecycle} {k k' : Cluster} {ticked : Bool} {marks marks' : List Nat}

theorem Upheld.mono (hk : Upheld l k ticked marks) (hm : marks ⊆ marks') :
    Upheld l k ticked marks' := by
  obtain ⟨howned, h, hr, hall, hbeat⟩ := hk
  refine ⟨howned, h, hr, ⟨?_, ?_⟩, fun hticked => (hbeat hticked).mono hm⟩
  · intro id u hu
    exact (hall.users id u hu).mono hm
  · intro id g hg
    exact Kept.mono (hall.groups id g hg) hm

theorem Upheld.quiet {r : Request} {x : r.Answer} (hk : Upheld l k ticked marks)
    (hx : AnswersInMillis l.broker r k x k') (hr : r.IsQuiet) : Upheld l k' ticked marks := by
  obtain ⟨howned, h, hreflects, hkept⟩ := hk
  obtain ⟨hdirectory, hmemory⟩ := quiet_answer hx hr
  obtain ⟨htime, hin⟩ := time_answer hx
  rw [← hdirectory] at howned hkept
  exact ⟨howned, h, hreflects.later hmemory htime hin, hkept⟩

theorem Upheld.ensures_quiet {α : Type} {p : NodeProgram α} (hk : Upheld l k ticked marks)
    (hp : p.Only Request.IsQuiet) :
    p.Ensures (AnswersInMillis l.broker) k fun _ _ k' => Upheld l k' ticked marks :=
  (hp.ensures (K := fun k => Upheld l k ticked marks)
    (A := AnswersInMillis l.broker) (fun _ _ _ _ hr hk hx => hk.quiet hx hr) hk).mono
      fun _ _ _ hk' => hk'.1

theorem upholds_done {α : Type} (a : α) : Upholds l (.done a) := fun _ _ _ hk => hk

theorem upholds_ask {α : Type} {r : Request} {next : r.Answer → NodeProgram α} (hr : r.IsQuiet)
    (hnext : ∀ x, Upholds l (next x)) : Upholds l (.ask r next) := by
  intro k ticked marks hk x k' hx
  refine (hnext x k' ticked marks (hk.quiet hx hr)).mono ?_
  intro trace a k'' hk''
  refine hk''.mono ?_
  intro mark hmark
  rcases List.mem_append.mp hmark with hmark | hmark
  · exact List.mem_append_left _ (List.filterMap_subset _ (List.subset_cons_self _ _) hmark)
  · exact List.mem_append_right _ hmark

theorem upholds_bind {α β : Type} {p : NodeProgram α} {f : α → NodeProgram β}
    (hp : Upholds l p) (hf : ∀ a, Upholds l (f a)) : Upholds l (p.bind f) := by
  intro k ticked marks hk
  rw [Program.ensures_bind]
  refine (hp k ticked marks hk).mono ?_
  intro trace a k' hk'
  refine (hf a k' ticked _ hk').mono ?_
  intro trace' b k'' hk''
  refine hk''.mono ?_
  intro mark hmark
  rw [registrations, List.filterMap_append]
  simp only [List.mem_append] at hmark ⊢
  rcases hmark with hmark | hmark | hmark
  · exact .inl (.inr hmark)
  · exact .inl (.inl hmark)
  · exact .inr hmark

theorem upholds_of_quiet {α : Type} {p : NodeProgram α} (hp : p.Only Request.IsQuiet) :
    Upholds l p := by
  induction p with
  | done a => exact upholds_done a
  | ask r next ih => exact upholds_ask hp.1 fun x => ih x (hp.2 x)

theorem upholds_holding {α : Type} {kind : ConnectionKind} {patience : Option Duration}
    {body : NodeProgram α} (hbody : Upholds l body) :
    Upholds l (Node.holding kind patience body) := by
  rw [holding_eq]
  refine upholds_ask trivial ?_
  rintro (_ | _)
  · exact upholds_done _
  · exact upholds_bind hbody fun _ => upholds_ask trivial fun _ => upholds_done _

/-- What is in the directory was kept before or is written since a new mark. -/
theorem upheld_of_renewed {d : Directory} {h h' : History} {since : Nat} (hd : Owned l.broker d)
    (hw : Writing l.cache l.broker d since k h') (hr : Renewed d [since] h h')
    (husers : ∀ id u, d.userSession? id = some u →
      UserKept marks h u.entry ∨ UserKept [since] h' u.entry)
    (hgroups : ∀ id g, d.groupSession? id = some g →
      GroupKept marks h g.entry ∨ GroupKept [since] h' g.entry)
    (hbeat : ticked = true → BeatKept marks h l.broker) :
    Upheld l k ticked (since :: marks) := by
  have hnew : [since] ⊆ since :: marks := by simp
  have hold : marks ⊆ since :: marks := List.subset_cons_self _ _
  have hr' := hr.mono hnew
  rw [← hw.directory] at hd husers hgroups hr'
  refine ⟨hd, h', hw.reflects, ⟨?_, ?_⟩, fun hticked => hr'.beatKept ((hbeat hticked).mono hold)⟩
  · intro id u hu
    rcases husers id u hu with hkept | hkept
    · obtain ⟨hid, -⟩ := hd.users id u hu
      exact hr'.userKept (hid ▸ hu) (hkept.mono hold)
    · exact hkept.mono hnew
  · intro id g hg
    rcases hgroups id g hg with hkept | hkept
    · exact hr'.groupKept (Kept.mono hkept hold)
    · exact Kept.mono hkept hnew

/-- A registration with its mark, and what follows it quietly. -/
theorem upheld_after {α : Type} {p : NodeProgram α} {x : Exchange Node.interface Cluster}
    {since : Nat} (hx : mark? x = some since) (hp : p.Only Request.IsQuiet)
    (hk : Upheld l k ticked (since :: marks)) (trace : List (Exchange Node.interface Cluster)) :
    p.Ensures (AnswersInMillis l.broker) k fun trace' _ k' =>
      Upheld l k' ticked (registrations (x :: (trace ++ trace')) ++ marks) := by
  refine (upholds_of_quiet hp k ticked _ hk).mono ?_
  intro trace' a k' hk'
  refine hk'.mono ?_
  intro mark hmark
  simp only [registrations, List.filterMap_cons, hx, List.filterMap_append, List.mem_append,
    List.mem_cons] at hmark ⊢
  rcases hmark with hmark | hmark | hmark
  · exact .inl (.inr (.inr hmark))
  · exact .inl (.inl hmark)
  · exact .inr hmark

theorem Owned.addUser {d : Directory} {u : UserSession} (hd : Owned l.broker d)
    (hu : u.entry.owner = l.broker) : Owned l.broker (d.addUser u) := by
  refine ⟨?_, hd.groups⟩
  intro id v hv
  rw [Directory.userSession?_addUser] at hv
  split at hv
  · next hid =>
    cases hv
    exact ⟨hid, hu⟩
  · exact hd.users id v hv

theorem Owned.addGroup {d : Directory} {g : GroupSession} (hd : Owned l.broker d)
    (hg : g.entry.owner = l.broker) : Owned l.broker (d.addGroup g) := by
  refine ⟨hd.users, ?_⟩
  intro id v hv
  rw [Directory.groupSession?_addGroup] at hv
  split at hv
  · next hid =>
    cases hv
    exact ⟨hid, hg⟩
  · exact hd.groups id v hv

theorem upholds_enrolUser {u : UserSession} (hu : u.entry.owner = l.broker) :
    Upholds l (l.enrolUser u) := by
  intro k ticked marks ⟨hd, h, hr, hall, hbeat⟩
  rw [l.enrolUser_eq]
  intro replaced k₁ hadd
  obtain ⟨htime, hin⟩ := time_answer hadd
  have hk₁ : k₁.directory l.broker = (k.directory l.broker).addUser u ∧ k₁.memory = k.memory := by
    obtain ⟨t, -, -, ⟨⟩⟩ := hadd
    exact ⟨Cluster.directory_setDirectory _ _ _, rfl⟩
  have hw : Writing l.cache l.broker _ k₁.now.millis k₁ h :=
    ⟨hr.later hk₁.2 htime hin, hk₁.1, Nat.le_refl _⟩
  rw [Program.ensures_bind]
  refine (hw.ensures_publishUser (u := u) ?_).mono ?_
  · rw [Directory.userSession?_addUser, if_pos rfl]
  rintro trace _ k₂ ⟨⟨⟨⟩, rfl⟩, h', hw', hr', hkept⟩
  refine upheld_after rfl ?_ (upheld_of_renewed (hd.addUser hu) hw' hr' ?_ ?_ hbeat) trace
  · refine (only_quiet_of_idle (only_log _)).bind fun _ => ?_
    exact (only_quiet_of_idle (only_countRegistered _ _)).bind fun _ => trivial
  · intro id v hv
    rw [Directory.userSession?_addUser] at hv
    split at hv
    · cases hv
      exact .inr hkept
    · exact .inl (hall.users id v hv)
  · intro id g hg
    exact .inl (hall.groups id g hg)

theorem upholds_enrolGroup {g : GroupSession} (hg : g.entry.owner = l.broker) :
    Upholds l (l.enrolGroup g) := by
  intro k ticked marks ⟨hd, h, hr, hall, hbeat⟩
  rw [l.enrolGroup_eq]
  intro replaced k₁ hadd
  obtain ⟨htime, hin⟩ := time_answer hadd
  have hk₁ : k₁.directory l.broker = (k.directory l.broker).addGroup g ∧ k₁.memory = k.memory := by
    obtain ⟨t, -, -, ⟨⟩⟩ := hadd
    exact ⟨Cluster.directory_setDirectory _ _ _, rfl⟩
  have hw : Writing l.cache l.broker _ k₁.now.millis k₁ h :=
    ⟨hr.later hk₁.2 htime hin, hk₁.1, Nat.le_refl _⟩
  rw [Program.ensures_bind]
  refine (hw.ensures_refreshGroup g.entry).mono ?_
  rintro trace _ k₂ ⟨⟨⟨⟩, rfl⟩, h', hw', hr', hkept⟩
  refine upheld_after rfl ?_ (upheld_of_renewed (hd.addGroup hg) hw' hr' ?_ ?_ hbeat) trace
  · refine (only_quiet_of_idle (only_log _)).bind fun _ => ?_
    exact (only_quiet_of_idle (only_countRegistered _ _)).bind fun _ => trivial
  · intro id v hv
    exact .inl (hall.users id v hv)
  · intro id v hv
    rw [Directory.groupSession?_addGroup] at hv
    split at hv
    · cases hv
      exact .inr hkept
    · exact .inl (hall.groups id v hv)

theorem upholds_registering {α : Type} {kind : ConnectionKind}
    {body : NodeProgram (Except OpenError α)} (hbody : Upholds l body) :
    Upholds l (l.registering kind body) := by
  rw [l.registering_eq]
  refine upholds_bind (upholds_holding hbody) ?_
  rintro (_ | r)
  · exact upholds_bind (upholds_of_quiet (only_quiet_of_idle (only_measure _ _))) fun _ =>
      upholds_done _
  · exact upholds_done r

theorem upholds_register (t : Transport) : Upholds l (l.register t) := by
  rw [l.register_eq]
  cases t.id? with
  | none => exact upholds_done _
  | some id =>
    rcases t.attributes.classify with _ | _ | _
    · exact upholds_done _
    · refine upholds_bind ?_ fun _ => upholds_done _
      rw [l.registerUser_eq]
      cases t.attributes.token? with
      | none => exact upholds_done _
      | some token =>
        refine upholds_ask trivial ?_
        rintro (err | p)
        · exact upholds_done _
        · exact upholds_registering (upholds_enrolUser rfl)
    · refine upholds_bind ?_ fun _ => upholds_done _
      rw [l.registerGroup_eq]
      cases t.attributes.group? with
      | none => exact upholds_done _
      | some group => exact upholds_registering (upholds_enrolGroup rfl)

theorem upholds_onOpen (t : Transport) : Upholds l (l.onOpen t) := by
  rw [l.onOpen_eq]
  refine upholds_bind (upholds_register t) ?_
  rintro (err | s)
  · cases err with
    | lockTimeout d => exact upholds_of_quiet ⟨trivial, fun _ => trivial⟩
    | _ => exact upholds_of_quiet ⟨trivial, fun _ => ⟨trivial, fun _ => trivial⟩⟩
  · exact upholds_done s

/-- Closing leaves what is written as it is, and the directory with less. -/
theorem ensures_onClose (hk : Upheld l k ticked marks) (id : ConnectionId) :
    (onClose id).Ensures (AnswersInMillis l.broker) k fun _ _ k' =>
      Upheld l k' ticked marks := by
  obtain ⟨hd, h, hr, hall, hbeat⟩ := hk
  rw [onClose_eq]
  intro kind k₁ hremove
  obtain ⟨htime, hin⟩ := time_answer hremove
  have hk₁ : k₁.directory l.broker = ((k.directory l.broker).remove id).2 ∧
      k₁.memory = k.memory := by
    obtain ⟨t, -, -, ⟨⟩⟩ := hremove
    exact ⟨Cluster.directory_setDirectory _ _ _, rfl⟩
  have hupheld : Upheld l k₁ ticked marks := by
    refine ⟨⟨?_, ?_⟩, h, hr.later hk₁.2 htime hin, ⟨?_, ?_⟩, hbeat⟩
    · intro id' u hu
      rw [hk₁.1] at hu
      exact hd.users id' u (Directory.userSession?_of_remove hu)
    · intro id' g hg
      rw [hk₁.1] at hg
      exact hd.groups id' g (Directory.groupSession?_of_remove hg)
    · intro id' u hu
      rw [hk₁.1] at hu
      exact hall.users id' u (Directory.userSession?_of_remove hu)
    · intro id' g hg
      rw [hk₁.1] at hg
      exact hall.groups id' g (Directory.groupSession?_of_remove hg)
  cases kind with
  | none => exact hupheld
  | some kind => exact hupheld.ensures_quiet ⟨trivial, fun _ => ⟨trivial, fun _ => trivial⟩⟩

theorem ensures_tick (hk : Upheld l k ticked marks) :
    l.tick.Ensures (AnswersInMillis l.broker) k fun _ _ k' =>
      Upheld l k' true [k.now.millis] := by
  obtain ⟨hd, h, hr, -, -⟩ := hk
  have hw : Writing l.cache l.broker _ k.now.millis k h := ⟨hr, rfl, Nat.le_refl _⟩
  refine (hw.ensures_tick hd).mono ?_
  rintro trace r k' ⟨-, h', hw', -, hall, hbeat⟩
  rw [← hw'.directory] at hd hall
  exact ⟨hd, h', hw'.reflects, hall, fun _ => hbeat⟩

end

/-! ### A node's life -/

/-- What a node has been through: whether it has made a pass, and the times of the last pass and of
the registrations since, the passes being counted from their beginning. -/
inductive Life (l : Lifecycle) : Cluster → Bool → List Nat → Prop
  | start {k : Cluster} (directory : k.directory l.broker = .empty l.broker)
      (memory : k.memory = .empty) (inTime : Cluster.epoch + k.now.millis < Cache.horizon) :
      Life l k false []
  | wait {k : Cluster} {ticked : Bool} {marks : List Nat} (life : Life l k ticked marks) (t : Nat)
      (later : k.now ≤ .ofMillis t) (inTime : Cluster.epoch + t < Cache.horizon) :
      Life l { k with now := .ofMillis t } ticked marks
  | opened {k k' : Cluster} {ticked : Bool} {marks : List Nat} {s : ConnectionState}
      {trace : List (Exchange Node.interface Cluster)} (life : Life l k ticked marks)
      (t : Transport) (run : (l.onOpen t).Runs (AnswersInMillis l.broker) k trace s k') :
      Life l k' ticked (registrations trace ++ marks)
  | closed {k k' : Cluster} {ticked : Bool} {marks : List Nat} {kind : Option ConnectionKind}
      {trace : List (Exchange Node.interface Cluster)} (life : Life l k ticked marks)
      (id : ConnectionId) (run : (onClose id).Runs (AnswersInMillis l.broker) k trace kind k') :
      Life l k' ticked marks
  | ticked {k k' : Cluster} {ticked : Bool} {marks : List Nat}
      {report : Except CacheError ReconcileReport}
      {trace : List (Exchange Node.interface Cluster)} (life : Life l k ticked marks)
      (run : l.tick.Runs (AnswersInMillis l.broker) k trace report k') :
      Life l k' true [k.now.millis]

theorem Life.upheld {l : Lifecycle} {k : Cluster} {ticked : Bool} {marks : List Nat}
    (h : Life l k ticked marks) : Upheld l k ticked marks := by
  induction h with
  | start directory memory inTime =>
    refine ⟨?_, [], ⟨inTime, ?_⟩, ?_, nofun⟩
    · rw [directory]
      exact ⟨fun _ _ => nofun, fun _ _ => nofun⟩
    · rw [memory]
      exact .empty l.cache _
    · rw [directory]
      exact ⟨fun _ _ => nofun, fun _ _ => nofun⟩
  | @wait k ticked marks life t later inTime ih =>
    obtain ⟨howned, h, hr, hkept⟩ := ih
    have hlater : k.now.millis ≤ (Duration.ofMillis t).millis := by
      rw [Duration.millis_ofMillis]
      exact Duration.millis_le later
    have hin : Cluster.epoch + (Duration.ofMillis t).millis < Cache.horizon := by
      rw [Duration.millis_ofMillis]
      exact inTime
    exact ⟨howned, h, hr.later rfl hlater hin, hkept⟩
  | opened life t run ih => exact run.of_ensures (upholds_onOpen t _ _ _ ih)
  | closed life id run ih => exact run.of_ensures (ensures_onClose ih id)
  | ticked life run ih => exact run.of_ensures (ensures_tick ih)

theorem lt_of_since {marks : List Nat} {s now ttl : Nat} (hs : Since marks s)
    (hfresh : ∀ mark ∈ marks, now < mark + ttl) : now < s + ttl := by
  obtain ⟨mark, hmark, hle⟩ := hs
  have := hfresh mark hmark
  omega

/-- While less than the time to live has passed since the last pass and since every registration
after it, the cache knows every user connection of the directory by its entry, and once a pass was
made it finds the node's entry for every user and every group that is connected. -/
theorem live_sessions_found {l : Lifecycle} {k : Cluster} {ticked : Bool} {marks : List Nat}
    (h : Life l k ticked marks)
    (hfresh : ∀ mark ∈ marks, k.now.millis < mark + l.cache.ttl.millis) :
    (∀ id u, (k.directory l.broker).userSession? id = some u →
      (l.cache.userOf id).at Cluster.epoch k.now.millis k.memory = (.ok (some u.entry), k.memory)) ∧
    (ticked = true →
      (∀ id u, (k.directory l.broker).userSession? id = some u → ∃ found,
        (l.cache.locateUser u.entry.userId).at Cluster.epoch k.now.millis k.memory =
            (.ok found, k.memory) ∧
          ∃ e ∈ found, e.owner = l.broker ∧ e.userId = u.entry.userId) ∧
      ∀ id g, (k.directory l.broker).groupSession? id = some g → ∃ found,
        (l.cache.locateGroup g.entry.group).at Cluster.epoch k.now.millis k.memory =
            (.ok found, k.memory) ∧
          ∃ e ∈ found, e.owner = l.broker ∧ e.group = g.entry.group) := by
  obtain ⟨howned, hist, ⟨hin, hmirrors⟩, hall, hbeat⟩ := h.upheld
  constructor
  · intro id u hu
    obtain ⟨hid, -⟩ := howned.users id u hu
    obtain ⟨⟨s, hlast, hs⟩, -⟩ := hall.users id u hu
    rw [hid] at hlast
    refine hmirrors.userOf_at ?_ (lt_of_since hs hfresh)
    simp only [SessionCache.ledgerOf_connection, hlast, Option.map_some]
  · intro hticked
    obtain ⟨s, hlast, hs⟩ := hbeat hticked
    obtain ⟨bs, -, -, hlisted, -, hlocateUser, hlocateGroup⟩ := hmirrors.located hin
    have hb : l.broker ∈ bs := hlisted l.broker s hlast (lt_of_since hs hfresh)
    constructor
    · intro id u hu
      obtain ⟨-, howner⟩ := howned.users id u hu
      obtain ⟨-, e, s', hlast', hs'⟩ := hall.users id u hu
      rw [howner] at hlast'
      refine ⟨_, hlocateUser _, e, List.mem_filterMap.mpr ⟨l.broker, hb, ?_⟩, ?_⟩
      · rw [hlast', SessionCache.current, Option.bind_some, if_pos (lt_of_since hs' hfresh)]
      · exact SessionCache.spec_of_lastUser hlast'
    · intro id g hg
      obtain ⟨-, howner⟩ := howned.groups id g hg
      obtain ⟨e, s', hlast', hs'⟩ := hall.groups id g hg
      rw [howner] at hlast'
      refine ⟨_, hlocateGroup _, e, List.mem_filterMap.mpr ⟨l.broker, hb, ?_⟩, ?_⟩
      · rw [hlast', SessionCache.current, Option.bind_some, if_pos (lt_of_since hs' hfresh)]
      · exact SessionCache.spec_of_lastGroup hlast'

/-- The node of `doorstep` once its visitor has come in, and 30 milliseconds later. -/
def admitted : Cluster :=
  { ((porter.onOpen visitor).run (Cluster.perform porter.broker) doorstep).2 with
    now := .ofMillis 30 }

theorem visitor_found : ∃ k u found,
    Life porter k true [30] ∧ k.now = .ofMillis 120 ∧
      (k.directory porter.broker).userSession? ⟨"c"⟩ = some u ∧
      (porter.cache.userOf ⟨"c"⟩).at Cluster.epoch k.now.millis k.memory =
        (.ok (some u.entry), k.memory) ∧
      (porter.cache.locateUser u.entry.userId).at Cluster.epoch k.now.millis k.memory =
        (.ok found, k.memory) ∧
      ∃ e ∈ found, e.owner = porter.broker := by
  have hstore : Node.Behaves false doorstep.store := ⟨rfl, rfl, fun _ => rfl⟩
  have hgoes : Node.goesThrough porter.broker (porter.onOpen visitor) doorstep = true := rfl
  obtain ⟨trace, hopen⟩ := Node.runs_perform porter.broker hgoes hstore
  obtain ⟨hopen', hnow⟩ := Node.runs_inMillis (t := 0) hopen (by decide) rfl
  have hlife := (Life.start (l := porter) rfl rfl (by decide)).opened visitor hopen'
  have hlife' : Life porter admitted false _ := hlife.wait 30 (by rw [hnow]; decide) (by decide)
  have hstore' : Node.Behaves false admitted.store := ⟨rfl, rfl, fun _ => rfl⟩
  have hgoes' : Node.goesThrough porter.broker porter.tick admitted = true := by decide +kernel
  obtain ⟨trace', htick⟩ := Node.runs_perform porter.broker hgoes' hstore'
  obtain ⟨htick', hnow'⟩ := Node.runs_inMillis (t := 30) htick (by decide) rfl
  have hlife'' := (hlife'.ticked htick').wait 120 (by rw [hnow']; decide) (by decide)
  have hsome : (((porter.tick.run (Cluster.perform porter.broker) admitted).2.directory
      porter.broker).userSession? ⟨"c"⟩).isSome = true := by decide +kernel
  obtain ⟨u, hu⟩ := Option.isSome_iff_exists.mp hsome
  obtain ⟨huser, hlocate⟩ := live_sessions_found hlife'' (by
    intro mark hmark
    obtain rfl := List.mem_singleton.mp hmark
    decide)
  obtain ⟨found, hfound, e, he, howner, -⟩ := (hlocate rfl).1 ⟨"c"⟩ u hu
  exact ⟨_, u, found, hlife'', rfl, hu, huser _ u hu, hfound, e, he, howner⟩

end Lifecycle

end SessionGateway
