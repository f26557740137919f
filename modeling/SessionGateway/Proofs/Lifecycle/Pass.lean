import SessionGateway.Proofs.Cache.Instant
import SessionGateway.Proofs.Lifecycle.Upkeep

/-!
# What a pass leaves

One pass of a node, alone and at an instant, over whatever the store holds. It writes over the
places of the node's connections, takes away what is stale in the node's buckets and leaves all else
as it was.
-/

namespace SessionGateway

open Node (Answers Request cached)
open SessionCache (Place Shows View isStale staleCount userField userTexts groupTexts)
open Store (Memory)

/-- The fields that a reader finds under a key. -/
def Cluster.fields (k : Cluster) (key : String) : Table String String :=
  k.memory.fieldsAt k.now key

namespace Lifecycle

/-! ### A node at an instant -/

/-- Nobody has the lock of a kind or waits for it. -/
def Idle (b : BrokerId) (k : Cluster) (kind : ConnectionKind) : Prop :=
  ((k.site b).lock kind).holder = none ∧ ((k.site b).lock kind).waiting = []

/-- A node in the course of a pass that began on a cluster: nothing has changed but the memory,
which shows a view. -/
structure Midway (l : Lifecycle) (k₀ : Cluster) (may : String → Prop) (V : View) (k : Cluster) :
    Prop where
  now : k.now = k₀.now
  directory : k.directory l.broker = k₀.directory l.broker
  shows : Shows l.cache l.broker k₀.now k₀.memory may V k.memory

section

variable {α β ε : Type} {b : BrokerId} {l : Lifecycle} {k k₀ : Cluster} {kind : ConnectionKind}
  {may : String → Prop} {V : View}

/-- An operation on a node at an instant does to its memory what it does to a memory by itself. -/
theorem completes_cached {op : Cache.Operation α} {Q : Except CacheError α → Memory → Prop}
    (hop : op.Ensures (Cache.AnswersAt k.now k.wallClock false) k.memory Q) :
    (cached op).Completes (Answers b false) k fun r k' =>
      k'.now = k.now ∧ k'.sites = k.sites ∧ Q r k'.memory := by
  rw [cached]
  unfold Cache.Operation.Ensures at hop
  generalize op.run = p at hop ⊢
  induction p generalizing k with
  | done a => exact ⟨rfl, rfl, hop⟩
  | ask r next ih =>
    have hrest : ∀ x (k₁ : Cluster), k₁.now = k.now → k₁.sites = k.sites →
        Cache.AnswersAt k.now k.wallClock false r k.memory x k₁.memory →
        (Program.expand (fun r => Node.ask (.cache r)) (next x)).Completes (Answers b false) k₁
          fun r k' => k'.now = k.now ∧ k'.sites = k.sites ∧ Q r k'.memory := by
      intro x k₁ hnow hsites hx
      have hwall : k₁.wallClock = k.wallClock := by rw [Cluster.wallClock, hnow, Cluster.wallClock]
      have hnext := hop x k₁.memory hx
      rw [← hnow, ← hwall] at hnext
      refine (ih x hnext).mono ?_
      rintro res k' ⟨hnow', hsites', hQ⟩
      exact ⟨hnow'.trans hnow, hsites'.trans hsites, hQ⟩
    cases r with
    | store command =>
      refine ⟨⟨_, { k with store := { k.store with memory := _ } }, rfl,
        .inl Memory.carries_answer⟩, ?_⟩
      rintro x k₁ ⟨hk₁, hx⟩
      exact hrest x k₁ (by rw [hk₁]) (by rw [hk₁]) hx
    | wallClock =>
      refine ⟨⟨_, k, rfl⟩, ?_⟩
      rintro _ _ ⟨⟩
      exact hrest _ k rfl rfl ⟨rfl, rfl⟩
    | log e =>
      refine ⟨⟨_, _, rfl⟩, ?_⟩
      rintro _ _ ⟨⟩
      exact hrest () (k.log e) rfl rfl rfl

/-- A node whose locks are idle gets one and gives it back. -/
theorem completes_holding {body : NodeProgram α} {Q : α → Memory → Prop}
    (hidle : ∀ kind, Idle b k kind)
    (hbody : ∀ k₁ : Cluster, k₁.now = k.now → k₁.directory b = k.directory b →
      k₁.memory = k.memory → body.Completes (Answers b false) k₁ fun a k₂ =>
        k₂.now = k₁.now ∧ k₂.sites = k₁.sites ∧ Q a k₂.memory) :
    (Node.holding kind none body).Completes (Answers b false) k fun x k' =>
      ∃ a, x = some a ∧ k'.now = k.now ∧ k'.directory b = k.directory b ∧
        (∀ kind, Idle b k' kind) ∧ Q a k'.memory := by
  rw [holding_eq]
  refine ⟨⟨true, _, .inl ⟨rfl, (hidle kind).1, rfl⟩⟩, ?_⟩
  rintro x k₁ (⟨rfl, -, rfl⟩ | ⟨-, ⟨⟩, -⟩)
  have hlocked := hbody (k.setLock b kind ((k.site b).lock kind).join.2) rfl
    (Cluster.directory_setLock _ _ _ _) rfl
  refine Program.Completes.bind (hlocked.mono ?_)
  rintro a k₂ ⟨hnow, hsites, hQ⟩
  refine ⟨⟨(), _, rfl⟩, ?_⟩
  rintro _ _ ⟨⟩
  refine ⟨a, rfl, hnow, ?_, ?_, hQ⟩
  · rw [Cluster.directory_setLock, Cluster.directory_congr hsites, Cluster.directory_setLock]
  · intro kind'
    have hlock : ∀ kind', (k₂.site b).lock kind' = if kind = kind' then
        ((k.site b).lock kind).join.2 else (k.site b).lock kind' := by
      intro kind'
      simp only [Cluster.site, hsites]
      exact Cluster.lock_setLock k b kind kind' _
    rw [Idle, Cluster.lock_setLock]
    by_cases hkind : kind = kind'
    · obtain ⟨hholder, hwaiting⟩ := hidle kind
      simp only [if_pos hkind, hlock, if_true, Lock.pass, Lock.join, hholder, hwaiting]
      exact ⟨rfl, rfl⟩
    · rw [if_neg hkind, hlock, if_neg hkind]
      exact hidle kind'

/-! ### Publishing again -/

/-- A view with views laid over it one after another. -/
def overAll (views : List View) (V : View) : View := views.foldl (fun V W => W.over V) V

/-- Publishing connections one after another lays what each of them puts over the view. -/
theorem completes_republishAll {connection : ε → ConnectionId} {texts : ε → View}
    {publish : ConnectionId → NodeProgram (Except CacheError Bool)} {entries : List ε}
    (hpublish : ∀ e ∈ entries, ∀ V k₁, Midway l k₀ may V k₁ →
      (publish (connection e)).Completes (Answers l.broker false) k₁ fun r k₂ =>
        k₂.now = k₁.now ∧ k₂.sites = k₁.sites ∧ r = .ok true ∧
          Shows l.cache l.broker k₀.now k₀.memory may ((texts e).over V) k₂.memory)
    (h : Midway l k₀ may V k) (hidle : ∀ kind, Idle l.broker k kind) :
    (republishAll kind publish (entries.map connection)).Completes (Answers l.broker false) k
      fun r k' => r = .ok entries.length ∧ Midway l k₀ may (overAll (entries.map texts) V) k' ∧
        ∀ kind, Idle l.broker k' kind := by
  -- each connection is published over what those before it have left
  induction entries generalizing V k with
  | nil => exact ⟨rfl, h, hidle⟩
  | cons e rest ih =>
    obtain ⟨hfirst, hrest⟩ := List.forall_mem_cons.mp hpublish
    rw [List.map_cons, republishAll_cons]
    refine Program.Completes.bind ((completes_holding
      (Q := fun r m => r = .ok true ∧
        Shows l.cache l.broker k₀.now k₀.memory may ((texts e).over V) m) hidle ?_).mono ?_)
    · intro k₁ hnow hdirectory hmemory
      refine hfirst V k₁ ⟨hnow.trans h.now, hdirectory.trans h.directory, ?_⟩
      rw [hmemory]
      exact h.shows
    · rintro _ k₁ ⟨_, rfl, hnow, hdirectory, hidle₁, rfl, hshows⟩
      refine Program.Completes.bind ((ih hrest
        ⟨hnow.trans h.now, hdirectory.trans h.directory, hshows⟩ hidle₁).mono ?_)
      rintro _ k₂ ⟨rfl, h₂, hidle₂⟩
      exact ⟨rfl, h₂, hidle₂⟩

/-- What the connections of a directory put at every place when they are published at a time. -/
def written (l : Lifecycle) (d : Directory) (wall : Int64) : List View :=
  d.userEntries.map (userTexts (l.cache.stampAt wall)) ++
    d.groupEntries.map (groupTexts (l.cache.stampAt wall))

/-- A key that a pass writes. -/
def Touches (l : Lifecycle) (d : Directory) (key : String) : Prop :=
  key = l.cache.userBucket l.broker ∨ key = l.cache.groupBucket l.broker ∨
    key = l.cache.brokersKey ∨
    ∃ id s, d.userSession? id = some s ∧ key = l.cache.connectionKey id

theorem wallClock_eq (hnow : k.now = k₀.now) : k.wallClock = k₀.wallClock := by
  rw [Cluster.wallClock, hnow, Cluster.wallClock]

theorem Midway.completes_cached (h : Midway l k₀ may V k) {op : Cache.Operation α}
    {Q : Except CacheError α → Memory → Prop}
    (hop : op.Ensures (Cache.AnswersAt k₀.now k₀.wallClock false) k.memory Q) :
    (cached op).Completes (Answers l.broker false) k fun r k' =>
      k'.now = k.now ∧ k'.sites = k.sites ∧ Q r k'.memory := by
  rw [← h.now, ← wallClock_eq h.now] at hop
  exact Lifecycle.completes_cached hop

theorem Midway.completes_republished (h : Midway l k₀ may V k) {op : Cache.Operation Unit}
    {V' : View} (hop : op.Ensures (Cache.AnswersAt k₀.now k₀.wallClock false) k.memory fun r m' =>
      r = .ok () ∧ Shows l.cache l.broker k₀.now k₀.memory may V' m') :
    ((cached op).bind fun r => .done (r.map fun _ => true)).Completes (Answers l.broker false) k
      fun r k' => k'.now = k.now ∧ k'.sites = k.sites ∧ r = .ok true ∧
        Shows l.cache l.broker k₀.now k₀.memory may V' k'.memory := by
  refine Program.Completes.bind ((h.completes_cached hop).mono ?_)
  rintro _ k₁ ⟨hnow, hsites, rfl, hshows⟩
  exact ⟨hnow, hsites, rfl, hshows⟩

theorem Midway.completes_republishUser (h : Midway l k₀ (Touches l (k₀.directory l.broker)) V k)
    (howned : Owned l.broker (k₀.directory l.broker)) (httl : 1 ≤ l.cache.ttl.millis)
    {e : UserEntry} (he : e ∈ (k₀.directory l.broker).userEntries) :
    (l.republishUser e.connection).Completes (Answers l.broker false) k fun r k' =>
      k'.now = k.now ∧ k'.sites = k.sites ∧ r = .ok true ∧
        Shows l.cache l.broker k₀.now k₀.memory (Touches l (k₀.directory l.broker))
          ((userTexts (l.cache.stampAt k₀.wallClock) e).over V) k'.memory := by
  obtain ⟨s, hs, rfl⟩ := List.mem_map.mp he
  obtain ⟨id, hid⟩ := (Table.mem_values_iff _).mp hs
  obtain ⟨rfl, howner⟩ := howned.users id s hid
  have hfound : (k₀.directory l.broker).userSession? s.entry.connection = some s := hid
  rw [l.republishUser_eq]
  refine ⟨⟨_, k, rfl⟩, ?_⟩
  rintro _ _ ⟨⟩
  simp only [h.directory, hfound]
  exact h.completes_republished (h.shows.ensures_publishUser (Cache.lt_add_ttl httl k₀.now) howner
    (.inl rfl) (.inr (.inr (.inr ⟨_, s, hfound, rfl⟩))))

theorem Midway.completes_republishGroup (h : Midway l k₀ (Touches l (k₀.directory l.broker)) V k)
    (howned : Owned l.broker (k₀.directory l.broker)) (httl : 1 ≤ l.cache.ttl.millis)
    {e : GroupEntry} (he : e ∈ (k₀.directory l.broker).groupEntries) :
    (l.republishGroup e.connection).Completes (Answers l.broker false) k fun r k' =>
      k'.now = k.now ∧ k'.sites = k.sites ∧ r = .ok true ∧
        Shows l.cache l.broker k₀.now k₀.memory (Touches l (k₀.directory l.broker))
          ((groupTexts (l.cache.stampAt k₀.wallClock) e).over V) k'.memory := by
  obtain ⟨s, hs, rfl⟩ := List.mem_map.mp he
  obtain ⟨id, hid⟩ := (Table.mem_values_iff _).mp hs
  obtain ⟨rfl, howner⟩ := howned.groups id s hid
  have hfound : (k₀.directory l.broker).groupSession? s.entry.connection = some s := hid
  rw [l.republishGroup_eq]
  refine ⟨⟨_, k, rfl⟩, ?_⟩
  rintro _ _ ⟨⟩
  simp only [h.directory, hfound]
  exact h.completes_republished (h.shows.ensures_refreshGroup (.inr (.inl rfl))
    (Cache.lt_add_ttl httl k₀.now) howner)

/-- Publishing again lays over the view what the connections of the directory put. -/
theorem Midway.completes_republish (h : Midway l k₀ (Touches l (k₀.directory l.broker)) V k)
    (hidle : ∀ kind, Idle l.broker k kind) (howned : Owned l.broker (k₀.directory l.broker))
    (httl : 1 ≤ l.cache.ttl.millis) :
    l.republish.Completes (Answers l.broker false) k fun r k' =>
      r = .ok ((k₀.directory l.broker).userCount, (k₀.directory l.broker).groupCount) ∧
        Midway l k₀ (Touches l (k₀.directory l.broker))
          (overAll (written l (k₀.directory l.broker) k₀.wallClock) V) k' ∧
        ∀ kind, Idle l.broker k' kind := by
  rw [l.republish_eq]
  refine ⟨⟨_, k, rfl⟩, ?_⟩
  rintro _ _ ⟨⟩
  rw [h.directory]
  refine Program.Completes.bind ((completes_republishAll
    (fun e he V k₁ h₁ => h₁.completes_republishUser howned httl he) h hidle).mono ?_)
  rintro _ k₁ ⟨rfl, h₁, hidle₁⟩
  refine ⟨⟨_, k₁, rfl⟩, ?_⟩
  rintro _ _ ⟨⟩
  rw [h₁.directory]
  refine Program.Completes.bind ((completes_republishAll
    (fun e he V k₁ h₁ => h₁.completes_republishGroup howned httl he) h₁ hidle₁).mono ?_)
  rintro _ k₂ ⟨rfl, h₂, hidle₂⟩
  refine ⟨?_, ?_, hidle₂⟩
  · simp only [Directory.userEntries, Directory.groupEntries, Table.values, List.length_map]
    rfl
  · rw [written, overAll, List.foldl_append]
    exact h₂

/-! ### A pass -/

/-- What the places of a node show when its heartbeat was written. -/
def beaten (l : Lifecycle) (k : Cluster) : View :=
  Function.update (fun p => p.read l.cache k.memory k.now) (.beat l.broker)
    (some (toString k.wallClock.toInt))

/-- What the places of a node show once its connections were published again. -/
def renewed (l : Lifecycle) (k : Cluster) : View :=
  overAll (written l (k.directory l.broker) k.wallClock) (beaten l k)

/-- The keys of a node that hold hashes are used for nothing else. -/
structure Typed (l : Lifecycle) (k : Cluster) : Prop where
  users : k.memory.IsHash k.now (l.cache.userBucket l.broker)
  groups : k.memory.IsHash k.now (l.cache.groupBucket l.broker)
  brokers : k.memory.IsHash k.now l.cache.brokersKey

theorem Typed.midway (h : Typed l k) :
    Midway l k may (fun p => p.read l.cache k.memory k.now) k where
  now := rfl
  directory := rfl
  shows := by
    refine ⟨?_, fun _ => rfl, fun _ _ _ _ => rfl⟩
    intro p hp
    cases p with
    | user b field =>
      obtain rfl : b = l.broker := hp
      exact h.users
    | group b field =>
      obtain rfl : b = l.broker := hp
      exact h.groups
    | beat b => exact h.brokers
    | connection id => exact hp.elim

/-- A pass comes to an end. Between publishing and pruning the memory shows what was renewed. -/
theorem completes_tick (htyped : Typed l k) (hidle : ∀ kind, Idle l.broker k kind)
    (howned : Owned l.broker (k.directory l.broker)) (httl : 1 ≤ l.cache.ttl.millis) :
    l.tick.Completes (Answers l.broker false) k fun r k' => ∃ m swept,
      Shows l.cache l.broker k.now k.memory (Touches l (k.directory l.broker)) (renewed l k) m ∧
      r = .ok ⟨(k.directory l.broker).userCount, (k.directory l.broker).groupCount,
        staleCount k.wallClock (m.fieldsAt k.now (l.cache.groupBucket l.broker)) +
          staleCount k.wallClock (m.fieldsAt k.now (l.cache.userBucket l.broker)), swept⟩ ∧
      Midway l k (Touches l (k.directory l.broker)) ((renewed l k).pruned l.broker k.wallClock)
        k' := by
  have hstart : Midway l k (Touches l (k.directory l.broker)) _ k := htyped.midway
  rw [l.tick_eq]
  refine Program.Completes.bind ((hstart.completes_cached (hstart.shows.ensures_registerBroker
    (.inr (.inr (.inl rfl))) (Cache.lt_add_ttl httl k.now))).mono ?_)
  rintro _ k₁ ⟨hnow, hsites, rfl, hshows⟩
  have h₁ : Midway l k (Touches l (k.directory l.broker)) (beaten l k) k₁ :=
    ⟨hnow, Cluster.directory_congr hsites, hshows⟩
  have hidle₁ : ∀ kind, Idle l.broker k₁ kind := by
    intro kind
    simp only [Idle, Cluster.site, hsites]
    exact hidle kind
  refine Program.Completes.bind ((h₁.completes_republish hidle₁ howned httl).mono ?_)
  rintro _ k₂ ⟨rfl, h₂, -⟩
  refine Program.Completes.bind ((h₂.completes_cached
    (h₂.shows.ensures_prune (.inr (.inl rfl)) (.inl rfl))).mono ?_)
  rintro _ k₃ ⟨hnow₃, hsites₃, rfl, hshows₃⟩
  have h₃ : Midway l k (Touches l (k.directory l.broker))
      ((renewed l k).pruned l.broker k.wallClock) k₃ :=
    ⟨hnow₃.trans h₂.now, (Cluster.directory_congr hsites₃).trans h₂.directory, hshows₃⟩
  refine Program.Completes.bind ((h₃.completes_cached h₃.shows.ensures_purge).mono ?_)
  rintro _ k₄ ⟨hnow₄, hsites₄, ⟨swept, rfl⟩, hshows₄⟩
  exact ⟨k₂.memory, swept, h₂.shows, rfl, hnow₄.trans h₃.now,
    (Cluster.directory_congr hsites₄).trans h₃.directory, hshows₄⟩

/-! ### What is renewed -/

theorem overAll_apply (views : List View) (V : View) (p : Place) :
    (∃ W ∈ views, W p = overAll views V p ∧ (W p).isSome) ∨
      overAll views V p = V p ∧ ∀ W ∈ views, W p = none := by
  induction views generalizing V with
  | nil => exact .inr ⟨rfl, List.forall_mem_nil _⟩
  | cons W rest ih =>
    obtain ⟨W', hW', heq, hsome⟩ | ⟨heq, hnone⟩ := ih (W.over V)
    · exact .inl ⟨W', List.mem_cons_of_mem _ hW', heq, hsome⟩
    · have hover : overAll (W :: rest) V p = (W p).or (V p) := heq
      cases hW : W p with
      | some text =>
        refine .inl ⟨W, List.mem_cons_self, ?_, by rw [hW]; rfl⟩
        rw [hover, hW]
        rfl
      | none =>
        refine .inr ⟨by rw [hover, hW]; rfl, List.forall_mem_cons.mpr ⟨hW, hnone⟩⟩

theorem mem_written {d : Directory} {wall : Int64} {W : View} :
    W ∈ written l d wall ↔
      (∃ id s, d.userSession? id = some s ∧ W = userTexts (l.cache.stampAt wall) s.entry) ∨
        ∃ id s, d.groupSession? id = some s ∧ W = groupTexts (l.cache.stampAt wall) s.entry := by
  simp only [written, List.mem_append, List.mem_map, Directory.userEntries, Directory.groupEntries,
    Table.mem_values_iff, Directory.userSession?, Directory.groupSession?]
  constructor
  · rintro (⟨_, ⟨s, ⟨id, hs⟩, rfl⟩, rfl⟩ | ⟨_, ⟨s, ⟨id, hs⟩, rfl⟩, rfl⟩)
    · exact .inl ⟨id, s, hs, rfl⟩
    · exact .inr ⟨id, s, hs, rfl⟩
  · rintro (⟨id, s, hs, rfl⟩ | ⟨id, s, hs, rfl⟩)
    · exact .inl ⟨_, ⟨s, ⟨id, hs⟩, rfl⟩, rfl⟩
    · exact .inr ⟨_, ⟨s, ⟨id, hs⟩, rfl⟩, rfl⟩

theorem beaten_of_ne {p : Place} (hp : p ≠ .beat l.broker) :
    beaten l k p = p.read l.cache k.memory k.now :=
  Function.update_of_ne hp _ _

variable (howned : Owned l.broker (k.directory l.broker))

include howned

/-- A user's field is that of one of its connections, or there is none and it is as it was. -/
theorem renewed_user (field : String) :
    (∃ id s, (k.directory l.broker).userSession? id = some s ∧ userField s.entry.userId = field ∧
      renewed l k (.user l.broker field) =
        some (Stamped.render s.entry.members (l.cache.stampAt k.wallClock))) ∨
    renewed l k (.user l.broker field) =
        (k.memory.fieldsAt k.now (l.cache.userBucket l.broker)).get? field ∧
      ∀ id s, (k.directory l.broker).userSession? id = some s →
        userField s.entry.userId ≠ field := by
  obtain ⟨W, hW, heq, hsome⟩ | ⟨heq, hnone⟩ := overAll_apply
    (written l (k.directory l.broker) k.wallClock) (beaten l k) (.user l.broker field)
  · obtain ⟨id, s, hs, rfl⟩ | ⟨id, s, hs, rfl⟩ := mem_written.mp hW
    · rw [userTexts, if_neg (by rintro ⟨⟩)] at hsome heq
      split at hsome
      · next hp =>
        rw [if_pos hp] at heq
        exact .inl ⟨id, s, hs, (Place.user.inj hp).2.symm, heq.symm⟩
      · cases hsome
    · rw [groupTexts, if_neg (by rintro ⟨⟩)] at hsome
      cases hsome
  · refine .inr ⟨heq.trans (beaten_of_ne (by rintro ⟨⟩)), ?_⟩
    rintro id s hs rfl
    have htext := hnone _ (mem_written.mpr (.inl ⟨id, s, hs, rfl⟩))
    rw [userTexts, if_neg (by rintro ⟨⟩), (howned.users id s hs).2, if_pos rfl] at htext
    cases htext

theorem renewed_group (field : String) :
    (∃ id s, (k.directory l.broker).groupSession? id = some s ∧ s.entry.group = field ∧
      renewed l k (.group l.broker field) =
        some (Stamped.render s.entry.members (l.cache.stampAt k.wallClock))) ∨
    renewed l k (.group l.broker field) =
        (k.memory.fieldsAt k.now (l.cache.groupBucket l.broker)).get? field ∧
      ∀ id s, (k.directory l.broker).groupSession? id = some s → s.entry.group ≠ field := by
  obtain ⟨W, hW, heq, hsome⟩ | ⟨heq, hnone⟩ := overAll_apply
    (written l (k.directory l.broker) k.wallClock) (beaten l k) (.group l.broker field)
  · obtain ⟨id, s, hs, rfl⟩ | ⟨id, s, hs, rfl⟩ := mem_written.mp hW
    · rw [userTexts, if_neg (by rintro ⟨⟩), if_neg (by rintro ⟨⟩)] at hsome
      cases hsome
    · rw [groupTexts] at hsome heq
      split at hsome
      · next hp =>
        rw [if_pos hp] at heq
        exact .inl ⟨id, s, hs, (Place.group.inj hp).2.symm, heq.symm⟩
      · cases hsome
  · refine .inr ⟨heq.trans (beaten_of_ne (by rintro ⟨⟩)), ?_⟩
    rintro id s hs rfl
    have htext := hnone _ (mem_written.mpr (.inr ⟨id, s, hs, rfl⟩))
    rw [groupTexts, (howned.groups id s hs).2, if_pos rfl] at htext
    cases htext

theorem renewed_connection {id : ConnectionId} {s : UserSession}
    (hs : (k.directory l.broker).userSession? id = some s) :
    renewed l k (.connection id) = some s.entry.toJson.render := by
  obtain ⟨W, hW, heq, hsome⟩ | ⟨heq, hnone⟩ := overAll_apply
    (written l (k.directory l.broker) k.wallClock) (beaten l k) (.connection id)
  · obtain ⟨id', s', hs', rfl⟩ | ⟨id', s', hs', rfl⟩ := mem_written.mp hW
    · rw [userTexts] at hsome heq
      split at hsome
      · next hp =>
        rw [if_pos hp] at heq
        have hid : id = id' := (Place.connection.inj hp).trans (howned.users id' s' hs').1
        rw [hid, hs', Option.some.injEq] at hs
        rw [← hs]
        exact heq.symm
      · rw [if_neg (by rintro ⟨⟩)] at hsome
        cases hsome
    · rw [groupTexts, if_neg (by rintro ⟨⟩)] at hsome
      cases hsome
  · have htext := hnone _ (mem_written.mpr (.inl ⟨id, s, hs, rfl⟩))
    rw [userTexts, (howned.users id s hs).1, if_pos rfl] at htext
    cases htext

omit howned in
theorem renewed_beat (b : BrokerId) : renewed l k (.beat b) = beaten l k (.beat b) := by
  obtain ⟨W, hW, -, hsome⟩ | ⟨heq, -⟩ := overAll_apply
    (written l (k.directory l.broker) k.wallClock) (beaten l k) (.beat b)
  · obtain ⟨id, s, -, rfl⟩ | ⟨id, s, -, rfl⟩ := mem_written.mp hW
    · rw [userTexts, if_neg (by rintro ⟨⟩), if_neg (by rintro ⟨⟩)] at hsome
      cases hsome
    · rw [groupTexts, if_neg (by rintro ⟨⟩)] at hsome
      cases hsome
  · exact heq

end

/-! ### What is left -/

theorem owned_of_reached {b : BrokerId} {d : Directory} (h : Directory.Reached b d) :
    Owned b d := by
  induction h with
  | empty => exact ⟨nofun, nofun⟩
  | addUser reached s own ih =>
    constructor
    · intro id s' hs'
      rw [Directory.userSession?_addUser] at hs'
      split at hs'
      · next hid =>
        cases hs'
        exact ⟨hid, own⟩
      · exact ih.users id s' hs'
    · exact ih.groups
  | addGroup reached s own ih =>
    constructor
    · exact ih.users
    · intro id s' hs'
      rw [Directory.groupSession?_addGroup] at hs'
      split at hs'
      · next hid =>
        cases hs'
        exact ⟨hid, own⟩
      · exact ih.groups id s' hs'
  | withdrawUser reached id t ih =>
    refine ⟨fun id' s hs => ih.users id' s (Directory.userSession?_of_withdraw hs), ?_⟩
    rcases Directory.withdrawUser_eq _ id t with heq | heq <;> rw [heq] <;> exact ih.groups
  | withdrawGroup reached id t ih =>
    refine ⟨?_, fun id' s hs => ih.groups id' s (Directory.groupSession?_of_withdraw hs)⟩
    rcases Directory.withdrawGroup_eq _ id t with heq | heq <;> rw [heq] <;> exact ih.users
  | remove reached id ih =>
    exact ⟨fun id' s hs => ih.users id' s (Directory.userSession?_of_remove hs),
      fun id' s hs => ih.groups id' s (Directory.groupSession?_of_remove hs)⟩

/-- What a pass has made of a node's part of the cache, and what it reports. -/
structure Reconciled (l : Lifecycle) (k k' : Cluster) (report : ReconcileReport) : Prop where
  now : k'.now = k.now
  directory : k'.directory l.broker = k.directory l.broker
  typed : Typed l k'
  /-- The node is listed. -/
  listed : ∃ bs, k'.read l.cache.brokers = .ok bs ∧ l.broker ∈ bs
  /-- Every user that is connected has a field that counts; it names a connection of the user. -/
  users : ∀ id s, (k.directory l.broker).userSession? id = some s → ∃ text id' s' stamp,
    (k'.fields (l.cache.userBucket l.broker)).get? (userField s.entry.userId) = some text ∧
      Stamped.readUser? text = some ⟨s'.entry, stamp⟩ ∧ k.wallClock < stamp ∧
      (k.directory l.broker).userSession? id' = some s' ∧ s'.entry.connection = id' ∧
      s'.entry.userId = s.entry.userId
  /-- Every group that is connected has a field that counts; it names a connection of the group. -/
  groups : ∀ id s, (k.directory l.broker).groupSession? id = some s → ∃ text id' s' stamp,
    (k'.fields (l.cache.groupBucket l.broker)).get? s.entry.group = some text ∧
      Stamped.readGroup? text = some ⟨s'.entry, stamp⟩ ∧ k.wallClock < stamp ∧
      (k.directory l.broker).groupSession? id' = some s' ∧ s'.entry.connection = id' ∧
      s'.entry.group = s.entry.group
  /-- Every user connection is known by its entry. -/
  connections : ∀ id s, (k.directory l.broker).userSession? id = some s →
    k'.read (l.cache.userOf id) = .ok (some s.entry)
  /-- Nothing in the buckets of the node is stale. -/
  fresh : ∀ key, key = l.cache.userBucket l.broker ∨ key = l.cache.groupBucket l.broker →
    ∀ field text, (k'.fields key).get? field = some text →
      ∃ stamp, Stamped.stampOf? text = some stamp ∧ k.wallClock < stamp
  /-- The field of a user that is not connected is as it was, if it was not stale. -/
  otherUsers : ∀ field, (∀ id s, (k.directory l.broker).userSession? id = some s →
      userField s.entry.userId ≠ field) →
    (k'.fields (l.cache.userBucket l.broker)).get? field =
      ((k.fields (l.cache.userBucket l.broker)).get? field).filter
        fun text => !isStale k.wallClock text
  /-- The field of a group that is not connected is as it was, if it was not stale. -/
  otherGroups : ∀ field, (∀ id s, (k.directory l.broker).groupSession? id = some s →
      s.entry.group ≠ field) →
    (k'.fields (l.cache.groupBucket l.broker)).get? field =
      ((k.fields (l.cache.groupBucket l.broker)).get? field).filter
        fun text => !isStale k.wallClock text
  /-- The heartbeats of other nodes are as they were. -/
  beats : ∀ field, field ≠ l.broker.text →
    (k'.fields l.cache.brokersKey).get? field = (k.fields l.cache.brokersKey).get? field
  /-- What is under any other key is as it was and will be. -/
  spared : ∀ key, ¬ Touches l (k.directory l.broker) key → ∀ now, k.now ≤ now →
    k'.memory.live? now key = k.memory.live? now key
  counted : report.users = (k.directory l.broker).userCount ∧
    report.groups = (k.directory l.broker).groupCount
  /-- Pruned are the fields that the buckets of the node have lost. -/
  pruned : report.pruned =
    (k.fields (l.cache.groupBucket l.broker)).lost (k'.fields (l.cache.groupBucket l.broker)) +
      (k.fields (l.cache.userBucket l.broker)).lost (k'.fields (l.cache.userBucket l.broker))

section

variable {l : Lifecycle} {k k' : Cluster} {wall : Int64}

theorem isStale_eq_false {text : String} {stamp : Int64} (h : Stamped.stampOf? text = some stamp)
    (hlt : wall < stamp) : isStale wall text = false := by
  rw [isStale, h]
  exact decide_eq_false (Int64.not_le.mpr hlt)

theorem exists_stamp_of_not_stale {text : String} (h : isStale wall text = false) :
    ∃ stamp, Stamped.stampOf? text = some stamp ∧ wall < stamp := by
  rw [isStale] at h
  split at h
  · next stamp hstamp => exact ⟨stamp, hstamp, Int64.not_le.mp (of_decide_eq_false h)⟩
  · cases h

/-- The stale fields are those that a table loses when they are filtered out, if all that was
written over it is fresh. -/
theorem staleCount_eq_lost {t₀ t₁ t₂ : Table String String}
    (hpruned : ∀ field, t₂.get? field = (t₁.get? field).filter fun text => !isStale wall text)
    (hrenewed : ∀ field, t₁.get? field = t₀.get? field ∨
      ∃ text, t₁.get? field = some text ∧ isStale wall text = false) :
    staleCount wall t₁ = t₀.lost t₂ := by
  have hperm : ((t₁.entries.filter fun e => isStale wall e.2).map Prod.fst).Perm
      (t₀.keys.filter fun field => !t₂.contains field) := by
    refine (List.perm_ext_iff_of_nodup (t₁.distinct.sublist (List.filter_sublist.map _))
      (t₀.distinct.filter _)).mpr fun field => ?_
    have hfield := hpruned field
    simp only [List.mem_map, List.mem_filter, Prod.exists, exists_and_right, exists_eq_right,
      Table.mem_entries_iff, Table.contains, Bool.not_eq_true', Option.isSome_eq_false_iff,
      Option.isNone_iff_eq_none]
    constructor
    · -- what is stale was not written over, so it was there before
      rintro ⟨text, htext, hstale⟩
      rw [htext, Option.filter_some, hstale] at hfield
      obtain hsame | ⟨text', htext', hfresh⟩ := hrenewed field
      · rw [← hsame, htext, hfield]
        exact ⟨⟨text, rfl⟩, rfl⟩
      · rw [htext, Option.some.injEq] at htext'
        rw [← htext', hstale] at hfresh
        cases hfresh
    · rintro ⟨⟨text, htext⟩, hnone⟩
      rw [hnone] at hfield
      obtain hsame | ⟨text', htext', hfresh⟩ := hrenewed field
      · rw [htext] at hsame
        refine ⟨text, hsame, ?_⟩
        rw [hsame, Option.filter_some] at hfield
        cases hstale : isStale wall text with
        | true => rfl
        | false =>
          rw [hstale] at hfield
          cases hfield
      · rw [htext', Option.filter_some, hfresh] at hfield
        cases hfield
  rw [staleCount, Table.lost, List.countP_eq_length_filter, List.countP_eq_length_filter,
    ← hperm.length_eq, List.length_map]

/-- What is renewed counts for the time to live. -/
theorem renewed_user_fresh (howned : Owned l.broker (k.directory l.broker))
    (hclock : k.wallClock < l.cache.stampAt k.wallClock) (field : String) :
    renewed l k (.user l.broker field) = (k.fields (l.cache.userBucket l.broker)).get? field ∨
      ∃ text, renewed l k (.user l.broker field) = some text ∧
        isStale k.wallClock text = false := by
  obtain ⟨id, s, -, -, htext⟩ | ⟨hsame, -⟩ := renewed_user howned field
  · exact .inr ⟨_, htext, isStale_eq_false (Stamped.stampOf?_render_user _ _) hclock⟩
  · exact .inl hsame

theorem renewed_group_fresh (howned : Owned l.broker (k.directory l.broker))
    (hclock : k.wallClock < l.cache.stampAt k.wallClock) (field : String) :
    renewed l k (.group l.broker field) = (k.fields (l.cache.groupBucket l.broker)).get? field ∨
      ∃ text, renewed l k (.group l.broker field) = some text ∧
        isStale k.wallClock text = false := by
  obtain ⟨id, s, -, -, htext⟩ | ⟨hsame, -⟩ := renewed_group howned field
  · exact .inr ⟨_, htext, isStale_eq_false (Stamped.stampOf?_render_group _ _) hclock⟩
  · exact .inl hsame

/-- What a reader of the buckets finds after pruning tells how much was pruned. -/
theorem staleCount_eq_lost_of_shows {may : String → Prop} {V : View} {m : Memory}
    (hm : Shows l.cache l.broker k.now k.memory may V m) {place : String → Place} {key : String}
    (hkey : ∀ field, (place field).key l.cache = key)
    (hfield : ∀ field, (place field).field? = some field)
    (hpruned : ∀ field, (k'.fields key).get? field =
      (V (place field)).filter fun text => !isStale wall text)
    (hrenewed : ∀ field, V (place field) = (k.fields key).get? field ∨
      ∃ text, V (place field) = some text ∧ isStale wall text = false) :
    staleCount wall (m.fieldsAt k.now key) = (k.fields key).lost (k'.fields key) := by
  have hget : ∀ field, (m.fieldsAt k.now key).get? field = V (place field) :=
    fun field => hkey field ▸ hm.get? (hfield field)
  refine staleCount_eq_lost (fun field => ?_) fun field => ?_
  · rw [hpruned, hget]
  · rw [hget]
    exact hrenewed field

theorem Midway.typed {may : String → Prop} {V : View} (h : Midway l k may V k') : Typed l k' where
  users := h.now ▸ h.shows.isHash (.user l.broker "") rfl
  groups := h.now ▸ h.shows.isHash (.group l.broker "") rfl
  brokers := h.now ▸ h.shows.isHash (.beat l.broker) trivial

/-- A field shows what the view has at its place. -/
theorem Midway.get?_fields {may : String → Prop} {V : View} (h : Midway l k may V k') {p : Place}
    {field : String} (hf : p.field? = some field) :
    (k'.fields (p.key l.cache)).get? field = V p := by
  rw [Cluster.fields, h.now]
  exact h.shows.get? hf

theorem Midway.get?_users {may : String → Prop} {V : View}
    (h : Midway l k may (V.pruned l.broker wall) k') (field : String) :
    (k'.fields (l.cache.userBucket l.broker)).get? field =
      (V (.user l.broker field)).filter fun text => !isStale wall text :=
  (h.get?_fields (p := .user l.broker field) rfl).trans (if_pos rfl)

theorem Midway.get?_groups {may : String → Prop} {V : View}
    (h : Midway l k may (V.pruned l.broker wall) k') (field : String) :
    (k'.fields (l.cache.groupBucket l.broker)).get? field =
      (V (.group l.broker field)).filter fun text => !isStale wall text :=
  (h.get?_fields (p := .group l.broker field) rfl).trans (if_pos rfl)

theorem Midway.listed {may : String → Prop} {V : View} (h : Midway l k may V k')
    (hbeat : V (.beat l.broker) = some (toString k.wallClock.toInt)) :
    ∃ bs, k'.read l.cache.brokers = .ok bs ∧ l.broker ∈ bs := by
  have hclock : k'.answerCache .wallClock k'.memory = (k.wallClock, k'.memory) := by
    rw [← wallClock_eq h.now]
    rfl
  have hfound : k'.answerCache (.store (.hashGetAll l.cache.brokersKey)) k'.memory =
      (.ok (k'.fields l.cache.brokersKey).entries, k'.memory) :=
    Memory.answer_hashGetAll h.typed.brokers
  obtain ⟨bs, hlist, -, hmem⟩ := SessionCache.brokers_listed hclock hfound
  refine ⟨bs, congrArg Prod.fst hlist, (hmem _).mpr ⟨toString k.wallClock.toInt, ?_, ?_⟩⟩
  · exact (h.get?_fields (p := .beat l.broker) rfl).trans hbeat
  · rw [SessionCache.isAlive, Text.int64?_toString]
    exact decide_eq_true (Cache.cutoffAt_le _)

theorem Midway.read_userOf {may : String → Prop} {V : View} (h : Midway l k may V k')
    {id : ConnectionId} {e : UserEntry} (htext : V (.connection id) = some e.toJson.render) :
    k'.read (l.cache.userOf id) = .ok (some e) := by
  have hread : k'.memory.textAt k'.now (l.cache.connectionKey id) = some e.toJson.render := by
    rw [h.now]
    exact (h.shows.read (.connection id)).trans htext
  refine Cluster.read_userOf (Memory.isText_of_textAt hread) ?_
  rw [hread]
  rfl

/-- What a pass leaves is reconciled. -/
theorem Midway.reconciled {m : Memory} {report : ReconcileReport}
    (howned : Owned l.broker (k.directory l.broker))
    (hclock : k.wallClock < l.cache.stampAt k.wallClock)
    (hm : Shows l.cache l.broker k.now k.memory (Touches l (k.directory l.broker)) (renewed l k) m)
    (h : Midway l k (Touches l (k.directory l.broker))
      ((renewed l k).pruned l.broker k.wallClock) k')
    (hcounted : report.users = (k.directory l.broker).userCount ∧
      report.groups = (k.directory l.broker).groupCount)
    (hpruned : report.pruned =
      staleCount k.wallClock (m.fieldsAt k.now (l.cache.groupBucket l.broker)) +
        staleCount k.wallClock (m.fieldsAt k.now (l.cache.userBucket l.broker))) :
    Reconciled l k k' report where
  now := h.now
  directory := h.directory
  typed := h.typed
  listed := by
    refine h.listed ((renewed_beat _).trans ?_)
    rw [beaten, Function.update_self]
  users id s hs := by
    obtain ⟨id', s', hs', hfield, htext⟩ | ⟨-, hother⟩ :=
      renewed_user howned (userField s.entry.userId)
    · refine ⟨_, id', s', _, ?_, Stamped.readUser?_render _ _, hclock, hs',
        (howned.users _ _ hs').1, SessionCache.userField_inj.mp hfield⟩
      rw [h.get?_users, htext, Option.filter_some,
        isStale_eq_false (Stamped.stampOf?_render_user _ _) hclock]
      rfl
    · exact absurd rfl (hother id s hs)
  groups id s hs := by
    obtain ⟨id', s', hs', hfield, htext⟩ | ⟨-, hother⟩ := renewed_group howned s.entry.group
    · refine ⟨_, id', s', _, ?_, Stamped.readGroup?_render _ _, hclock, hs',
        (howned.groups _ _ hs').1, hfield⟩
      rw [h.get?_groups, htext, Option.filter_some,
        isStale_eq_false (Stamped.stampOf?_render_group _ _) hclock]
      rfl
    · exact absurd rfl (hother id s hs)
  connections id s hs := h.read_userOf (renewed_connection howned hs)
  fresh := by
    rintro key (rfl | rfl) field text htext
    · rw [h.get?_users, Option.filter_eq_some_iff, Bool.not_eq_true'] at htext
      exact exists_stamp_of_not_stale htext.2
    · rw [h.get?_groups, Option.filter_eq_some_iff, Bool.not_eq_true'] at htext
      exact exists_stamp_of_not_stale htext.2
  otherUsers field hother := by
    obtain ⟨id, s, hs, hfield, -⟩ | ⟨hsame, -⟩ := renewed_user howned field
    · exact absurd hfield (hother id s hs)
    · rw [h.get?_users, hsame]
      rfl
  otherGroups field hother := by
    obtain ⟨id, s, hs, hfield, -⟩ | ⟨hsame, -⟩ := renewed_group howned field
    · exact absurd hfield (hother id s hs)
    · rw [h.get?_groups, hsame]
      rfl
  beats field hne := by
    refine (h.get?_fields (p := .beat ⟨field⟩) rfl).trans ((renewed_beat _).trans ?_)
    exact beaten_of_ne fun heq => hne (congrArg BrokerId.text (Place.beat.inj heq))
  spared := h.shows.spared
  counted := hcounted
  pruned := by
    have hgroups : staleCount k.wallClock (m.fieldsAt k.now (l.cache.groupBucket l.broker)) =
        (k.fields (l.cache.groupBucket l.broker)).lost
          (k'.fields (l.cache.groupBucket l.broker)) :=
      staleCount_eq_lost_of_shows hm (fun _ => rfl) (fun _ => rfl) h.get?_groups
        (renewed_group_fresh howned hclock)
    have husers : staleCount k.wallClock (m.fieldsAt k.now (l.cache.userBucket l.broker)) =
        (k.fields (l.cache.userBucket l.broker)).lost (k'.fields (l.cache.userBucket l.broker)) :=
      staleCount_eq_lost_of_shows hm (fun _ => rfl) (fun _ => rfl) h.get?_users
        (renewed_user_fresh howned hclock)
    rw [hpruned, hgroups, husers]

/-- One pass, alone and at an instant, comes to an end and leaves the cache reconciled, whatever
the store held before. -/
theorem pass_reconciles (hd : Directory.Reached l.broker (k.directory l.broker))
    (htyped : Typed l k) (hidle : ∀ kind, Idle l.broker k kind) (httl : 1 ≤ l.cache.ttl.millis)
    (hclock : k.wallClock.toInt < Cache.horizon) :
    (∃ trace r k', l.tick.Runs (Answers l.broker false) k trace r k') ∧
    ∀ trace r k', l.tick.Runs (Answers l.broker false) k trace r k' →
      ∃ report, r = .ok report ∧ Reconciled l k k' report := by
  have howned := owned_of_reached hd
  have htick := completes_tick htyped hidle howned httl
  refine ⟨htick.exists_runs, ?_⟩
  intro trace r k' hrun
  obtain ⟨m, swept, hm, rfl, h⟩ := hrun.of_completes htick
  exact ⟨_, rfl, h.reconciled howned (Cache.lt_stampAt httl hclock) hm ⟨rfl, rfl⟩ rfl⟩

end

/-- A user whom the node of `porter` has a connection of. -/
def lodger : UserSession :=
  ⟨⟨⟨"c"⟩, 1, 7, none, "jwt", porter.broker⟩, ⟨7, 1, none, none, "jwt"⟩, visitor⟩

/-- Nonsense for the lodger and for someone else, and an entry that will count for long. -/
def clutter : Table String String :=
  ((Table.empty.insert "7" "nonsense").insert "8" "nonsense").insert "9"
    (Stamped.render lodger.entry.members 9000000000000)

/-- A node with a connection whose bucket holds what no pass has left there. -/
def cluttered : Cluster :=
  { Cluster.empty.setDirectory porter.broker ((Directory.empty porter.broker).addUser lodger) with
    store := { Store.Faulty.empty with
      memory := Memory.empty.set (porter.cache.userBucket porter.broker)
        ⟨.hash clutter, .ofMillis 50⟩ } }

theorem typed_cluttered : Typed porter cluttered where
  users := .set
  groups := by
    intro s deadline hs
    rw [show cluttered.memory = Memory.empty.set _ _ from rfl, Memory.live?_set,
      if_neg (by decide)] at hs
    cases hs
  brokers := by
    intro s deadline hs
    rw [show cluttered.memory = Memory.empty.set _ _ from rfl, Memory.live?_set,
      if_neg (by decide)] at hs
    cases hs

/-- The pass takes the nonsense away and leaves the entry of someone who is not connected. -/
theorem cluttered_reconciled : ∃ trace report k',
    porter.tick.Runs (Answers porter.broker false) cluttered trace (.ok report) k' ∧
      Reconciled porter cluttered k' report ∧ report.users = 1 ∧
      (k'.fields (porter.cache.userBucket porter.broker)).get? "8" = none ∧
      (k'.fields (porter.cache.userBucket porter.broker)).get? "9" =
        some (Stamped.render lodger.entry.members 9000000000000) := by
  have hreached : Directory.Reached porter.broker (cluttered.directory porter.broker) :=
    Directory.Reached.empty.addUser lodger rfl
  have hidle : ∀ kind, Idle porter.broker cluttered kind := by
    rintro (_ | _) <;> exact ⟨rfl, rfl⟩
  obtain ⟨⟨trace, _, k', hrun⟩, hall⟩ :=
    pass_reconciles hreached typed_cluttered hidle (by decide) (by decide)
  obtain ⟨report, rfl, h⟩ := hall _ _ _ hrun
  have honly : ∀ id s, (cluttered.directory porter.broker).userSession? id = some s →
      userField s.entry.userId = "7" := by
    intro id s hs
    rw [show cluttered.directory porter.broker = (Directory.empty _).addUser lodger from rfl,
      Directory.userSession?_addUser] at hs
    split at hs
    · cases hs
      rfl
    · cases hs
  refine ⟨trace, report, k', hrun, h, h.counted.1, ?_, ?_⟩
  · rw [h.otherUsers "8" fun id s hs => by rw [honly id s hs]; decide]
    decide +kernel
  · rw [h.otherUsers "9" fun id s hs => by rw [honly id s hs]; decide]
    decide +kernel

end Lifecycle

end SessionGateway
