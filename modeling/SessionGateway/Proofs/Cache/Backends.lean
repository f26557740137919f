import Mathlib.Data.List.Forall2
import SessionGateway.Proofs.Cache.Sweeping
import SessionGateway.Proofs.Redis.Keyspace

/-!
# Two backends that serve alike

Every operation of the cache gives back the same over any two stores that keep to the contract of a
store, if both show the same at first. The memory store and a Redis server are two such stores, and
both show nothing while they are empty.
-/

namespace SessionGateway.SessionCache

open Cache (Operation Agree Comparison)
open Cache.Comparison (onBackend_bind twins_pure twins_throw twins_log twins_wallClock
  twins_command)
open Store (Command Backend Memory)

/-! ### Operations one after another -/

/-- What a cache is asked for. -/
inductive Service where
  | refreshUser (e : UserEntry)
  | refreshGroup (e : GroupEntry)
  | refreshConnection (e : UserEntry)
  | forgetUser (e : UserEntry)
  | registerBroker (b : BrokerId)
  | deregisterBroker (b : BrokerId)
  | prune (b : BrokerId)
  | purge
  | brokers
  | users (b : BrokerId)
  | groups (b : BrokerId)
  | userOf (id : ConnectionId)
  | locateUser (userId : Int64)
  | locateGroup (group : String)
  deriving DecidableEq, Repr

/-- What a cache gives back. -/
inductive Value where
  | none
  | flag (b : Bool)
  | count (n : Nat)
  | brokers (l : List BrokerId)
  | users (l : List UserEntry)
  | groups (l : List GroupEntry)
  | user (e : Option UserEntry)
  deriving DecidableEq, Repr

/-- The operation that is asked for; what a purge counted is left out. -/
def Service.perform (c : SessionCache) : Service → Operation Value
  | .refreshUser e => do c.refreshUser e; return .none
  | .refreshGroup e => do c.refreshGroup e; return .none
  | .refreshConnection e => do c.refreshConnection e; return .none
  | .forgetUser e => do return .flag (← c.forgetUser e)
  | .registerBroker b => do c.registerBroker b; return .none
  | .deregisterBroker b => do return .flag (← c.deregisterBroker b)
  | .prune b => do return .count (← c.prune b)
  | .purge => do let _ ← purgeStore; return .none
  | .brokers => do return .brokers (← c.brokers)
  | .users b => do return .users (← c.users b)
  | .groups b => do return .groups (← c.groups b)
  | .userOf id => do return .user (← c.userOf id)
  | .locateUser userId => do return .users (← c.locateUser userId)
  | .locateGroup group => do return .groups (← c.locateGroup group)

/-- Two values are the same, lists of entries up to their order. -/
inductive Value.Same : Value → Value → Prop
  | refl (v : Value) : Value.Same v v
  | users {l l' : List UserEntry} (h : l.Perm l') : Value.Same (.users l) (.users l')
  | groups {l l' : List GroupEntry} (h : l.Perm l') : Value.Same (.groups l) (.groups l')

/-- The keys under which the cache keeps hashes. -/
def KeepsHashes (c : SessionCache) (key : String) : Prop :=
  ∃ p : Place, p.field?.isSome ∧ p.key c = key

/-- The keys under which the cache keeps texts. -/
def KeepsTexts (c : SessionCache) (key : String) : Prop :=
  ∃ p : Place, p.field? = none ∧ p.key c = key

theorem keepsHashes_apart {c : SessionCache} (key : String) (h : c.KeepsHashes key) :
    ¬ c.KeepsTexts key := by
  obtain ⟨p, hp, rfl⟩ := h
  rintro ⟨q, hq, hkey⟩
  exact Place.key_ne hp hq hkey.symm

section

variable {σ τ : Type} {P : Comparison σ τ} {c : SessionCache}

/-- Both stores are ready for what a cache may ask of them. -/
def Serves (P : Comparison σ τ) (c : SessionCache) : Prop :=
  ∀ n k, k.Uses c.KeepsHashes c.KeepsTexts c.ttl → P.admits (P.clock n) k

theorem Serves.twins (h : Serves P c) (k : Command)
    (hk : k.Uses c.KeepsHashes c.KeepsTexts c.ttl) :
    P.Twins (Comparison.SameAnswer k) (Cache.command k) (Cache.command k) :=
  twins_command fun n => h n k hk

theorem keepsHashes_userBucket (b : BrokerId) : c.KeepsHashes (c.userBucket b) :=
  ⟨.user b "", rfl, rfl⟩

theorem keepsHashes_groupBucket (b : BrokerId) : c.KeepsHashes (c.groupBucket b) :=
  ⟨.group b "", rfl, rfl⟩

theorem keepsHashes_brokersKey : c.KeepsHashes c.brokersKey := ⟨.beat ⟨""⟩, rfl, rfl⟩

theorem keepsTexts_connectionKey (id : ConnectionId) : c.KeepsTexts (c.connectionKey id) :=
  ⟨.connection id, rfl, rfl⟩

/-! ### Writing -/

theorem twins_refreshUser (h : Serves P c) (e : UserEntry) :
    P.Twins Eq (c.refreshUser e) (c.refreshUser e) := by
  refine twins_wallClock.bind ?_
  rintro now _ rfl
  exact h.twins (.hashPut _ _ _ _) ⟨keepsHashes_userBucket e.owner, rfl⟩

theorem twins_refreshGroup (h : Serves P c) (e : GroupEntry) :
    P.Twins Eq (c.refreshGroup e) (c.refreshGroup e) := by
  refine twins_wallClock.bind ?_
  rintro now _ rfl
  exact h.twins (.hashPut _ _ _ _) ⟨keepsHashes_groupBucket e.owner, rfl⟩

theorem twins_refreshConnection (h : Serves P c) (e : UserEntry) :
    P.Twins Eq (c.refreshConnection e) (c.refreshConnection e) :=
  h.twins (.put _ _ _) ⟨keepsTexts_connectionKey e.connection, rfl⟩

theorem twins_registerBroker (h : Serves P c) (b : BrokerId) :
    P.Twins Eq (c.registerBroker b) (c.registerBroker b) := by
  refine twins_wallClock.bind ?_
  rintro now _ rfl
  exact h.twins (.hashPut _ _ _ _) ⟨keepsHashes_brokersKey, rfl⟩

theorem twins_deregisterBroker (h : Serves P c) (b : BrokerId) :
    P.Twins Eq (c.deregisterBroker b) (c.deregisterBroker b) :=
  h.twins (.hashDelete _ _) keepsHashes_brokersKey

theorem twins_forgetUser (h : Serves P c) (e : UserEntry) :
    P.Twins Eq (c.forgetUser e) (c.forgetUser e) := by
  have hbucket : c.KeepsHashes (c.userBucket e.owner) := keepsHashes_userBucket e.owner
  refine (h.twins (.delete _) (keepsTexts_connectionKey e.connection)).bind ?_
  intro _ _ _
  refine (h.twins (.hashGet _ _) hbucket).bind ?_
  rintro found _ rfl
  cases found with
  | none => exact twins_pure rfl
  | some text =>
    dsimp only
    split
    · exact h.twins (.hashDeleteIf _ _ _) hbucket
    · exact twins_pure rfl

theorem twins_prune (h : Serves P c) (b : BrokerId) : P.Twins Eq (c.prune b) (c.prune b) := by
  have hsweep : ∀ key now, c.KeepsHashes key →
      P.Twins Eq (Cache.command (.hashGetAll key) >>= pruneAmong key now)
        (Cache.command (.hashGetAll key) >>= pruneAmong key now) :=
    fun key now hkey => twins_sweep (fun n => h n _ hkey) fun n field text => h n _ hkey
  have hprune : c.prune b = Cache.wallClock >>= fun now =>
      (Cache.command (.hashGetAll (c.groupBucket b)) >>= pruneAmong (c.groupBucket b) now) >>=
        fun groups =>
          (Cache.command (.hashGetAll (c.userBucket b)) >>= pruneAmong (c.userBucket b) now) >>=
            fun users => pure (groups + users) := by
    simp only [prune, bind_assoc]
  rw [hprune]
  refine twins_wallClock.bind ?_
  rintro now _ rfl
  refine (hsweep _ now (keepsHashes_groupBucket b)).bind ?_
  rintro groups _ rfl
  refine (hsweep _ now (keepsHashes_userBucket b)).bind ?_
  rintro users _ rfl
  exact twins_pure rfl

/-! ### Reading -/

theorem eq_mergeSort_of_perm {bs bs' : List BrokerId} (h : bs.Perm bs') (hnodup : bs.Nodup) :
    (bs.mergeSort fun a b => decide (a.text ≤ b.text)) =
      bs'.mergeSort fun a b => decide (a.text ≤ b.text) := by
  have hperm : (bs.mergeSort fun a b => decide (a.text ≤ b.text)).Perm
      (bs'.mergeSort fun a b => decide (a.text ≤ b.text)) :=
    ((List.mergeSort_perm bs _).trans h).trans (List.mergeSort_perm bs' _).symm
  refine hperm.eq_of_pairwise ?_ (pairwise_lt_mergeSort hnodup)
    (pairwise_lt_mergeSort (h.nodup_iff.mp hnodup))
  intro a b _ _ hab hba
  exact absurd (String.lt_trans hab hba) (String.lt_irrefl a.text)

theorem twins_brokers (h : Serves P c) : P.Twins Eq c.brokers c.brokers := by
  refine twins_wallClock.bind ?_
  rintro now _ rfl
  refine (h.twins (.hashGetAll _) keepsHashes_brokersKey).bind ?_
  rintro l l' ⟨hperm, hnodup⟩
  apply twins_pure
  apply eq_mergeSort_of_perm
  · exact (hperm.filter _).map _
  · have hkeys := List.pairwise_map.mp hnodup
    refine List.pairwise_map.mpr ((hkeys.sublist List.filter_sublist).imp ?_)
    intro a b hne heq
    exact hne (congrArg BrokerId.text heq)

/-- The entry that a field holds, if it counts at a time. -/
def counting? {α : Type} (read? : String → Option (Stamped α)) (now : Int64)
    (e : String × String) : Option α :=
  (read? e.2).bind fun s => if now < s.expiresAt then some s.entry else none

theorem onBackend_liveAmong {α : Type} {B : Backend σ} {origin : Nat} {clock : Nat → Nat}
    (read? : String → Option (Stamped α)) (key : String) (now : Int64)
    (l : List (String × String)) (x : Nat × σ) :
    (liveAmong read? key now l).onBackend B origin clock x =
      (.ok (l.filterMap (counting? read? now)), x) := by
  induction l with
  | nil => rfl
  | cons e rest ih =>
    obtain ⟨field, text⟩ := e
    rw [liveAmong]
    cases hread : read? text with
    | none =>
      have hnone : counting? read? now (field, text) = none := by rw [counting?, hread]; rfl
      rw [List.filterMap_cons_none hnone, onBackend_bind]
      exact ih
    | some s =>
      dsimp only
      rw [onBackend_bind, ih]
      by_cases hlive : now < s.expiresAt
      · have hsome : counting? read? now (field, text) = some s.entry := by
          rw [counting?, hread, Option.bind_some, if_pos hlive]
        rw [List.filterMap_cons_some hsome]
        simp only [if_pos hlive]
        rfl
      · have hnone : counting? read? now (field, text) = none := by
          rw [counting?, hread, Option.bind_some, if_neg hlive]
        rw [List.filterMap_cons_none hnone]
        simp only [if_neg hlive]
        rfl

theorem twins_liveFields {α : Type} (h : Serves P c) (read? : String → Option (Stamped α))
    {key : String} (hkey : c.KeepsHashes key) :
    P.Twins List.Perm (liveFields read? key) (liveFields read? key) := by
  refine twins_wallClock.bind ?_
  rintro now _ rfl
  refine (h.twins (.hashGetAll _) hkey).bind ?_
  rintro l l' ⟨hperm, -⟩
  intro x y hxy
  rw [onBackend_liveAmong, onBackend_liveAmong]
  exact ⟨.ok (hperm.filterMap _), hxy⟩

theorem twins_liveField {α : Type} (h : Serves P c) (read? : String → Option (Stamped α))
    {key : String} (field : String) (hkey : c.KeepsHashes key) :
    P.Twins Eq (liveField read? key field) (liveField read? key field) := by
  refine (h.twins (.hashGet _ _) hkey).bind ?_
  rintro found _ rfl
  cases found with
  | none => exact twins_pure rfl
  | some text =>
    dsimp only
    cases read? text with
    | none => exact (twins_log _).bind fun _ _ _ => twins_pure rfl
    | some s =>
      refine twins_wallClock.bind ?_
      rintro now _ rfl
      exact twins_pure rfl

theorem twins_userOf (h : Serves P c) (id : ConnectionId) :
    P.Twins Eq (c.userOf id) (c.userOf id) := by
  refine (h.twins (.get _) (keepsTexts_connectionKey id)).bind ?_
  rintro found _ rfl
  cases found with
  | none => exact twins_pure rfl
  | some text =>
    dsimp only
    cases (Json.Document.read? text).bind UserEntry.decode with
    | none => exact twins_throw _
    | some e => exact twins_pure rfl

theorem twins_locateIn {α : Type} (h : Serves P c) (read? : String → Option (Stamped α))
    {bucket : BrokerId → String} (field : String) (hbucket : ∀ b, c.KeepsHashes (bucket b))
    (bs : List BrokerId) :
    P.Twins Eq (locateIn read? bucket field bs) (locateIn read? bucket field bs) := by
  induction bs with
  | nil => exact twins_pure rfl
  | cons b rest ih =>
    refine (twins_liveField h read? field (hbucket b)).bind ?_
    rintro found _ rfl
    refine ih.bind ?_
    rintro others _ rfl
    exact twins_pure rfl

theorem twins_locateUser (h : Serves P c) (userId : Int64) :
    P.Twins Eq (c.locateUser userId) (c.locateUser userId) := by
  refine (twins_brokers h).bind ?_
  rintro bs _ rfl
  exact twins_locateIn h _ _ keepsHashes_userBucket bs

theorem twins_locateGroup (h : Serves P c) (group : String) :
    P.Twins Eq (c.locateGroup group) (c.locateGroup group) := by
  refine (twins_brokers h).bind ?_
  rintro bs _ rfl
  exact twins_locateIn h _ _ keepsHashes_groupBucket bs

/-! ### Any operations -/

/-- Operations that give back the same are twins with whatever is told of the values. -/
theorem twins_value {α : Type} {op : Operation α} (h : P.Twins Eq op op) (v : α → Value) :
    P.Twins Value.Same (op >>= fun a => pure (v a)) (op >>= fun a => pure (v a)) := by
  refine h.bind ?_
  rintro a _ rfl
  exact twins_pure (.refl _)

theorem twins_perform (h : Serves P c) (service : Service) :
    P.Twins Value.Same (service.perform c) (service.perform c) := by
  cases service with
  | refreshUser e => exact twins_value (twins_refreshUser h e) fun _ => .none
  | refreshGroup e => exact twins_value (twins_refreshGroup h e) fun _ => .none
  | refreshConnection e => exact twins_value (twins_refreshConnection h e) fun _ => .none
  | registerBroker b => exact twins_value (twins_registerBroker h b) fun _ => .none
  | purge => exact (h.twins .purgeExpired trivial).bind fun _ _ _ => twins_pure (.refl _)
  | forgetUser e => exact twins_value (twins_forgetUser h e) .flag
  | deregisterBroker b => exact twins_value (twins_deregisterBroker h b) .flag
  | prune b => exact twins_value (twins_prune h b) .count
  | brokers => exact twins_value (twins_brokers h) .brokers
  | users b =>
    refine (twins_liveFields h Stamped.readUser? (keepsHashes_userBucket b)).bind ?_
    intro l l' hl
    exact twins_pure (.users hl)
  | groups b =>
    refine (twins_liveFields h Stamped.readGroup? (keepsHashes_groupBucket b)).bind ?_
    intro l l' hl
    exact twins_pure (.groups hl)
  | userOf id => exact twins_value (twins_userOf h id) .user
  | locateUser userId => exact twins_value (twins_locateUser h userId) .users
  | locateGroup group => exact twins_value (twins_locateGroup h group) .groups

/-- Over two stores that will show the same, any operations give back the same one after another. -/
theorem forall₂_resultsOn (h : Serves P c) (services : List Service) {x : Nat × σ} {y : Nat × τ}
    (hxy : P.Alike x y) :
    List.Forall₂ (Agree Value.Same)
      (Cache.resultsOn P.first P.origin P.clock (services.map (Service.perform c)) x)
      (Cache.resultsOn P.second P.origin P.clock (services.map (Service.perform c)) y) := by
  induction services generalizing x y with
  | nil => exact .nil
  | cons service rest ih =>
    obtain ⟨hagree, hleft⟩ := twins_perform h service x y hxy
    exact .cons hagree (ih hleft)

end

/-! ### The memory store and a Redis server -/

/-- The memory store beside a server on the same clock. -/
def memoryBeside {σ : Type} {S : Redis.Server σ} (h : S.Obeys) (c : SessionCache) {ms : Nat}
    (hpos : 1 ≤ ms) (origin : Nat) {clock : Nat → Nat} (hclock : Monotone clock) :
    Comparison Memory σ where
  origin := origin
  clock := clock
  first := Memory.backend
  second := S.backend origin
  fits₁ := Memory.Fits c.KeepsHashes c.KeepsTexts
  fits₂ := S.Fits origin c.KeepsHashes c.KeepsTexts
  admits t k := k.Uses c.KeepsHashes c.KeepsTexts (.ofMillis ms) ∧
    origin + t + ms ≤ Redis.lastTime
  onward := hclock
  sound₁ := (Memory.sound_backend keepsHashes_apart ms).mono fun _ _ hk => hk.1
  sound₂ := Redis.Server.sound_backend h keepsHashes_apart hpos
  lapses := Store.Memory.lapses

/-- Over a Redis server that holds nothing at first and over an empty memory store on the same
clock, any operations of the cache give back the same, up to the order of what is listed. -/
theorem backends_interchangeable {σ : Type} {S : Redis.Server σ} (h : S.Obeys) {s : σ}
    {origin : Nat} {clock : Nat → Nat} (hclock : Monotone clock)
    (hempty : ∀ now, origin + clock 0 ≤ now → ∀ key, S.content s now key = none)
    {c : SessionCache} {ms : Nat} (httl : c.ttl = .ofMillis ms) (hpos : 1 ≤ ms)
    (hrange : ∀ n, origin + clock n + ms ≤ Redis.lastTime) (services : List Service) :
    List.Forall₂ (Agree Value.Same)
      (Cache.resultsOn Memory.backend origin clock (services.map (Service.perform c)) (0, .empty))
      (Cache.resultsOn (S.backend origin) origin clock (services.map (Service.perform c))
        (0, s)) := by
  have hserves : Serves (memoryBeside h c hpos origin hclock) c := by
    intro n k hk
    rw [httl] at hk
    exact ⟨hk, hrange n⟩
  refine forall₂_resultsOn hserves services ⟨rfl, ?_, ?_, ?_⟩
  · exact Memory.fits_empty _ _ _
  · intro now hnow
    constructor
    · intro key _
      rw [hempty now hnow key]
      trivial
    · intro key _
      rw [hempty now hnow key]
      trivial
  · intro t ht
    have hnothing : ∀ key, S.content s (origin + t) key = none :=
      hempty (origin + t) (Nat.add_le_add_left ht origin)
    show Memory.backend.outlook .empty t = (S.backend origin).outlook s t
    simp only [Redis.Server.backend, hnothing]
    rfl

/-- A visitor comes to a node and goes, comes again, is found and goes. -/
def visit (b : BrokerId) (e : UserEntry) : List Service :=
  [.registerBroker b, .refreshUser e, .refreshConnection e, .forgetUser e, .registerBroker b,
    .refreshUser e, .locateUser e.userId, .forgetUser e, .prune b, .users b, .userOf e.connection,
    .purge, .brokers]

/-- The operations of a visit, two requests a second, over an empty keyspace. Whenever the visitor
goes, the entry still lives and is deleted: first by a script that the server has to be given, then
by one that it knows. -/
theorem visit_interchangeable :
    let c : SessionCache := ⟨"gateway", .ofMillis 7000⟩
    let clock : Nat → Nat := fun n => min (500 * n) 60000
    let services := visit ⟨"node"⟩ ⟨⟨"c1"⟩, 1, 7, some 3, "token", ⟨"node"⟩⟩
    let onMemory :=
      Cache.resultsOn Memory.backend 1700000000000 clock (services.map (Service.perform c))
        (0, .empty)
    let onServer :=
      Cache.resultsOn (Redis.Keyspace.server.backend 1700000000000) 1700000000000 clock
        (services.map (Service.perform c)) (0, .empty)
    List.Forall₂ (Agree Value.Same) onMemory onServer ∧
      onServer[3]?.bind Except.toOption = some (.flag true) ∧
      onServer[7]?.bind Except.toOption = some (.flag true) := by
  have hclock : Monotone fun n : Nat => min (500 * n) 60000 := by
    intro i j hij
    dsimp only
    omega
  have hrange : ∀ n : Nat, 1700000000000 + min (500 * n) 60000 + 7000 ≤ Redis.lastTime := by
    intro n
    rw [Redis.lastTime]
    omega
  refine ⟨?_, by decide +kernel⟩
  exact backends_interchangeable Redis.Keyspace.obeys hclock (fun _ _ _ => rfl) rfl (by decide)
    hrange _

end SessionGateway.SessionCache
