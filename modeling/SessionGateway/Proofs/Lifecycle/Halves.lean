import SessionGateway.Proofs.Cache.Keys
import SessionGateway.Proofs.Cluster.Answers
import SessionGateway.Proofs.Directory
import SessionGateway.Proofs.Lifecycle.Requests

/-!
# What each lock guards

A node's sessions fall in two halves, its users and its groups, each with its part of the directory
and of the cache. A request that belongs to one half leaves the other as it is, so whoever holds the
lock of a half may reason about it as if nothing else went on.
-/

namespace SessionGateway

open Node (Answers Request)
open Program (Surroundings)
open Store (Command Memory)

/-- A request that changes neither half and no lock. -/
def Node.Request.IsAside : Request → Prop
  | .cache .wallClock | .cache (.log _) | .identify _ | .directory | .close _ | .measure .. => True
  | _ => False

namespace Lifecycle

/-- The users of a node, the fields of its user bucket and the texts under the keys of single
connections. -/
structure UserHalf where
  sessions : Table ConnectionId UserSession
  fields : String → Option String
  texts : ConnectionId → Option String

/-- The group sessions of a node and the fields of its group bucket. -/
structure GroupHalf where
  sessions : Table ConnectionId GroupSession
  fields : String → Option String

abbrev Half : ConnectionKind → Type
  | .endUser => UserHalf
  | .groupSecret => GroupHalf

def half (l : Lifecycle) (k : Cluster) : (kind : ConnectionKind) → Half kind
  | .endUser => {
      sessions := (k.directory l.broker).users
      fields := (k.memory.fieldsAt k.now (l.cache.userBucket l.broker)).get?
      texts := fun id => k.memory.textAt k.now (l.cache.connectionKey id) }
  | .groupSecret => {
      sessions := (k.directory l.broker).groups
      fields := (k.memory.fieldsAt k.now (l.cache.groupBucket l.broker)).get? }

/-- Nothing has expired, and the keys of a node are used as they are meant. -/
structure Sound (l : Lifecycle) (k : Cluster) : Prop where
  unexpired : k.memory.Unexpired k.now
  users : k.memory.IsHash k.now (l.cache.userBucket l.broker)
  groups : k.memory.IsHash k.now (l.cache.groupBucket l.broker)
  connections : ∀ id, k.memory.IsText k.now (l.cache.connectionKey id)

/-- A command that reaches only what the lock of a kind guards. -/
def Reaches (l : Lifecycle) : ConnectionKind → Command → Prop
  | .endUser, .hashPut key .. | .endUser, .hashGet key _ | .endUser, .hashDeleteIf key .. =>
    key = l.cache.userBucket l.broker
  | .endUser, .put key .. | .endUser, .delete key => ∃ id, key = l.cache.connectionKey id
  | .groupSecret, .hashPut key .. => key = l.cache.groupBucket l.broker
  | _, _ => False

/-- A request that may be made under the lock of a kind, on behalf of a connection, if any. -/
def Inside (l : Lifecycle) (kind : ConnectionKind) (own : Option ConnectionId) : Request → Prop
  | .cache (.store command) => Reaches l kind command
  | .addUser s => kind = .endUser ∧ own = some s.entry.connection
  | .withdrawUser .. => kind = .endUser
  | .addGroup s => kind = .groupSecret ∧ own = some s.entry.connection
  | .withdrawGroup .. => kind = .groupSecret
  | r => r.IsAside

section

variable {l : Lifecycle} {kind kind' : ConnectionKind} {own : Option ConnectionId} {fails : Bool}
  {r : Request} {x : r.Answer} {k k' : Cluster}

theorem inside_of_aside (hr : r.IsAside) : Inside l kind own r := by
  cases r with
  | cache r => cases r <;> first | exact hr | exact hr.elim
  | identify | directory | close | measure => exact hr
  | acquire | release | addUser | addGroup | withdrawUser | withdrawGroup | remove | processors
  | turn => exact hr.elim

/-! ### Commands of one half -/

theorem not_lists_of_reaches {command : Command} (hc : Reaches l kind command) :
    ¬ command.Lists := by
  cases kind <;> cases command <;> first | exact hc.elim | exact fun e => e

theorem changes_of_reaches {command : Command} {key : String} (hc : Reaches l kind command)
    (hkey : command.Changes key) :
    (kind = .endUser ∧ (key = l.cache.userBucket l.broker ∨ ∃ id, key = l.cache.connectionKey id)) ∨
      kind = .groupSecret ∧ key = l.cache.groupBucket l.broker := by
  cases kind with
  | endUser =>
    refine .inl ⟨rfl, ?_⟩
    cases command with
    | hashPut | hashDeleteIf => exact .inl (hkey ▸ hc)
    | put | delete =>
      obtain ⟨id, hid⟩ := hc
      exact .inr ⟨id, hkey ▸ hid⟩
    | hashGet => exact hkey.elim
    | hashGetAll | hashDelete | get | purgeExpired => exact hc.elim
  | groupSecret =>
    refine .inr ⟨rfl, ?_⟩
    cases command with
    | hashPut => exact hkey ▸ hc
    | hashGet | hashGetAll | hashDelete | hashDeleteIf | put | get | delete | purgeExpired =>
      exact hc.elim

theorem putsText_of_reaches {command : Command} {key : String} (hc : Reaches l kind command)
    (hkey : command.PutsText key) : ∃ id, key = l.cache.connectionKey id := by
  cases kind <;> cases command <;> first | exact hc.elim | exact hkey.elim | skip
  obtain ⟨id, hid⟩ := hc
  exact ⟨id, hkey ▸ hid⟩

theorem putsHash_of_reaches {command : Command} {key : String} (hc : Reaches l kind command)
    (hkey : command.PutsHash key) :
    key = l.cache.userBucket l.broker ∨ key = l.cache.groupBucket l.broker := by
  cases kind <;> cases command <;> first | exact hc.elim | exact hkey.elim | skip
  · exact .inl (hkey ▸ hc)
  · exact .inr (hkey ▸ hc)

/-- A command that is carried out on a node, or fails without effect. -/
theorem answered {command : Command} {x : Store.Result command}
    (h : Answers l.broker fails (.cache (.store command)) k x k') (hc : ¬ command.Lists) :
    k'.now = k.now ∧ k'.sites = k.sites ∧
      ((x = (Memory.answer k.now command k.memory).1 ∧
          k'.memory = (Memory.answer k.now command k.memory).2) ∨
        fails = true ∧ k'.memory = k.memory ∧ ∃ e, x = .error e) := by
  obtain ⟨hk', hcarried | hfailed⟩ := h
  · exact ⟨by rw [hk'], by rw [hk'], .inl (Memory.eq_of_carries hcarried hc)⟩
  · exact ⟨by rw [hk'], by rw [hk'], .inr hfailed⟩

/-! ### What a request leaves as it is -/

theorem aside_answer (hr : r.IsAside) (h : Answers l.broker fails r k x k') :
    k'.now = k.now ∧ k'.sites = k.sites ∧ k'.memory = k.memory := by
  cases r with
  | cache r =>
    cases r with
    | store command => exact hr.elim
    | _ => cases h; exact ⟨rfl, rfl, rfl⟩
  | identify credential =>
    obtain rfl : k' = k := h
    exact ⟨rfl, rfl, rfl⟩
  | directory | close | measure =>
    cases h
    exact ⟨rfl, rfl, rfl⟩
  | acquire | release | addUser | addGroup | withdrawUser | withdrawGroup | remove | processors
  | turn => exact hr.elim

theorem Sound.congr (hs : Sound l k) (hnow : k'.now = k.now) (hmemory : k'.memory = k.memory) :
    Sound l k' := by
  obtain ⟨hunexpired, husers, hgroups, hconnections⟩ := hs
  rw [← hnow, ← hmemory] at hunexpired husers hgroups
  refine ⟨hunexpired, husers, hgroups, ?_⟩
  rw [hnow, hmemory]
  exact hconnections

theorem sound_of_empty (h : k.memory = .empty) : Sound l k := by
  have hlive : ∀ key, k.memory.live? k.now key = none := by
    intro key
    rw [h]
    exact Memory.live?_empty
  constructor
  · intro key slot hslot
    rw [h] at hslot
    cases hslot
  · intro s deadline hs
    rw [hlive] at hs
    cases hs
  · intro s deadline hs
    rw [hlive] at hs
    cases hs
  · intro id s deadline hs
    rw [hlive] at hs
    cases hs

/-- The memory and the clock are not touched by what changes a directory. -/
theorem memory_answer (hr : Inside l kind own r) (hstore : ∀ command, r ≠ .cache (.store command))
    (h : Answers l.broker fails r k x k') : k'.now = k.now ∧ k'.memory = k.memory := by
  cases r with
  | cache r =>
    cases r with
    | store command => exact absurd rfl (hstore command)
    | _ => cases h; exact ⟨rfl, rfl⟩
  | identify credential =>
    obtain rfl : k' = k := h
    exact ⟨rfl, rfl⟩
  | directory | close | measure | addUser | addGroup | withdrawUser | withdrawGroup =>
    cases h
    exact ⟨rfl, rfl⟩
  | acquire | release | remove | processors | turn => exact hr.elim

theorem sound_answer (hs : Sound l k) (hr : Inside l kind own r)
    (h : Answers l.broker fails r k x k') (hlive : k'.memory.Unexpired k'.now) : Sound l k' := by
  by_cases hstore : ∃ command, r = .cache (.store command)
  · obtain ⟨command, rfl⟩ := hstore
    have hc : Reaches l kind command := hr
    obtain ⟨hnow, -, ⟨-, hmemory⟩ | ⟨-, hmemory, -⟩⟩ := answered h (not_lists_of_reaches hc)
    · have hbucket : ∀ key, k.memory.IsHash k.now key →
          (∀ id, key ≠ l.cache.connectionKey id) → k'.memory.IsHash k'.now key := by
        intro key hkey hne
        rw [hnow, hmemory]
        refine hkey.answer (Duration.le_refl _) ?_
        intro hputs
        obtain ⟨id, hid⟩ := putsText_of_reaches hc hputs
        exact hne id hid
      refine ⟨hlive, hbucket _ hs.users ?_, hbucket _ hs.groups ?_, ?_⟩
      · intro id
        exact l.cache.userBucket_ne_connectionKey _ _
      · intro id
        exact l.cache.groupBucket_ne_connectionKey _ _
      · intro id
        rw [hnow, hmemory]
        refine (hs.connections id).answer (Duration.le_refl _) ?_
        intro hputs
        rcases putsHash_of_reaches hc hputs with hkey | hkey
        · exact l.cache.userBucket_ne_connectionKey _ _ hkey.symm
        · exact l.cache.groupBucket_ne_connectionKey _ _ hkey.symm
    · exact hs.congr hnow hmemory
  · obtain ⟨hnow, hmemory⟩ := memory_answer hr (fun command heq => hstore ⟨command, heq⟩) h
    exact hs.congr hnow hmemory

/-- What a request under a lock may do to the directory: it changes its own half only, and adds a
session for its own connection only. -/
structure DirectoryKept (kind : ConnectionKind) (own : Option ConnectionId) (d d' : Directory) :
    Prop where
  users : kind ≠ .endUser → d'.users = d.users
  groups : kind ≠ .groupSecret → d'.groups = d.groups
  absent : ∀ id, own ≠ some id → d.Absent id → d'.Absent id

theorem DirectoryKept.refl (d : Directory) : DirectoryKept kind own d d :=
  ⟨fun _ => rfl, fun _ => rfl, fun _ _ h => h⟩

theorem DirectoryKept.eraseUser (d : Directory) (id : ConnectionId) :
    DirectoryKept .endUser own d { d with users := d.users.erase id } := by
  refine ⟨fun h => absurd rfl h, fun _ => rfl, ?_⟩
  rintro id' - ⟨huser, hgroup⟩
  refine ⟨?_, hgroup⟩
  rw [Directory.userSession?, Table.get?_erase]
  split
  · rfl
  · exact huser

theorem DirectoryKept.eraseGroup (d : Directory) (id : ConnectionId) :
    DirectoryKept .groupSecret own d { d with groups := d.groups.erase id } := by
  refine ⟨fun _ => rfl, fun h => absurd rfl h, ?_⟩
  rintro id' - ⟨huser, hgroup⟩
  refine ⟨huser, ?_⟩
  rw [Directory.groupSession?, Table.get?_erase]
  split
  · rfl
  · exact hgroup

theorem directory_answer (hr : Inside l kind own r) (h : Answers l.broker fails r k x k') :
    DirectoryKept kind own (k.directory l.broker) (k'.directory l.broker) := by
  have hsame : k'.sites = k.sites →
      DirectoryKept kind own (k.directory l.broker) (k'.directory l.broker) := by
    intro hsites
    rw [Cluster.directory_congr hsites]
    exact .refl _
  cases r with
  | cache r =>
    cases r with
    | store command => exact hsame (answered h (not_lists_of_reaches hr)).2.1
    | _ => exact hsame (aside_answer (by trivial) h).2.1
  | identify | directory | close | measure => exact hsame (aside_answer (by trivial) h).2.1
  | addUser s =>
    obtain ⟨rfl, rfl⟩ := hr
    cases h
    refine ⟨fun h => absurd rfl h, fun _ => ?_, ?_⟩
    · rw [Cluster.directory_setDirectory]
      rfl
    · rintro id hid ⟨huser, hgroup⟩
      rw [Cluster.directory_setDirectory]
      refine ⟨?_, hgroup⟩
      rw [Directory.userSession?_addUser, if_neg fun heq => hid (congrArg some heq)]
      exact huser
  | addGroup s =>
    obtain ⟨rfl, rfl⟩ := hr
    cases h
    refine ⟨fun _ => ?_, fun h => absurd rfl h, ?_⟩
    · rw [Cluster.directory_setDirectory]
      rfl
    · rintro id hid ⟨huser, hgroup⟩
      rw [Cluster.directory_setDirectory]
      refine ⟨huser, ?_⟩
      rw [Directory.groupSession?_addGroup, if_neg fun heq => hid (congrArg some heq)]
      exact hgroup
  | withdrawUser id t =>
    obtain rfl : kind = .endUser := hr
    cases h
    rw [Cluster.directory_setDirectory]
    rcases (k.directory l.broker).withdrawUser_eq id t with hd | hd
    · rw [hd]
      exact .refl _
    · rw [hd]
      exact .eraseUser _ id
  | withdrawGroup id t =>
    obtain rfl : kind = .groupSecret := hr
    cases h
    rw [Cluster.directory_setDirectory]
    rcases (k.directory l.broker).withdrawGroup_eq id t with hd | hd
    · rw [hd]
      exact .refl _
    · rw [hd]
      exact .eraseGroup _ id
  | acquire | release | remove | processors | turn => exact hr.elim

theorem lock_answer (hr : Inside l kind own r) (h : Answers l.broker fails r k x k') :
    (k'.site l.broker).lock kind' = (k.site l.broker).lock kind' := by
  have hsame : k'.sites = k.sites →
      (k'.site l.broker).lock kind' = (k.site l.broker).lock kind' := by
    intro hsites
    simp only [Cluster.site, hsites]
  cases r with
  | cache r =>
    cases r with
    | store command => exact hsame (answered h (not_lists_of_reaches hr)).2.1
    | _ => exact hsame (aside_answer (by trivial) h).2.1
  | identify | directory | close | measure => exact hsame (aside_answer (by trivial) h).2.1
  | addUser | addGroup | withdrawUser | withdrawGroup =>
    cases h
    exact Cluster.lock_setDirectory _ _ _ _
  | acquire | release | remove | processors | turn => exact hr.elim

theorem live?_answer (hr : Inside l kind own r) (h : Answers l.broker fails r k x k')
    {key : String} (hkey : ∀ command, Reaches l kind command → ¬ command.Changes key) :
    k'.memory.live? k'.now key = k.memory.live? k.now key := by
  by_cases hstore : ∃ command, r = .cache (.store command)
  · obtain ⟨command, rfl⟩ := hstore
    obtain ⟨hnow, -, ⟨-, hmemory⟩ | ⟨-, hmemory, -⟩⟩ := answered h (not_lists_of_reaches hr)
    · rw [hnow, hmemory]
      exact Memory.live?_answer_of_not_changes (Duration.le_refl _) (hkey command hr)
    · rw [hnow, hmemory]
  · obtain ⟨hnow, hmemory⟩ := memory_answer hr (fun command heq => hstore ⟨command, heq⟩) h
    rw [hnow, hmemory]

theorem half_endUser_congr
    (hsessions : (k'.directory l.broker).users = (k.directory l.broker).users)
    (hfields : k'.memory.live? k'.now (l.cache.userBucket l.broker) =
      k.memory.live? k.now (l.cache.userBucket l.broker))
    (htexts : ∀ id, k'.memory.live? k'.now (l.cache.connectionKey id) =
      k.memory.live? k.now (l.cache.connectionKey id)) :
    half l k' .endUser = half l k .endUser := by
  simp only [half, hsessions, Memory.fieldsAt_congr hfields]
  congr 1
  funext id
  exact Memory.textAt_congr (htexts id)

theorem half_groupSecret_congr
    (hsessions : (k'.directory l.broker).groups = (k.directory l.broker).groups)
    (hfields : k'.memory.live? k'.now (l.cache.groupBucket l.broker) =
      k.memory.live? k.now (l.cache.groupBucket l.broker)) :
    half l k' .groupSecret = half l k .groupSecret := by
  simp only [half, hsessions, Memory.fieldsAt_congr hfields]

/-- A half is read off the directory and the live keys. -/
theorem half_congr (hd : k'.directory l.broker = k.directory l.broker)
    (hlive : ∀ key, k'.memory.live? k'.now key = k.memory.live? k.now key)
    (kind : ConnectionKind) : half l k' kind = half l k kind := by
  cases kind with
  | endUser => exact half_endUser_congr (by rw [hd]) (hlive _) fun id => hlive _
  | groupSecret => exact half_groupSecret_congr (by rw [hd]) (hlive _)

/-- A request under the lock of one kind leaves the other half as it is. -/
theorem half_other (hr : Inside l kind own r) (h : Answers l.broker fails r k x k')
    (hne : kind' ≠ kind) : half l k' kind' = half l k kind' := by
  have hd := directory_answer hr h
  cases kind' with
  | endUser =>
    obtain rfl : kind = .groupSecret := by
      cases kind with
      | endUser => exact absurd rfl hne
      | groupSecret => rfl
    refine half_endUser_congr (hd.users nofun) (live?_answer hr h ?_)
      fun id => live?_answer hr h ?_
    · intro command hc hchanges
      obtain ⟨⟨⟩, -⟩ | ⟨-, hkey⟩ := changes_of_reaches hc hchanges
      exact l.cache.userBucket_ne_groupBucket _ _ hkey
    · intro command hc hchanges
      obtain ⟨⟨⟩, -⟩ | ⟨-, hkey⟩ := changes_of_reaches hc hchanges
      exact l.cache.groupBucket_ne_connectionKey _ _ hkey.symm
  | groupSecret =>
    obtain rfl : kind = .endUser := by
      cases kind with
      | endUser => rfl
      | groupSecret => exact absurd rfl hne
    refine half_groupSecret_congr (hd.groups nofun) (live?_answer hr h ?_)
    intro command hc hchanges
    obtain ⟨-, hkey | ⟨id, hkey⟩⟩ | ⟨⟨⟩, -⟩ := changes_of_reaches hc hchanges
    · exact l.cache.userBucket_ne_groupBucket _ _ hkey.symm
    · exact l.cache.groupBucket_ne_connectionKey _ _ hkey

/-- A request aside leaves both halves as they are. -/
theorem half_aside (hr : r.IsAside) (h : Answers l.broker fails r k x k')
    (kind : ConnectionKind) : half l k' kind = half l k kind := by
  obtain ⟨hnow, hsites, hmemory⟩ := aside_answer hr h
  refine half_congr (Cluster.directory_congr hsites) (fun key => ?_) kind
  rw [hnow, hmemory]

end

end Lifecycle

end SessionGateway
