import Mathlib.Logic.Function.Basic
import SessionGateway.Proofs.Entry
import SessionGateway.Proofs.Lifecycle.Halves

/-!
# What is done under a lock

Whoever holds the lock of a kind sees its half alone. Enrolling and publishing again begin and end
with a half in which the directory and the cache agree, wherever the store fails, as long as it does
not fail twice for one task.
-/

namespace SessionGateway

open Node (Answers Request cached)
open Program (Surroundings)
open SessionCache (userField names)
open Store (Command Memory)

namespace Lifecycle

namespace UserHalf

variable (u : UserHalf)

def setSessions (sessions : Table ConnectionId UserSession) : UserHalf :=
  { u with sessions := sessions }

def setField (field : String) (text : Option String) : UserHalf :=
  { u with fields := Function.update u.fields field text }

def setText (id : ConnectionId) (text : Option String) : UserHalf :=
  { u with texts := Function.update u.texts id text }

@[simp] theorem sessions_setSessions (t : Table ConnectionId UserSession) :
    (u.setSessions t).sessions = t := rfl

@[simp] theorem sessions_setField (field : String) (text : Option String) :
    (u.setField field text).sessions = u.sessions := rfl

theorem fields_setField (field field' : String) (text : Option String) :
    (u.setField field text).fields field' = if field' = field then text else u.fields field' :=
  Function.update_apply _ _ _ _

@[simp] theorem sessions_setText (id : ConnectionId) (text : Option String) :
    (u.setText id text).sessions = u.sessions := rfl

@[simp] theorem fields_setText (id : ConnectionId) (text : Option String) :
    (u.setText id text).fields = u.fields := rfl

theorem texts_setText (id id' : ConnectionId) (text : Option String) :
    (u.setText id text).texts id' = if id' = id then text else u.texts id' :=
  Function.update_apply _ _ _ _

end UserHalf

namespace GroupHalf

variable (u : GroupHalf)

def setSessions (sessions : Table ConnectionId GroupSession) : GroupHalf :=
  { u with sessions := sessions }

def setField (group : String) (text : Option String) : GroupHalf :=
  { u with fields := Function.update u.fields group text }

@[simp] theorem sessions_setSessions (t : Table ConnectionId GroupSession) :
    (u.setSessions t).sessions = t := rfl

@[simp] theorem sessions_setField (group : String) (text : Option String) :
    (u.setField group text).sessions = u.sessions := rfl

theorem fields_setField (group group' : String) (text : Option String) :
    (u.setField group text).fields group' = if group' = group then text else u.fields group' :=
  Function.update_apply _ _ _ _

end GroupHalf

/-- Whether a call of the store failed. -/
def failed : (r : Request) → r.Answer → Bool
  | .cache (.store _), .error _ => true
  | _, _ => false

/-- How a request is answered under the lock of a kind, as far as its half tells. The second part of
a state is whether the store has failed; then it does not fail again. -/
def Beside (l : Lifecycle) (kind : ConnectionKind) :
    Surroundings Node.interface (Half kind × Bool) := fun r v x v' =>
  v'.2 = (v.2 || failed r x) ∧ ∃ k k', Sound l k ∧ Sound l k' ∧ half l k kind = v.1 ∧
    half l k' kind = v'.1 ∧ Answers l.broker (!v.2) r k x k'

/-- Under the lock of a kind, a program makes only requests that belong there, and every run of it
ends in a way that satisfies a condition. -/
def Under {α : Type} (l : Lifecycle) (kind : ConnectionKind) (own : Option ConnectionId) :
    NodeProgram α → Half kind × Bool → (α → Half kind × Bool → Prop) → Prop
  | .done a, v, Q => Q a v
  | .ask r next, v, Q =>
    Inside l kind own r ∧ ∀ x v', Beside l kind r v x v' → Under l kind own (next x) v' Q

section

variable {l : Lifecycle} {kind : ConnectionKind} {own : Option ConnectionId}
  {v v' : Half kind × Bool} {α β : Type}

theorem Under.mono {p : NodeProgram α} {Q Q' : α → Half kind × Bool → Prop}
    (h : Under l kind own p v Q) (hQ : ∀ a v', Q a v' → Q' a v') : Under l kind own p v Q' := by
  induction p generalizing v with
  | done a => exact hQ a v h
  | ask r next ih => exact ⟨h.1, fun x v' hx => ih x (h.2 x v' hx)⟩

theorem under_bind {p : NodeProgram α} {f : α → NodeProgram β} {Q : β → Half kind × Bool → Prop} :
    Under l kind own (p.bind f) v Q ↔
      Under l kind own p v fun a v' => Under l kind own (f a) v' Q := by
  induction p generalizing v with
  | done a => rfl
  | ask r next ih =>
    constructor
    · rintro ⟨hr, h⟩
      exact ⟨hr, fun x v' hx => (ih x).mp (h x v' hx)⟩
    · rintro ⟨hr, h⟩
      exact ⟨hr, fun x v' hx => (ih x).mpr (h x v' hx)⟩

theorem beside_aside {r : Request} {x : r.Answer} (hr : r.IsAside)
    (h : Beside l kind r v x v') : v' = v := by
  obtain ⟨hhurt, k, k', -, -, hv, hv', hx⟩ := h
  have hfailed : failed r x = false := by
    cases r with
    | cache r => cases r <;> first | rfl | exact hr.elim
    | _ => rfl
  rw [hfailed, Bool.or_false] at hhurt
  exact Prod.ext (by rw [← hv', half_aside hr hx, hv]) hhurt

theorem aside_of_idle (r : Request) (hr : r.IsIdle) : r.IsAside := by
  cases r with
  | cache r => cases r <;> exact hr
  | measure => trivial
  | _ => exact hr.elim

theorem under_idle {p : NodeProgram α} (hp : p.Only Request.IsIdle) :
    Under l kind own p v fun _ v' => v' = v := by
  induction p with
  | done a => rfl
  | ask r next ih =>
    have hr : r.IsAside := aside_of_idle r hp.1
    refine ⟨inside_of_aside hr, ?_⟩
    intro x v' hx
    obtain rfl := beside_aside hr hx
    exact ih x (hp.2 x)

/-- Reading the clock changes nothing. -/
theorem under_wallClock {next : Int64 → NodeProgram α} {Q : α → Half kind × Bool → Prop}
    (h : ∀ now, Under l kind own (next now) v Q) :
    Under l kind own (.ask (.cache .wallClock) next) v Q := by
  refine ⟨inside_of_aside trivial, ?_⟩
  intro now v' hnow
  obtain rfl := beside_aside (r := .cache .wallClock) trivial hnow
  exact h now

theorem under_idle_bind {p : NodeProgram α} {f : α → NodeProgram β}
    {Q : β → Half kind × Bool → Prop} (hp : p.Only Request.IsIdle)
    (hf : ∀ a, Under l kind own (f a) v Q) : Under l kind own (p.bind f) v Q := by
  rw [under_bind]
  refine (under_idle hp).mono ?_
  rintro a _ rfl
  exact hf a

theorem under_store {command : Command} {next : Store.Result command → NodeProgram α}
    {P : command.Answer → Prop} {w : Half kind} {hurt : Bool} {u : Half kind}
    {Q : α → Half kind × Bool → Prop} (hc : Reaches l kind command)
    (hw : ∀ k k', Sound l k → Sound l k' → half l k kind = u → k'.now = k.now →
      k'.sites = k.sites → k'.memory = (Memory.answer k.now command k.memory).2 →
      (∃ a, (Memory.answer k.now command k.memory).1 = .ok a ∧ P a) ∧ half l k' kind = w)
    (hok : ∀ a, P a → Under l kind own (next (.ok a)) (w, hurt) Q)
    (herror : hurt = false → ∀ e, Under l kind own (next (.error e)) (u, true) Q) :
    Under l kind own (.ask (.cache (.store command)) next) (u, hurt) Q := by
  refine ⟨hc, ?_⟩
  rintro x ⟨w', hurt'⟩ ⟨hhurt, k, k', hs, hs', hv, hv', hx⟩
  obtain ⟨hnow, hsites, ⟨rfl, hmemory⟩ | ⟨hfails, hmemory, e, rfl⟩⟩ :=
    answered hx (not_lists_of_reaches hc)
  · obtain ⟨⟨a, hanswer, ha⟩, hhalf⟩ := hw k k' hs hs' hv hnow hsites hmemory
    rw [hanswer] at hhurt ⊢
    obtain rfl : w' = w := hv'.symm.trans hhalf
    obtain rfl : hurt' = hurt := hhurt.trans (Bool.or_false _)
    exact hok a ha
  · have hhalf : w' = u := by
      rw [← show half l k kind = u from hv, ← show half l k' kind = w' from hv']
      refine half_congr (Cluster.directory_congr hsites) (fun key => ?_) kind
      rw [hnow, hmemory]
    have hunhurt : hurt = false := by
      cases hurt with
      | false => rfl
      | true => cases hfails
    obtain rfl : hurt' = true := hhurt.trans (Bool.or_true _)
    rw [hhalf]
    exact herror hunhurt e

/-! ### Commands on the users' half -/

section

variable {u : UserHalf} {hurt : Bool} {Q : α → Half .endUser × Bool → Prop}

/-- What a command does to the users' half, if it changes their bucket only. -/
theorem half_endUser_of_field {k k' : Cluster} {command : Command} {field : String}
    {text : Option String} (hnow : k'.now = k.now) (hsites : k'.sites = k.sites)
    (hmemory : k'.memory = (Memory.answer k.now command k.memory).2)
    (hkey : ∀ key, command.Changes key → l.cache.userBucket l.broker = key)
    (hfields : (k'.memory.fieldsAt k'.now (l.cache.userBucket l.broker)).get? =
      Function.update (half l k .endUser).fields field text) :
    half l k' .endUser = (half l k .endUser).setField field text := by
  simp only [half, Cluster.directory_congr hsites, hfields, UserHalf.setField]
  congr 1
  funext id
  rw [hnow, hmemory]
  refine Memory.textAt_congr (Memory.live?_answer_of_not_changes (Duration.le_refl _) ?_)
  intro hchanges
  exact l.cache.userBucket_ne_connectionKey _ _ (hkey _ hchanges)

/-- What a command does to the users' half, if it changes the key of one connection only. -/
theorem half_endUser_of_text {k k' : Cluster} {command : Command} {id : ConnectionId}
    {text : Option String} (hnow : k'.now = k.now) (hsites : k'.sites = k.sites)
    (hmemory : k'.memory = (Memory.answer k.now command k.memory).2)
    (hkey : ∀ key, command.Changes key → l.cache.connectionKey id = key)
    (htext : k'.memory.textAt k'.now (l.cache.connectionKey id) = text) :
    half l k' .endUser = (half l k .endUser).setText id text := by
  simp only [half, Cluster.directory_congr hsites, UserHalf.setText]
  congr 1
  · rw [hnow, hmemory]
    refine congrArg Table.get? (Memory.fieldsAt_congr ?_)
    refine Memory.live?_answer_of_not_changes (Duration.le_refl _) ?_
    intro hchanges
    exact l.cache.userBucket_ne_connectionKey _ _ (hkey _ hchanges).symm
  · funext id'
    rw [Function.update_apply]
    split
    · next hid => rw [hid, htext]
    · next hid =>
      rw [hnow, hmemory]
      refine Memory.textAt_congr (Memory.live?_answer_of_not_changes (Duration.le_refl _) ?_)
      intro hchanges
      exact hid (l.cache.connectionKey_inj.mp (hkey _ hchanges)).symm

theorem under_putField {field text : String} {ttl : Duration}
    {next : Except CacheError Unit → NodeProgram α}
    (hok : Under l .endUser own (next (.ok ())) (u.setField field (some text), hurt) Q)
    (herror : hurt = false → ∀ e, Under l .endUser own (next (.error e)) (u, true) Q) :
    Under l .endUser own
      (.ask (.cache (.store (.hashPut (l.cache.userBucket l.broker) field text ttl))) next)
      (u, hurt) Q := by
  refine under_store (P := fun _ => True) rfl ?_ (fun _ _ => hok) herror
  rintro k k' hs hs' rfl hnow hsites hmemory
  refine ⟨⟨(), by rw [Memory.answer_hashPut hs.users], trivial⟩,
    half_endUser_of_field hnow hsites hmemory (fun _ h => h) ?_⟩
  have hlive := hs'.unexpired
  rw [hnow, hmemory] at hlive ⊢
  rw [Memory.fieldsAt_hashPut_of_unexpired hs.users hlive]
  funext field'
  rw [Table.get?_insert, Function.update_apply]
  by_cases hfield : field = field'
  · rw [if_pos hfield, if_pos hfield.symm]
  · rw [if_neg hfield, if_neg (Ne.symm hfield)]
    rfl

theorem under_putText {id : ConnectionId} {text : String} {ttl : Duration}
    {next : Except CacheError Unit → NodeProgram α}
    (hok : Under l .endUser own (next (.ok ())) (u.setText id (some text), hurt) Q)
    (herror : hurt = false → ∀ e, Under l .endUser own (next (.error e)) (u, true) Q) :
    Under l .endUser own (.ask (.cache (.store (.put (l.cache.connectionKey id) text ttl))) next)
      (u, hurt) Q := by
  refine under_store (P := fun _ => True) ⟨id, rfl⟩ ?_ (fun _ _ => hok) herror
  rintro k k' hs hs' rfl hnow hsites hmemory
  refine ⟨⟨(), rfl, trivial⟩, half_endUser_of_text hnow hsites hmemory (fun _ h => h) ?_⟩
  have hlive := hs'.unexpired
  rw [hnow, hmemory] at hlive ⊢
  exact Memory.textAt_put_of_unexpired hlive

theorem under_deleteText {id : ConnectionId} {next : Except CacheError Bool → NodeProgram α}
    (hok : ∀ gone, Under l .endUser own (next (.ok gone)) (u.setText id none, hurt) Q)
    (herror : hurt = false → ∀ e, Under l .endUser own (next (.error e)) (u, true) Q) :
    Under l .endUser own (.ask (.cache (.store (.delete (l.cache.connectionKey id)))) next)
      (u, hurt) Q := by
  refine under_store (P := fun _ => True) ⟨id, rfl⟩ ?_ (fun gone _ => hok gone) herror
  rintro k k' hs hs' rfl hnow hsites hmemory
  refine ⟨⟨_, rfl, trivial⟩, half_endUser_of_text hnow hsites hmemory (fun _ h => h) ?_⟩
  simp only [hnow, hmemory, Memory.textAt, Memory.live?_delete, Option.bind_none]

theorem under_getField {field : String}
    {next : Except CacheError (Option String) → NodeProgram α}
    (hok : Under l .endUser own (next (.ok (u.fields field))) (u, hurt) Q)
    (herror : hurt = false → ∀ e, Under l .endUser own (next (.error e)) (u, true) Q) :
    Under l .endUser own
      (.ask (.cache (.store (.hashGet (l.cache.userBucket l.broker) field))) next) (u, hurt) Q := by
  refine under_store (P := (· = u.fields field)) rfl ?_ (fun _ ha => ha ▸ hok) herror
  rintro k k' hs hs' rfl hnow hsites hmemory
  rw [Memory.answer_hashGet hs.users] at hmemory ⊢
  refine ⟨⟨_, rfl, rfl⟩, half_endUser_congr ?_ ?_ ?_⟩
  · rw [Cluster.directory_congr hsites]
  · rw [hnow, hmemory]
  · intro id
    rw [hnow, hmemory]

/-- Deleting a field while it holds a text. -/
theorem under_deleteField {field text : String} {next : Except CacheError Bool → NodeProgram α}
    (hfield : u.fields field = some text)
    (hok : ∀ gone, Under l .endUser own (next (.ok gone)) (u.setField field none, hurt) Q)
    (herror : hurt = false → ∀ e, Under l .endUser own (next (.error e)) (u, true) Q) :
    Under l .endUser own
      (.ask (.cache (.store (.hashDeleteIf (l.cache.userBucket l.broker) field text))) next)
      (u, hurt) Q := by
  refine under_store (P := fun _ => True) rfl ?_ (fun gone _ => hok gone) herror
  rintro k k' hs hs' rfl hnow hsites hmemory
  have hpasses : ((k.memory.fieldsAt k.now (l.cache.userBucket l.broker)).get? field).any
      (· = text) = true := by
    rw [show (k.memory.fieldsAt k.now (l.cache.userBucket l.broker)).get? field = some text
      from hfield, Option.any_some, decide_eq_true rfl]
  refine ⟨⟨_, Memory.deleteField_fst hs.users, trivial⟩,
    half_endUser_of_field hnow hsites hmemory (fun _ h => h) ?_⟩
  rw [hnow, hmemory]
  funext field'
  rw [show (Memory.answer k.now (.hashDeleteIf (l.cache.userBucket l.broker) field text)
    k.memory).2 = (k.memory.deleteField k.now _ field (· = text)).2 from rfl,
    Memory.get?_fieldsAt_deleteField hs.users (Duration.le_refl _), Function.update_apply,
    hpasses]
  simp only [and_true]
  rfl

/-! ### Changes of the directory -/

theorem under_addUser {s : UserSession} {next : Bool → NodeProgram α}
    (hown : own = some s.entry.connection)
    (h : ∀ x, Under l .endUser own (next x)
      (u.setSessions (u.sessions.insert s.entry.connection s), hurt) Q) :
    Under l .endUser own (.ask (.addUser s) next) (u, hurt) Q := by
  refine ⟨⟨rfl, hown⟩, ?_⟩
  rintro x ⟨w, hurt'⟩ ⟨hhurt, k, k', -, -, hv, hv', ⟨⟩⟩
  obtain rfl : hurt' = hurt := hhurt.trans (Bool.or_false _)
  obtain rfl : half l k .endUser = u := hv
  have hw : half l (k.setDirectory l.broker ((k.directory l.broker).addUser s)) .endUser =
      (half l k .endUser).setSessions
        ((half l k .endUser).sessions.insert s.entry.connection s) := by
    rw [half, Cluster.directory_setDirectory]
    rfl
  rw [← show _ = w from hv', hw]
  exact h _

theorem under_withdrawUser {s : UserSession} {id : ConnectionId} {next : Bool → NodeProgram α}
    (hs : u.sessions.get? id = some s)
    (h : ∀ x, Under l .endUser own (next x) (u.setSessions (u.sessions.erase id), hurt) Q) :
    Under l .endUser own (.ask (.withdrawUser id s.transport) next) (u, hurt) Q := by
  refine ⟨rfl, ?_⟩
  rintro x ⟨w, hurt'⟩ ⟨hhurt, k, k', -, -, hv, hv', hx⟩
  obtain rfl : hurt' = hurt := hhurt.trans (Bool.or_false _)
  obtain rfl : half l k .endUser = u := hv
  have hd : (k.directory l.broker).withdrawUser id s.transport =
      (true, { k.directory l.broker with users := (k.directory l.broker).users.erase id }) :=
    Directory.withdrawUser_of_held hs
  have hk' : k' = k.setDirectory l.broker
      { k.directory l.broker with users := (k.directory l.broker).users.erase id } := by
    cases hx
    rw [hd]
  have hw : half l k' .endUser =
      (half l k .endUser).setSessions ((half l k .endUser).sessions.erase id) := by
    simp only [hk', half, Cluster.directory_setDirectory]
    rfl
  rw [← show _ = w from hv', hw]
  exact h _

theorem under_directory_users {next : Directory → NodeProgram α}
    (h : ∀ d, d.users = u.sessions → Under l .endUser own (next d) (u, hurt) Q) :
    Under l .endUser own (.ask .directory next) (u, hurt) Q := by
  refine ⟨trivial, ?_⟩
  rintro d ⟨w, hurt'⟩ ⟨hhurt, k, k', -, -, hv, hv', ⟨⟩⟩
  obtain rfl : hurt' = hurt := hhurt.trans (Bool.or_false _)
  obtain rfl : half l k .endUser = u := hv
  obtain rfl : half l k .endUser = w := hv'
  exact h _ rfl

end

/-! ### The groups' half -/

section

variable {u : GroupHalf} {hurt : Bool} {Q : α → Half .groupSecret × Bool → Prop}

theorem under_putGroup {group text : String} {ttl : Duration}
    {next : Except CacheError Unit → NodeProgram α}
    (hok : Under l .groupSecret own (next (.ok ()))
      (u.setField group (some text), hurt) Q)
    (herror : hurt = false → ∀ e, Under l .groupSecret own (next (.error e)) (u, true) Q) :
    Under l .groupSecret own
      (.ask (.cache (.store (.hashPut (l.cache.groupBucket l.broker) group text ttl))) next)
      (u, hurt) Q := by
  refine under_store (P := fun _ => True) rfl ?_ (fun _ _ => hok) herror
  rintro k k' hs hs' rfl hnow hsites hmemory
  refine ⟨⟨(), by rw [Memory.answer_hashPut hs.groups], trivial⟩, ?_⟩
  have hlive := hs'.unexpired
  simp only [half, Cluster.directory_congr hsites]
  rw [hnow, hmemory] at hlive ⊢
  rw [Memory.fieldsAt_hashPut_of_unexpired hs.groups hlive]
  congr 1
  funext group'
  rw [Table.get?_insert, Function.update_apply]
  by_cases hgroup : group = group'
  · rw [if_pos hgroup, if_pos hgroup.symm]
  · rw [if_neg hgroup, if_neg (Ne.symm hgroup)]

theorem under_addGroup {s : GroupSession} {next : Bool → NodeProgram α}
    (hown : own = some s.entry.connection)
    (h : ∀ x, Under l .groupSecret own (next x)
      (u.setSessions (u.sessions.insert s.entry.connection s), hurt) Q) :
    Under l .groupSecret own (.ask (.addGroup s) next) (u, hurt) Q := by
  refine ⟨⟨rfl, hown⟩, ?_⟩
  rintro x ⟨w, hurt'⟩ ⟨hhurt, k, k', -, -, hv, hv', ⟨⟩⟩
  obtain rfl : hurt' = hurt := hhurt.trans (Bool.or_false _)
  obtain rfl : half l k .groupSecret = u := hv
  have hw : half l (k.setDirectory l.broker ((k.directory l.broker).addGroup s)) .groupSecret =
      (half l k .groupSecret).setSessions
        ((half l k .groupSecret).sessions.insert s.entry.connection s) := by
    rw [half, Cluster.directory_setDirectory]
    rfl
  rw [← show _ = w from hv', hw]
  exact h _

theorem under_withdrawGroup {s : GroupSession} {id : ConnectionId} {next : Bool → NodeProgram α}
    (hs : u.sessions.get? id = some s)
    (h : ∀ x, Under l .groupSecret own (next x) (u.setSessions (u.sessions.erase id), hurt) Q) :
    Under l .groupSecret own (.ask (.withdrawGroup id s.transport) next) (u, hurt) Q := by
  refine ⟨rfl, ?_⟩
  rintro x ⟨w, hurt'⟩ ⟨hhurt, k, k', -, -, hv, hv', hx⟩
  obtain rfl : hurt' = hurt := hhurt.trans (Bool.or_false _)
  obtain rfl : half l k .groupSecret = u := hv
  have hd : (k.directory l.broker).withdrawGroup id s.transport =
      (true, { k.directory l.broker with groups := (k.directory l.broker).groups.erase id }) :=
    Directory.withdrawGroup_of_held hs
  have hk' : k' = k.setDirectory l.broker
      { k.directory l.broker with groups := (k.directory l.broker).groups.erase id } := by
    cases hx
    rw [hd]
  have hw : half l k' .groupSecret =
      (half l k .groupSecret).setSessions ((half l k .groupSecret).sessions.erase id) := by
    simp only [hk', half, Cluster.directory_setDirectory]
    rfl
  rw [← show _ = w from hv', hw]
  exact h _

theorem under_directory_groups {next : Directory → NodeProgram α}
    (h : ∀ d, d.groups = u.sessions → Under l .groupSecret own (next d) (u, hurt) Q) :
    Under l .groupSecret own (.ask .directory next) (u, hurt) Q := by
  refine ⟨trivial, ?_⟩
  rintro d ⟨w, hurt'⟩ ⟨hhurt, k, k', -, -, hv, hv', ⟨⟩⟩
  obtain rfl : hurt' = hurt := hhurt.trans (Bool.or_false _)
  obtain rfl : half l k .groupSecret = u := hv
  obtain rfl : half l k .groupSecret = w := hv'
  exact h _ rfl

end

/-! ### Agreement -/

/-- The users of the directory and what the cache has of them are the same: a connection's key tells
its entry, a user's field is the entry of one of the user's connections, and there is nothing
else. -/
structure UserHalf.Agrees (b : BrokerId) (u : UserHalf) : Prop where
  filed : ∀ id s, u.sessions.get? id = some s → s.entry.connection = id ∧ s.entry.owner = b
  texts : ∀ id, u.texts id = (u.sessions.get? id).map fun s => s.entry.toJson.render
  known : ∀ field text, u.fields field = some text → ∃ id s stamp, u.sessions.get? id = some s ∧
    field = userField s.entry.userId ∧ text = Stamped.render s.entry.members stamp
  found : ∀ id s, u.sessions.get? id = some s → (u.fields (userField s.entry.userId)).isSome

/-- The group sessions of the directory and the fields of the group bucket are the same. -/
structure GroupHalf.Agrees (b : BrokerId) (u : GroupHalf) : Prop where
  filed : ∀ id s, u.sessions.get? id = some s → s.entry.connection = id ∧ s.entry.owner = b
  known : ∀ group text, u.fields group = some text → ∃ id s stamp, u.sessions.get? id = some s ∧
    group = s.entry.group ∧ text = Stamped.render s.entry.members stamp
  found : ∀ id s, u.sessions.get? id = some s → (u.fields s.entry.group).isSome

def Agreed (b : BrokerId) : (kind : ConnectionKind) → Half kind → Prop
  | .endUser, u => UserHalf.Agrees b u
  | .groupSecret, u => GroupHalf.Agrees b u

namespace UserHalf

variable {b : BrokerId} {u u' : UserHalf}

theorem agrees_empty : Agrees b ⟨.empty, fun _ => none, fun _ => none⟩ where
  filed id s hs := by cases hs
  texts _ := rfl
  known field text htext := by cases htext
  found id s hs := by cases hs

theorem Agrees.congr (h : u.Agrees b) (hsessions : ∀ id, u'.sessions.get? id = u.sessions.get? id)
    (hfields : ∀ field, u'.fields field = u.fields field)
    (htexts : ∀ id, u'.texts id = u.texts id) : u'.Agrees b where
  filed id s hs := h.filed id s (by rw [← hsessions, hs])
  texts id := by simp only [htexts, hsessions, h.texts]
  known field text htext := by
    rw [hfields] at htext
    obtain ⟨id, s, stamp, hs, hfield⟩ := h.known field text htext
    exact ⟨id, s, stamp, by rw [hsessions, hs], hfield⟩
  found id s hs := by
    rw [hfields]
    exact h.found id s (by rw [← hsessions, hs])

/-- A user's field may be written anew for any connection of the user. -/
theorem Agrees.setField {id : ConnectionId} {s : UserSession} (h : u.Agrees b) (stamp : Int64)
    (hs : u.sessions.get? id = some s) : Agrees b
      (u.setField (userField s.entry.userId) (some (Stamped.render s.entry.members stamp))) where
  filed := h.filed
  texts := h.texts
  known field text htext := by
    rw [fields_setField] at htext
    split at htext
    · next hfield => exact ⟨id, s, stamp, hs, hfield, (Option.some.inj htext).symm⟩
    · exact h.known field text htext
  found id' s' hs' := by
    rw [fields_setField]
    split
    · rfl
    · exact h.found id' s' hs'

theorem Agrees.setText {id : ConnectionId} {s : UserSession} (h : u.Agrees b)
    (hs : u.sessions.get? id = some s) : Agrees b (u.setText id (some s.entry.toJson.render)) := by
  refine h.congr (fun _ => rfl) (fun _ => rfl) ?_
  intro id'
  rw [texts_setText]
  split
  · next hid => simp only [hid, h.texts, hs, Option.map_some]
  · rfl

/-- A new connection that is published in both places. -/
theorem Agrees.enrol {s : UserSession} {stamp : Int64} (h : u.Agrees b) (howner : s.entry.owner = b)
    (hnew : u.sessions.get? s.entry.connection = none) : Agrees b
      (((u.setSessions (u.sessions.insert s.entry.connection s)).setField
        (userField s.entry.userId) (some (Stamped.render s.entry.members stamp))).setText
          s.entry.connection (some s.entry.toJson.render)) where
  filed id s' hs' := by
    simp only [sessions_setText, sessions_setField, sessions_setSessions, Table.get?_insert] at hs'
    split at hs'
    · next hid =>
      cases hs'
      exact ⟨hid, howner⟩
    · exact h.filed id s' hs'
  texts id := by
    rw [texts_setText, sessions_setText, sessions_setField, sessions_setSessions, Table.get?_insert]
    by_cases hid : s.entry.connection = id
    · rw [if_pos hid, if_pos hid.symm, Option.map_some]
    · rw [if_neg hid, if_neg (Ne.symm hid)]
      exact h.texts id
  known field text htext := by
    simp only [sessions_setText, sessions_setField, sessions_setSessions]
    rw [fields_setText, fields_setField] at htext
    split at htext
    · next hfield =>
      refine ⟨s.entry.connection, s, stamp, ?_, hfield, (Option.some.inj htext).symm⟩
      rw [Table.get?_insert, if_pos rfl]
    · obtain ⟨id, s', stamp', hs', hrest⟩ := h.known field text htext
      refine ⟨id, s', stamp', ?_, hrest⟩
      rw [Table.get?_insert, if_neg, hs']
      rintro rfl
      rw [hnew] at hs'
      cases hs'
  found id s' hs' := by
    simp only [sessions_setText, sessions_setField, sessions_setSessions, Table.get?_insert] at hs'
    rw [fields_setText, fields_setField]
    split at hs'
    · cases hs'
      rw [if_pos rfl]
      rfl
    · split
      · rfl
      · exact h.found id s' hs'

/-- A user none of whose connections is there has no field. -/
theorem Agrees.fields_eq_none {userId : Int64} (h : u.Agrees b)
    (hnone : ∀ id s, u.sessions.get? id = some s → s.entry.userId ≠ userId) :
    u.fields (userField userId) = none := by
  cases hfield : u.fields (userField userId) with
  | none => rfl
  | some text =>
    obtain ⟨id, s, stamp, hs, huser, -⟩ := h.known _ text hfield
    exact absurd (SessionCache.userField_inj.mp huser).symm (hnone id s hs)

end UserHalf

namespace GroupHalf

variable {b : BrokerId} {u u' : GroupHalf}

theorem agrees_empty : Agrees b ⟨.empty, fun _ => none⟩ where
  filed id s hs := by cases hs
  known group text htext := by cases htext
  found id s hs := by cases hs

theorem Agrees.congr (h : u.Agrees b) (hsessions : ∀ id, u'.sessions.get? id = u.sessions.get? id)
    (hfields : ∀ group, u'.fields group = u.fields group) : u'.Agrees b where
  filed id s hs := h.filed id s (by rw [← hsessions, hs])
  known group text htext := by
    rw [hfields] at htext
    obtain ⟨id, s, stamp, hs, hgroup⟩ := h.known group text htext
    exact ⟨id, s, stamp, by rw [hsessions, hs], hgroup⟩
  found id s hs := by
    rw [hfields]
    exact h.found id s (by rw [← hsessions, hs])

theorem Agrees.setField {id : ConnectionId} {s : GroupSession} (h : u.Agrees b) (stamp : Int64)
    (hs : u.sessions.get? id = some s) : Agrees b
      (u.setField s.entry.group (some (Stamped.render s.entry.members stamp))) where
  filed := h.filed
  known group text htext := by
    rw [fields_setField] at htext
    split at htext
    · next hgroup => exact ⟨id, s, stamp, hs, hgroup, (Option.some.inj htext).symm⟩
    · exact h.known group text htext
  found id' s' hs' := by
    rw [fields_setField]
    split
    · rfl
    · exact h.found id' s' hs'

theorem Agrees.enrol {s : GroupSession} {stamp : Int64} (h : u.Agrees b)
    (howner : s.entry.owner = b) (hnew : u.sessions.get? s.entry.connection = none) : Agrees b
      ((u.setSessions (u.sessions.insert s.entry.connection s)).setField s.entry.group
        (some (Stamped.render s.entry.members stamp))) where
  filed id s' hs' := by
    simp only [sessions_setField, sessions_setSessions, Table.get?_insert] at hs'
    split at hs'
    · next hid =>
      cases hs'
      exact ⟨hid, howner⟩
    · exact h.filed id s' hs'
  known group text htext := by
    rw [sessions_setField, sessions_setSessions]
    rw [fields_setField] at htext
    split at htext
    · next hgroup =>
      refine ⟨s.entry.connection, s, stamp, ?_, hgroup, (Option.some.inj htext).symm⟩
      rw [Table.get?_insert, if_pos rfl]
    · obtain ⟨id, s', stamp', hs', hrest⟩ := h.known group text htext
      refine ⟨id, s', stamp', ?_, hrest⟩
      rw [Table.get?_insert, if_neg, hs']
      rintro rfl
      rw [hnew] at hs'
      cases hs'
  found id s' hs' := by
    simp only [sessions_setField, sessions_setSessions, Table.get?_insert] at hs'
    rw [fields_setField]
    split at hs'
    · cases hs'
      rw [if_pos rfl]
      rfl
    · split
      · rfl
      · exact h.found id s' hs'

end GroupHalf

/-! ### Publishing again -/

section

variable {u : UserHalf} {g : GroupHalf} {hurt : Bool}

/-- Publishing writes both places, or only the first, or none. -/
theorem under_publishUser {s : UserSession} (howner : s.entry.owner = l.broker)
    {Q : Except CacheError Unit → Half .endUser × Bool → Prop}
    (hok : ∀ stamp, Q (.ok ()) ((u.setField (userField s.entry.userId)
      (some (Stamped.render s.entry.members stamp))).setText s.entry.connection
        (some s.entry.toJson.render), hurt))
    (hhalf : ∀ e stamp, hurt = false → Q (.error e) (u.setField (userField s.entry.userId)
      (some (Stamped.render s.entry.members stamp)), true))
    (hnone : ∀ e, hurt = false → Q (.error e) (u, true)) :
    Under l .endUser own (cached (l.cache.publishUser s.entry)) (u, hurt) Q := by
  rw [SessionCache.cached_publishUser, howner]
  refine under_wallClock fun now => ?_
  refine under_putField ?_ ?_
  · refine under_putText ?_ ?_
    · exact hok _
    · intro hhurt e
      exact hhalf e _ hhurt
  · intro hhurt e
    exact hnone e hhurt

theorem under_republishUser (h : u.Agrees l.broker) (id : ConnectionId) :
    Under l .endUser own (l.republishUser id) (u, hurt)
      fun _ v => UserHalf.Agrees l.broker v.1 := by
  rw [l.republishUser_eq]
  refine under_directory_users fun d hd => ?_
  cases hs : d.userSession? id with
  | none => exact h
  | some s =>
    have hs' : u.sessions.get? id = some s := by rw [← hd]; exact hs
    obtain ⟨rfl, howner⟩ := h.filed id s hs'
    refine under_bind.mpr (under_publishUser howner ?_ ?_ ?_)
    · intro stamp
      exact (h.setField stamp hs').setText hs'
    · intro e stamp _
      exact h.setField stamp hs'
    · intro e _
      exact h

theorem under_republishGroup (h : g.Agrees l.broker) (id : ConnectionId) :
    Under l .groupSecret own (l.republishGroup id) (g, hurt)
      fun _ v => GroupHalf.Agrees l.broker v.1 := by
  rw [l.republishGroup_eq]
  refine under_directory_groups fun d hd => ?_
  cases hs : d.groupSession? id with
  | none => exact h
  | some s =>
    have hs' : g.sessions.get? id = some s := by rw [← hd]; exact hs
    obtain ⟨rfl, howner⟩ := h.filed id s hs'
    refine under_bind.mpr ?_
    rw [SessionCache.cached_refreshGroup, howner]
    refine under_wallClock fun now => ?_
    refine under_putGroup ?_ ?_
    · exact h.setField _ hs'
    · intro _ e
      exact h

/-! ### Enrolling -/

theorem under_enrolGroup {s : GroupSession} (h : g.Agrees l.broker)
    (howner : s.entry.owner = l.broker) (hnew : g.sessions.get? s.entry.connection = none) :
    Under l .groupSecret (some s.entry.connection) (l.enrolGroup s) (g, hurt)
      fun _ v => GroupHalf.Agrees l.broker v.1 := by
  rw [l.enrolGroup_eq]
  refine under_addGroup rfl fun replaced => under_bind.mpr ?_
  rw [SessionCache.cached_refreshGroup, howner]
  refine under_wallClock fun now => ?_
  refine under_putGroup ?_ ?_
  · refine under_idle_bind (only_log _) fun _ => ?_
    refine under_idle_bind (only_countRegistered _ _) fun _ => ?_
    exact h.enrol howner hnew
  · intro _ e
    refine under_withdrawGroup (s := s) ?_ fun withdrawn => ?_
    · rw [GroupHalf.sessions_setSessions, Table.get?_insert, if_pos rfl]
    · refine under_idle_bind (only_countWithdrawn _ _ _) fun _ => ?_
      refine h.congr ?_ fun _ => rfl
      intro id
      simp only [GroupHalf.sessions_setSessions, GroupHalf.sessions_setSessions, Table.get?_erase,
        Table.get?_insert]
      split
      · next hid => rw [hid, hnew]
      · next hid => rw [if_neg (Ne.symm hid)]

/-- The half that a failed registration has left, once its session was withdrawn: only the field of
its user may have been written. -/
structure Torn (u : UserHalf) (e : UserEntry) (w : UserHalf) : Prop where
  sessions : ∀ id, w.sessions.get? id = u.sessions.get? id
  texts : ∀ id, w.texts id = u.texts id
  others : ∀ field, field ≠ userField e.userId → w.fields field = u.fields field
  field : w.fields (userField e.userId) = u.fields (userField e.userId) ∨
    ∃ stamp, w.fields (userField e.userId) = some (Stamped.render e.members stamp)

theorem under_forgetUser {w : UserHalf} {e : UserEntry} (h : u.Agrees l.broker)
    (howner : e.owner = l.broker) (hnew : u.sessions.get? e.connection = none) (ht : Torn u e w)
    (hlast : u.fields (userField e.userId) = none) :
    Under l .endUser own (cached (do let _ ← l.cache.forgetUser e)) (w, true)
      fun r v => r = .ok () ∧ UserHalf.Agrees l.broker v.1 := by
  have htexts : ∀ id, (w.setText e.connection none).texts id = u.texts id := by
    intro id
    rw [UserHalf.texts_setText]
    split
    · next hid => simp only [hid, h.texts, hnew, Option.map_none]
    · exact ht.texts id
  rw [SessionCache.cached_forgetUser, howner]
  refine under_deleteText (fun gone => ?_) fun hhurt => Bool.noConfusion hhurt
  refine under_getField ?_ fun hhurt => Bool.noConfusion hhurt
  rw [UserHalf.fields_setText]
  cases hfield : w.fields (userField e.userId) with
  | none =>
    refine ⟨rfl, h.congr ht.sessions ?_ htexts⟩
    intro field
    by_cases hf : field = userField e.userId
    · rw [hf, hlast]
      exact hfield
    · exact ht.others field hf
  | some text =>
    have hnames : names text e.connection = true := by
      rcases ht.field with hsame | ⟨stamp, hstamp⟩
      · rw [hsame, hlast] at hfield
        cases hfield
      · rw [hstamp, Option.some.injEq] at hfield
        rw [← hfield, names, Stamped.readUser?_render]
        exact decide_eq_true rfl
    simp only [hnames, if_true]
    refine under_deleteField hfield (fun gone => ?_) fun hhurt => Bool.noConfusion hhurt
    refine ⟨rfl, h.congr ht.sessions ?_ htexts⟩
    intro field
    rw [UserHalf.fields_setField]
    split
    · next hf => rw [hf, hlast]
    · next hf => exact ht.others field hf

theorem under_restoreUser {w : UserHalf} {e : UserEntry} (h : u.Agrees l.broker)
    (howner : e.owner = l.broker) (hnew : u.sessions.get? e.connection = none) (ht : Torn u e w) :
    Under l .endUser own (l.restoreUser e) (w, true) fun _ v => UserHalf.Agrees l.broker v.1 := by
  rw [l.restoreUser_eq]
  refine under_directory_users fun d hd => under_bind.mpr ?_
  have hheld : ∀ id, d.userSession? id = u.sessions.get? id := by
    intro id
    simp only [Directory.userSession?, hd, ht.sessions]
  cases hsurvivor : survivor? d e.userId with
  | none =>
    have hlast : u.fields (userField e.userId) = none := by
      apply h.fields_eq_none
      intro id s hs
      exact survivor?_eq_none hsurvivor id s ((hheld id).trans hs)
    refine (under_forgetUser h howner hnew ht hlast).mono ?_
    rintro _ v ⟨rfl, hv⟩
    exact hv
  | some e' =>
    obtain ⟨id, s, hs, rfl, huser⟩ := survivor?_eq_some hsurvivor
    rw [hheld] at hs
    obtain ⟨-, howner'⟩ := h.filed id s hs
    show Under l .endUser own (cached (l.cache.refreshUser s.entry)) _ _
    rw [SessionCache.cached_refreshUser, howner']
    refine under_wallClock fun now => ?_
    refine under_putField ?_ fun hhurt => Bool.noConfusion hhurt
    refine (h.setField (l.cache.stampAt now) hs).congr ht.sessions ?_ ht.texts
    intro field
    rw [UserHalf.fields_setField, UserHalf.fields_setField]
    split
    · rfl
    · next hf => exact ht.others field (huser ▸ hf)

theorem under_enrolUser {s : UserSession} (h : u.Agrees l.broker)
    (howner : s.entry.owner = l.broker) (hnew : u.sessions.get? s.entry.connection = none) :
    Under l .endUser (some s.entry.connection) (l.enrolUser s) (u, hurt)
      fun _ v => UserHalf.Agrees l.broker v.1 := by
  rw [l.enrolUser_eq]
  refine under_addUser rfl fun replaced => under_bind.mpr ?_
  -- whatever was written of the failed connection, it is withdrawn and its user's field restored
  have hfailed : ∀ (e : CacheError) (w : UserHalf),
      w.sessions = u.sessions.insert s.entry.connection s →
      Torn u s.entry (w.setSessions (w.sessions.erase s.entry.connection)) →
      Under l .endUser (some s.entry.connection)
        (.ask (.withdrawUser s.entry.connection s.transport) fun withdrawn =>
          (countWithdrawn .endUser withdrawn replaced).bind fun _ =>
            (l.restoreUser s.entry).bind fun _ =>
              .done (.error (.cache e) : Except OpenError Principal))
        (w, true) fun _ v => UserHalf.Agrees l.broker v.1 := by
    intro e w hw ht
    refine under_withdrawUser (s := s) ?_ fun withdrawn => ?_
    · rw [hw, Table.get?_insert, if_pos rfl]
    · refine under_idle_bind (only_countWithdrawn _ _ _) fun _ => under_bind.mpr ?_
      exact under_restoreUser h howner hnew ht
  have herased : ∀ id, ((u.sessions.insert s.entry.connection s).erase s.entry.connection).get? id =
      u.sessions.get? id := by
    intro id
    rw [Table.get?_erase, Table.get?_insert]
    split
    · next hid => rw [hid, hnew]
    · next hid => rw [if_neg (Ne.symm hid)]
  refine under_publishUser howner ?_ ?_ ?_
  · intro stamp
    refine under_idle_bind (only_log _) fun _ => ?_
    refine under_idle_bind (only_countRegistered _ _) fun _ => ?_
    exact h.enrol howner hnew
  · intro e stamp _
    refine hfailed e _ rfl ⟨herased, fun _ => rfl, ?_, .inr ⟨stamp, ?_⟩⟩
    · intro field hf
      exact (UserHalf.fields_setField _ _ _ _).trans (if_neg hf)
    · exact (UserHalf.fields_setField _ _ _ _).trans (if_pos rfl)
  · intro e _
    exact hfailed e _ rfl ⟨herased, fun _ => rfl, fun _ _ => rfl, .inl rfl⟩

end

end

end Lifecycle

end SessionGateway
