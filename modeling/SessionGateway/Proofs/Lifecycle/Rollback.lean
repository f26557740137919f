import SessionGateway.Proofs.Cache.Writing
import SessionGateway.Proofs.Lifecycle.Halves
import SessionGateway.Proofs.Lifecycle.Opening
import SessionGateway.Proofs.Lifecycle.Pass

/-!
# A registration that is taken back

A user's registration that cannot be published is taken out of the directory, and the user's field
is pointed at another connection of the user or dropped. Whatever the cache held before and
whichever of the two writes failed, the directory and the cache then agree about the user, and
nothing else has changed.
-/

namespace SessionGateway

open Node (AnswersLater Request cached)
open SessionCache (Place userField)
open Store (Command Memory)

/-! ### Failures in a run -/

namespace Exchange

/-- Whether an exchange is a command of the store that failed. -/
def failsStore : Exchange Node.interface Cluster → Bool
  | ⟨.cache (.store _), .error _, _⟩ => true
  | _ => false

/-- How many commands of the store failed in a run. -/
def failures (trace : List (Exchange Node.interface Cluster)) : Nat := trace.countP failsStore

variable {x : Exchange Node.interface Cluster}
  {trace trace' : List (Exchange Node.interface Cluster)}

theorem failsStore_iff : x.failsStore = true ↔ x.StoreFailed := by
  obtain ⟨r, x, k⟩ := x
  cases r with
  | cache r =>
    cases r with
    | store command => cases x <;> simp [failsStore, StoreFailed]
    | wallClock | log => simp [failsStore, StoreFailed]
  | _ => simp [failsStore, StoreFailed]

@[simp] theorem failures_nil : failures [] = 0 := rfl

@[simp] theorem failures_cons :
    failures (x :: trace) = failures trace + if x.failsStore then 1 else 0 :=
  List.countP_cons

@[simp] theorem failures_append :
    failures (trace ++ trace') = failures trace + failures trace' :=
  List.countP_append

theorem failures_eq_zero : failures trace = 0 ↔ ¬ Lifecycle.Happened StoreFailed trace := by
  simp only [failures, List.countP_eq_zero, failsStore_iff, Lifecycle.Happened, not_exists, not_and]

theorem failures_of_idle (h : ∀ x ∈ trace, x.request.IsIdle) : failures trace = 0 :=
  failures_eq_zero.mpr (Lifecycle.not_failed_of_idle h)

end Exchange

open Exchange (failures)

/-! ### What the commands of a registration leave alone -/

/-- The field of a user that names a connection. -/
def UserEntry.place (e : UserEntry) : Place := .user e.owner (userField e.userId)

namespace SessionCache

variable {c : SessionCache} {e : UserEntry} {p : Place} {command : Command} {m : Memory}
  {now now' : Duration} {text : String}

/-- A command that changes nothing but the user's field and the key of the connection of an
entry. -/
def Concerns (c : SessionCache) (e : UserEntry) : Command → Prop
  | .hashPut key field _ ttl =>
    key = c.userBucket e.owner ∧ field = userField e.userId ∧ ttl = c.ttl
  | .hashDeleteIf key field _ => key = c.userBucket e.owner ∧ field = userField e.userId
  | .put key .. | .delete key => key = c.connectionKey e.connection
  | .hashGet .. => True
  | .hashGetAll _ | .hashDelete .. | .get _ | .purgeExpired => False

theorem Concerns.not_lists (h : c.Concerns e command) : ¬ command.Lists := by
  cases command <;> first | exact h.elim | exact fun e => e

theorem Concerns.key_eq (h : c.Concerns e command) {key : String} (hkey : command.Changes key) :
    key = c.userBucket e.owner ∨ key = c.connectionKey e.connection := by
  cases command with
  | hashPut | hashDeleteIf => exact .inl (hkey.symm.trans h.1)
  | put | delete => exact .inr (hkey.symm.trans h)
  | hashGet => exact hkey.elim
  | hashGetAll | hashDelete | get | purgeExpired => exact h.elim

/-- A place that shares its key with a user's field is a field, and the key is a hash's. -/
theorem field_of_bucket (hkey : c.userBucket e.owner = p.key c) : p.field?.isSome := by
  cases hp : p.field? with
  | some field => rfl
  | none => exact absurd hkey (Place.key_ne (p := e.place) rfl hp)

theorem read_putField {value : String} {ttl : Duration}
    (hhash : m.IsHash now (c.userBucket e.owner)) (hkey : c.userBucket e.owner = p.key c) :
    p.read c (Memory.answer now
        (.hashPut (c.userBucket e.owner) (userField e.userId) value ttl) m).2 now' =
      if now' < now + ttl then if p = e.place then some value else p.read c m now else none :=
  Place.read_hashPut (p := e.place) hhash rfl (field_of_bucket hkey) hkey

theorem read_dropField {expected : String} (hhash : m.IsHash now (c.userBucket e.owner))
    (hkey : c.userBucket e.owner = p.key c) (hnow : now ≤ now') :
    p.read c (Memory.answer now
        (.hashDeleteIf (c.userBucket e.owner) (userField e.userId) expected) m).2 now' =
      if p = e.place ∧ (e.place.read c m now).any (decide <| · = expected) then none
      else p.read c m now' :=
  Place.read_deleteField (p := e.place) _ hhash rfl (field_of_bucket hkey) hkey hnow

/-- A field that is deleted while it holds the text that was read is gone. -/
theorem read_dropped (hhash : m.IsHash now (c.userBucket e.owner)) (hnow : now ≤ now')
    (hread : e.place.read c m now = some text) :
    e.place.read c (Memory.answer now'
      (.hashDeleteIf (c.userBucket e.owner) (userField e.userId) text) m).2 now' = none := by
  rw [read_dropField (hhash.later hnow) rfl (Duration.le_refl _)]
  cases hlater : e.place.read c m now' with
  | none => exact ite_self none
  | some text' =>
    have hsame := Place.read_later hnow hlater
    rw [hread, Option.some.injEq] at hsame
    rw [if_pos ⟨rfl, by simp [hsame]⟩]

/-- Elsewhere a command changes nothing, or it starts the time of a whole bucket anew. -/
theorem Concerns.read_answer (h : c.Concerns e command) (hplace : p ≠ e.place)
    (hkey : p ≠ .connection e.connection) (hnow : now ≤ now') :
    p.read c (Memory.answer now command m).2 now' = p.read c m now' ∨
      p.read c (Memory.answer now command m).2 now' =
        if now' < now + c.ttl then p.read c m now else none := by
  by_cases hchanges : command.Changes (p.key c)
  · cases command with
    | hashPut key field value ttl =>
      obtain ⟨rfl, rfl, rfl⟩ := h
      by_cases hhash : m.IsHash now (c.userBucket e.owner)
      · rw [read_putField hhash hchanges, if_neg hplace]
        exact .inr rfl
      · rw [Memory.answer_hashPut_of_not_isHash hhash]
        exact .inl rfl
    | hashDeleteIf key field expected =>
      obtain ⟨rfl, rfl⟩ := h
      by_cases hhash : m.IsHash now (c.userBucket e.owner)
      · rw [read_dropField hhash hchanges hnow, if_neg fun heq => hplace heq.1]
        exact .inl rfl
      · rw [Memory.answer, Memory.deleteField_of_not_isHash hhash]
        exact .inl rfl
    | put | delete =>
      obtain rfl : _ = c.connectionKey e.connection := h
      exact absurd (Place.eq_connection_of_key hchanges) hkey
    | hashGet => exact hchanges.elim
    | hashGetAll | hashDelete | get | purgeExpired => exact h.elim
  · exact .inl (Place.read_of_not_changes hnow hchanges)

end SessionCache

namespace Duration

theorem millis_mono {a b : Duration} (h : a ≤ b) : a.millis ≤ b.millis := Nat.div_le_div_right h

theorem lt_add_of_le {a b d t : Duration} (h : t < a + d) (hab : a ≤ b) : t < b + d :=
  Nat.lt_of_lt_of_le h (Nat.add_le_add_right hab _)

theorem lt_add_of_millis {a d t : Duration} (h : t.millis < a.millis + d.millis) : t < a + d := by
  rw [lt_iff, nanos_add]
  simp only [millis] at h
  omega

end Duration

namespace Lifecycle

variable {l : Lifecycle} {c : SessionCache} {e : UserEntry} {k k' k'' : Cluster}

/-- Between two states the cache has changed at most in the user's field and the key of the
connection of an entry. The bucket of the field may have got a new time to live. -/
structure Spares (c : SessionCache) (e : UserEntry) (k k' : Cluster) : Prop where
  elapsed : k.now ≤ k'.now
  known : ∀ p : Place, p ≠ e.place → p ≠ .connection e.connection → ∀ text,
    p.read c k'.memory k'.now = some text → p.read c k.memory k.now = some text
  kept : ∀ p : Place, p ≠ e.place → p ≠ .connection e.connection → ∀ now, k'.now ≤ now →
    now < k.now + c.ttl → ∀ text, p.read c k.memory now = some text →
      p.read c k'.memory now = some text
  elsewhere : ∀ key, key ≠ c.userBucket e.owner → key ≠ c.connectionKey e.connection →
    ∀ now, k'.now ≤ now → k'.memory.live? now key = k.memory.live? now key

theorem Spares.trans (h : Spares c e k k') (h' : Spares c e k' k'') : Spares c e k k'' where
  elapsed := Duration.le_trans h.elapsed h'.elapsed
  known p hp hq text hread := h.known p hp hq text (h'.known p hp hq text hread)
  kept p hp hq now hnow hlive text hread := by
    have hread' := h.kept p hp hq now (Duration.le_trans h'.elapsed hnow) hlive text hread
    exact h'.kept p hp hq now hnow (Duration.lt_add_of_le hlive h.elapsed) text hread'
  elsewhere key hbucket hkey now hnow :=
    (h'.elsewhere key hbucket hkey now hnow).trans
      (h.elsewhere key hbucket hkey now (Duration.le_trans h'.elapsed hnow))

/-- Time may have passed; the memory is as it was. -/
structure Rests (k k' : Cluster) : Prop where
  elapsed : k.now ≤ k'.now
  memory : k'.memory = k.memory

theorem Rests.trans (h : Rests k k') (h' : Rests k' k'') : Rests k k'' :=
  ⟨Duration.le_trans h.elapsed h'.elapsed, h'.memory.trans h.memory⟩

theorem Rests.spares (h : Rests k k') : Spares c e k k' where
  elapsed := h.elapsed
  known p _ _ text hread := by
    rw [h.memory] at hread
    exact Place.read_later h.elapsed hread
  kept p _ _ now _ _ text hread := by rwa [h.memory]
  elsewhere key _ _ now _ := by rw [h.memory]

section

variable {b : BrokerId}

theorem elapsed_answer {r : Request} {x : r.Answer} (h : AnswersLater b true r k x k') :
    k.now ≤ k'.now := by
  obtain ⟨now, hnow, h⟩ := h
  rw [h.now_eq]
  exact hnow

theorem quiet_later {r : Request} {x : r.Answer} (h : AnswersLater b true r k x k')
    (hr : r.IsQuiet) : Rests k k' ∧ k'.directory b = k.directory b := by
  have helapsed := elapsed_answer h
  obtain ⟨now, -, h⟩ := h
  obtain ⟨hdirectory, hmemory⟩ := quiet_of_answers h hr
  exact ⟨⟨helapsed, hmemory⟩, hdirectory⟩

theorem addUser_later {u : UserSession} {x : Bool} (h : AnswersLater b true (.addUser u) k x k') :
    Rests k k' ∧ k'.directory b = (k.directory b).addUser u := by
  refine ⟨⟨elapsed_answer h, ?_⟩, directory_addUser h⟩
  obtain ⟨now, -, ⟨⟩⟩ := h
  rfl

theorem withdrawUser_later {id : ConnectionId} {t : Transport} {x : Bool}
    (h : AnswersLater b true (.withdrawUser id t) k x k') :
    Rests k k' ∧ k'.directory b = ((k.directory b).withdrawUser id t).2 := by
  have helapsed := elapsed_answer h
  obtain ⟨now, -, ⟨⟩⟩ := h
  exact ⟨⟨helapsed, rfl⟩, Cluster.directory_setDirectory _ _ _⟩

/-- The clock is read. -/
theorem clock_later {x : Int64} (h : AnswersLater b true (.cache .wallClock) k x k') :
    Rests k k' ∧ k'.sites = k.sites ∧ x = Cache.wallAt Cluster.epoch k'.now.millis := by
  refine ⟨(quiet_later h trivial).1, (alike_of_idle h trivial).sites, ?_⟩
  obtain ⟨now, -, ⟨⟩⟩ := h
  rfl

end

theorem ensures_rests {α : Type} {p : NodeProgram α} (hp : p.Only Request.IsIdle) :
    p.Ensures (AnswersLater l.broker true) k fun trace _ k' =>
      Rests k k' ∧ k'.sites = k.sites ∧ failures trace = 0 := by
  refine (hp.ensures (K := fun k' => Rests k k' ∧ k'.sites = k.sites) ?_ ?_).mono ?_
  · rintro r k₁ x k₂ hr ⟨hrests, hsites⟩ h
    have hsame := alike_of_idle h hr
    have hmemory : k₂.memory = k₁.memory := congrArg Store.Faulty.memory hsame.store
    exact ⟨hrests.trans ⟨elapsed_answer h, hmemory⟩, hsame.sites.trans hsites⟩
  · exact ⟨⟨Duration.le_refl _, rfl⟩, rfl⟩
  · rintro trace a k' ⟨⟨hrests, hsites⟩, hidle⟩
    exact ⟨hrests, hsites, Exchange.failures_of_idle hidle⟩

/-- A command is carried out, or it fails without effect. -/
theorem answered_later {command : Command} {x : Store.Result command}
    (hc : ¬ command.Lists) (h : AnswersLater l.broker true (.cache (.store command)) k x k') :
    k.now ≤ k'.now ∧ k'.sites = k.sites ∧
      ((x = (Memory.answer k'.now command k.memory).1 ∧
          k'.memory = (Memory.answer k'.now command k.memory).2) ∨
        k'.memory = k.memory ∧ ∃ err, x = .error err) := by
  obtain ⟨now, hnow, h⟩ := h
  obtain ⟨htime, hsites, hcarried | ⟨-, hfailed⟩⟩ := answered h hc
  · refine ⟨htime ▸ hnow, hsites, .inl ?_⟩
    rw [htime]
    exact hcarried
  · exact ⟨htime ▸ hnow, hsites, .inr hfailed⟩

theorem concerned_later {command : Command} {x : Store.Result command}
    (hc : c.Concerns e command)
    (h : AnswersLater l.broker true (.cache (.store command)) k x k') :
    k'.sites = k.sites ∧ Spares c e k k' ∧
      ((x = (Memory.answer k'.now command k.memory).1 ∧
          k'.memory = (Memory.answer k'.now command k.memory).2) ∨ ∃ err, x = .error err) := by
  obtain ⟨hnow, hsites, ⟨hx, hmemory⟩ | ⟨hmemory, hx⟩⟩ := answered_later hc.not_lists h
  · refine ⟨hsites, ⟨hnow, ?_, ?_, ?_⟩, .inl ⟨hx, hmemory⟩⟩
    · intro p hp hq text hread
      rw [hmemory] at hread
      refine Place.read_later hnow ?_
      rcases hc.read_answer hp hq (Duration.le_refl k'.now) with heq | heq
      · rwa [heq] at hread
      · rw [heq] at hread
        exact (Option.ite_none_right_eq_some.mp hread).2
    · intro p hp hq now hlate hlive text hread
      rw [hmemory]
      rcases hc.read_answer hp hq hlate with heq | heq
      · rwa [heq]
      · rw [heq, if_pos (Duration.lt_add_of_le hlive hnow)]
        exact Place.read_later hlate hread
    · intro key hbucket hkey now hlate
      rw [hmemory]
      refine Memory.live?_answer_of_not_changes hlate fun hchanges => ?_
      rcases hc.key_eq hchanges with rfl | rfl
      · exact hbucket rfl
      · exact hkey rfl
  · exact ⟨hsites, Rests.spares ⟨hnow, hmemory⟩, .inr hx⟩

/-! ### Pointing the user's field somewhere -/

/-- The field of a user tells of a connection, under a stamp of a time between two states. -/
def Shows (c : SessionCache) (e : UserEntry) (k k' : Cluster) : Prop :=
  ∃ t, k.now.millis ≤ t ∧ t ≤ k'.now.millis ∧ ∀ now, k'.now ≤ now → now < k.now + c.ttl →
    e.place.read c k'.memory now = some (c.stamped Cluster.epoch e.members t)

/-- The field of a user does not tell of a connection. -/
def Unnamed (c : SessionCache) (e : UserEntry) (k : Cluster) : Prop :=
  ∀ text, e.place.read c k.memory k.now = some text → SessionCache.names text e.connection = false

/-- How a writing of the cache goes: well, or a single command fails. -/
structure Written (c : SessionCache) (e : UserEntry) (k : Cluster) (Good : Cluster → Prop)
    (trace : List (Exchange Node.interface Cluster)) (r : Except CacheError Unit) (k' : Cluster) :
    Prop where
  sites : k'.sites = k.sites
  spares : Spares c e k k'
  outcome : (r = .ok () ∧ failures trace = 0 ∧ Good k') ∨
    (∃ err, r = .error err) ∧ failures trace = 1

theorem Shows.between {k₀ : Cluster} (h : Shows c e k k') (hbefore : k₀.now ≤ k.now)
    (hafter : Rests k' k'') : Shows c e k₀ k'' := by
  obtain ⟨t, hlow, hhigh, hread⟩ := h
  refine ⟨t, Nat.le_trans (Duration.millis_mono hbefore) hlow,
    Nat.le_trans hhigh (Duration.millis_mono hafter.elapsed), ?_⟩
  intro now hnow hlive
  rw [hafter.memory]
  exact hread now (Duration.le_trans hafter.elapsed hnow) (Duration.lt_add_of_le hlive hbefore)

theorem Unnamed.after (h : Unnamed c e k) (hafter : Rests k k') : Unnamed c e k' := by
  intro text hread
  rw [hafter.memory] at hread
  exact h text (Place.read_later hafter.elapsed hread)

/-- An entry is put in the user's field, be it that of another connection of the user. -/
theorem written_putStamped {e' : UserEntry} (howner : e'.owner = e.owner)
    (huser : e'.userId = e.userId) :
    (c.putStamped (c.userBucket e'.owner) (userField e'.userId) e'.members).Ensures
      (AnswersLater l.broker true) k (Written c e k (Shows c e' k)) := by
  intro now k₁ hclock x k₂ hput
  obtain ⟨hrests, hsites₁, rfl⟩ := clock_later hclock
  have hc : c.Concerns e (.hashPut (c.userBucket e'.owner) (userField e'.userId)
      (c.stamped Cluster.epoch e'.members k₁.now.millis) c.ttl) := by
    rw [howner, huser]
    exact ⟨rfl, rfl, rfl⟩
  obtain ⟨hsites₂, hspares, hx⟩ := concerned_later hc hput
  refine ⟨hsites₂.trans hsites₁, hrests.spares.trans hspares, ?_⟩
  rcases x with err | ⟨⟩
  · exact .inr ⟨⟨err, rfl⟩, rfl⟩
  · obtain ⟨hok, hmemory⟩ | ⟨err, ⟨⟩⟩ := hx
    have hhash := Memory.isHash_of_hashPut hok.symm
    refine .inl ⟨rfl, rfl, k₁.now.millis, Duration.millis_mono hrests.elapsed,
      Duration.millis_mono hspares.elapsed, ?_⟩
    intro t ht hlive
    have hlive' := Duration.lt_add_of_le hlive (Duration.le_trans hrests.elapsed hspares.elapsed)
    rw [hmemory]
    refine (SessionCache.read_putField (e := e') hhash rfl).trans ?_
    rw [if_pos hlive', if_pos rfl]

/-- Publishing a user's connection. -/
theorem written_publishUser :
    (cached (c.publishUser e)).Ensures (AnswersLater l.broker true) k
      (Written c e k fun _ => True) := by
  rw [c.cached_publishUser, Program.ensures_bind]
  refine (written_putStamped rfl rfl).mono ?_
  rintro trace r k₁ ⟨hsites₁, hspares₁, ⟨rfl, hnone, -⟩ | ⟨⟨err, rfl⟩, hone⟩⟩
  · intro x k₂ hput
    have hc : c.Concerns e (.put (c.connectionKey e.connection) e.toJson.render c.ttl) := rfl
    obtain ⟨hsites₂, hspares₂, -⟩ := concerned_later hc hput
    refine ⟨hsites₂.trans hsites₁, hspares₁.trans hspares₂, ?_⟩
    rcases x with err | ⟨⟩
    · exact .inr ⟨⟨err, rfl⟩, by simp [hnone, Exchange.failsStore]⟩
    · exact .inl ⟨rfl, by simp [hnone, Exchange.failsStore], trivial⟩
  · exact ⟨hsites₁, hspares₁, .inr ⟨⟨err, rfl⟩, by simp [hone]⟩⟩

/-- Dropping what the cache has of a user's connection. -/
theorem written_forgetUser :
    (cached (do let _ ← c.forgetUser e)).Ensures (AnswersLater l.broker true) k
      (Written c e k (Unnamed c e)) := by
  rw [c.cached_forgetUser]
  intro x k₁ hdelete
  have hc₁ : c.Concerns e (.delete (c.connectionKey e.connection)) := rfl
  obtain ⟨hsites₁, hspares₁, -⟩ := concerned_later hc₁ hdelete
  rcases x with err | gone
  · exact ⟨hsites₁, hspares₁, .inr ⟨⟨err, rfl⟩, rfl⟩⟩
  intro y k₂ hget
  have hc₂ : c.Concerns e (.hashGet (c.userBucket e.owner) (userField e.userId)) := trivial
  obtain ⟨hsites₂, hspares₂, hy⟩ := concerned_later hc₂ hget
  have hsites := hsites₂.trans hsites₁
  have hspares := hspares₁.trans hspares₂
  rcases y with err | found
  · exact ⟨hsites, hspares, .inr ⟨⟨err, rfl⟩, rfl⟩⟩
  obtain ⟨hok, hmemory⟩ | ⟨err, ⟨⟩⟩ := hy
  have hhash := Memory.isHash_of_hashGet hok.symm
  rw [Memory.answer_hashGet hhash] at hok hmemory
  have hread : e.place.read c k₂.memory k₂.now = found := by
    rw [hmemory]
    exact (Except.ok.inj hok).symm
  rcases found with _ | text
  · refine ⟨hsites, hspares, .inl ⟨rfl, rfl, fun text htext => ?_⟩⟩
    rw [hread] at htext
    cases htext
  show Program.Ensures _ (if SessionCache.names text e.connection then _ else _) _ _
  split
  · -- The field is deleted while it holds the text that was read.
    intro z k₃ hdrop
    have hc₃ : c.Concerns e (.hashDeleteIf (c.userBucket e.owner) (userField e.userId) text) :=
      ⟨rfl, rfl⟩
    obtain ⟨hsites₃, hspares₃, hz⟩ := concerned_later hc₃ hdrop
    have hspares' := hspares.trans hspares₃
    rcases z with err | gone'
    · exact ⟨hsites₃.trans hsites, hspares', .inr ⟨⟨err, rfl⟩, rfl⟩⟩
    refine ⟨hsites₃.trans hsites, hspares', .inl ⟨rfl, rfl, fun text' htext' => ?_⟩⟩
    obtain ⟨-, hmemory₃⟩ | ⟨err, ⟨⟩⟩ := hz
    rw [hmemory₃, SessionCache.read_dropped (hmemory ▸ hhash) hspares₃.elapsed hread] at htext'
    cases htext'
  · next hnames =>
    refine ⟨hsites, hspares, .inl ⟨rfl, rfl, fun text' htext' => ?_⟩⟩
    rw [hread, Option.some.injEq] at htext'
    rw [← htext']
    exact Bool.eq_false_iff.mpr hnames

/-! ### Taking back -/

/-- The field of a user tells of a connection that the user has in a directory, or the user has none
there and the field does not tell of a connection. -/
def Settled (c : SessionCache) (d : Directory) (e : UserEntry) (k k' : Cluster) : Prop :=
  (∃ id s, d.userSession? id = some s ∧ s.entry.connection = id ∧ s.entry.userId = e.userId ∧
      s.entry.owner = e.owner ∧ Shows c s.entry k k') ∨
    (∀ id s, d.userSession? id = some s → s.entry.userId ≠ e.userId) ∧ Unnamed c e k'

theorem Settled.between {d : Directory} {k₀ : Cluster} (h : Settled c d e k k')
    (hbefore : k₀.now ≤ k.now) (hafter : Rests k' k'') : Settled c d e k₀ k'' := by
  obtain ⟨id, s, hs, hid, huser, howner, hshows⟩ | ⟨hnone, hunnamed⟩ := h
  · exact .inl ⟨id, s, hs, hid, huser, howner, hshows.between hbefore hafter⟩
  · exact .inr ⟨hnone, hunnamed.after hafter⟩

/-- The user's field is pointed at a connection of a directory, or dropped. -/
theorem written_restored {d : Directory} (hd : Owned l.broker d) (howner : e.owner = l.broker) :
    (match survivor? d e.userId with
      | some e' => cached (c.refreshUser e')
      | none => cached (do let _ ← c.forgetUser e)).Ensures (AnswersLater l.broker true) k
        (Written c e k (Settled c d e k)) := by
  cases hsurvivor : survivor? d e.userId with
  | some e' =>
    obtain ⟨id, s, hs, rfl, huser⟩ := survivor?_eq_some hsurvivor
    obtain ⟨hid, hbroker⟩ := hd.users id s hs
    have hsame := hbroker.trans howner.symm
    refine (written_putStamped hsame huser).mono ?_
    rintro trace r k' ⟨hsites, hspares, ⟨hr, hnone, hshows⟩ | hfailed⟩
    · exact ⟨hsites, hspares, .inl ⟨hr, hnone, .inl ⟨id, s, hs, hid, huser, hsame, hshows⟩⟩⟩
    · exact ⟨hsites, hspares, .inr hfailed⟩
  | none =>
    refine written_forgetUser.mono ?_
    rintro trace r k' ⟨hsites, hspares, ⟨hr, hnone, hunnamed⟩ | hfailed⟩
    · exact ⟨hsites, hspares, .inl ⟨hr, hnone, .inr ⟨survivor?_eq_none hsurvivor, hunnamed⟩⟩⟩
    · exact ⟨hsites, hspares, .inr hfailed⟩

theorem ensures_restoreUser (howned : Owned l.broker (k.directory l.broker))
    (howner : e.owner = l.broker) :
    (l.restoreUser e).Ensures (AnswersLater l.broker true) k fun trace _ k' =>
      k'.sites = k.sites ∧ Spares l.cache e k k' ∧
        (failures trace = 0 → Settled l.cache (k.directory l.broker) e k k') := by
  rw [l.restoreUser_eq]
  rintro d k₁ hdirectory
  obtain ⟨hrests₁, -⟩ := quiet_later hdirectory trivial
  obtain ⟨hsites₁, rfl⟩ : k₁.sites = k.sites ∧ d = k.directory l.broker := by
    obtain ⟨now, -, ⟨⟩⟩ := hdirectory
    exact ⟨rfl, rfl⟩
  rw [Program.ensures_bind]
  refine (written_restored howned howner).mono ?_
  rintro trace r k₂ ⟨hsites₂, hspares₂, ⟨rfl, -, hsettled⟩ | ⟨⟨err, rfl⟩, hone⟩⟩
  · refine ⟨hsites₂.trans hsites₁, hrests₁.spares.trans hspares₂, fun _ => ?_⟩
    exact hsettled.between hrests₁.elapsed ⟨Duration.le_refl _, rfl⟩
  · refine (ensures_rests (only_log _)).mono ?_
    rintro trace' _ k₃ ⟨hrests₃, hsites₃, -⟩
    refine ⟨hsites₃.trans (hsites₂.trans hsites₁),
      hrests₁.spares.trans (hspares₂.trans hrests₃.spares), fun hsum => ?_⟩
    simp [hone] at hsum

/-- A registration is undone: the directory has lost what it held under the id, and the user's field
is settled. -/
structure TakenBack (l : Lifecycle) (e : UserEntry) (k k' : Cluster) : Prop where
  users : ∀ id, (k'.directory l.broker).userSession? id =
    if id = e.connection then none else (k.directory l.broker).userSession? id
  groups : ∀ id, (k'.directory l.broker).groupSession? id =
    (k.directory l.broker).groupSession? id
  spares : Spares l.cache e k k'
  settled : Settled l.cache (k'.directory l.broker) e k k'

theorem TakenBack.after (h : TakenBack l e k k') (hafter : Rests k' k'')
    (hsame : k''.directory l.broker = k'.directory l.broker) : TakenBack l e k k'' where
  users id := by rw [hsame, h.users]
  groups id := by rw [hsame, h.groups]
  spares := h.spares.trans hafter.spares
  settled := by
    rw [hsame]
    exact h.settled.between (Duration.le_refl _) hafter

/-- A session that was put in place is taken back, with what it replaced. -/
theorem userSession?_takenBack (d : Directory) (u : UserSession) (id : ConnectionId) :
    ((d.addUser u).withdrawUser u.entry.connection u.transport).2.userSession? id =
      if id = u.entry.connection then none else d.userSession? id := by
  have hheld : (d.addUser u).userSession? u.entry.connection = some u := by
    rw [d.userSession?_addUser, if_pos rfl]
  rw [Directory.withdrawUser_of_held hheld]
  show ((d.users.insert _ _).erase _).get? id = _
  rw [Table.get?_erase, Table.get?_insert]
  by_cases hid : id = u.entry.connection
  · rw [if_pos hid, if_pos hid]
  · rw [if_neg hid, if_neg (fun heq => hid heq.symm), if_neg hid]
    rfl

theorem ensures_enrolUser_takenBack {u : UserSession}
    (hreached : Directory.Reached l.broker (k.directory l.broker))
    (howner : u.entry.owner = l.broker) :
    (l.enrolUser u).Ensures (AnswersLater l.broker true) k fun trace r k' =>
      failures trace = 1 → (∃ err, r = .error (.cache err)) ∧ TakenBack l u.entry k k' := by
  rw [l.enrolUser_eq]
  intro replaced k₁ hadd
  obtain ⟨hrests₁, hdirectory₁⟩ := addUser_later hadd
  rw [Program.ensures_bind]
  refine written_publishUser.mono ?_
  rintro trace r k₂ ⟨hsites₂, hspares₂, ⟨rfl, hnone, -⟩ | ⟨⟨err, rfl⟩, hone⟩⟩
  · refine ensures_idle_bind (only_log _) fun trace₁ _ k₃ _ hidle₁ => ?_
    refine ensures_idle_bind (only_countRegistered _ _) fun trace₂ _ k₄ _ hidle₂ => ?_
    intro hone
    simp [hnone, Exchange.failures_of_idle hidle₁, Exchange.failures_of_idle hidle₂,
      Exchange.failsStore] at hone
  · intro withdrawn k₃ hwithdraw
    obtain ⟨hrests₃, hdirectory₃⟩ := withdrawUser_later hwithdraw
    rw [Cluster.directory_congr hsites₂, hdirectory₁] at hdirectory₃
    rw [Program.ensures_bind]
    refine (ensures_rests (only_countWithdrawn _ _ _)).mono ?_
    rintro trace₄ _ k₄ ⟨hrests₄, hsites₄, hnone₄⟩
    have hdirectory₄ := (Cluster.directory_congr hsites₄).trans hdirectory₃
    have hreached₄ : Directory.Reached l.broker (k₄.directory l.broker) := by
      rw [hdirectory₄]
      exact .withdrawUser (.addUser hreached u howner) _ _
    rw [Program.ensures_bind]
    refine (ensures_restoreUser (owned_of_reached hreached₄) howner).mono ?_
    rintro trace₅ _ k₅ ⟨hsites₅, hspares₅, hsettled⟩ hsum
    have hdirectory₅ := (Cluster.directory_congr hsites₅).trans hdirectory₄
    have hspares := (hrests₁.spares.trans hspares₂).trans (hrests₃.trans hrests₄).spares
    refine ⟨⟨err, rfl⟩, ?_, ?_, hspares.trans hspares₅, ?_⟩
    · intro id
      rw [hdirectory₅]
      exact userSession?_takenBack _ u id
    · intro id
      rw [hdirectory₅]
      exact Directory.withdrawUser_groups _ _ _ id
    · rw [hdirectory₅, ← hdirectory₄]
      refine (hsettled ?_).between hspares.elapsed ⟨Duration.le_refl _, rfl⟩
      simp [hone, hnone₄, Exchange.failsStore] at hsum
      omega

/-- A registration that could not be published is undone from the moment when it had the lock. -/
theorem ensures_registering_takenBack {u : UserSession}
    (hreached : Directory.Reached l.broker (k.directory l.broker))
    (howner : u.entry.owner = l.broker) :
    (l.registering .endUser (l.enrolUser u)).Ensures (AnswersLater l.broker true) k
      fun trace r k' => failures trace = 1 → (∃ err, r = .error (.cache err)) ∧
        ∃ k₁, ⟨.acquire .endUser (some l.patience), true, k₁⟩ ∈ trace ∧ Rests k k₁ ∧
          k₁.directory l.broker = k.directory l.broker ∧ TakenBack l u.entry k₁ k' := by
  simp only [l.registering_eq, Program.ensures_bind, holding_eq]
  rintro x k₁ hacquire
  obtain ⟨hrests₁, hdirectory₁⟩ := quiet_later hacquire trivial
  cases x with
  | true =>
    rw [Program.ensures_bind]
    refine (ensures_enrolUser_takenBack (hdirectory₁ ▸ hreached) howner).mono ?_
    rintro trace r k₂ htaken ⟨⟩ k₃ hrelease hsum
    obtain ⟨hrests₃, hdirectory₃⟩ := quiet_later hrelease trivial
    obtain ⟨herror, htaken⟩ := htaken (by simpa [Exchange.failsStore] using hsum)
    exact ⟨herror, k₁, by simp, hrests₁, hdirectory₁, htaken.after hrests₃ hdirectory₃⟩
  | false =>
    refine ensures_idle_bind (only_measure _ _) fun trace _ k₂ _ hidle => ?_
    intro hsum
    simp [Exchange.failures_of_idle hidle, Exchange.failsStore] at hsum

/-- What the registration of a user leaves behind if it could not be published. The directory has
lost what it held under the id and nothing else. The user's field is live and tells of a connection
that the user has on the node, if there is one; otherwise it does not tell of the failed one. Beside
that field and the key of the failed connection nothing in the cache has changed, save that fields
may have expired or, in the bucket of the user's field, live longer. -/
structure RolledBack (l : Lifecycle) (e : UserEntry) (k k' : Cluster) : Prop where
  users : ∀ id, (k'.directory l.broker).userSession? id =
    if id = e.connection then none else (k.directory l.broker).userSession? id
  groups : ∀ id, (k'.directory l.broker).groupSession? id =
    (k.directory l.broker).groupSession? id
  named : ∀ id s, (k'.directory l.broker).userSession? id = some s → s.entry.userId = e.userId →
    ∃ s', (k'.directory l.broker).userSession? s'.entry.connection = some s' ∧
      s'.entry.userId = e.userId ∧ k'.read (SessionCache.liveField Stamped.readUser?
        (l.cache.userBucket l.broker) (userField e.userId)) = .ok (some s'.entry)
  unnamed : (∀ id s, (k'.directory l.broker).userSession? id = some s →
    s.entry.userId ≠ e.userId) → Unnamed l.cache e k'
  known : ∀ p : Place, p ≠ e.place → p ≠ .connection e.connection → ∀ text,
    p.read l.cache k'.memory k'.now = some text → p.read l.cache k.memory k.now = some text
  kept : ∀ p : Place, p ≠ e.place → p ≠ .connection e.connection → ∀ text,
    p.read l.cache k.memory k'.now = some text → p.read l.cache k'.memory k'.now = some text
  unchanged : k'.now = k.now → ∀ p : Place, p ≠ e.place → p ≠ .connection e.connection →
    p.read l.cache k'.memory k'.now = p.read l.cache k.memory k.now
  elsewhere : ∀ key, key ≠ l.cache.userBucket l.broker → key ≠ l.cache.connectionKey e.connection →
    ∀ now, k'.now ≤ now → k'.memory.live? now key = k.memory.live? now key

/-- What was undone, at the end of a run that had the lock for less than the time to live. -/
theorem TakenBack.rolledBack {k₁ : Cluster} (h : TakenBack l e k₁ k') (howner : e.owner = l.broker)
    (hrests : Rests k k₁) (hsame : k₁.directory l.broker = k.directory l.broker)
    (htime : k'.now.millis < k₁.now.millis + l.cache.ttl.millis)
    (hin : Cluster.epoch + k'.now.millis < Cache.horizon) : RolledBack l e k k' := by
  have hlive := Duration.lt_add_of_millis htime
  have hspares := hrests.spares.trans h.spares
  have hkept : ∀ p : Place, p ≠ e.place → p ≠ .connection e.connection → ∀ text,
      p.read l.cache k.memory k'.now = some text →
        p.read l.cache k'.memory k'.now = some text := by
    intro p hplace hkey text hread
    rw [← hrests.memory] at hread
    exact h.spares.kept p hplace hkey k'.now (Duration.le_refl _) hlive text hread
  refine ⟨hsame ▸ h.users, hsame ▸ h.groups, ?_, ?_, hspares.known, hkept, ?_, ?_⟩
  · intro id s hs huser
    obtain ⟨id', s', hs', rfl, huser', howner', t, hlow, hhigh, hread⟩ | ⟨hnone, -⟩ := h.settled
    · have hcounts : k'.wallClock < l.cache.stampAt (Cache.wallAt Cluster.epoch t) :=
        (Cache.wallAt_lt_stampAt_iff l.cache hhigh hin).mpr (by omega)
      have htext := hread k'.now (Duration.le_refl _) hlive
      refine ⟨s', hs', huser', ?_⟩
      rw [← huser', ← howner, ← howner']
      exact Cluster.read_liveField htext (Stamped.readUser?_render s'.entry _) hcounts
    · exact absurd huser (hnone id s hs)
  · intro hnone
    obtain ⟨id, s, hs, -, huser, -⟩ | ⟨-, hunnamed⟩ := h.settled
    · exact absurd huser (hnone id s hs)
    · exact hunnamed
  · intro hnow p hplace hkey
    ext text
    constructor
    · exact hspares.known p hplace hkey text
    · rw [← hnow]
      exact hkept p hplace hkey text
  · rw [← howner]
    exact hspares.elsewhere

/-- A user's registration of which a single command of the store fails, without effect, could not be
published, and what it did was undone: from any state that a node can come to, whatever the cache
holds, and however long the lock and the identity service were waited for. -/
theorem registerUser_rolledBack (l : Lifecycle) (id : ConnectionId) (t : Transport) (k : Cluster)
    {trace : List (Exchange Node.interface Cluster)} {r : Except OpenError Principal}
    (hreached : Directory.Reached l.broker (k.directory l.broker))
    (hrun : (l.registerUser id t).Runs (AnswersLater l.broker true) k trace r k')
    (hfailed : failures trace = 1)
    (htime : ∀ k₁, ⟨.acquire .endUser (some l.patience), true, k₁⟩ ∈ trace →
      k'.now.millis < k₁.now.millis + l.cache.ttl.millis)
    (hin : Cluster.epoch + k'.now.millis < Cache.horizon) :
    ∃ token p err, t.attributes.token? = some token ∧
      Happened (Exchange.Identified token p) trace ∧ r = .error (.cache err) ∧
      RolledBack l (.ofPrincipal id p l.broker) k k' := by
  rw [l.registerUser_eq] at hrun
  cases htoken : t.attributes.token? with
  | none =>
    rw [htoken] at hrun
    cases hrun
    cases hfailed
  | some token =>
    rw [htoken] at hrun
    cases hrun with
    | @ask _ _ _ k₁ _ x trace _ hidentify hrest =>
      obtain ⟨hrests₁, hdirectory₁⟩ := quiet_later hidentify trivial
      rcases x with err | p
      · cases hrest
        cases hfailed
      · have hone : failures trace = 1 := hfailed
        obtain ⟨⟨err, rfl⟩, k₂, hlocked, hrests₂, hdirectory₂, htaken⟩ := hrest.of_ensures
          (ensures_registering_takenBack (hdirectory₁ ▸ hreached) rfl) hone
        have hbrief := htime k₂ (List.mem_cons_of_mem _ hlocked)
        refine ⟨token, p, err, rfl, by simp [Exchange.Identified], rfl, ?_⟩
        exact htaken.rolledBack rfl (hrests₁.trans hrests₂) (hdirectory₂.trans hdirectory₁) hbrief
          hin

/-- `visitor` is in, and from then on no connection's key can be written. -/
def keysLost : Cluster :=
  let k := ((porter.registerUser ⟨"c"⟩ visitor).run (Cluster.perform porter.broker) doorstep).2
  { k with store := { k.store with outages := Table.empty.insert .put ⟨0, none⟩ } }

theorem reached_keysLost : Directory.Reached porter.broker (keysLost.directory porter.broker) :=
  .addUser .empty
    ⟨⟨⟨"c"⟩, 1, 7, none, "jwt", porter.broker⟩, ⟨7, 1, none, none, "jwt"⟩, visitor⟩ rfl

theorem companion_rolledBack :
    ∃ trace p err k', (porter.registerUser ⟨"d"⟩ companion).Runs (AnswersLater porter.broker true)
        keysLost trace (.error (.cache err)) k' ∧ failures trace = 1 ∧
      RolledBack porter (.ofPrincipal ⟨"d"⟩ p porter.broker) keysLost k' := by
  let program := porter.registerUser ⟨"d"⟩ companion
  let trace := program.exchanges (Cluster.perform porter.broker) keysLost
  let k' := (program.run (Cluster.perform porter.broker) keysLost).2
  have hgoes : Node.goesThrough porter.broker program keysLost = true := by decide +kernel
  have hstore : Node.Behaves true keysLost.store := ⟨rfl, rfl, nofun⟩
  have hrun := (Node.runs_exchanges porter.broker hgoes hstore).mono fun _ _ _ _ h => h.later
  have hfailed : failures trace = 1 := by decide +kernel
  have hbrief : trace.all (fun x => decide (k'.now.millis < x.state.now.millis + 100)) = true := by
    decide +kernel
  obtain ⟨token, p, err, -, -, hr, hrolled⟩ := registerUser_rolledBack porter ⟨"d"⟩ companion
    keysLost reached_keysLost hrun hfailed
    (fun k₁ h => of_decide_eq_true (List.all_eq_true.mp hbrief _ h)) (by decide +kernel)
  rw [hr] at hrun
  exact ⟨trace, p, err, k', hrun, hfailed, hrolled⟩

end Lifecycle

end SessionGateway
