import SessionGateway.Cluster.Basic
import SessionGateway.Proofs.Cache.Answers
import SessionGateway.Proofs.Entry

/-!
# How a node is answered

The surroundings of a node's programs: time may pass before a request is answered, the store may
fail without effect, a lock may not be had in time, and the identity service may answer anything.
What the cluster does by itself is one of the ways to be answered.
-/

namespace SessionGateway

open Program (Surroundings)
open Store (Memory)

/-! ### Parts of a cluster -/

theorem Site.lock_setLock (s : Site) (l : Lock) (kind kind' : ConnectionKind) :
    (s.setLock l kind).lock kind' = if kind = kind' then l else s.lock kind' := by
  cases kind <;> cases kind' <;> rfl

@[simp] theorem Site.directory_setLock (s : Site) (l : Lock) (kind : ConnectionKind) :
    (s.setLock l kind).directory = s.directory := by
  cases kind <;> rfl

namespace Cluster

def memory (c : Cluster) : Memory := c.store.memory

variable (c : Cluster) (b : BrokerId)

@[simp] theorem site_setSite (s : Site) : (c.setSite b s).site b = s := by
  rw [site, setSite, Table.get?_insert, if_pos rfl, Option.getD_some]

@[simp] theorem directory_setDirectory (d : Directory) : (c.setDirectory b d).directory b = d := by
  simp only [directory, setDirectory, site_setSite]

@[simp] theorem lock_setDirectory (d : Directory) (kind : ConnectionKind) :
    ((c.setDirectory b d).site b).lock kind = (c.site b).lock kind := by
  rw [setDirectory, site_setSite]
  cases kind <;> rfl

@[simp] theorem directory_setLock (kind : ConnectionKind) (l : Lock) :
    (c.setLock b kind l).directory b = c.directory b := by
  simp only [directory, setLock, site_setSite, Site.directory_setLock]

@[simp] theorem registry_setRegistry (r : Registry) :
    (c.setRegistry b r).registry b = r := by
  simp only [registry, setRegistry, site_setSite]

@[simp] theorem registry_setDirectory (d : Directory) :
    (c.setDirectory b d).registry b = c.registry b := by
  simp only [registry, setDirectory, site_setSite]

@[simp] theorem registry_setLock (kind : ConnectionKind) (l : Lock) :
    (c.setLock b kind l).registry b = c.registry b := by
  simp only [registry, setLock, site_setSite]
  cases kind <;> rfl

@[simp] theorem directory_setRegistry (r : Registry) :
    (c.setRegistry b r).directory b = c.directory b := by
  simp only [directory, setRegistry, site_setSite]

@[simp] theorem lock_setRegistry (r : Registry) (kind : ConnectionKind) :
    ((c.setRegistry b r).site b).lock kind = (c.site b).lock kind := by
  rw [setRegistry, site_setSite]
  cases kind <;> rfl

variable {c b} in
theorem directory_congr {c' : Cluster} (h : c'.sites = c.sites) :
    c'.directory b = c.directory b := by
  simp only [directory, site, h]

theorem lock_setLock (kind kind' : ConnectionKind) (l : Lock) :
    ((c.setLock b kind l).site b).lock kind' =
      if kind = kind' then l else (c.site b).lock kind' := by
  simp only [setLock, site_setSite, Site.lock_setLock]

end Cluster

/-! ### Reading -/

namespace Cluster

/-- How the cache is answered now while the store does not fail. -/
def answerCache (c : Cluster) : (r : Cache.Request) → Memory → r.Answer × Memory
  | .store k, m => Memory.answer c.now k m
  | .wallClock, m => (c.wallClock, m)
  | .log _, m => ((), m)

/-- What an operation on the cache gives back if it is run now while nothing else goes on. -/
def read {α : Type} (c : Cluster) (op : Cache.Operation α) : Except CacheError α :=
  (op.run.run c.answerCache c.memory).1

variable {c : Cluster}

theorem read_hashGet {key field : String} (h : c.memory.IsHash c.now key) :
    c.read (Cache.command (.hashGet key field)) =
      .ok ((c.memory.fieldsAt c.now key).get? field) := by
  show (Memory.answer c.now (.hashGet key field) c.memory).1 = _
  rw [Memory.answer_hashGet h]

/-- What is found in a field is live until its stamp has passed. -/
theorem read_liveField {α : Type} {read? : String → Option (Stamped α)} {key field text : String}
    {s : Stamped α} (hfound : (c.memory.fieldsAt c.now key).get? field = some text)
    (hread : read? text = some s) (hlive : c.wallClock < s.expiresAt) :
    c.read (SessionCache.liveField read? key field) = .ok (some s.entry) := by
  have hget : Memory.answer c.now (.hashGet key field) c.memory = (.ok (some text), c.memory) := by
    rw [Memory.answer_hashGet (Memory.isHash_of_fieldsAt hfound), hfound]
  simp only [read, SessionCache.liveField, Cache.command, Program.request, ExceptT.run_bind,
    ExceptT.run_mk, Program.bind_eq, Program.ask_bind, Program.run, answerCache, hget,
    Program.done_bind, hread]
  show Except.ok (if c.wallClock < s.expiresAt then some s.entry else none) = _
  rw [if_pos hlive]

/-- Reading the user of a connection under whose key an entry was written, if anything was. -/
theorem read_userOf {cache : SessionCache} {id : ConnectionId} {e? : Option UserEntry}
    (h : c.memory.IsText c.now (cache.connectionKey id))
    (htext : c.memory.textAt c.now (cache.connectionKey id) = e?.map fun e => e.toJson.render) :
    c.read (cache.userOf id) = .ok e? := by
  have hget := Memory.answer_get h
  rw [htext] at hget
  cases e? with
  | none =>
    simp [read, SessionCache.userOf, Cache.command, Program.request, ExceptT.run_bind, Program.run,
      answerCache, hget]
  | some e =>
    simp [read, SessionCache.userOf, Cache.command, Program.request, ExceptT.run_bind, Program.run,
      answerCache, hget, UserEntry.decode_render]

end Cluster

/-! ### Surroundings -/

namespace Node

/-- How a request of a node may be answered at an instant; the store fails only if it may. -/
def Answers (b : BrokerId) (fails : Bool) : Surroundings interface Cluster
  | .cache (.store k), c, x, c' =>
    c' = { c with store := c'.store } ∧
      (Memory.Carries c.now k c.memory x c'.memory ∨
        fails = true ∧ c'.memory = c.memory ∧ ∃ e, x = .error e)
  | .identify _, c, _, c' => c' = c
  | .acquire kind patience, c, x, c' =>
    (x = true ∧ ((c.site b).lock kind).holder = none ∧
        c' = c.setLock b kind ((c.site b).lock kind).join.2) ∨
      x = false ∧ patience.isSome ∧ c' = c
  | r, c, x, c' => c.perform b r = (x, c')

/-- Time may pass before a request is answered. -/
def AnswersLater (b : BrokerId) (fails : Bool) : Surroundings interface Cluster := fun r c x c' =>
  ∃ now, c.now ≤ now ∧ Answers b fails r { c with now := now } x c'

/-- Time is told in whole milliseconds, it may pass before a request is answered, and the store does
not fail. -/
def AnswersInMillis (b : BrokerId) : Surroundings interface Cluster := fun r c x c' =>
  ∃ t, c.now ≤ .ofMillis t ∧ Cluster.epoch + t < Cache.horizon ∧
    Answers b false r { c with now := .ofMillis t } x c'

/-! ### The cluster by itself -/

/-- A store into which nothing intrudes, that purges, and that fails only if it may. -/
structure Behaves (fails : Bool) (s : Store.Faulty) : Prop where
  intrusion : s.intrusion = none
  purges : s.purges = true
  outages : fails = false → s.outages = .empty

variable {fails : Bool}

theorem carries_sound (now : Duration) (k : Store.Command) {s : Store.Faulty}
    (h : Behaves fails s) :
    Memory.Carries now k s.memory (s.sound now k).1 (s.sound now k).2.memory ∧
      Behaves fails (s.sound now k).2 := by
  cases k with
  | hashGetAll key =>
    have hsame : (Memory.answer now (.hashGetAll key) s.memory).2 = s.memory := by
      rw [Memory.answer]
      split <;> rfl
    rw [Store.Faulty.sound, Store.Faulty.direct]
    rcases hr : Memory.answer now (.hashGetAll key) s.memory with ⟨e | fields, m⟩
    · rw [hr] at hsame
      exact ⟨⟨hsame, .inl ⟨e, by rw [hr], rfl⟩⟩, h.intrusion, h.purges, h.outages⟩
    · rw [hr] at hsame
      have hnone : Store.Faulty.intrude now { s with memory := m } = { s with memory := m } := by
        rw [Store.Faulty.intrude]
        simp only [h.intrusion]
      simp only [hnone]
      exact ⟨⟨hsame, .inr ⟨fields, _, by rw [hr], rfl, List.mergeSort_perm _ _⟩⟩, h.intrusion,
        h.purges, h.outages⟩
  | purgeExpired =>
    rw [Store.Faulty.sound, if_pos h.purges]
    exact ⟨rfl, h.intrusion, h.purges, h.outages⟩
  | _ => exact ⟨rfl, h.intrusion, h.purges, h.outages⟩

/-- A call that is made to fail changes nothing but what is left of the outage. -/
theorem behaves_fails (m : Store.Method) {s : Store.Faulty} (h : Behaves fails s) :
    ((s.fails m).1 = true → fails = true) ∧ (s.fails m).2.memory = s.memory ∧
      Behaves fails (s.fails m).2 := by
  rw [Store.Faulty.fails]
  split
  · exact ⟨nofun, rfl, h⟩
  · next o ho =>
    have hfails : fails = true := by
      cases fails with
      | true => rfl
      | false => rw [h.outages rfl] at ho; cases ho
    refine ⟨fun _ => hfails, rfl, h.intrusion, h.purges, fun hf => ?_⟩
    rw [hfails] at hf
    cases hf

/-- A turn of a processor takes no time and leaves the store alone. -/
theorem turn_keeps (c : Cluster) (b : BrokerId) (p : Processor) (x : FrameContext) (f : Frame)
    (limit : Duration) :
    (c.turn b p x f limit).2.store = c.store ∧ (c.turn b p x f limit).2.now = c.now := by
  rw [Cluster.turn]
  split
  · exact ⟨rfl, rfl⟩
  · split
    · exact ⟨rfl, rfl⟩
    · cases p.work <;> exact ⟨rfl, rfl⟩

theorem now_perform (b : BrokerId) (r : Request) (c : Cluster) : (c.perform b r).2.now = c.now := by
  cases r with
  | cache r => cases r <;> rfl
  | acquire kind patience =>
    simp only [Cluster.perform]
    split <;> rfl
  | turn p x f limit => exact (turn_keeps c b p x f limit).2
  | _ => rfl

theorem Answers.now_eq {b : BrokerId} {r : Request} {c c' : Cluster} {x : r.Answer}
    (h : Answers b fails r c x c') : c'.now = c.now := by
  have hperform : c.perform b r = (x, c') → c'.now = c.now := by
    intro heq
    have hnow := now_perform b r c
    rw [heq] at hnow
    exact hnow
  cases r with
  | cache r =>
    cases r with
    | store k =>
      rw [h.1]
    | _ => exact hperform h
  | identify credential => rw [show c' = c from h]
  | acquire kind patience =>
    obtain ⟨-, -, rfl⟩ | ⟨-, -, rfl⟩ := h
    · rfl
    · rfl
  | _ => exact hperform h

/-- Whether a request is not bound to wait for a lock that is held. -/
def isFree (b : BrokerId) (c : Cluster) : Request → Bool
  | .acquire kind none => ((c.site b).lock kind).holder.isNone
  | _ => true

/-- Whether a program never waits when the cluster answers every request at once. -/
def goesThrough {α : Type} (b : BrokerId) : NodeProgram α → Cluster → Bool
  | .done _, _ => true
  | .ask r next, c => isFree b c r && goesThrough b (next (c.perform b r).1) (c.perform b r).2

/-- What the cluster does with a request that need not wait is a way to answer it. -/
theorem answers_perform (b : BrokerId) (r : Request) {c : Cluster} (h : Behaves fails c.store)
    (hr : isFree b c r = true) :
    Answers b fails r c (c.perform b r).1 (c.perform b r).2 ∧
      Behaves fails (c.perform b r).2.store := by
  cases r with
  | cache r =>
    cases r with
    | store k =>
      obtain ⟨hmay, hmemory, hrest⟩ := behaves_fails k.method h
      rw [Cluster.perform, Store.Faulty.answer]
      generalize c.store.fails k.method = f at hmay hmemory hrest
      obtain ⟨failed, s⟩ := f
      cases failed with
      | true => exact ⟨⟨rfl, .inr ⟨hmay rfl, hmemory, _, rfl⟩⟩, hrest⟩
      | false =>
        have hsound := carries_sound c.now k hrest
        rw [show s.memory = c.memory from hmemory] at hsound
        exact ⟨⟨rfl, .inl hsound.1⟩, hsound.2⟩
    | _ => exact ⟨rfl, h⟩
  | acquire kind patience =>
    simp only [Cluster.perform]
    split
    · next hheld =>
      cases patience with
      | none =>
        rw [Option.isNone_iff_eq_none.mp hr] at hheld
        cases hheld
      | some d => exact ⟨.inr ⟨rfl, rfl, rfl⟩, h⟩
    · next hfree =>
      simp only [Bool.not_eq_true, Option.isSome_eq_false_iff, Option.isNone_iff_eq_none] at hfree
      exact ⟨.inl ⟨rfl, hfree, rfl⟩, h⟩
  | turn p x f limit =>
    refine ⟨rfl, ?_⟩
    rw [Cluster.perform, (turn_keeps c b p x f limit).1]
    exact h
  | _ => exact ⟨rfl, h⟩

theorem runs_exchanges {α : Type} (b : BrokerId) {p : NodeProgram α} {c : Cluster}
    (hp : goesThrough b p c = true) (h : Behaves fails c.store) :
    p.Runs (Answers b fails) c (p.exchanges (Cluster.perform b) c) (p.run (Cluster.perform b) c).1
      (p.run (Cluster.perform b) c).2 := by
  induction p generalizing c with
  | done a => exact .done a c
  | ask r next ih =>
    rw [goesThrough, Bool.and_eq_true] at hp
    obtain ⟨hanswer, hrest⟩ := answers_perform b r h hp.1
    exact .ask hanswer (ih _ hp.2 hrest)

theorem runs_perform {α : Type} (b : BrokerId) {p : NodeProgram α} {c : Cluster}
    (hp : goesThrough b p c = true) (h : Behaves fails c.store) :
    ∃ trace, p.Runs (Answers b fails) c trace (p.run (Cluster.perform b) c).1
      (p.run (Cluster.perform b) c).2 :=
  ⟨_, runs_exchanges b hp h⟩

/-- A run while the clock stands still is one in whole milliseconds. -/
theorem runs_inMillis {α : Type} {b : BrokerId} {p : NodeProgram α} {c c' : Cluster}
    {trace : List (Exchange interface Cluster)} {a : α} {t : Nat}
    (hrun : p.Runs (Answers b false) c trace a c') (ht : Cluster.epoch + t < Cache.horizon)
    (hnow : c.now = .ofMillis t) :
    p.Runs (AnswersInMillis b) c trace a c' ∧ c'.now = .ofMillis t := by
  induction hrun with
  | done a c => exact ⟨.done a c, hnow⟩
  | @ask r next c c₁ c₂ x trace a answered rest ih =>
    obtain ⟨hrest, hlast⟩ := ih (answered.now_eq.trans hnow)
    refine ⟨.ask ⟨t, ?_, ht, ?_⟩ hrest, hlast⟩
    · rw [hnow]
      exact Duration.le_refl _
    · rw [← hnow]
      exact answered

theorem Answers.later {b : BrokerId} {fails : Bool} {r : Request} {c c' : Cluster} {x : r.Answer}
    (h : Answers b fails r c x c') : AnswersLater b fails r c x c' :=
  ⟨c.now, Duration.le_refl _, h⟩

end Node

end SessionGateway
