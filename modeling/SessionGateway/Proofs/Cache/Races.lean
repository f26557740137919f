import SessionGateway.Proofs.Cache.Writing
import SessionGateway.Proofs.Program.Strands

/-!
# Deletes beside refreshes

Passes that prune, connections that are forgotten and entries that are refreshed, interleaved at
their requests while time goes by. A delete names the text that was judged before, so it never takes
away a text that a later refresh put in the meantime.
-/

namespace SessionGateway.SessionCache

open Cache (AnswersAt Request horizon wallAt)
open Program (Surroundings)
open Store (Memory)

/-! ### Calls -/

/-- A call that writes or deletes fields of the buckets. -/
inductive Call where
  | refreshUser (e : UserEntry)
  | refreshGroup (e : GroupEntry)
  | forgetUser (e : UserEntry)
  | prune (b : BrokerId)
  deriving DecidableEq

namespace Call

def program (c : SessionCache) : Call → Program Cache.interface Unit
  | .refreshUser e => (c.refreshUser e).run.bind fun _ => .done ()
  | .refreshGroup e => (c.refreshGroup e).run.bind fun _ => .done ()
  | .forgetUser e => (c.forgetUser e).run.bind fun _ => .done ()
  | .prune b => (c.prune b).run.bind fun _ => .done ()

/-- The place that a refresh writes, and the members that it writes there. -/
def writing? : Call → Option (Place × List (String × Option Json))
  | .refreshUser e => some (.user e.owner (userField e.userId), e.members)
  | .refreshGroup e => some (.group e.owner e.group, e.members)
  | .forgetUser _ | .prune _ => none

/-- The text is what the call puts in a place if it reads the clock at a time. -/
def Puts (c : SessionCache) (call : Call) (clock : Int64) (p : Place) (text : String) : Prop :=
  ∃ members, call.writing? = some (p, members) ∧ text = Stamped.render members (c.stampAt clock)

/-- The text is one that the call may take away from a place. -/
inductive Removes : Call → Option Int64 → Place → String → Prop
  /-- It was expired when the pass read the clock. -/
  | expired {b : BrokerId} {n : Int64} {p : Place} {text : String}
      (own : ∃ field, p = .user b field ∨ p = .group b field)
      (stale : ∀ stamp, Stamped.stampOf? text = some stamp → stamp ≤ n) :
      Removes (.prune b) (some n) p text
  /-- It names the connection that is forgotten. -/
  | forgotten {e : UserEntry} {clock? : Option Int64} {text : String} {s : Stamped UserEntry}
      (named : Stamped.readUser? text = some s) (same : s.entry.connection = e.connection) :
      Removes (.forgetUser e) clock? (.user e.owner (userField e.userId)) text

end Call

/-! ### Scenes -/

/-- A text that was put in a field at a time. -/
structure Put where
  key : String
  field : String
  text : String
  time : Nat

/-- An instant with the memory and with what was put so far, newest first. -/
structure Moment where
  time : Nat
  memory : Memory
  puts : List Put

/-- What was put once a request is answered. -/
def putsAfter (time : Nat) (puts : List Put) : (r : Request) → r.Answer → List Put
  | .store (.hashPut key field text _), .ok () => ⟨key, field, text, time⟩ :: puts
  | _, _ => puts

/-- The time that a call knows once a request is answered. -/
def clockAfter (clock? : Option Int64) : (r : Request) → r.Answer → Option Int64
  | .wallClock, now => some now
  | _, _ => clock?

/-- Any number of calls may be made. The clock is counted in milliseconds and never goes back, and
the store may fail without effect. -/
def races (c : SessionCache) (origin : Nat) :
    Ensemble Cache.interface Call (Option Int64) Moment where
  program := Call.program c
  answers _ r s x s' := s'.time = s.time ∧ s'.puts = putsAfter s.time s.puts r x ∧
    AnswersAt (.ofMillis s.time) (wallAt origin s.time) true r s.memory x s'.memory
  drifts s s' := s.time ≤ s'.time ∧ origin + s'.time < horizon ∧ s' = { s with time := s'.time }
  admits _ _ := True
  blank := none
  notes := clockAfter

/-- A call of the races with the time that it read. -/
abbrev Racer : Type := Strand Cache.interface Call (Option Int64)

/-- Nothing was put yet; the memory may hold anything. -/
def Begins (origin : Nat) (s : Moment) : Prop := origin + s.time < horizon ∧ s.puts = []

def Put.IsAt (c : SessionCache) (p : Place) (w : Put) : Prop :=
  w.key = p.key c ∧ p.field? = some w.field

instance (c : SessionCache) (p : Place) (w : Put) : Decidable (w.IsAt c p) :=
  inferInstanceAs (Decidable (_ ∧ _))

/-- The text that was last put in a place. -/
def lastPut (c : SessionCache) (p : Place) : List Put → Option String
  | [] => none
  | w :: puts => if w.IsAt c p then some w.text else lastPut c p puts

/-- The time when a bucket was last written. -/
def lastTime (key : String) : List Put → Option Nat
  | [] => none
  | w :: puts => if w.key = key then some w.time else lastTime key puts

/-- Since a text was last put in a place, its bucket has gone for the time to live without being
written. -/
def Lapsed (c : SessionCache) (p : Place) : List Put → Nat → Prop
  | [], _ => False
  | w :: puts, t =>
    if w.key = p.key c then
      .ofMillis w.time + c.ttl ≤ Duration.ofMillis t ∨ ¬ w.IsAt c p ∧ Lapsed c p puts w.time
    else Lapsed c p puts t

/-! ### What a call may ask for -/

/-- What a call that knows a time may ask of the store. -/
def Fits (c : SessionCache) (call : Call) (clock? : Option Int64) : Request → Prop
  | .store (.hashPut key field text ttl) => ttl = c.ttl ∧ ∃ n p, clock? = some n ∧
      call.Puts c n p text ∧ key = p.key c ∧ p.field? = some field
  | .store (.hashDeleteIf key field text) => ∃ p : Place, key = p.key c ∧ p.field? = some field ∧
      call.Removes clock? p text
  | .store (.delete key) => ∃ id, key = c.connectionKey id
  | .store (.hashGet ..) | .store (.hashGetAll _) => True
  | _ => False

/-- A call reads the clock first or not at all, and asks for what it may. -/
inductive Obeys (c : SessionCache) (call : Call) :
    Option Int64 → Program Cache.interface Unit → Prop
  | reads {next : Int64 → Program Cache.interface Unit}
      (rest : ∀ now, (next now).Only (Fits c call (some now))) :
      Obeys c call none (.ask .wallClock next)
  | acts {clock? : Option Int64} {p : Program Cache.interface Unit}
      (only : p.Only (Fits c call clock?)) : Obeys c call clock? p

section

variable {c : SessionCache} {call : Call} {clock? : Option Int64} {origin t t' : Nat}
  {m m' : Memory} {p q : Place} {text : String} {puts : List Put} {r : Request} {x : r.Answer}

theorem stamp_le_of_isStale {n stamp : Int64} (h : isStale n text = true)
    (hstamp : Stamped.stampOf? text = some stamp) : stamp ≤ n := by
  rw [isStale, hstamp] at h
  exact of_decide_eq_true h

theorem readUser?_of_names {id : ConnectionId} (h : names text id = true) :
    ∃ s, Stamped.readUser? text = some s ∧ s.entry.connection = id := by
  rw [names] at h
  split at h
  · next s hs => exact ⟨s, hs, of_decide_eq_true h⟩
  · cases h

theorem only_pruneAmong {P : Request → Prop} {key : String} {now : Int64}
    (h : ∀ field text, isStale now text = true → P (.store (.hashDeleteIf key field text)))
    (found : List (String × String)) : (pruneAmong key now found).run.Only P := by
  induction found with
  | nil => trivial
  | cons f rest ih =>
    obtain ⟨field, text⟩ := f
    have hrest : ∀ gone : Bool, (do
        let others ← pruneAmong key now rest
        return (if gone then 1 else 0) + others : Cache.Operation Nat).run.Only P :=
      fun gone => Cache.only_bind ih fun _ => Cache.only_pure _
    rw [pruneAmong]
    split
    · next hstale => exact Cache.only_bind (Cache.only_command (h field text hstale)) hrest
    · exact Cache.only_bind (Cache.only_pure false) hrest

theorem obeys_prune (b : BrokerId) : Obeys c (.prune b) none (Call.program c (.prune b)) := by
  have hgroups : ∀ now field text, isStale now text = true →
      Fits c (.prune b) (some now) (.store (.hashDeleteIf (c.groupBucket b) field text)) :=
    fun now field text hstale => ⟨.group b field, rfl, rfl,
      .expired ⟨field, .inr rfl⟩ fun stamp => stamp_le_of_isStale hstale⟩
  have husers : ∀ now field text, isStale now text = true →
      Fits c (.prune b) (some now) (.store (.hashDeleteIf (c.userBucket b) field text)) :=
    fun now field text hstale => ⟨.user b field, rfl, rfl,
      .expired ⟨field, .inl rfl⟩ fun stamp => stamp_le_of_isStale hstale⟩
  refine .reads fun now => Program.Only.bind ?_ fun _ => trivial
  refine Cache.only_bind (Cache.only_command trivial) fun found => ?_
  refine Cache.only_bind (only_pruneAmong (hgroups now) found) fun _ => ?_
  refine Cache.only_bind (Cache.only_command trivial) fun found => ?_
  exact Cache.only_bind (only_pruneAmong (husers now) found) fun _ => Cache.only_pure _

theorem obeys_forgetUser (e : UserEntry) :
    Obeys c (.forgetUser e) none (Call.program c (.forgetUser e)) := by
  refine .acts (Program.Only.bind ?_ fun _ => trivial)
  refine Cache.only_bind (Cache.only_command ⟨e.connection, rfl⟩) fun _ => ?_
  refine Cache.only_bind (Cache.only_command trivial) ?_
  rintro (_ | text)
  · trivial
  · dsimp only
    split
    · next hnames =>
      obtain ⟨s, hs, hsame⟩ := readUser?_of_names hnames
      exact Cache.only_command ⟨.user e.owner (userField e.userId), rfl, rfl, .forgotten hs hsame⟩
    · trivial

theorem obeys_program (call : Call) : Obeys c call none (call.program c) := by
  cases call with
  | refreshUser e =>
    exact .reads fun now => ⟨⟨rfl, now, .user e.owner (userField e.userId), rfl,
      ⟨e.members, rfl, rfl⟩, rfl, rfl⟩, fun _ => trivial⟩
  | refreshGroup e =>
    exact .reads fun now => ⟨⟨rfl, now, .group e.owner e.group, rfl, ⟨e.members, rfl, rfl⟩, rfl,
      rfl⟩, fun _ => trivial⟩
  | forgetUser e => exact obeys_forgetUser e
  | prune b => exact obeys_prune b

/-! ### What an answer does to a place -/

theorem isSession_field (h : p.IsSession) : p.field?.isSome := by
  cases p with
  | user | group => rfl
  | beat | connection => exact h.elim

/-- What an answer to a call leaves of what is read at a place. -/
inductive Effect (c : SessionCache) (call : Call) (clock? : Option Int64) (t : Nat)
    (puts : List Put) (q : Place) (m m' : Memory) : List Put → Prop
  | same (read : ∀ t', t ≤ t' → q.read c m' (.ofMillis t') = q.read c m (.ofMillis t')) :
      Effect c call clock? t puts q m m' puts
  | removed {text : String} (found : q.read c m (.ofMillis t) = some text)
      (removes : call.Removes clock? q text) : Effect c call clock? t puts q m m' puts
  | put {p : Place} {n : Int64} {field text : String} (clock : clock? = some n)
      (written : call.Puts c n p text) (named : p.field? = some field)
      (beside : p.key c ≠ q.key c →
        ∀ t', t ≤ t' → q.read c m' (.ofMillis t') = q.read c m (.ofMillis t'))
      (within : p.key c = q.key c → ∀ t', Duration.ofMillis t' < .ofMillis t + c.ttl →
        q.read c m' (.ofMillis t') = if q = p then some text else q.read c m (.ofMillis t)) :
      Effect c call clock? t puts q m m' (⟨p.key c, field, text, t⟩ :: puts)

theorem effect_of_not_changes {k : Store.Command} (hk : ¬ k.Changes (q.key c))
    (hm : m' = (Store.Memory.answer (.ofMillis t) k m).2) :
    Effect c call clock? t puts q m m' puts := by
  refine .same fun t' ht => ?_
  rw [hm]
  exact Place.read_of_not_changes (Duration.ofMillis_le ht) hk

theorem effect_hashPut {n : Int64} {field : String} {x : Except CacheError Unit}
    (hq : q.IsSession) (hclock : clock? = some n) (hputs : call.Puts c n p text)
    (hf : p.field? = some field)
    (hx : Store.Memory.answer (.ofMillis t) (.hashPut (p.key c) field text c.ttl) m = (x, m')) :
    Effect c call clock? t puts q m m'
      (putsAfter t puts (.store (.hashPut (p.key c) field text c.ttl)) x) := by
  by_cases hhash : m.IsHash (.ofMillis t) (p.key c)
  · have hm : m' = (Store.Memory.answer (.ofMillis t) (.hashPut (p.key c) field text c.ttl) m).2 :=
      (congrArg Prod.snd hx).symm
    have hok : x = .ok () := by
      rw [Store.Memory.answer_hashPut hhash] at hx
      exact (congrArg Prod.fst hx).symm
    rw [hok]
    refine .put hclock hputs hf ?_ ?_
    · intro hkey t' ht
      rw [hm]
      exact Place.read_of_not_changes (Duration.ofMillis_le ht) hkey
    · intro hkey t' ht'
      rw [hm, Place.read_hashPut hhash hf (isSession_field hq) hkey, if_pos ht']
  · rw [Store.Memory.answer_hashPut_of_not_isHash hhash, Prod.mk.injEq] at hx
    obtain ⟨rfl, rfl⟩ := hx
    exact .same fun _ _ => rfl

theorem effect_hashDeleteIf {field : String} {x : Except CacheError Bool} (hq : q.IsSession)
    (hremoves : call.Removes clock? p text) (hf : p.field? = some field)
    (hx : Store.Memory.answer (.ofMillis t) (.hashDeleteIf (p.key c) field text) m = (x, m')) :
    Effect c call clock? t puts q m m' puts := by
  have hm : m' = (m.deleteField (.ofMillis t) (p.key c) field (· = text)).2 :=
    (congrArg Prod.snd hx).symm
  by_cases hkey : p.key c = q.key c
  · by_cases hhash : m.IsHash (.ofMillis t) (p.key c)
    · by_cases hgone : q = p ∧ (p.read c m (.ofMillis t)).any (· = text)
      · obtain ⟨rfl, hfound⟩ := hgone
        obtain ⟨text', htext', htest⟩ := Option.any_eq_true _ _ |>.mp hfound
        obtain rfl := of_decide_eq_true htest
        exact .removed htext' hremoves
      · refine .same fun t' ht => ?_
        rw [hm, Place.read_deleteField _ hhash hf (isSession_field hq) hkey
          (Duration.ofMillis_le ht), if_neg hgone]
    · rw [Store.Memory.deleteField_of_not_isHash hhash] at hm
      exact .same fun _ _ => by rw [hm]
  · exact effect_of_not_changes (k := .hashDeleteIf (p.key c) field text) hkey hm

/-- Whatever a call may ask for, a text only goes from a place if the call may take it away. -/
theorem effect_of_fits (hr : Fits c call clock? r) (hq : q.IsSession)
    (hx : AnswersAt (.ofMillis t) (wallAt origin t) true r m x m') :
    Effect c call clock? t puts q m m' (putsAfter t puts r x) := by
  cases r with
  | wallClock | log => exact hr.elim
  | store k =>
    obtain hcarried | ⟨-, rfl, e, rfl⟩ := hx
    · cases k with
      | hashPut key field text ttl =>
        obtain ⟨rfl, n, p, hclock, hputs, rfl, hf⟩ := hr
        exact effect_hashPut hq hclock hputs hf hcarried
      | hashDeleteIf key field text =>
        obtain ⟨p, rfl, hf, hremoves⟩ := hr
        exact effect_hashDeleteIf hq hremoves hf hcarried
      | delete key =>
        obtain ⟨id, rfl⟩ := hr
        refine effect_of_not_changes (k := .delete (c.connectionKey id)) ?_
          (congrArg Prod.snd hcarried).symm
        intro hkey
        exact Place.key_ne (q := .connection id) (isSession_field hq) rfl hkey.symm
      | hashGet key field =>
        exact effect_of_not_changes (k := .hashGet key field) (fun e => e)
          (congrArg Prod.snd hcarried).symm
      | hashGetAll key =>
        obtain ⟨rfl, -⟩ := hcarried
        exact .same fun _ _ => rfl
      | hashDelete | put | get | purgeExpired => exact hr.elim
    · have hputs : putsAfter t puts (.store k) (.error e) = puts := by
        cases k <;> rfl
      rw [hputs]
      exact .same fun _ _ => rfl

/-! ### Times -/

theorem Lapsed.later (h : Lapsed c p puts t) (ht : t ≤ t') : Lapsed c p puts t' := by
  induction puts generalizing t t' with
  | nil => exact h
  | cons w puts ih =>
    rw [Lapsed] at h ⊢
    split at h
    · next hkey =>
      rw [if_pos hkey]
      obtain hlate | hearlier := h
      · left
        have := Duration.ofMillis_le ht
        rw [Duration.le_iff] at hlate this ⊢
        omega
      · exact .inr hearlier
    · next hkey =>
      rw [if_neg hkey]
      exact ih h ht

/-- As long as a bucket was not given up, its time has not run out. -/
theorem lt_of_not_lapsed (h : ¬ Lapsed c p puts t) (hput : lastPut c p puts = some text) :
    ∃ s, lastTime (p.key c) puts = some s ∧ Duration.ofMillis t < .ofMillis s + c.ttl := by
  induction puts with
  | nil => cases hput
  | cons w puts ih =>
    by_cases hkey : w.key = p.key c
    · rw [Lapsed, if_pos hkey, not_or] at h
      refine ⟨w.time, if_pos hkey, ?_⟩
      have := h.1
      rw [Duration.le_iff] at this
      rw [Duration.lt_iff]
      omega
    · rw [Lapsed, if_neg hkey] at h
      rw [lastPut, if_neg fun e => hkey e.1] at hput
      rw [lastTime, if_neg hkey]
      exact ih h hput

end

/-! ### What every step preserves -/

/-- A refresh put the text in a place. -/
def Written (c : SessionCache) (strands : List Racer) (p : Place) (text : String) : Prop :=
  ∃ f ∈ strands, ∃ n, f.note = some n ∧ f.call.Puts c n p text

/-- Some call may have taken the text away. -/
def Excused (strands : List Racer) (p : Place) (text : String) : Prop :=
  ∃ f ∈ strands, f.call.Removes f.note p text

/-- The text is found at a place for as long as its bucket lasts. -/
def Kept (c : SessionCache) (p : Place) (text : String) (s : Moment) : Prop :=
  ∃ written, lastTime (p.key c) s.puts = some written ∧ ∀ t', s.time ≤ t' →
    Duration.ofMillis t' < .ofMillis written + c.ttl →
      p.read c s.memory (.ofMillis t') = some text

structure Sound (c : SessionCache) (origin : Nat) (s : Moment) (strands : List Racer) : Prop where
  inTime : origin + s.time < horizon
  obeys : ∀ f ∈ strands, Obeys c f.call f.note f.left
  early : ∀ f ∈ strands, ∀ n, f.note = some n → n.toInt < horizon
  written : ∀ p text, p.IsSession → lastPut c p s.puts = some text → Written c strands p text
  kept : ∀ p text, p.IsSession → lastPut c p s.puts = some text →
    ¬ Lapsed c p s.puts s.time → Excused strands p text ∨ Kept c p text s

/-- The calls of some strands are still there, and know what they knew. -/
def Remain (strands strands' : List Racer) : Prop :=
  ∀ f ∈ strands, ∃ f' ∈ strands', f'.call = f.call ∧ ∀ n, f.note = some n → f'.note = some n

section

variable {c : SessionCache} {origin t : Nat} {s s' : Moment}
  {before after strands strands' : List Racer} {f f' : Racer} {p q : Place} {text : String}

theorem Written.remain (h : Written c strands p text) (hr : Remain strands strands') :
    Written c strands' p text := by
  obtain ⟨f, hf, n, hn, hputs⟩ := h
  obtain ⟨f', hf', hcall, hnote⟩ := hr f hf
  exact ⟨f', hf', n, hnote n hn, by rw [hcall]; exact hputs⟩

theorem Excused.remain (h : Excused strands p text) (hr : Remain strands strands') :
    Excused strands' p text := by
  obtain ⟨f, hf, hremoves⟩ := h
  obtain ⟨f', hf', hcall, hnote⟩ := hr f hf
  refine ⟨f', hf', ?_⟩
  rw [hcall]
  revert hremoves
  generalize f.call = call at *
  generalize f.note = note at *
  rintro (⟨own, stale⟩ | ⟨named, same⟩)
  · rw [hnote _ rfl]
    exact .expired own stale
  · exact .forgotten named same

variable (before after) in
theorem remain_middle (hcall : f'.call = f.call)
    (hnote : ∀ n, f.note = some n → f'.note = some n) :
    Remain (before ++ f :: after) (before ++ f' :: after) := by
  intro g hg
  rcases Ensemble.mem_middle.mp hg with rfl | hg
  · exact ⟨f', Ensemble.mem_middle.mpr (.inl rfl), hcall, hnote⟩
  · exact ⟨g, Ensemble.mem_middle.mpr (.inr hg), rfl, fun _ hn => hn⟩

theorem Kept.now {last : String} (h : Kept c p text s) (hlast : lastPut c p s.puts = some last)
    (hlapsed : ¬ Lapsed c p s.puts s.time) :
    p.read c s.memory (.ofMillis s.time) = some text := by
  obtain ⟨written, hwritten, hread⟩ := h
  obtain ⟨written', hwritten', hlt⟩ := lt_of_not_lapsed hlapsed hlast
  rw [hwritten, Option.some.injEq] at hwritten'
  subst hwritten'
  exact hread s.time (Nat.le_refl _) hlt

/-- The place that a text was put in is known by its key and its field. -/
theorem isAt_iff {field : String} (hf : q.field? = some field) :
    Put.IsAt c p ⟨q.key c, field, text, t⟩ ↔ p = q := by
  constructor
  · rintro ⟨hkey, hfield⟩
    exact Place.eq_of_key hkey.symm (hfield.trans hf.symm)
  · rintro rfl
    exact ⟨rfl, hf⟩

/-- A step of one call, told by what it does to each place. -/
theorem Sound.act {m : Memory} {puts : List Put} (h : Sound c origin s (before ++ f :: after))
    (hcall : f'.call = f.call) (hnote : ∀ n, f.note = some n → f'.note = some n)
    (hobeys : Obeys c f'.call f'.note f'.left)
    (hearly : ∀ n, f'.note = some n → n.toInt < horizon)
    (heffect : ∀ q, q.IsSession →
      Effect c f.call f.note s.time s.puts q s.memory m puts) :
    Sound c origin ⟨s.time, m, puts⟩ (before ++ f' :: after) where
  inTime := h.inTime
  obeys g hg := by
    rcases Ensemble.mem_middle.mp hg with rfl | hg
    · exact hobeys
    · exact h.obeys g (Ensemble.mem_middle.mpr (.inr hg))
  early g hg := by
    rcases Ensemble.mem_middle.mp hg with rfl | hg
    · exact hearly
    · exact h.early g (Ensemble.mem_middle.mpr (.inr hg))
  written p text hp hlast := by
    have hr := remain_middle before after hcall hnote
    have hself : f ∈ before ++ f :: after := Ensemble.mem_middle.mpr (.inl rfl)
    cases heffect p hp with
    | same | removed => exact (h.written p text hp hlast).remain hr
    | put clock written named =>
      rw [lastPut] at hlast
      split at hlast
      · next hat =>
        obtain rfl := (isAt_iff named).mp hat
        obtain rfl := Option.some.inj hlast
        exact Written.remain ⟨f, hself, _, clock, written⟩ hr
      · exact (h.written p text hp hlast).remain hr
  kept p text hp hlast hlapsed := by
    have hr := remain_middle before after hcall hnote
    have hself : f ∈ before ++ f :: after := Ensemble.mem_middle.mpr (.inl rfl)
    cases heffect p hp with
    | same read =>
      obtain hexcused | ⟨written, hwritten, hread⟩ := h.kept p text hp hlast hlapsed
      · exact .inl (hexcused.remain hr)
      · refine .inr ⟨written, hwritten, fun t' ht hlt => ?_⟩
        rw [read t' ht]
        exact hread t' ht hlt
    | removed found removes =>
      left
      obtain hexcused | hkept := h.kept p text hp hlast hlapsed
      · exact hexcused.remain hr
      · have hnow := hkept.now hlast hlapsed
        rw [found, Option.some.injEq] at hnow
        subst hnow
        exact Excused.remain ⟨f, hself, removes⟩ hr
    | @put q n field text' clock written named beside within =>
      rw [lastPut] at hlast
      rw [Lapsed] at hlapsed
      by_cases hkey : q.key c = p.key c
      · rw [if_pos hkey, not_or] at hlapsed
        by_cases hat : Put.IsAt c p ⟨q.key c, field, text', s.time⟩
        · -- the text that was just put
          rw [if_pos hat] at hlast
          obtain rfl := Option.some.inj hlast
          refine .inr ⟨s.time, if_pos hkey, fun t' _ hlt => ?_⟩
          rw [within hkey t' hlt, if_pos ((isAt_iff named).mp hat)]
        · -- the bucket lasts longer now
          rw [if_neg hat] at hlast
          have hbefore : ¬ Lapsed c p s.puts s.time := fun e => hlapsed.2 ⟨hat, e⟩
          obtain hexcused | hkept := h.kept p text hp hlast hbefore
          · exact .inl (hexcused.remain hr)
          · refine .inr ⟨s.time, if_pos hkey, fun t' _ hlt => ?_⟩
            rw [within hkey t' hlt, if_neg fun e => hat ((isAt_iff named).mpr e)]
            exact hkept.now hlast hbefore
      · rw [if_neg hkey] at hlapsed
        rw [if_neg fun hat : Put.IsAt c p _ => hkey hat.1] at hlast
        obtain hexcused | ⟨last, hlast', hread⟩ := h.kept p text hp hlast hlapsed
        · exact .inl (hexcused.remain hr)
        · refine .inr ⟨last, (if_neg hkey).trans hlast', fun t' ht hlt => ?_⟩
          rw [beside hkey t' ht]
          exact hread t' ht hlt

theorem sound_drift (h : Sound c origin s strands) (hd : (races c origin).drifts s s') :
    Sound c origin s' strands := by
  obtain ⟨hle, hbound, hs'⟩ := hd
  rw [hs']
  refine ⟨hbound, h.obeys, h.early, h.written, ?_⟩
  intro p text hp hlast hlapsed
  have hbefore : ¬ Lapsed c p s.puts s.time := fun e => hlapsed (e.later hle)
  obtain hexcused | ⟨written, hwritten, hread⟩ := h.kept p text hp hlast hbefore
  · exact .inl hexcused
  · exact .inr ⟨written, hwritten, fun t' ht => hread t' (Nat.le_trans hle ht)⟩

theorem sound_call (h : Sound c origin s strands) (call : Call) :
    Sound c origin s (⟨call, none, call.program c⟩ :: strands) := by
  have hr : Remain strands (⟨call, none, call.program c⟩ :: strands) :=
    fun f hf => ⟨f, List.mem_cons_of_mem _ hf, rfl, fun _ hn => hn⟩
  constructor
  · exact h.inTime
  · exact List.forall_mem_cons.mpr ⟨obeys_program call, h.obeys⟩
  · exact List.forall_mem_cons.mpr ⟨nofun, h.early⟩
  · exact fun p text hp hlast => (h.written p text hp hlast).remain hr
  · exact fun p text hp hlast hlapsed => (h.kept p text hp hlast hlapsed).imp_left (·.remain hr)

section

variable {call : Call} {note : Option Int64} {r : Request}
  {next : r.Answer → Program Cache.interface Unit} {x : r.Answer}

theorem effect_of_answer (h : Sound c origin s (before ++ ⟨call, note, .ask r next⟩ :: after))
    (hx : (races c origin).answers note r s x s') (hq : q.IsSession) :
    Effect c call note s.time s.puts q s.memory s'.memory s'.puts := by
  obtain ⟨-, hputs, hmemory⟩ := hx
  rw [hputs]
  cases h.obeys _ (Ensemble.mem_middle.mpr (.inl rfl)) with
  | reads rest => exact .same fun _ _ => by rw [hmemory.2]
  | acts only => exact effect_of_fits only.1 hq hmemory

theorem sound_answer (h : Sound c origin s (before ++ ⟨call, note, .ask r next⟩ :: after))
    (hx : (races c origin).answers note r s x s') :
    Sound c origin s' (before ++ ⟨call, clockAfter note r x, next x⟩ :: after) := by
  have hself : (⟨call, note, .ask r next⟩ : Racer) ∈
      before ++ ⟨call, note, .ask r next⟩ :: after := Ensemble.mem_middle.mpr (.inl rfl)
  have heffect := fun q hq => effect_of_answer (q := q) h hx hq
  have hearly := h.early _ hself
  obtain ⟨time, memory, puts⟩ := s'
  obtain ⟨rfl, -, hmemory⟩ := hx
  cases h.obeys _ hself with
  | reads rest =>
    refine h.act rfl nofun (.acts (rest x)) ?_ heffect
    rintro n ⟨⟩
    rw [hmemory.1, Cache.toInt_wallAt h.inTime]
    exact_mod_cast h.inTime
  | acts only =>
    have hclock : clockAfter note r x = note := by
      cases r with
      | wallClock => exact only.1.elim
      | store | log => rfl
    rw [hclock]
    exact h.act rfl (fun _ hn => hn) (.acts (only.2 x)) hearly heffect

end

theorem sound_of_reached {x : Ensemble.Scene Cache.interface Call (Option Int64) Moment}
    (h : (races c origin).Reached (Begins origin) x) :
    Sound c origin x.state x.strands := by
  induction h with
  | start hstart =>
    obtain ⟨hbound, hputs⟩ := hstart
    refine ⟨hbound, nofun, nofun, ?_, ?_⟩
    · intro p text _ hlast
      rw [hputs] at hlast
      cases hlast
    · intro p text _ hlast
      rw [hputs] at hlast
      cases hlast
  | step _ hstep ih =>
    cases hstep with
    | drift hd => exact sound_drift ih hd
    | call call => exact sound_call ih call
    | answer hx => exact sound_answer ih hx

/-! ### Nothing is lost -/

theorem stampOf?_of_puts {call : Call} {n : Int64} (h : call.Puts c n p text) :
    Stamped.stampOf? text = some (c.stampAt n) := by
  obtain ⟨members, hwriting, rfl⟩ := h
  cases call with
  | refreshUser e =>
    obtain ⟨-, rfl⟩ := Prod.mk.inj (Option.some.inj hwriting)
    exact Stamped.stampOf?_render_user _ _
  | refreshGroup e =>
    obtain ⟨-, rfl⟩ := Prod.mk.inj (Option.some.inj hwriting)
    exact Stamped.stampOf?_render_group _ _
  | forgetUser | prune => cases hwriting

/-- While requests are answered a text only goes from a place through a call that may take it away,
and a pass takes away none that a refresh put which read the clock when the pass did or later. So at
any moment a place holds the text of its last refresh, unless a call may have taken that text away
or its bucket has gone for the time to live without being written. -/
theorem refreshes_not_lost (httl : 1 ≤ c.ttl.millis)
    {x : Ensemble.Scene Cache.interface Call (Option Int64) Moment}
    (h : (races c origin).Reached (Begins origin) x) :
    (∀ (before after : List Racer) (call : Call) (clock? : Option Int64) (r : Request)
        (next : r.Answer → Program Cache.interface Unit) (y : r.Answer) (s' : Moment),
      x.strands = before ++ ⟨call, clock?, .ask r next⟩ :: after →
      (races c origin).answers clock? r x.state y s' →
      ∀ (p : Place) (text : String), p.IsSession →
        p.read c x.state.memory (.ofMillis x.state.time) = some text →
        p.read c s'.memory (.ofMillis s'.time) = none →
        call.Removes clock? p text ∧
          ∀ b n, call = .prune b → clock? = some n → ∀ f ∈ x.strands, ∀ n',
            f.note = some n' → f.call.Puts c n' p text → n' < n) ∧
    ∀ (p : Place) (text : String), p.IsSession → lastPut c p x.state.puts = some text →
      Written c x.strands p text ∧
        (p.read c x.state.memory (.ofMillis x.state.time) = some text ∨
          Excused x.strands p text ∨ Lapsed c p x.state.puts x.state.time) := by
  have hsound := sound_of_reached h
  constructor
  · intro before after call clock? r next y s' hstrands hy p text hp hfound hgone
    rw [hstrands] at hsound
    obtain ⟨time, memory, puts⟩ := s'
    have heffect : Effect c call clock? x.state.time x.state.puts p x.state.memory memory puts :=
      effect_of_answer hsound hy hp
    obtain ⟨rfl, -, -⟩ := hy
    have hremoves : call.Removes clock? p text := by
      cases heffect with
      | same read =>
        rw [read _ (Nat.le_refl _), hfound] at hgone
        cases hgone
      | removed found removes =>
        rw [hfound, Option.some.injEq] at found
        rw [found]
        exact removes
      | @put q n field text' clock written named beside within =>
        by_cases hkey : q.key c = p.key c
        · rw [within hkey _ (Cache.lt_add_ttl httl _)] at hgone
          split at hgone
          · cases hgone
          · rw [hfound] at hgone
            cases hgone
        · rw [beside hkey _ (Nat.le_refl _), hfound] at hgone
          cases hgone
    refine ⟨hremoves, ?_⟩
    rintro b n rfl rfl f hf n' hn' hputs
    rw [hstrands] at hf
    obtain ⟨-, stale⟩ := hremoves
    -- the pass found the stamp in the past, and a refresh stamps beyond the clock that it read
    have hstamp := stale _ (stampOf?_of_puts hputs)
    have hlater := Cache.lt_stampAt httl (hsound.early f hf n' hn')
    exact Int64.lt_of_lt_of_le hlater hstamp
  · intro p text hp hlast
    refine ⟨hsound.written p text hp hlast, ?_⟩
    by_cases hlapsed : Lapsed c p x.state.puts x.state.time
    · exact .inr (.inr hlapsed)
    · obtain hexcused | hkept := hsound.kept p text hp hlast hlapsed
      · exact .inr (.inl hexcused)
      · exact .inl (hkept.now hlast hlapsed)

end

/-! ### Two races -/

/-- The races while the store does not fail. -/
def soundly (c : SessionCache) (origin : Nat) : Ensemble.Player (races c origin) where
  answer _ r s :=
    let y := Cache.answer origin s.time r s.memory
    some (y.1, ⟨s.time, y.2, putsAfter s.time s.puts r y.1⟩)
  drift t s := if s.time ≤ t ∧ origin + t < horizon then some { s with time := t } else none
  allow _ _ := true
  Good _ := True
  answers {_ r s x s'} _ hx := by
    obtain ⟨rfl, rfl⟩ := Prod.mk.inj (Option.some.inj hx)
    refine ⟨⟨rfl, rfl, ?_⟩, trivial⟩
    cases r with
    | store k => exact .inl Store.Memory.carries_answer
    | wallClock => exact ⟨rfl, rfl⟩
    | log e => rfl
  drifts {t s s'} _ hs := by
    split at hs
    · next ht =>
      obtain rfl := Option.some.inj hs
      exact ⟨⟨ht.1, ht.2, rfl⟩, trivial⟩
    · cases hs
  admits _ := trivial

/-- A cache whose entries last ten milliseconds. -/
def fleeting : SessionCache := ⟨"k", .ofMillis 10⟩

def guest : UserEntry := ⟨⟨"c"⟩, 1, 7, none, "jwt", ⟨"b"⟩⟩

def neighbour : UserEntry := ⟨⟨"d"⟩, 1, 8, none, "jwt", ⟨"b"⟩⟩

def guestPlace : Place := .user guest.owner (userField guest.userId)

/-- A pass finds the guest's field stale, and the field is refreshed before the pass deletes. -/
def lateRefresh : List (Ensemble.Move Call) :=
  [.call (.refreshUser guest), .advance 0 2, .drift 8, .call (.refreshUser neighbour), .advance 0 2,
    .drift 12, .call (.prune ⟨"b"⟩), .advance 0 3, .call (.refreshUser guest), .advance 0 2,
    .advance 1 1]

/-- Nobody writes the bucket for longer than its time to live. -/
def longSilence : List (Ensemble.Move Call) :=
  [.call (.refreshUser guest), .advance 0 2, .drift 20, .call (.refreshUser neighbour),
    .advance 0 2]

/-- A scene that is played from an empty memory and passes a test is reached. -/
theorem exists_played (moves : List (Ensemble.Move Call))
    (test : Ensemble.Scene Cache.interface Call (Option Int64) Moment → Bool)
    (h : ((soundly fleeting 0).play moves ⟨⟨0, .empty, []⟩, []⟩).any test = true) :
    ∃ x, (races fleeting 0).Reached (Begins 0) x ∧ test x = true := by
  obtain ⟨x, hx, htest⟩ := (Option.any_eq_true _ _).mp h
  exact ⟨x, Ensemble.Player.reached_play (.start ⟨by decide, rfl⟩) trivial hx, htest⟩

theorem done_of_all {strands : List Racer} (h : strands.all Strand.isDone = true) :
    ∀ f ∈ strands, f.left = .done () :=
  fun f hf => Strand.isDone_iff.mp (List.all_eq_true.mp h f hf)

theorem refresh_outlives_pass : ∃ x, (races fleeting 0).Reached (Begins 0) x ∧
    (∀ f ∈ x.strands, f.left = .done ()) ∧
    guestPlace.read fleeting x.state.memory (.ofMillis x.state.time) =
      some (Stamped.render guest.members 22) ∧
    Written fleeting x.strands guestPlace (Stamped.render guest.members 22) := by
  obtain ⟨x, hx, htest⟩ := exists_played lateRefresh (fun x =>
    x.strands.all Strand.isDone &&
    lastPut fleeting guestPlace x.state.puts = some (Stamped.render guest.members 22) &&
    guestPlace.read fleeting x.state.memory (.ofMillis x.state.time) =
      some (Stamped.render guest.members 22)) (by decide +kernel)
  simp only [Bool.and_eq_true, decide_eq_true_eq] at htest
  obtain ⟨⟨hdone, hlast⟩, hread⟩ := htest
  exact ⟨x, hx, done_of_all hdone, hread,
    ((refreshes_not_lost (by decide) hx).2 guestPlace _ trivial hlast).1⟩

/-- Nobody prunes or forgets, and the guest's field is gone all the same. -/
theorem lapsed_bucket_loses : ∃ x, (races fleeting 0).Reached (Begins 0) x ∧
    (∀ f ∈ x.strands, f.left = .done ()) ∧
    x.strands.map (·.call) = [.refreshUser neighbour, .refreshUser guest] ∧
    lastPut fleeting guestPlace x.state.puts = some (Stamped.render guest.members 10) ∧
    guestPlace.read fleeting x.state.memory (.ofMillis x.state.time) = none ∧
    ¬ Excused x.strands guestPlace (Stamped.render guest.members 10) := by
  obtain ⟨x, hx, htest⟩ := exists_played longSilence (fun x =>
    x.strands.all Strand.isDone &&
    x.strands.map (·.call) = [.refreshUser neighbour, .refreshUser guest] &&
    lastPut fleeting guestPlace x.state.puts = some (Stamped.render guest.members 10) &&
    guestPlace.read fleeting x.state.memory (.ofMillis x.state.time) = none) (by decide +kernel)
  simp only [Bool.and_eq_true, decide_eq_true_eq] at htest
  obtain ⟨⟨⟨hdone, hcalls⟩, hlast⟩, hread⟩ := htest
  refine ⟨x, hx, done_of_all hdone, hcalls, hlast, hread, ?_⟩
  rintro ⟨f, hf, hremoves⟩
  have hcall : f.call ∈ x.strands.map (·.call) := List.mem_map_of_mem hf
  rw [hcalls] at hcall
  generalize f.call = call at hcall hremoves
  generalize f.note = note at hremoves
  generalize guestPlace = p at hremoves
  cases hremoves with
  | expired | forgotten => simp at hcall

end SessionGateway.SessionCache
