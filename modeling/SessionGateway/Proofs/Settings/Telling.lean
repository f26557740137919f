import SessionGateway.Proofs.Settings.Corrections
import SessionGateway.Proofs.Settings.Environment
import SessionGateway.Proofs.Startup

/-!
# Which corrections a starting node tells

Settings are corrected while they are loaded, when there is no log yet, and once more when there is
one. The second time nothing is left to correct, so the log of a node tells no correction, however
many fields were corrected. Only a timeout for which the first correction found a multiple too large
for its field can be told.
-/

namespace SessionGateway

namespace Settings

/-- A correction of each field, whatever was in it. -/
def Checked.correction : Checked → Correction
  | wsPath => .wsPath "" ""
  | pingInterval => .pingInterval
  | pongTimeout => .pongTimeout 0 0
  | requestTimeout => .requestTimeout
  | lockTimeout => .lockTimeout
  | processorTimeout => .processorTimeout
  | reconcileInterval => .reconcileInterval
  | entryTtl => .entryTtl 0 0
  | secretKey => .secretKey

/-- The field whose correction an event tells, if it tells one: a warning in the words of the
field. -/
def corrected? (e : Log.Event) : Option Checked :=
  Checked.all.find? fun f => e.level = .warn && e.message = f.correction.event.message

theorem corrected?_event (c : Correction) : corrected? c.event = some c.field := by
  cases c <;> rfl

theorem level_event (c : Correction) : c.event.level = .warn := by
  cases c <;> rfl

theorem corrected?_of_level {e : Log.Event} (h : e.level ≠ .warn) : corrected? e = none := by
  simp [corrected?, h]

/-! ### Correcting once more -/

theorem correct_correct {s : Settings} (h : Spacious s) :
    s.correct.1.correct = (s.correct.1, []) := by
  show applyRules (Checked.all.map Checked.rule) s.correct.1 = _
  exact Checked.applyRules_of_meets fun f _ => Checked.meets_correct h f

/-- A field whose condition reads no other field is in order beside anything, once corrected. -/
theorem Checked.meets_of_reads_none {f : Checked} (hreads : f.reads? = none) (s s' : Settings) :
    f.Meets s' (get s.correct.1 f) := by
  have hbeside : ∀ v, f.Meets s.correct.1 v ↔ f.Meets s' v := by
    cases f with
    | pongTimeout | entryTtl => cases hreads
    | _ => exact fun _ => Iff.rfl
  rw [(applied_correct s).value f (mem_all f), ← hbeside]
  split
  · next hmeets => exact hmeets
  · exact meets_remedy_of_reads_none hreads _ _

/-- What can be corrected a second time. -/
theorem reads?_of_corrected_again {s : Settings} {f : Checked}
    (hf : f ∈ s.correct.1.correct.2.map Correction.field) : f.reads? ≠ none := by
  intro hreads
  rw [(Checked.applied_correct s.correct.1).told, List.mem_filter, decide_eq_true_eq] at hf
  exact hf.2 (Checked.meets_of_reads_none hreads s _)

/-! ### The command line -/

/-- The options of a command line are about nothing that is checked. -/
theorem Checked.rule_apply (c : CommandLine) (f : Checked) (s : Settings) :
    f.rule (c.apply s) = (f.rule s).map fun r => (c.apply r.1, r.2) := by
  cases f <;>
    simp only [rule, Rule.wsPath, Rule.pingInterval, Rule.pongTimeout, Rule.requestTimeout,
      Rule.lockTimeout, Rule.processorTimeout, Rule.reconcileInterval, Rule.entryTtl,
      Rule.secretKey, apply_ite (Option.map _)] <;>
    rfl

theorem applyRules_apply (c : CommandLine) (fs : List Checked) (s : Settings) :
    applyRules (fs.map Checked.rule) (c.apply s) =
      (c.apply (applyRules (fs.map Checked.rule) s).1,
        (applyRules (fs.map Checked.rule) s).2) := by
  induction fs generalizing s with
  | nil => rfl
  | cons f rest ih =>
    simp only [List.map_cons, applyRules, Checked.rule_apply]
    cases f.rule s with
    | none => exact ih s
    | some r => simp only [Option.map_some, ih]

theorem correct_apply (c : CommandLine) (s : Settings) :
    (c.apply s).correct = (c.apply s.correct.1, s.correct.2) :=
  applyRules_apply c Checked.all s

/-- A file that can be read loads in every environment. -/
theorem load_of_ofFile {file : File} {base : Settings} (h : ofFile file = .ok base)
    (lookup : String → Option String) :
    ∃ loaded, load file lookup = .ok loaded ∧
      loaded.settings = (overridden lookup base).correct.1 ∧
      loaded.corrections = (overridden lookup base).correct.2 := by
  rw [load, h, ← applyEnvironment_eq]
  exact ⟨_, rfl, rfl, rfl⟩

end Settings

namespace Startup

open Settings (Checked Correction Spacious corrected? overridden)

variable {σ : Type}

/-- What is logged is shown from this request on. -/
def Request.beginsLog : Request → Bool
  | .showLog _ => true
  | _ => false

/-- The field whose correction a request tells in a log of a level, if it tells one. -/
def Request.tells? (limit : Log.Level) : Request → Option Checked
  | .log e => if limit.admits e.level then corrected? e else none
  | _ => none

def tellings (limit : Log.Level) (trace : List (Exchange interface σ)) : List Checked :=
  trace.filterMap fun x => x.request.tells? limit

/-- The fields whose corrections a log of a level tells, in order. Nothing is shown of what comes
before the log is begun. -/
def told (limit : Log.Level) (trace : List (Exchange interface σ)) : List Checked :=
  tellings limit (trace.dropWhile fun x => !x.request.beginsLog)

/-- Requests that tell no correction. -/
def Quiet (limit : Log.Level) (r : Request) : Prop := r.tells? limit = none

/-! ### What is logged beside corrections -/

section

variable {limit : Log.Level}

theorem only_log {e : Log.Event} (h : corrected? e = none) : (log e).Only (Quiet limit) :=
  ⟨by simp [Quiet, Request.tells?, h], fun _ => trivial⟩

theorem only_log_info (message : String) (fields : List (String × String)) :
    (log (Log.info message fields)).Only (Quiet limit) :=
  only_log (Settings.corrected?_of_level (by simp [Log.info]))

theorem redis_quiet {α : Type} (c : Redis.Conversation α) : (redis c).Only (Quiet limit) := by
  refine Program.only_expand ?_ c
  intro r
  exact ⟨rfl, fun _ => trivial⟩

theorem openStore_quiet (s : CacheSettings) : (openStore s).Only (Quiet limit) := by
  unfold openStore
  cases s.backend with
  | memory => exact (only_log rfl).bind fun _ => trivial
  | redis =>
    refine (redis_quiet _).bind_ends (connect_ends s.redisUrl).expand ?_
    rintro (e | event) hevent
    · trivial
    · obtain rfl := hevent event rfl
      refine (only_log_info _ _).bind fun _ => (redis_quiet _).bind ?_
      rintro (e | ⟨⟩)
      · trivial
      · exact (only_log_info _ _).bind fun _ => trivial

theorem tellings_quiet {trace : List (Exchange interface σ)}
    (h : ∀ x ∈ trace, Quiet limit x.request) : tellings limit trace = [] :=
  List.filterMap_eq_nil_iff.mpr h

/-! ### What is told -/

theorem logAll_tells (hlimit : limit.admits .warn = true) (cs : List Correction) (st : σ) :
    (logAll (cs.map Correction.event)).Ensures (fun _ _ _ _ => True) st fun trace _ _ =>
      tellings limit trace = cs.map Correction.field := by
  induction cs generalizing st with
  | nil => rfl
  | cons c cs ih =>
    intro _ st' _
    refine (ih st').mono ?_
    intro trace _ _ htold
    have hfirst : (Request.log c.event).tells? limit = some c.field := by
      rw [Request.tells?, Settings.level_event, if_pos hlimit, Settings.corrected?_event]
    calc tellings limit (_ :: trace)
        = c.field :: tellings limit trace := List.filterMap_cons_some hfirst
      _ = (c :: cs).map Correction.field := by rw [htold, List.map_cons]

theorem launch_tells (hlimit : limit.admits .warn = true) (s : Settings) (generated : BrokerId)
    (st : σ) :
    (launch s generated).Ensures (fun _ _ _ _ => True) st fun trace _ _ =>
      told limit trace = s.correct.2.map Correction.field := by
  intro _ st' _
  show ((logAll (s.correct.2.map Correction.event)).bind _).Ensures _ st' _
  refine Program.ensures_bind.mpr ((logAll_tells hlimit s.correct.2 st').mono ?_)
  intro trace _ st'' htold
  have hrest : ∀ trace' : List (Exchange interface σ), (∀ x ∈ trace', Quiet limit x.request) →
      tellings limit (trace ++ trace') = s.correct.2.map Correction.field := by
    intro trace' hquiet
    rw [tellings, List.filterMap_append, ← tellings, htold, ← tellings, tellings_quiet hquiet,
      List.append_nil]
  refine (Program.Only.requests (P := Quiet limit) ?_ st'').mono fun trace' _ _ => hrest trace'
  refine (only_log_info _ _).bind fun _ => (openStore_quiet _).bind ?_
  rintro (e | ⟨⟩)
  · trivial
  · refine ⟨rfl, ?_⟩
    rintro (_ | address)
    · trivial
    · exact (only_log_info _ _).bind fun _ => (only_log_info _ _).bind fun _ => trivial

theorem told_start (hlimit : limit.admits .warn = true) {file : Settings.File} {base : Settings}
    (hfile : Settings.ofFile file = .ok base) (lookup : String → Option String) (c : CommandLine)
    (generated : BrokerId) (answer : (r : Request) → σ → r.Answer × σ) (st : σ) :
    told limit ((start c file lookup generated).exchanges answer st) =
      (overridden lookup base).correct.1.correct.2.map Correction.field := by
  obtain ⟨loaded, hload, hsettings, -⟩ := Settings.load_of_ofFile hfile lookup
  have hstart : start c file lookup generated = launch (c.apply loaded.settings) generated := by
    rw [start, settingsOf, hload]
    rfl
  rw [hstart, (launch_tells hlimit _ generated st).exchanges fun _ _ => trivial,
    Settings.correct_apply, hsettings]

end

/-- A node gets past loading: it has corrected the fields whose values are not in order. Its log
tells what can be corrected once more. That is at most a timeout whose interval has no multiple that
fits, and with space for the multiples it is nothing: the log tells every correction only if there
was none. -/
theorem corrections_unheard {limit : Log.Level} (hlimit : limit.admits .warn = true)
    {file : Settings.File} {base : Settings} (hfile : Settings.ofFile file = .ok base)
    (lookup : String → Option String) (c : CommandLine) (generated : BrokerId)
    (answer : (r : Request) → σ → r.Answer × σ) (st : σ) :
    let merged := overridden lookup base
    let heard := told limit ((start c file lookup generated).exchanges answer st)
    ∃ loaded, Settings.load file lookup = .ok loaded ∧
      loaded.corrections.map Correction.field =
        Checked.all.filter (fun f => ¬ f.Meets merged.correct.1 (Checked.get merged f)) ∧
      heard = merged.correct.1.correct.2.map Correction.field ∧
      (∀ f ∈ heard, f.reads? ≠ none) ∧
      (Spacious merged →
        heard = [] ∧ (heard.length = loaded.corrections.length ↔ loaded.corrections = [])) := by
  intro merged heard
  obtain ⟨loaded, hload, -, hcorrections⟩ := Settings.load_of_ofFile hfile lookup
  have hheard : heard = merged.correct.1.correct.2.map Correction.field :=
    told_start hlimit hfile lookup c generated answer st
  refine ⟨loaded, hload, ?_, hheard, ?_, ?_⟩
  · rw [hcorrections]
    exact (Checked.applied_correct merged).told
  · intro f hf
    rw [hheard] at hf
    exact Settings.reads?_of_corrected_again hf
  · intro hspacious
    have hnone : heard = [] := by
      rw [hheard, Settings.correct_correct hspacious]
      rfl
    refine ⟨hnone, ?_⟩
    rw [hnone, List.length_nil, eq_comm, List.length_eq_zero_iff]

/-- An environment with a path that is not absolute and a Redis server that cannot be reached. -/
def unrooted (name : String) : Option String :=
  if name = "CONDUIT_WS_PATH" then some "ws"
  else if name = "CONDUIT_CACHE_BACKEND" then some "redis"
  else if name = "CONDUIT_REDIS_URL" then some "nope"
  else if name = "CONDUIT_LOG_JSON" then some "yes"
  else none

/-- What a node without a settings file asks for in this environment. -/
def unrootedStart : List (Exchange interface (Scene Unit)) :=
  (start { logLevel := some "warn" } .absent unrooted ⟨"node"⟩).exchanges (Scene.answer obliging)
    ⟨(), []⟩

theorem warn_admits : Log.Level.warn.admits .warn = true := by decide

theorem ofFile_absent : Settings.ofFile .absent = .ok {} := rfl

theorem unrooted_unheard :
    Settings.ofFile .absent = .ok {} ∧ Log.Level.warn.admits .warn = true ∧
      ∃ loaded, Settings.load .absent unrooted = .ok loaded ∧
        loaded.corrections.map Correction.field = [.wsPath] ∧ told .warn unrootedStart = [] := by
  obtain ⟨loaded, hload, hcorrected, -, -, hunheard⟩ :=
    corrections_unheard warn_admits ofFile_absent unrooted { logLevel := some "warn" } ⟨"node"⟩
      (Scene.answer obliging) ⟨(), []⟩
  refine ⟨ofFile_absent, warn_admits, loaded, hload, ?_, (hunheard ⟨?_, ?_⟩).1⟩
  · rw [hcorrected]
    decide +kernel
  · decide
  · decide

/-- One field is corrected, and no correction is told. -/
theorem unrooted_correction_untold :
    ∃ loaded, Settings.load .absent unrooted = .ok loaded ∧
      (told .warn unrootedStart).length ≠ loaded.corrections.length := by
  obtain ⟨loaded, hload, -, hcorrections⟩ := Settings.load_of_ofFile ofFile_absent unrooted
  refine ⟨loaded, hload, ?_⟩
  rw [unrootedStart, told_start warn_admits ofFile_absent, hcorrections]
  decide

end Startup

end SessionGateway
