import SessionGateway.Proofs.Gateway.Occupancy
import SessionGateway.Proofs.Gateway.Rounds
import SessionGateway.Proofs.Cache.Reading

/-!
# Draining a node

A shutdown that ends in time has seen every session and the reconciler end. Nobody is in the
directory then, and the node has left the membership for good.
-/

namespace SessionGateway

open Store (Memory)

namespace Gateway

variable {g : Gateway} {told news : List Told} {c' : Cluster} {before after tasks : List Task}
  {t t' : Task}

/-! ### Shutting down -/

/-- A task as it may become: of the same kind, and ended if it had ended. -/
def Task.Follows (t t' : Task) : Prop :=
  t'.isReconciler = t.isReconciler ∧ (t.hasEnded = true → t'.hasEnded = true)

theorem Task.follows_refl (t : Task) : t.Follows t := ⟨rfl, id⟩

theorem Task.Goes.follows {b : BrokerId} {d : Dispatch} {c : Cluster}
    (h : t.Goes b d c news t' c') : t.Follows t' := by
  cases h with
  | channel h =>
    refine ⟨rfl, fun ht => ?_⟩
    cases h with
    | session h => exact absurd (Channel.hasEnded_iff.mp ht) h.ne_ended
    | beside _ hphase =>
      exact Channel.hasEnded_iff.mpr (hphase.trans (Channel.hasEnded_iff.mp ht))
  | reconciler h => exact ⟨rfl, fun ht => absurd (Reconciler.hasEnded_iff.mp ht) h.ne_ended⟩
  | queue => exact ⟨rfl, id⟩

theorem stopTask_follows (t : Task) : t.Follows (stopTask t) := by
  cases t <;> exact ⟨rfl, id⟩

theorem openSessions_eq_zero_iff :
    g.openSessions = 0 ↔ ∀ ch, .channel ch ∈ g.tasks → ch.hasEnded = true := by
  simp only [openSessions, List.countP_eq_zero, mem_channels, Bool.not_eq_true', Bool.not_eq_false]

/-- How a node may be later: with no fewer connections made, with all sessions ended if they had and
none was added, and with the reconciler it had. -/
structure Outlives (g g' : Gateway) : Prop where
  made : g.made ≤ g'.made
  gone : g'.made = g.made → g.openSessions = 0 → g'.openSessions = 0
  reconciler : ∀ t ∈ g.tasks, t.isReconciler = true → ∃ t' ∈ g'.tasks, t.Follows t'

theorem outlives_of_follows {g' : Gateway} (hmade : g'.made = g.made)
    (hback : ∀ t' ∈ g'.tasks, ∃ t ∈ g.tasks, t.Follows t')
    (hforth : ∀ t ∈ g.tasks, ∃ t' ∈ g'.tasks, t.Follows t') : Outlives g g' := by
  refine ⟨Nat.le_of_eq hmade.symm, fun _ hgone => ?_, fun t ht _ => hforth t ht⟩
  rw [openSessions_eq_zero_iff] at hgone ⊢
  intro ch' hch'
  obtain ⟨t, ht, hkind, hended⟩ := hback _ hch'
  cases t with
  | channel ch => exact hended (hgone ch ht)
  | reconciler r place => cases hkind

theorem outlives_task {d : Dispatch} (hg : g.tasks = before ++ t :: after)
    (hgoes : t.Goes g.broker d g.cluster news t' c') :
    Outlives g { g with tasks := before ++ t' :: after, cluster := c' } := by
  refine outlives_of_follows rfl ?_ ?_
  · intro t₂ ht₂
    rw [hg]
    rcases Ensemble.mem_middle.mp ht₂ with rfl | hother
    · exact ⟨t, Ensemble.mem_middle.mpr (.inl rfl), hgoes.follows⟩
    · exact ⟨t₂, Ensemble.mem_middle.mpr (.inr hother), t₂.follows_refl⟩
  · intro t₂ ht₂
    rw [hg] at ht₂
    rcases Ensemble.mem_middle.mp ht₂ with rfl | hother
    · exact ⟨t', Ensemble.mem_middle.mpr (.inl rfl), hgoes.follows⟩
    · exact ⟨t₂, Ensemble.mem_middle.mpr (.inr hother), t₂.follows_refl⟩

theorem outlives_stop (htasks : tasks.Perm (g.tasks.map stopTask)) :
    Outlives g { g with isStopping := true, tasks } := by
  refine outlives_of_follows rfl ?_ ?_
  · intro t' ht'
    obtain ⟨t, ht, rfl⟩ := List.mem_map.mp (htasks.mem_iff.mp ht')
    exact ⟨t, ht, stopTask_follows t⟩
  · intro t ht
    exact ⟨_, htasks.mem_iff.mpr (List.mem_map_of_mem ht), stopTask_follows t⟩

theorem outlives_accept (client : String) (a : Attributes) : Outlives g (g.accept client a) := by
  refine ⟨Nat.le_succ _, fun hmade => absurd hmade (Nat.succ_ne_self _), ?_⟩
  intro t ht _
  exact ⟨t, List.mem_append_left _ ht, t.follows_refl⟩

theorem outlives_spawn : Outlives g g.spawnReconciler := by
  refine ⟨Nat.le_refl _, fun _ hgone => ?_, ?_⟩
  · rw [openSessions_eq_zero_iff] at hgone ⊢
    intro ch hch
    rcases List.mem_append.mp hch with hold | hnew
    · exact hgone ch hold
    · cases List.mem_singleton.mp hnew
  · intro t ht _
    exact ⟨t, List.mem_append_left _ ht, t.follows_refl⟩

/-- A node by how far its shutdown has come. Its sessions are gone if none was started since. -/
def Drain.Fits (g : Gateway) : Drain → Prop
  | .pending => True
  | .sessions made => made ≤ g.made ∧ ∃ t ∈ g.tasks, t.isReconciler = true
  | .tasks made => made ≤ g.made ∧ (g.made = made → g.openSessions = 0) ∧
      ∃ t ∈ g.tasks, t.isReconciler = true
  | .returned made inTime => inTime = true → made ≤ g.made ∧
      (g.made = made → g.openSessions = 0) ∧
      ∃ t ∈ g.tasks, t.isReconciler = true ∧ t.hasEnded = true

theorem Outlives.fits {g' : Gateway} (h : Outlives g g') {drain : Drain} (hfits : drain.Fits g) :
    drain.Fits g' := by
  have hgone : ∀ {made}, made ≤ g.made → (g.made = made → g.openSessions = 0) →
      g'.made = made → g'.openSessions = 0 := by
    intro made hle hopen hmade
    have hlater := h.made
    exact h.gone (by omega) (hopen (by omega))
  cases drain with
  | pending => trivial
  | sessions made =>
    obtain ⟨hle, t, ht, hr⟩ := hfits
    obtain ⟨t', ht', hkind, -⟩ := h.reconciler t ht hr
    exact ⟨Nat.le_trans hle h.made, t', ht', hkind.trans hr⟩
  | tasks made =>
    obtain ⟨hle, hopen, t, ht, hr⟩ := hfits
    obtain ⟨t', ht', hkind, -⟩ := h.reconciler t ht hr
    exact ⟨Nat.le_trans hle h.made, hgone hle hopen, t', ht', hkind.trans hr⟩
  | returned made inTime =>
    intro hin
    obtain ⟨hle, hopen, t, ht, hr, hended⟩ := hfits hin
    obtain ⟨t', ht', hkind, hstays⟩ := h.reconciler t ht hr
    exact ⟨Nat.le_trans hle h.made, hgone hle hopen, t', ht', hkind.trans hr, hstays hended⟩

theorem Step.fits {x y : Scene} (h : Step x y) (hx : x.drain.Fits x.gateway) :
    y.drain.Fits y.gateway := by
  cases h with
  | task hg hgoes => exact (outlives_task hg hgoes).fits hx
  | @around g c' places _ _ hc =>
    have hlater : Outlives g { g with cluster := c', places } :=
      outlives_of_follows rfl (fun t ht => ⟨t, ht, t.follows_refl⟩)
        fun t ht => ⟨t, ht, t.follows_refl⟩
    exact hlater.fits hx
  | accept client a => exact (outlives_accept client a).fits hx
  | spawn => exact outlives_spawn.fits hx
  | shutdown htasks => exact (outlives_stop htasks).fits hx
  | @call g tasks _ htasks hr =>
    obtain ⟨t, ht, hkind⟩ := hr
    obtain ⟨t', ht', hkind', -⟩ := (outlives_stop htasks).reconciler t ht hkind
    exact ⟨Nat.le_refl _, t', ht', hkind'.trans hkind⟩
  | sessionsGone hgone => exact ⟨hx.1, fun _ => hgone, hx.2⟩
  | tasksGone hgone =>
    obtain ⟨hle, hopen, t, ht, hr⟩ := hx
    exact fun _ => ⟨hle, hopen, t, ht, hr, hgone t ht hr⟩
  | timeout => exact fun hno => nomatch hno

theorem fits_of_arises {x : Scene} (h : Arises x) : x.drain.Fits x.gateway := by
  obtain ⟨config, broker, cache, cluster, -, hsteps⟩ := h
  induction hsteps with
  | refl => trivial
  | tail _ hstep ih => exact hstep.fits ih

theorem Arises.steps {x y : Scene} (h : Arises x) (hsteps : Steps x y) : Arises y := by
  obtain ⟨config, broker, cache, cluster, hempty, hbefore⟩ := h
  exact ⟨config, broker, cache, cluster, hempty, hbefore.trans hsteps⟩

/-- A shutdown returns once. -/
theorem drain_of_steps {x y : Scene} (h : Steps x y) {made : Nat} {inTime : Bool}
    (hx : x.drain = .returned made inTime) : y.drain = .returned made inTime := by
  induction h with
  | refl => exact hx
  | tail _ hstep ih =>
    cases hstep with
    | task | around | accept | spawn | shutdown => exact ih
    | call | sessionsGone | tasksGone => cases ih
    | timeout hdrain => rcases hdrain with rfl | rfl <;> cases ih

/-- The shutdown of a node tells all its tasks to stop. Where the node is stopping already, they
were told. -/
theorem shutdown_eq (htold : g.isStopping = true → ∀ t ∈ g.tasks, stopTask t = t) :
    ∃ tasks, tasks.Perm (g.tasks.map stopTask) ∧
      g.shutdown = { g with isStopping := true, tasks } := by
  rw [shutdown]
  split
  · next hstopping =>
    refine ⟨g.tasks, ?_, ?_⟩
    · rw [List.map_congr_left (htold hstopping), List.map_id']
    · rw [← hstopping]
  · exact ⟨_, (List.mergeSort_perm g.tasks fun a b => decide (a.place ≤ b.place)).map stopTask, rfl⟩

/-- What a node does to drain comes about step by step. It waits for the sessions, and not for the
reconciler. -/
theorem steps_drain (h : g.Sane) (hr : ∃ t ∈ g.tasks, t.isReconciler = true)
    (htold : g.isStopping = true → ∀ t ∈ g.tasks, stopTask t = t) (timeout : Duration)
    (told : List Told) :
    ∃ news, Steps ⟨g, told, .pending⟩ ⟨(g.drain timeout).2, news ++ told,
      if (g.drain timeout).1 then .tasks g.made else .returned g.made false⟩ := by
  obtain ⟨tasks, htasks, hshutdown⟩ := shutdown_eq htold
  have hcall : Step ⟨g, told, .pending⟩ ⟨g.shutdown, told, .sessions g.made⟩ := by
    rw [hshutdown]
    exact .call htasks hr
  have hlogged := becomes_log (becomes_shutdown h).2
    (Shutdown.draining g.shutdown.openSessions 0 timeout)
  have hrespects : ∀ deadline, (loopUntil deadline).Respects fun g g' => g.Sane → Becomes g g' :=
    fun _ => respects_becomes rfl rfl
  have hwaits := fun deadline busy => hlogged.trans
    ((hrespects deadline).runWhile busy EventLoop.plenty _ hlogged.2)
  rw [drain]
  dsimp only
  split
  · next hgone =>
    obtain ⟨⟨news, hsteps⟩, -⟩ := hwaits _ _
    exact ⟨news, (Relation.ReflTransGen.head hcall (hsteps told _)).tail (.sessionsGone hgone)⟩
  · obtain ⟨⟨news, hsteps⟩, hsane⟩ := hwaits _ _
    obtain ⟨⟨news', hlast⟩, -⟩ := becomes_log hsane (Shutdown.timedOut timeout _)
    refine ⟨news' ++ news, ?_⟩
    rw [List.append_assoc]
    exact ((Relation.ReflTransGen.head hcall (hsteps told _)).tail (.timeout (.inl rfl))).trans
      (hlast _ _)

/-! ### Leaving for good -/

/-- A broker without a heartbeat is not listed. -/
theorem not_listed {c : Cluster} {cache : SessionCache} {b : BrokerId} {bs : List BrokerId}
    (hnone : (c.memory.fieldsAt c.now cache.brokersKey).get? b.text = none)
    (hread : c.read cache.brokers = .ok bs) : b ∉ bs := by
  have hclock : c.answerCache .wallClock c.memory = (c.wallClock, c.memory) := rfl
  by_cases hhash : c.memory.IsHash c.now cache.brokersKey
  · have hbeats : c.answerCache (.store (.hashGetAll cache.brokersKey)) c.memory =
        (.ok (c.memory.fieldsAt c.now cache.brokersKey).entries, c.memory) :=
      Memory.answer_hashGetAll hhash
    obtain ⟨bs', hrun, -, hmem⟩ := cache.brokers_listed hclock hbeats
    rw [Cluster.read, hrun] at hread
    cases hread
    intro hb
    obtain ⟨text, htext, -⟩ := (hmem b).mp hb
    rw [hnone] at htext
    cases htext
  · obtain ⟨s, deadline, hs⟩ := Memory.live?_of_not_isHash hhash
    have herror : Memory.answer c.now (.hashGetAll cache.brokersKey) c.memory =
        (.error (.wrongType cache.brokersKey), c.memory) := by
      simp only [Memory.answer, hs]
    simp only [Cluster.read, cache.brokers_run, Program.run, Cluster.answerCache, herror] at hread
    cases hread

/-- A reconciler that has ended has left the membership. -/
theorem Sound.hasLeft (h : Sound g told) (ht : t ∈ g.tasks) (hr : t.isReconciler = true)
    (hended : t.hasEnded = true) : HasLeft g.broker g.cache.brokersKey told g.cluster := by
  have hkeeps := h.tasks t ht
  cases t with
  | channel ch => cases hr
  | reconciler r place =>
    obtain ⟨⟨hbroker, hcache⟩, hphase⟩ := hkeeps
    rw [Reconciler.hasEnded_iff.mp hended] at hphase
    rw [← hbroker, ← hcache]
    exact hphase

/-- However the sessions of a node interleave, whatever they read and are answered, a connection is
in the directory only while its own session has started and has not ended, so that no more are there
than sessions are open. If a shutdown that waits for the reconciler ends in time, then the last
command on the heartbeats deleted that of the node, for good: unless the deletion failed, the node
is no longer listed. As long as no session has started since, nobody is in the directory. -/
theorem drained_for_good {x : Scene} (h : Arises x) :
    (∀ id, x.gateway.directory.contains id = true →
        ∃ ch ∈ x.gateway.channels, ch.session.id = id ∧ ch.hasEnded = false) ∧
      x.gateway.directory.userCount + x.gateway.directory.groupCount ≤ x.gateway.openSessions ∧
      ∀ made, x.drain = .returned made true → ∀ y, Steps x y →
        (y.gateway.made = made →
          y.gateway.directory.userCount = 0 ∧ y.gateway.directory.groupCount = 0) ∧
        ∃ later result earlier,
          y.told = later ++
            ⟨.hashDelete y.gateway.cache.brokersKey y.gateway.broker.text, result⟩ :: earlier ∧
          (∀ t ∈ later, ¬ t.command.Changes y.gateway.cache.brokersKey) ∧
          ∀ gone, result = .ok gone →
            ∀ bs, y.gateway.cluster.read y.gateway.cache.brokers = .ok bs →
              y.gateway.broker ∉ bs := by
  have hsound := sound_of_arises h
  refine ⟨?_, hsound.count_le, ?_⟩
  · intro id hid
    obtain ⟨kind, hkind⟩ := exists_holds_of_contains hid
    exact hsound.session_of_holds hkind
  · intro made hreturned y hsteps
    have hy := h.steps hsteps
    have hfits := fits_of_arises hy
    rw [drain_of_steps hsteps hreturned] at hfits
    obtain ⟨-, hgone, t, ht, hr, hended⟩ := hfits rfl
    refine ⟨fun hmade => ?_, ?_⟩
    · have hcount := (sound_of_arises hy).count_le
      have hopen := hgone hmade
      omega
    · obtain ⟨later, result, earlier, htold, hlater, hfield⟩ :=
        (sound_of_arises hy).hasLeft ht hr hended
      exact ⟨later, result, earlier, htold, hlater,
        fun gone hok bs hread => not_listed (hfield gone hok) hread⟩

/-- A node with a reconciler, to which a user has come. -/
def lodging : Gateway :=
  ((new {} ⟨"n"⟩ ⟨"gw", .ofSeconds 60⟩ Lifecycle.doorstep).spawnReconciler.accept "guest"
    (.ofList [("token", "jwt")])).round.2.round.2

/-- The same node as it is told to stop. -/
def closing : Gateway := { lodging with isStopping := true, tasks := lodging.tasks.map stopTask }

/-- The same node after it has drained. -/
def vacated : Gateway := (closing.drain (.ofSeconds 5)).2

theorem lodging_vacated :
    lodging.directory.userCount = 1 ∧ closing.made = 1 ∧
      closing.tasks.any Task.isReconciler = true ∧ (closing.drain (.ofSeconds 5)).1 = true ∧
      vacated.made = 1 ∧ vacated.tasks.all Task.hasEnded = true := by
  decide +kernel

theorem arises_lodging : (∃ told, Arises ⟨lodging, told, .pending⟩) ∧ lodging.Sane := by
  have hempty : ∀ id, (Lifecycle.doorstep.directory ⟨"n"⟩).Absent id := fun _ => ⟨rfl, rfl⟩
  have hsane : (new {} ⟨"n"⟩ ⟨"gw", .ofSeconds 60⟩ Lifecycle.doorstep).Sane :=
    ⟨⟨rfl, rfl, nofun⟩, fun _ ht => absurd ht List.not_mem_nil⟩
  have hspawned := becomes_spawnReconciler hsane fun _ ht => absurd ht List.not_mem_nil
  have hcame := hspawned.trans (becomes_accept hspawned.2 "guest" (.ofList [("token", "jwt")])
    fun _ hch => absurd (mem_channels.mp hch) (by simp [spawnReconciler, new]))
  have hopen := hcame.trans (becomes_round hcame.2)
  obtain ⟨⟨news, hsteps⟩, hlodging⟩ := hopen.trans (becomes_round hopen.2)
  exact ⟨⟨news ++ [], {}, ⟨"n"⟩, ⟨"gw", .ofSeconds 60⟩, Lifecycle.doorstep, hempty,
    hsteps [] .pending⟩, hlodging⟩

theorem arises_vacated : ∃ told, Arises ⟨vacated, told, .returned 1 true⟩ := by
  obtain ⟨⟨told, harises⟩, hsane⟩ := arises_lodging
  obtain ⟨-, hmade, hreconciler, hdrained, -, hended⟩ := lodging_vacated
  have hstopped : Step ⟨lodging, told, .pending⟩ ⟨closing, told, .pending⟩ := .shutdown (.refl _)
  have htold : ∀ t ∈ closing.tasks, stopTask t = t := by
    intro t ht
    obtain ⟨t, -, rfl⟩ := List.mem_map.mp ht
    cases t <;> rfl
  have hclosing : closing.Sane := sane_stop hsane (.refl _)
  obtain ⟨news, hsteps⟩ := steps_drain hclosing (List.any_eq_true.mp hreconciler) (fun _ => htold)
    (.ofSeconds 5) told
  have hwaited := (harises.steps (.single hstopped)).steps hsteps
  rw [hdrained, if_pos rfl, hmade] at hwaited
  have htasks : ∀ t ∈ vacated.tasks, t.isReconciler = true → t.hasEnded = true :=
    fun t ht _ => List.all_eq_true.mp hended t ht
  exact ⟨news ++ told, hwaited.steps (.single (.tasksGone htasks))⟩

theorem guest_leaves :
    (∃ told, Arises ⟨lodging, told, .pending⟩ ∧ lodging.directory.userCount = 1 ∧
      1 + lodging.directory.groupCount ≤ lodging.openSessions) ∧
    ∃ told later result earlier, Arises ⟨vacated, told, .returned 1 true⟩ ∧
      (vacated.directory.userCount = 0 ∧ vacated.directory.groupCount = 0) ∧
      told = later ++
        ⟨.hashDelete vacated.cache.brokersKey vacated.broker.text, result⟩ :: earlier ∧
      ∀ t ∈ later, ¬ t.command.Changes vacated.cache.brokersKey := by
  obtain ⟨hcount, -, -, -, hmade, -⟩ := lodging_vacated
  obtain ⟨⟨told, hlodging⟩, -⟩ := arises_lodging
  obtain ⟨told', hvacated⟩ := arises_vacated
  refine ⟨⟨told, hlodging, hcount, ?_⟩, told', ?_⟩
  · have hle := (drained_for_good hlodging).2.1
    rwa [hcount] at hle
  · obtain ⟨hgone, later, result, earlier, htold, hlater, -⟩ :=
      (drained_for_good hvacated).2.2 1 rfl _ .refl
    exact ⟨later, result, earlier, hvacated, hgone hmade, htold, hlater⟩

end Gateway

end SessionGateway
