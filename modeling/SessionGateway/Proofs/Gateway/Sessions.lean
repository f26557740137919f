import SessionGateway.Gateway.Basic
import SessionGateway.Proofs.Program.Runs

/-!
# What becomes of the sessions of a gateway

A session keeps its identity and its attributes for as long as its channel is there, and what is
known of the ways in which it may come to be open stays known while it opens and after. Nothing that
happens on a gateway brings a channel into being but an upgrade.
-/

namespace SessionGateway

/-! ### Fibers -/

namespace Fiber

variable {α : Type} {Q : α → Prop}

theorem ends_goOn {node : BrokerId} {moved : Bool} {p : NodeProgram α} {w : Wait} {c : Cluster}
    (h : p.Ends Q) : (goOn node moved p w c).1.2.program.Ends Q := by
  induction p generalizing moved w c with
  | done a => exact h
  | ask r next ih =>
    simp only [goOn]
    cases Cluster.attempt node r w c with
    | answered x c => exact ih x (h x)
    | waiting w c => exact h

theorem ends_poll {f : Fiber α} {c : Cluster} (h : f.program.Ends Q) :
    (f.poll c).1.2.program.Ends Q := by
  rw [poll]
  split
  · exact h
  · split
    · exact ends_goOn h
    · exact h
  · exact ends_goOn h

theorem of_result? {f : Fiber α} (h : f.program.Ends Q) {a : α} (ha : f.result? = some a) :
    Q a := by
  rw [result?] at ha
  cases hp : f.program with
  | done a' =>
    rw [hp] at h ha
    cases ha
    exact h
  | ask r next =>
    rw [hp] at ha
    cases ha

end Fiber

/-! ### Channels -/

namespace Channel

/-- However it goes on, a session that is open stands as a condition asks. -/
def Phase.Leads (Q : ConnectionState → Prop) : Phase → Prop
  | .opening f => f.program.Ends Q
  | .reading s | .listening s _ | .reacting s _ | .leaving s _ | .flushing s => Q s
  | .parting _ | .ended => True

/-- Where a session stands, from the end of its opening until it takes note of its end. -/
def state? (ch : Channel) : Option ConnectionState :=
  match ch.phase with
  | .opening f => f.result?
  | .reading s | .listening s _ | .reacting s _ | .leaving s _ | .flushing s => some s
  | .parting _ | .ended => none

theorem Phase.Leads.of_state? {Q : ConnectionState → Prop} {ch : Channel} (h : ch.phase.Leads Q)
    {s : ConnectionState} (hs : ch.state? = some s) : Q s := by
  rw [state?] at hs
  cases hp : ch.phase with
  | opening f =>
    rw [hp] at h hs
    exact Fiber.of_result? h hs
  | parting f =>
    rw [hp] at hs
    cases hs
  | ended =>
    rw [hp] at hs
    cases hs
  | _ =>
    rw [hp] at h hs
    cases hs
    exact h

/-- A channel as it may become: the same session, about which no less is known. -/
structure Follows (ch ch' : Channel) : Prop where
  session : ch'.session = ch.session
  leads : ∀ Q : ConnectionState → Prop, ch.phase.Leads Q → ch'.phase.Leads Q

theorem Follows.refl (ch : Channel) : Follows ch ch := ⟨rfl, fun _ h => h⟩

theorem Follows.trans {ch ch' ch'' : Channel} (h : Follows ch ch') (h' : Follows ch' ch'') :
    Follows ch ch'' :=
  ⟨h'.session.trans h.session, fun Q hQ => h'.leads Q (h.leads Q hQ)⟩

theorem follows_of_same {ch ch' : Channel} (hsession : ch'.session = ch.session)
    (hphase : ch'.phase = ch.phase) : Follows ch ch' :=
  ⟨hsession, fun Q hQ => by rwa [hphase]⟩

theorem await_leads {α : Type} {P : Phase → Prop} {R : α → Prop} {f : Fiber α} {c : Cluster}
    {before : Fiber α → Phase} {after : α → Phase} (hf : f.program.Ends R)
    (hbefore : ∀ f, f.program.Ends R → P (before f)) (hafter : ∀ a, R a → P (after a)) :
    P (await f c before after).1.2 := by
  have hpoll := Fiber.ends_poll (c := c) hf
  simp only [await]
  cases hresult : (f.poll c).1.2.result? with
  | none => exact hbefore _ hpoll
  | some a => exact hafter a (Fiber.of_result? hpoll hresult)

theorem acknowledge_same (ch : Channel) (m : Inbound) :
    (ch.acknowledge m).session = ch.session ∧ (ch.acknowledge m).phase = ch.phase := by
  cases m with
  | ping payload =>
    rw [acknowledge]
    split <;> exact ⟨rfl, rfl⟩
  | _ => exact ⟨rfl, rfl⟩

theorem read_follows {ch ch' : Channel} {k : Controls} {s : ConnectionState} {c c' : Cluster}
    (h : ch.read k s c = some (ch', c')) (hs : ∀ Q, ch.phase.Leads Q → Q s) : Follows ch ch' := by
  rw [read] at h
  split at h
  · cases h
    exact ⟨rfl, fun Q hQ => hs Q hQ⟩
  · split at h
    · cases h
      exact ⟨rfl, fun Q hQ => hs Q hQ⟩
    · split at h
      · cases h
      · cases h
        exact ⟨(acknowledge_same _ _).1, fun Q hQ => hs Q hQ⟩

theorem step_follows (ch : Channel) (k : Controls) (c : Cluster) :
    Follows ch (ch.step k c).1.2 := by
  rw [step]
  cases hp : ch.phase with
  | opening f =>
    refine ⟨rfl, fun Q hQ => ?_⟩
    rw [hp] at hQ
    refine await_leads (P := Phase.Leads Q) hQ (fun _ hf => hf) ?_
    intro s hs
    split <;> exact hs
  | reading s =>
    have hleads : ∀ Q, ch.phase.Leads Q → Q s := by
      intro Q hQ
      rwa [hp] at hQ
    dsimp only
    cases hread : ch.read k s c with
    | none => exact ⟨rfl, hleads⟩
    | some r => exact read_follows hread hleads
  | listening s n =>
    have hleads : ∀ Q, ch.phase.Leads Q → Q s := by
      intro Q hQ
      rwa [hp] at hQ
    dsimp only
    cases hread : ch.read k s c with
    | none => exact .refl ch
    | some r => exact read_follows hread hleads
  | reacting s f =>
    refine ⟨rfl, fun Q hQ => ?_⟩
    rw [hp] at hQ
    refine await_leads (P := Phase.Leads Q) (Program.ends_of_forall (fun _ => trivial) f.program)
      (fun _ _ => hQ) ?_
    intro goesOn _
    split <;> exact hQ
  | leaving s f =>
    refine ⟨rfl, fun Q hQ => ?_⟩
    rw [hp] at hQ
    exact await_leads (P := Phase.Leads Q)
      (Program.ends_of_forall (fun _ => trivial) f.program) (fun _ _ => hQ) fun _ _ => hQ
  | flushing s =>
    dsimp only
    split
    · exact ⟨rfl, fun Q _ => await_leads (P := Phase.Leads Q)
        (Program.ends_of_forall (fun _ => trivial) _) (fun _ _ => trivial) fun _ _ => trivial⟩
    · exact .refl ch
  | parting f =>
    exact ⟨rfl, fun Q _ => await_leads (P := Phase.Leads Q)
      (Program.ends_of_forall (fun _ => trivial) _) (fun _ _ => trivial) fun _ _ => trivial⟩
  | ended => exact .refl ch

theorem drive_follows (k : Controls) (fuel : Nat) (ch : Channel) (c : Cluster) :
    Follows ch (drive k fuel ch c).1.2 := by
  induction fuel generalizing ch c with
  | zero => exact .refl ch
  | succ fuel ih =>
    have hstep := ch.step_follows k c
    rw [drive]
    rcases hs : ch.step k c with ⟨⟨_ | _, ch'⟩, c'⟩
    · rw [hs] at hstep
      exact hstep
    · rw [hs] at hstep
      exact hstep.trans (ih ch' c')

theorem write_follows (ch : Channel) (c : Cluster) : Follows ch (ch.write c).1.2 := by
  rw [write]
  cases ch.writer.next? c.now (ch.connection c) with
  | none => exact .refl ch
  | some s =>
    dsimp only
    cases s.frame with
    | none => exact follows_of_same rfl rfl
    | some f =>
      dsimp only
      split <;> exact follows_of_same rfl rfl

theorem poll_follows (k : Controls) (ch : Channel) (c : Cluster) :
    Follows ch (ch.poll k c).1.2 := by
  rw [poll]
  split
  · exact .refl ch
  · have hdrive := drive_follows k ch.stepsAhead ch c
    have hwrite := (drive k ch.stepsAhead ch c).1.2.write_follows (drive k ch.stepsAhead ch c).2
    refine (hdrive.trans hwrite).trans ?_
    dsimp only
    split
    · exact follows_of_same rfl rfl
    · exact .refl _

end Channel

/-! ### Loops -/

namespace EventLoop

variable {σ : Type} {l : EventLoop σ} {R : σ → σ → Prop}

/-- A relation that holds over whatever a loop does at once. -/
structure Respects (l : EventLoop σ) (R : σ → σ → Prop) : Prop where
  refl : ∀ s, R s s
  trans : ∀ s s' s'', R s s' → R s' s'' → R s s''
  round : ∀ s, R s (l.round s).2
  setTime : ∀ t s, R s (l.setTime t s)

theorem Respects.settle (h : l.Respects R) (fuel : Nat) (s : σ) : R s (l.settle fuel s) := by
  induction fuel generalizing s with
  | zero => exact h.refl s
  | succ fuel ih =>
    have hround := h.round s
    rw [EventLoop.settle]
    rcases hs : l.round s with ⟨_ | _, s'⟩
    · rw [hs] at hround
      exact hround
    · rw [hs] at hround
      exact h.trans _ _ _ hround (ih s')

theorem Respects.runTo (h : l.Respects R) (target : Duration) (fuel : Nat) (s : σ) :
    R s (l.runTo target fuel s) := by
  induction fuel generalizing s with
  | zero => exact h.refl s
  | succ fuel ih =>
    have hsettled := h.settle plenty s
    have hjump : ∀ t s, R s (l.settle plenty (l.setTime t s)) := fun t s =>
      h.trans _ _ _ (h.setTime t s) (h.settle plenty _)
    rw [EventLoop.runTo]
    split
    · split
      · exact h.trans _ _ _ hsettled (h.trans _ _ _ (h.setTime _ _) (ih _))
      · exact h.trans _ _ _ hsettled (hjump target _)
    · exact h.trans _ _ _ hsettled (hjump target _)

theorem Respects.runWhile (h : l.Respects R) (busy : σ → Bool) (fuel : Nat) (s : σ) :
    R s (l.runWhile busy fuel s) := by
  induction fuel generalizing s with
  | zero => exact h.refl s
  | succ fuel ih =>
    have hsettled := h.settle plenty s
    rw [EventLoop.runWhile]
    split
    · split
      · exact h.trans _ _ _ hsettled (h.trans _ _ _ (h.setTime _ _) (ih _))
      · exact hsettled
    · exact hsettled

end EventLoop

/-! ### Gateways -/

namespace Gateway

open Channel (Follows follows_of_same)

theorem mem_channels {g : Gateway} {ch : Channel} : ch ∈ g.channels ↔ .channel ch ∈ g.tasks := by
  simp only [channels, List.mem_filterMap]
  constructor
  · rintro ⟨t, ht, hch⟩
    cases t with
    | channel ch' =>
      cases hch
      exact ht
    | reconciler r n => cases hch
  · intro h
    exact ⟨_, h, rfl⟩

/-- A gateway as it may become without another upgrade: its channels are those that were there. -/
structure Advances (g g' : Gateway) : Prop where
  config : g'.config = g.config
  made : g'.made = g.made
  channels : ∀ ch', .channel ch' ∈ g'.tasks → ∃ ch, .channel ch ∈ g.tasks ∧ Follows ch ch'

theorem Advances.refl (g : Gateway) : Advances g g := ⟨rfl, rfl, fun ch h => ⟨ch, h, .refl ch⟩⟩

theorem Advances.trans {g g' g'' : Gateway} (h : Advances g g') (h' : Advances g' g'') :
    Advances g g'' where
  config := h'.config.trans h.config
  made := h'.made.trans h.made
  channels := by
    intro ch'' hch''
    obtain ⟨ch', hch', hfollows'⟩ := h'.channels ch'' hch''
    obtain ⟨ch, hch, hfollows⟩ := h.channels ch' hch'
    exact ⟨ch, hch, hfollows.trans hfollows'⟩

/-- The rest of the cluster may change in any way. -/
theorem advances_cluster (g : Gateway) (c : Cluster) : Advances g { g with cluster := c } :=
  ⟨rfl, rfl, fun ch h => ⟨ch, h, .refl ch⟩⟩

theorem pollTasks_follows (k : Channel.Controls) (tasks : List Task) (c : Cluster) :
    ∀ ch', .channel ch' ∈ (pollTasks k tasks c).1.2 →
      ∃ ch, .channel ch ∈ tasks ∧ Follows ch ch' := by
  induction tasks generalizing k c with
  | nil => simp [pollTasks]
  | cons t rest ih =>
    intro ch' hch'
    rw [pollTasks] at hch'
    rcases List.mem_cons.mp hch' with hhere | hrest
    · cases t with
      | channel ch =>
        refine ⟨ch, List.mem_cons_self, ?_⟩
        cases hhere
        exact ch.poll_follows k c
      | reconciler r n => cases hhere
    · obtain ⟨ch, hch, hfollows⟩ := ih _ _ ch' hrest
      exact ⟨ch, List.mem_cons_of_mem _ hch, hfollows⟩

theorem advances_round (g : Gateway) : Advances g g.round.2 :=
  ⟨rfl, rfl, pollTasks_follows g.controls g.tasks g.cluster⟩

theorem advances_mapChannels (g : Gateway) {f : Channel → Channel} (hf : ∀ ch, Follows ch (f ch)) :
    Advances g (g.mapChannels f) where
  config := rfl
  made := rfl
  channels := by
    intro ch' hch'
    obtain ⟨t, ht, heq⟩ := List.mem_map.mp hch'
    cases t with
    | channel ch =>
      cases heq
      exact ⟨ch, ht, hf ch⟩
    | reconciler r n => cases heq

theorem advances_modifyConnection (g : Gateway) (number : Nat) {f : Channel → Channel}
    (hf : ∀ ch, Follows ch (f ch)) : Advances g (g.modifyConnection number f) := by
  apply advances_mapChannels
  intro ch
  split
  · exact hf ch
  · exact .refl ch

theorem advances_modifyChannel (g : Gateway) (client : String) {f : Channel → Channel}
    (hf : ∀ ch, Follows ch (f ch)) : Advances g (g.modifyChannel client f) := by
  rw [modifyChannel]
  split
  · exact .refl g
  · exact g.advances_modifyConnection _ hf

theorem respects_loop : loop.Respects Advances :=
  ⟨.refl, fun _ _ _ => .trans, advances_round, fun _ _ => advances_cluster _ _⟩

theorem respects_loopUntil (deadline : Duration) : (loopUntil deadline).Respects Advances :=
  ⟨.refl, fun _ _ _ => .trans, advances_round, fun _ _ => advances_cluster _ _⟩

theorem advances_send (g : Gateway) (client : String) (m : Inbound) :
    Advances g (g.send client m).2 := by
  rw [send]
  split
  · exact .refl g
  · split
    · exact g.advances_modifyChannel client fun ch => follows_of_same rfl rfl
    · exact .refl g

theorem advances_dropConnection (g : Gateway) (number : Nat) :
    Advances g (g.dropConnection number) := by
  apply advances_modifyConnection
  intro ch
  split
  · exact follows_of_same rfl rfl
  · exact .refl ch

theorem advances_drop (g : Gateway) (client : String) : Advances g (g.drop client) := by
  rw [drop]
  split
  · exact .refl g
  · exact g.advances_dropConnection _

theorem advances_spawnReconciler (g : Gateway) : Advances g g.spawnReconciler where
  config := rfl
  made := rfl
  channels := by
    intro ch hch
    rcases List.mem_append.mp hch with h | h
    · exact ⟨ch, h, .refl ch⟩
    · cases List.mem_singleton.mp h

theorem advances_shutdown (g : Gateway) : Advances g g.shutdown := by
  rw [shutdown]
  split
  · exact .refl g
  · refine ⟨rfl, rfl, ?_⟩
    intro ch hch
    obtain ⟨t, ht, heq⟩ := List.mem_map.mp hch
    cases t with
    | channel ch' =>
      cases heq
      exact ⟨ch, List.mem_mergeSort.mp ht, .refl ch⟩
    | reconciler r n => cases heq

theorem advances_drain (g : Gateway) (timeout : Duration) : Advances g (g.drain timeout).2 := by
  have hlogged := g.advances_shutdown.trans (g.shutdown.advances_cluster
    (g.shutdown.cluster.log (Shutdown.draining g.shutdown.openSessions 0 timeout)))
  have hrun := fun deadline busy => hlogged.trans
    ((respects_loopUntil deadline).runWhile busy EventLoop.plenty _)
  have hpair : ∀ (drained : Bool) (g' : Gateway), Advances g g' → Advances g (drained, g').2 :=
    fun _ _ h => h
  rw [drain]
  split
  · exact hpair _ _ (hrun _ _)
  · exact hpair _ _ ((hrun _ _).trans (advances_cluster _ _))

theorem advances_ask {α : Type} (g : Gateway) (p : NodeProgram α) : Advances g (g.ask p).2 :=
  g.advances_cluster _

/-- What may happen on a gateway beside upgrades. Whatever belongs to the rest of the cluster, the
accounts of the identity service and the store among it, may become anything at any time. -/
inductive Move (g : Gateway) : Gateway → Prop
  | round : Move g g.round.2
  | settle : Move g g.settle
  | pass (d : Duration) : Move g (g.pass d)
  | send (client : String) (m : Inbound) : Move g (g.send client m).2
  | drop (client : String) : Move g (g.drop client)
  | dropConnection (number : Nat) : Move g (g.dropConnection number)
  | forgetRead : Move g g.forgetRead
  | mute (client : String) : Move g (g.mute client)
  | unmute (client : String) : Move g (g.unmute client)
  | spawnReconciler : Move g g.spawnReconciler
  | shutdown : Move g g.shutdown
  | drain (timeout : Duration) : Move g (g.drain timeout).2
  | ask {α : Type} (p : NodeProgram α) : Move g (g.ask p).2
  | cluster (c : Cluster) : Move g { g with cluster := c }

theorem Move.advances {g g' : Gateway} (h : Move g g') : Advances g g' := by
  cases h with
  | round => exact g.advances_round
  | settle => exact respects_loop.settle _ g
  | pass d => exact respects_loop.runTo _ _ g
  | send client m => exact g.advances_send client m
  | drop client => exact g.advances_drop client
  | dropConnection number => exact g.advances_dropConnection number
  | forgetRead => exact g.advances_mapChannels fun ch => follows_of_same rfl rfl
  | mute client => exact g.advances_modifyChannel client fun ch => follows_of_same rfl rfl
  | unmute client => exact g.advances_modifyChannel client fun ch => follows_of_same rfl rfl
  | spawnReconciler => exact g.advances_spawnReconciler
  | shutdown => exact g.advances_shutdown
  | drain timeout => exact g.advances_drain timeout
  | ask p => exact g.advances_ask p
  | cluster c => exact g.advances_cluster c

/-- A gateway of a configuration, with the requests for which it has started a session, in order. -/
inductive Reached (config : ServerConfig) : List Handshake → Gateway → Prop
  | new (broker : BrokerId) (cache : SessionCache) (cluster : Cluster) :
      Reached config [] (.new config broker cache cluster)
  | upgrade {accepted : List Handshake} {g : Gateway} (client target : String) (h : Handshake)
      (hg : Reached config accepted g) :
      Reached config
        (accepted ++ if (g.upgrade client target h).1 = .switching then [h] else [])
        (g.upgrade client target h).2
  | move {accepted : List Handshake} {g g' : Gateway} (hg : Reached config accepted g)
      (hmove : Move g g') : Reached config accepted g'

end Gateway

end SessionGateway
