import SessionGateway.Cluster.Fiber

/-!
# Who was heard from

When a client was last heard from, and whether it was since that was last checked, is kept with its
connection. Whatever programs ask of a cluster, nobody is heard from by it, nothing is checked, and
no time passes.
-/

namespace SessionGateway

/-- Whether the client was heard from since that was last checked, and when it was last. -/
def Connection.pulse (c : Connection) : Bool × Duration := (c.isAlive, c.lastHeard)

def pulse? (cs : Connections) (n : Nat) : Option (Bool × Duration) :=
  (cs.get? n).map Connection.pulse

/-! ### Connections -/

/-- Nobody was heard from, and nothing was checked. -/
def SamePulses (cs cs' : Connections) : Prop := ∀ n, pulse? cs' n = pulse? cs n

section

variable {cs cs' cs'' : Connections} {n : Nat} {c c' : Connection}

theorem SamePulses.refl (cs : Connections) : SamePulses cs cs := fun _ => rfl

theorem SamePulses.trans (h : SamePulses cs cs') (h' : SamePulses cs' cs'') :
    SamePulses cs cs'' :=
  fun n => (h' n).trans (h n)

theorem samePulses_insert (hc : cs.get? n = some c) (hpulse : c'.pulse = c.pulse) :
    SamePulses cs (cs.insert n c') := by
  intro m
  rw [pulse?, pulse?, Table.get?_insert]
  split
  · next hm =>
    subst hm
    rw [hc, Option.map_some, Option.map_some, hpulse]
  · rfl

theorem Connection.pulse_send (c : Connection) (text : String) :
    (c.send text).2.pulse = c.pulse := by
  rw [send]
  split
  · rfl
  · split
    · rfl
    · split <;> rfl

theorem Connection.pulse_close (c : Connection) : c.close.2.pulse = c.pulse := by
  rw [close]
  split <;> rfl

theorem samePulses_send (t : Transport) (text : String) (cs : Connections) :
    SamePulses cs (t.send text cs).2 := by
  rw [Transport.send]
  split
  · exact .refl cs
  · next n c hlink =>
    obtain ⟨l, -, hfound⟩ := Option.bind_eq_some_iff.mp hlink
    obtain ⟨c', hc', heq⟩ := Option.map_eq_some_iff.mp hfound
    cases heq
    exact samePulses_insert hc' (Connection.pulse_send _ text)

theorem samePulses_close (t : Transport) (cs : Connections) :
    SamePulses cs (t.close cs).2 := by
  rw [Transport.close]
  split
  · exact .refl cs
  · next n c hlink =>
    obtain ⟨l, -, hfound⟩ := Option.bind_eq_some_iff.mp hlink
    obtain ⟨c', hc', heq⟩ := Option.map_eq_some_iff.mp hfound
    cases heq
    exact samePulses_insert hc' (Connection.pulse_close _)

theorem samePulses_deliverAll (text : String) (ts : List Transport) (cs : Connections) :
    SamePulses cs (Directory.deliverAll text ts cs).2 := by
  induction ts generalizing cs with
  | nil => exact .refl cs
  | cons t rest ih => exact (samePulses_send t text cs).trans (ih _)

theorem samePulses_sendToConnection (d : Directory) (id : ConnectionId) (text : String)
    (cs : Connections) : SamePulses cs (d.sendToConnection id text cs).2 := by
  rw [Directory.sendToConnection]
  split
  · exact samePulses_send _ text cs
  · exact .refl cs

end

/-! ### Clusters -/

namespace Cluster

/-- Nobody was heard from, and no time has passed. -/
structure Unheard (c c' : Cluster) : Prop where
  now : c'.now = c.now
  pulses : SamePulses c.connections c'.connections

variable {c c' c'' : Cluster} {b : BrokerId}

theorem unheard_of_same (hnow : c'.now = c.now) (hconnections : c'.connections = c.connections) :
    c.Unheard c' :=
  ⟨hnow, fun n => by rw [hconnections]⟩

theorem Unheard.refl (c : Cluster) : c.Unheard c := ⟨rfl, .refl _⟩

theorem Unheard.trans (h : c.Unheard c') (h' : c'.Unheard c'') : c.Unheard c'' :=
  ⟨h'.now.trans h.now, h.pulses.trans h'.pulses⟩

theorem unheard_route (c : Cluster) (b : BrokerId) (e : Envelope) : c.Unheard (c.route b e).2 := by
  refine ⟨rfl, ?_⟩
  -- the user's connections are served first, then the group's
  have huser : ∀ (u : Option Int64) (text : String) (cs : Connections), SamePulses cs
      ((u.map fun u => (c.directory b).sendToUser u text cs).getD (0, cs)).2 := by
    rintro (_ | u) text cs
    · exact .refl cs
    · exact samePulses_deliverAll text _ cs
  have hgroup : ∀ (g : Option String) (text : String) (cs : Connections), SamePulses cs
      ((g.map fun g => (c.directory b).sendToGroup g text cs).getD (0, cs)).2 := by
    rintro (_ | g) text cs
    · exact .refl cs
    · exact samePulses_deliverAll text _ cs
  exact (huser _ _ _).trans (hgroup _ _ _)

theorem unheard_carryOut (c : Cluster) (b : BrokerId) (x : FrameContext) (f : Frame) (w : Work) :
    c.Unheard (c.carryOut b x f w).2 := by
  cases w with
  | echo => exact ⟨rfl, samePulses_sendToConnection _ _ _ _⟩
  | route => exact c.unheard_route b _
  | observe | fail | refuse | pause | unregister | register => exact unheard_of_same rfl rfl

theorem unheard_turn (c : Cluster) (b : BrokerId) (p : Processor) (x : FrameContext) (f : Frame)
    (limit : Duration) : c.Unheard (c.turn b p x f limit).2 := by
  rw [turn]
  split
  · exact .refl c
  · split
    · exact .refl c
    · exact c.unheard_carryOut b x f p.work

theorem unheard_perform (b : BrokerId) (r : Node.Request) (c : Cluster) :
    c.Unheard (c.perform b r).2 := by
  cases r with
  | cache r => cases r <;> exact unheard_of_same rfl rfl
  | acquire kind patience =>
    simp only [perform]
    split <;> exact unheard_of_same rfl rfl
  | close t => exact ⟨rfl, samePulses_close t c.connections⟩
  | turn p x f limit => exact c.unheard_turn b p x f limit
  | identify | release | directory | addUser | addGroup | withdrawUser | withdrawGroup | remove
  | measure | processors => exact unheard_of_same rfl rfl

theorem unheard_begin (c : Cluster) (r : Node.Request) : c.Unheard (c.begin r) := by
  cases r with
  | turn p x f limit =>
    rw [begin]
    split <;> exact unheard_of_same rfl rfl
  | _ => exact unheard_of_same rfl rfl

end Cluster

/-! ### Fibers -/

namespace Attempt

variable {α : Type}

/-- The cluster after an attempt. -/
def cluster : Attempt α → Cluster
  | .answered _ c | .waiting _ c => c

end Attempt

namespace Cluster

variable {c c' : Cluster}

theorem unheard_await (c : Cluster) (b : BrokerId) (kind : ConnectionKind) (ticket : Nat)
    (deadline : Option Duration) : c.Unheard (c.await b kind ticket deadline).cluster := by
  unfold await
  dsimp only
  split
  · exact .refl c
  · split
    · exact .refl c
    · split
      · exact unheard_of_same rfl rfl
      · exact .refl c

theorem unheard_answerAt (c : Cluster) (b : BrokerId) (r : Node.Request) (t : Duration) :
    c.Unheard (c.answerAt b r t).cluster := by
  rw [answerAt]
  split
  · exact unheard_perform b r c
  · exact .refl c

theorem unheard_attempt (b : BrokerId) (r : Node.Request) (w : Wait) (c : Cluster) :
    c.Unheard (attempt b r w c).cluster := by
  have hbegun : ∀ t, c.Unheard ((c.begin r).answerAt b r t).cluster := fun t =>
    (c.unheard_begin r).trans (unheard_answerAt _ b r t)
  cases r with
  | acquire kind patience =>
    cases w with
    | lock ticket deadline => exact c.unheard_await b kind ticket deadline
    | nothing | start | answer =>
      have hjoined : ∀ l, c.Unheard (c.setLock b kind l) := fun _ => unheard_of_same rfl rfl
      exact (hjoined _).trans (unheard_await _ b kind _ _)
  | _ =>
    cases w with
    | answer t => exact c.unheard_answerAt b _ t
    | nothing | start | lock => exact hbegun _

end Cluster

namespace Fiber

variable {α : Type}

theorem unheard_goOn (node : BrokerId) (moved : Bool) (p : NodeProgram α) (w : Wait) (c : Cluster) :
    c.Unheard (goOn node moved p w c).2 := by
  induction p generalizing moved w c with
  | done a => exact .refl c
  | ask r next ih =>
    have hattempt := Cluster.unheard_attempt node r w c
    rw [goOn]
    cases hresult : Cluster.attempt node r w c with
    | answered x c' =>
      rw [hresult] at hattempt
      exact hattempt.trans (ih x true .nothing c')
    | waiting w' c' =>
      rw [hresult] at hattempt
      exact hattempt

theorem unheard_poll (f : Fiber α) (c : Cluster) : c.Unheard (f.poll c).2 := by
  rw [poll]
  split
  · exact .refl c
  · split
    · exact unheard_goOn _ _ _ _ c
    · exact .refl c
  · exact unheard_goOn _ _ _ _ c

end Fiber

end SessionGateway
