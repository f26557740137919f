import SessionGateway.Proofs.Cluster.Pulses
import SessionGateway.Proofs.Gateway.Sessions

/-!
# What marks connections

A connection is marked by its own session, whenever that hears from the client, and checked by its
own write side, whenever a ping is due. Whatever else goes on leaves its mark alone.
-/

namespace SessionGateway

/-! ### The write side -/

namespace Writer

variable {w : Writer} {now : Duration} {c : Connection} {s : Step}

/-- A ping comes next. -/
structure Ticks (w : Writer) (now : Duration) (c : Connection) : Prop where
  runs : w.hasEnded = false
  unasked : c.isClosed = false
  emptied : c.queue = []
  due : w.nextPing ≤ now

instance : Decidable (w.Ticks now c) :=
  decidable_of_iff (w.hasEnded = false ∧ c.isClosed = false ∧ c.queue = [] ∧ w.nextPing ≤ now)
    ⟨fun h => ⟨h.1, h.2.1, h.2.2.1, h.2.2.2⟩,
      fun h => ⟨h.runs, h.unasked, h.emptied, h.due⟩⟩

/-- What a ping makes of a connection. -/
def checked (w : Writer) (now : Duration) (c : Connection) : Connection :=
  if (c.isIdle now w.timeout).1 then (c.isIdle now w.timeout).2.close.2
  else (c.isIdle now w.timeout).2

/-- The ways in which a writer goes on. -/
inductive Goes (w : Writer) (now : Duration) (c : Connection) : Step → Prop
  | quits (runs : w.hasEnded = false) (asked : c.isClosed = true) :
      Goes w now c ⟨none, some .close, { w with hasEnded := true }, c.abandon⟩
  | sends {text : String} {rest : List String} (runs : w.hasEnded = false)
      (unasked : c.isClosed = false) (waits : c.queue = text :: rest) :
      Goes w now c ⟨none, some (.text text), w, { c with queue := rest }⟩
  | closes (ticks : w.Ticks now c) (idle : (c.isIdle now w.timeout).1 = true) :
      Goes w now c ⟨some w.unresponsive, none, { w with nextPing := w.nextPing + w.interval },
        w.checked now c⟩
  | pings (ticks : w.Ticks now c) (awake : (c.isIdle now w.timeout).1 = false) :
      Goes w now c ⟨none, some .ping, { w with nextPing := w.nextPing + w.interval },
        w.checked now c⟩

theorem goes_of_next? (h : w.next? now c = some s) : w.Goes now c s := by
  rw [next?] at h
  split at h
  · cases h
  · next hruns =>
    have hruns : w.hasEnded = false := eq_false_of_ne_true hruns
    split at h
    · next hasked =>
      cases h
      exact .quits hruns hasked
    · next hunasked =>
      have hunasked : c.isClosed = false := eq_false_of_ne_true hunasked
      split at h
      · next text rest hqueue =>
        cases h
        exact .sends hruns hunasked hqueue
      · next hqueue =>
        split at h
        · next hdue =>
          have hticks : w.Ticks now c := ⟨hruns, hunasked, hqueue, hdue⟩
          dsimp only at h
          split at h
          · next hidle =>
            cases h
            have hgoes := Goes.closes hticks hidle
            rwa [checked, if_pos hidle] at hgoes
          · next hawake =>
            cases h
            have hgoes := Goes.pings hticks (eq_false_of_ne_true hawake)
            rwa [checked, if_neg hawake] at hgoes
        · cases h

/-- The same pings are due, unless the writer has ended. -/
structure SamePace (w w' : Writer) : Prop where
  interval : w'.interval = w.interval
  timeout : w'.timeout = w.timeout
  nextPing : w'.nextPing = w.nextPing
  runs : w'.hasEnded = false → w.hasEnded = false

theorem SamePace.refl (w : Writer) : w.SamePace w := ⟨rfl, rfl, rfl, id⟩

theorem samePace_ended (w : Writer) : w.SamePace { w with hasEnded := true } :=
  ⟨rfl, rfl, rfl, fun hruns => absurd hruns.symm Bool.false_ne_true⟩

theorem SamePace.trans {w w' w'' : Writer} (h : w.SamePace w') (h' : w'.SamePace w'') :
    w.SamePace w'' :=
  ⟨h'.interval.trans h.interval, h'.timeout.trans h.timeout, h'.nextPing.trans h.nextPing,
    h.runs ∘ h'.runs⟩

/-- A writer goes on without looking at the flag, or it pings. -/
theorem Goes.passes_or_ticks (h : w.Goes now c s) :
    (¬ w.Ticks now c ∧ w.SamePace s.writer ∧ s.connection.pulse = c.pulse ∧
      s.connection.isClosed = c.isClosed) ∨
    (w.Ticks now c ∧ s.writer = { w with nextPing := w.nextPing + w.interval } ∧
      s.connection = w.checked now c) := by
  cases h with
  | quits runs asked =>
    refine .inl ⟨fun hticks => ?_, w.samePace_ended, rfl, rfl⟩
    rw [hticks.unasked] at asked
    cases asked
  | sends runs unasked waits =>
    refine .inl ⟨fun hticks => ?_, .refl w, rfl, rfl⟩
    rw [hticks.emptied] at waits
    cases waits
  | closes ticks idle => exact .inr ⟨ticks, rfl, rfl⟩
  | pings ticks awake => exact .inr ⟨ticks, rfl, rfl⟩

theorem pulse_checked : (w.checked now c).pulse = (false, c.lastHeard) := by
  rw [checked]
  split
  · exact Connection.pulse_close _
  · rfl

theorem isClosed_checked :
    (w.checked now c).isClosed = ((c.isIdle now w.timeout).1 || c.isClosed) := by
  rw [checked]
  split
  · next hidle =>
    rw [hidle, Bool.true_or, Connection.close]
    split
    · next hclosed => exact hclosed
    · rfl
  · next hawake =>
    rw [eq_false_of_ne_true hawake, Bool.false_or]
    rfl

end Writer

/-! ### Channels -/

namespace Channel

variable {ch : Channel} {c c' c'' : Cluster} {s : Writer.Step}

theorem connection_eq {k : Connection} (h : c.connections.get? ch.session.number = some k) :
    ch.connection c = k := by
  rw [connection, h]
  rfl

theorem pulse?_setConnection (ch : Channel) (k : Connection) (c : Cluster) (n : Nat) :
    pulse? (ch.setConnection k c).connections n =
      if n = ch.session.number then some k.pulse else pulse? c.connections n := by
  rw [pulse?, setConnection, Table.get?_insert]
  by_cases hn : ch.session.number = n
  · rw [if_pos hn, if_pos hn.symm]
    rfl
  · rw [if_neg hn, if_neg (hn ∘ Eq.symm)]
    rfl

/-- The channel of a connection changes none but its own. -/
structure Spares (ch : Channel) (c c' : Cluster) : Prop where
  now : c'.now = c.now
  pulses : ∀ n, n ≠ ch.session.number → pulse? c'.connections n = pulse? c.connections n

theorem spares_of_unheard (h : c.Unheard c') : ch.Spares c c' :=
  ⟨h.now, fun n _ => h.pulses n⟩

theorem spares_setConnection (ch : Channel) (k : Connection) (c : Cluster) :
    ch.Spares c (ch.setConnection k c) := by
  refine ⟨rfl, fun n hn => ?_⟩
  rw [pulse?_setConnection, if_neg hn]

theorem Spares.trans (h : ch.Spares c c') (h' : ch.Spares c' c'') : ch.Spares c c'' :=
  ⟨h'.now.trans h.now, fun n hn => (h'.pulses n hn).trans (h.pulses n hn)⟩

theorem Spares.of_session {ch' : Channel} (h : ch'.Spares c c')
    (hsession : ch'.session = ch.session) : ch.Spares c c' := by
  refine ⟨h.now, fun n hn => h.pulses n ?_⟩
  rwa [hsession]

/-- What a step of the write side comes to. -/
structure Wrote (ch : Channel) (s : Writer.Step) (ch' : Channel) (c c' : Cluster) : Prop where
  session : ch'.session = ch.session
  writer : s.writer.SamePace ch'.writer
  connection : ∃ k, c'.connections.get? ch.session.number = some k ∧
    k.pulse = s.connection.pulse ∧ k.isClosed = s.connection.isClosed
  spares : ch.Spares c c'

theorem wrote_of_next? (h : ch.writer.next? c.now (ch.connection c) = some s) :
    ch.Wrote s (ch.write c).1.2 c (ch.write c).2 := by
  have hput : ∀ (k : Connection) (c : Cluster),
      (ch.setConnection k c).connections.get? ch.session.number = some k := by
    intro k c
    rw [setConnection, Table.get?_insert, if_pos rfl]
  have hlog : ∀ (c : Cluster), ((s.event.map c.log).getD c).connections = c.connections ∧
      ((s.event.map c.log).getD c).now = c.now := by
    intro c
    cases s.event <;> exact ⟨rfl, rfl⟩
  obtain ⟨hconnections, hnow⟩ := hlog (ch.setConnection s.connection c)
  have hthere := hput s.connection c
  rw [← hconnections] at hthere
  have hspares : ch.Spares c ((s.event.map (ch.setConnection s.connection c).log).getD
      (ch.setConnection s.connection c)) :=
    (ch.spares_setConnection s.connection c).trans
      (spares_of_unheard (Cluster.unheard_of_same hnow hconnections))
  rw [write, h]
  dsimp only
  split
  · exact ⟨rfl, .refl _, ⟨s.connection, hthere, rfl, rfl⟩, hspares⟩
  · split
    · -- the client dropped its socket
      have hself : Channel.connection { ch with writer := s.writer } _ = s.connection :=
        connection_eq hthere
      refine ⟨rfl, s.writer.samePace_ended, ⟨_, hput _ _, ?_⟩,
        hspares.trans (ch.spares_setConnection _ _)⟩
      rw [hself]
      exact ⟨rfl, rfl⟩
    · exact ⟨rfl, .refl _, ⟨s.connection, hthere, rfl, rfl⟩, hspares⟩

theorem write_of_none (h : ch.writer.next? c.now (ch.connection c) = none) :
    ch.write c = ((false, ch), c) := by
  rw [write, h]

/-- What a session reads if it can. -/
def offered? (ch : Channel) (k : Controls) (c : Cluster) : Option Inbound :=
  if (ch.connection c).isClosed || k.isStopping then none else ch.inbound.head?

/-- Whether a session hears from its client in its next step. -/
def hears (ch : Channel) (k : Controls) (c : Cluster) : Bool :=
  match ch.phase with
  | .reading _ | .listening .. => (ch.offered? k c).any (·.isSignOfLife)
  | _ => false

/-- What a step of a session comes to. It takes no time, and its connection is marked if the client
was heard from. -/
structure Stepped (ch : Channel) (heard : Bool) (ch' : Channel) (c c' : Cluster) : Prop where
  session : ch'.session = ch.session
  writer : ch'.writer = ch.writer
  pulse : (c.connections.get? ch.session.number).isSome = true →
    pulse? c'.connections ch.session.number =
      if heard then some (true, c.now) else pulse? c.connections ch.session.number
  spares : ch.Spares c c'

theorem stepped_of_unheard {ch' : Channel} (h : c.Unheard c') (hsession : ch'.session = ch.session)
    (hwriter : ch'.writer = ch.writer) : ch.Stepped false ch' c c' := by
  refine ⟨hsession, hwriter, fun _ => ?_, spares_of_unheard h⟩
  rw [h.pulses, if_neg Bool.false_ne_true]

theorem writer_acknowledge (ch : Channel) (m : Inbound) :
    (ch.acknowledge m).writer = ch.writer := by
  cases m with
  | ping payload =>
    rw [acknowledge]
    split <;> rfl
  | _ => rfl

theorem stepped_of_read {k : Controls} {st : ConnectionState} {ch' : Channel}
    (h : ch.read k st c = some (ch', c')) :
    ch.Stepped ((ch.offered? k c).any (·.isSignOfLife)) ch' c c' := by
  rw [read] at h
  rw [offered?]
  dsimp only at h
  split at h
  · next hclosed =>
    cases h
    rw [hclosed]
    exact stepped_of_unheard (.refl c) rfl rfl
  · next hopen =>
    split at h
    · next hstops =>
      cases h
      rw [hstops, Bool.or_true]
      refine ⟨rfl, rfl, fun hthere => ?_, ch.spares_setConnection _ c⟩
      obtain ⟨conn, hconn⟩ := Option.isSome_iff_exists.mp hthere
      rw [pulse?_setConnection, if_pos rfl, Connection.pulse_close, connection_eq hconn, pulse?,
        hconn]
      rfl
    · next hstays =>
      rw [eq_false_of_ne_true hopen, eq_false_of_ne_true hstays]
      split at h
      · cases h
      · next m rest hinbound =>
        cases h
        rw [hinbound]
        refine ⟨(acknowledge_same _ _).1, writer_acknowledge _ _, fun _ => ?_, ?_⟩
        · show pulse? (if m.isSignOfLife = true then _ else c).connections _ =
            if m.isSignOfLife = true then _ else _
          split
          · rw [pulse?_setConnection, if_pos rfl]
            rfl
          · rfl
        · split
          · exact ch.spares_setConnection _ c
          · exact spares_of_unheard (.refl c)

theorem unheard_await {α : Type} (f : Fiber α) (c : Cluster) (before : Fiber α → Phase)
    (after : α → Phase) : c.Unheard (await f c before after).2 := by
  have hpoll := f.unheard_poll c
  rw [await]
  dsimp only
  split <;> exact hpoll

theorem offered?_of_read_none {k : Controls} {st : ConnectionState} (h : ch.read k st c = none) :
    ch.offered? k c = none := by
  rw [read] at h
  rw [offered?]
  dsimp only at h
  split at h
  · cases h
  · split at h
    · cases h
    · split at h
      · next hempty =>
        rw [hempty]
        split <;> rfl
      · cases h

theorem stepped_step (ch : Channel) (k : Controls) (c : Cluster) :
    ch.Stepped (ch.hears k c) (ch.step k c).1.2 c (ch.step k c).2 := by
  have hread : ∀ {st ch'}, ch.read k st c = none → ch'.session = ch.session →
      ch'.writer = ch.writer → ch.Stepped ((ch.offered? k c).any (·.isSignOfLife)) ch' c c := by
    intro st ch' hnone hsession hwriter
    rw [offered?_of_read_none hnone]
    exact stepped_of_unheard (.refl c) hsession hwriter
  rw [step, hears]
  cases ch.phase with
  | reading st =>
    dsimp only
    cases hresult : ch.read k st c with
    | none => exact hread hresult rfl rfl
    | some r => exact stepped_of_read hresult
  | listening st place =>
    dsimp only
    cases hresult : ch.read k st c with
    | none => exact hread hresult rfl rfl
    | some r => exact stepped_of_read hresult
  | flushing st =>
    dsimp only
    split
    · exact stepped_of_unheard (unheard_await _ c _ _) rfl rfl
    · exact stepped_of_unheard (.refl c) rfl rfl
  | opening f | reacting st f | leaving st f | parting f =>
    exact stepped_of_unheard (unheard_await f c _ _) rfl rfl
  | ended => exact stepped_of_unheard (.refl c) rfl rfl

/-! ### Others -/

theorem spares_drive (k : Controls) (fuel : Nat) (ch : Channel) (c : Cluster) :
    ch.Spares c (ch.drive k fuel c).2 := by
  induction fuel generalizing ch c with
  | zero => exact spares_of_unheard (.refl c)
  | succ fuel ih =>
    have hstep := ch.stepped_step k c
    rw [drive]
    rcases hs : ch.step k c with ⟨⟨_ | _, ch'⟩, c'⟩
    · rw [hs] at hstep
      exact hstep.spares
    · rw [hs] at hstep
      exact hstep.spares.trans ((ih ch' c').of_session hstep.session)

theorem spares_write (ch : Channel) (c : Cluster) : ch.Spares c (ch.write c).2 := by
  cases hnext : ch.writer.next? c.now (ch.connection c) with
  | none =>
    rw [write_of_none hnext]
    exact spares_of_unheard (.refl c)
  | some s => exact (wrote_of_next? hnext).spares

theorem spares_poll (k : Controls) (ch : Channel) (c : Cluster) :
    ch.Spares c (ch.poll k c).2 := by
  rw [poll]
  split
  · exact spares_of_unheard (.refl c)
  · have hsession := (drive_follows k ch.stepsAhead ch c).session
    exact (spares_drive k _ ch c).trans ((spares_write _ _).of_session hsession)

end Channel

namespace Reconciler

theorem unheard_poll (r : Reconciler) (c : Cluster) : c.Unheard (r.poll c).2 := by
  have hawait : ∀ (f : Fiber Unit) (before : Fiber Unit → Phase) (after : Phase),
      c.Unheard (await f c before after).2 := fun f _ _ => f.unheard_poll c
  show c.Unheard (r.advance c).2
  rw [advance]
  cases r.phase with
  | idle due =>
    dsimp only
    split
    · exact hawait _ _ _
    · split
      · exact hawait _ _ _
      · exact .refl c
  | starting f | passing f due | leaving f => exact hawait f _ _
  | ended => exact .refl c

end Reconciler

namespace Gateway

/-- A task that is not the channel of a connection. -/
def Task.IsAside (n : Nat) : Task → Prop
  | .channel ch => n ≠ ch.session.number
  | .reconciler .. => True

theorem Task.pulse?_poll {n : Nat} {t : Task} (h : t.IsAside n) (k : Channel.Controls)
    (c : Cluster) : (t.poll k c).2.now = c.now ∧
      pulse? (t.poll k c).2.connections n = pulse? c.connections n := by
  cases t with
  | channel ch =>
    have hspares := ch.spares_poll k c
    exact ⟨hspares.now, hspares.pulses n h⟩
  | reconciler r place =>
    have hunheard := r.unheard_poll c
    exact ⟨hunheard.now, hunheard.pulses n⟩

theorem pulse?_pollTasks {n : Nat} {tasks : List Task} (h : ∀ t ∈ tasks, t.IsAside n)
    (k : Channel.Controls) (c : Cluster) : (pollTasks k tasks c).2.now = c.now ∧
      pulse? (pollTasks k tasks c).2.connections n = pulse? c.connections n := by
  induction tasks generalizing k c with
  | nil => exact ⟨rfl, rfl⟩
  | cons t rest ih =>
    obtain ⟨ht, hrest⟩ := List.forall_mem_cons.mp h
    obtain ⟨hnow, hpulse⟩ := Task.pulse?_poll ht k c
    obtain ⟨hnow', hpulse'⟩ := ih hrest { k with place := k.place + 1 } (t.poll k c).2
    exact ⟨hnow'.trans hnow, hpulse'.trans hpulse⟩

end Gateway

end SessionGateway
