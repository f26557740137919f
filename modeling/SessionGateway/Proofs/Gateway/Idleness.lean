import SessionGateway.Proofs.Gateway.Marks
import SessionGateway.Proofs.Lifecycle.Requests
import SessionGateway.Proofs.Store.Memory

/-!
# Silent clients

A channel goes on step by step while its client sends what it likes, others use the connection and
time passes. Pings are due at the multiples of an interval since the channel was opened. Where the
timeout is longer than the interval, a ping that is due asks the connection to close just if the
client was not heard from for longer than the timeout: the flag that is lowered at each ping makes
no difference.
-/

namespace SessionGateway

/-! ### Watching a channel -/

/-- A channel with the times at which its session heard from the client. -/
structure Watch where
  channel : Channel
  cluster : Cluster
  /-- Newest first. -/
  heard : List Duration

namespace Watch

variable {x y : Watch} {interval timeout start : Duration}

def connection (x : Watch) : Connection := x.channel.connection x.cluster

/-- When the client was heard from last, or the channel was opened. -/
def lastHeard (start : Duration) (x : Watch) : Duration := x.heard.headD start

/-- A ping is due and is what the write side turns to next. -/
def Ticks (x : Watch) : Prop := x.channel.writer.Ticks x.cluster.now x.connection

instance (x : Watch) : Decidable x.Ticks :=
  inferInstanceAs (Decidable (x.channel.writer.Ticks x.cluster.now x.connection))

/-- After a step of the write side. -/
def written (x : Watch) : Watch :=
  ⟨(x.channel.write x.cluster).1.2, (x.channel.write x.cluster).2, x.heard⟩

/-- After a step of the session. -/
def stepped (k : Channel.Controls) (x : Watch) : Watch :=
  ⟨(x.channel.step k x.cluster).1.2, (x.channel.step k x.cluster).2,
    if x.channel.hears k x.cluster then x.cluster.now :: x.heard else x.heard⟩

/-- What may happen at once. -/
inductive Step : Watch → Watch → Prop
  | session (x : Watch) (k : Channel.Controls) : Step x (x.stepped k)
  | write (x : Watch) : Step x x.written
  /-- The client sends, reads and leaves as it pleases. -/
  | client (x : Watch) (inbound : List Inbound) (client : Client) :
      Step x { x with channel := { x.channel with inbound, client } }
  /-- Others send to the connection and close it, and do whatever does not concern it. Only its own
  session marks it. -/
  | others (x : Watch) {c : Cluster} (now : c.now = x.cluster.now)
      (pulse : pulse? c.connections x.channel.session.number =
        pulse? x.cluster.connections x.channel.session.number) : Step x { x with cluster := c }
  /-- Time passes, though not beyond a ping that is due. -/
  | time (x : Watch) {t : Duration} (later : x.cluster.now ≤ t)
      (punctual : ∀ due, x.channel.writer.due? = some due → t ≤ due) :
      Step x { x with cluster := { x.cluster with now := t } }

/-- A channel that was just opened. -/
structure Begins (interval timeout start : Duration) (x : Watch) : Prop where
  writer : x.channel.writer = .start interval timeout start
  now : x.cluster.now = start
  pulse : pulse? x.cluster.connections x.channel.session.number = some (true, start)
  heard : x.heard = []

/-- What comes of a channel that was opened at a time, with a ping interval and a pong timeout. -/
inductive Reached (interval timeout start : Duration) : Watch → Prop
  | start {x : Watch} (begins : Begins interval timeout start x) : Reached interval timeout start x
  | step {x y : Watch} (reached : Reached interval timeout start x) (h : Step x y) :
      Reached interval timeout start y

/-- What every step preserves. -/
structure Paced (interval timeout start : Duration) (x : Watch) : Prop where
  every : x.channel.writer.interval = interval
  patience : x.channel.writer.timeout = timeout
  /-- While the flag is up, the client was heard from since the last ping. -/
  pulse : ∃ alive, pulse? x.cluster.connections x.channel.session.number =
    some (alive, x.lastHeard start) ∧
      (alive = true → x.channel.writer.nextPing ≤ x.lastHeard start + interval)
  multiple : ∃ n : Nat, x.channel.writer.nextPing.nanos = start.nanos + (n + 1) * interval.nanos
  recent : x.channel.writer.nextPing ≤ x.cluster.now + interval
  punctual : x.channel.writer.hasEnded = false → x.cluster.now ≤ x.channel.writer.nextPing

theorem Begins.paced (h : Begins interval timeout start x) : Paced interval timeout start x := by
  have hlast : x.lastHeard start = start := by rw [lastHeard, h.heard]; rfl
  refine ⟨by rw [h.writer]; rfl, by rw [h.writer]; rfl, ⟨true, by rw [h.pulse, hlast], ?_⟩,
    ⟨0, ?_⟩, ?_, ?_⟩
  · rw [h.writer, hlast]
    exact fun _ => Duration.le_refl _
  · rw [h.writer, Nat.zero_add, Nat.one_mul]
    rfl
  · rw [h.writer, h.now]
    exact Duration.le_refl _
  · rw [h.writer, h.now]
    exact fun _ => Nat.le_add_right _ _

theorem Paced.there (h : Paced interval timeout start x) :
    ∃ c alive, x.cluster.connections.get? x.channel.session.number = some c ∧
      c.pulse = (alive, x.lastHeard start) ∧
      (alive = true → x.channel.writer.nextPing ≤ x.lastHeard start + interval) := by
  obtain ⟨alive, hpulse, halive⟩ := h.pulse
  obtain ⟨c, hc, hpulse⟩ := Option.map_eq_some_iff.mp hpulse
  exact ⟨c, alive, hc, hpulse, halive⟩

/-- Where the pings that are due stay the same, it is enough to know of the clock and the flag. -/
theorem Paced.of_samePace (h : Paced interval timeout start x)
    (hwriter : x.channel.writer.SamePace y.channel.writer) (hlater : x.cluster.now ≤ y.cluster.now)
    (hpunctual : x.channel.writer.hasEnded = false → y.cluster.now ≤ x.channel.writer.nextPing)
    (hpulse : ∃ alive, pulse? y.cluster.connections y.channel.session.number =
      some (alive, y.lastHeard start) ∧
        (alive = true → x.channel.writer.nextPing ≤ y.lastHeard start + interval)) :
    Paced interval timeout start y := by
  obtain ⟨hinterval, htimeout, hping, hruns⟩ := hwriter
  rw [← hping] at hpunctual hpulse
  refine ⟨hinterval.trans h.every, htimeout.trans h.patience, hpulse, hping ▸ h.multiple, ?_,
    hpunctual ∘ hruns⟩
  rw [hping]
  exact Duration.le_trans h.recent (Nat.add_le_add_right hlater _)

theorem Paced.stepped (h : Paced interval timeout start x) (k : Channel.Controls) :
    Paced interval timeout start (x.stepped k) := by
  obtain ⟨c, alive, hc, hpulse, halive⟩ := h.there
  obtain ⟨hsession, hwriter, hmarked, hspares⟩ := x.channel.stepped_step k x.cluster
  have hnow : (x.stepped k).cluster.now = x.cluster.now := hspares.now
  refine h.of_samePace (hwriter ▸ .refl _) (hnow ▸ Duration.le_refl _)
    (fun hruns => hnow ▸ h.punctual hruns) ?_
  rw [Watch.stepped, hsession, lastHeard, hmarked (by rw [hc]; rfl)]
  cases x.channel.hears k x.cluster with
  | true => exact ⟨true, rfl, fun _ => h.recent⟩
  | false =>
    rw [if_neg Bool.false_ne_true, pulse?, hc, Option.map_some, hpulse]
    exact ⟨alive, rfl, halive⟩

theorem Paced.written (h : Paced interval timeout start x) :
    Paced interval timeout start x.written := by
  obtain ⟨c, alive, hc, hpulse, halive⟩ := h.there
  have hself : x.channel.connection x.cluster = c := Channel.connection_eq hc
  cases hnext : x.channel.writer.next? x.cluster.now (x.channel.connection x.cluster) with
  | none =>
    rw [Watch.written, Channel.write_of_none hnext]
    exact h
  | some s =>
    obtain ⟨hsession, hwriter, ⟨c', hc', hpulse', -⟩, hspares⟩ := Channel.wrote_of_next? hnext
    rw [hself] at hnext
    have hnow : x.written.cluster.now = x.cluster.now := hspares.now
    have hwriter : s.writer.SamePace x.written.channel.writer := hwriter
    have hthere : pulse? x.written.cluster.connections x.written.channel.session.number =
        some s.connection.pulse := by
      rw [Watch.written, hsession, pulse?, hc', Option.map_some, hpulse']
    obtain ⟨-, hsame, hkept, -⟩ | ⟨hticks, hnew, hchecked⟩ :=
      (Writer.goes_of_next? hnext).passes_or_ticks
    · rw [hkept, hpulse] at hthere
      exact h.of_samePace (hsame.trans hwriter) (hnow ▸ Duration.le_refl _)
        (fun hruns => hnow ▸ h.punctual hruns) ⟨alive, hthere, halive⟩
    · obtain ⟨hinterval, htimeout, hping, -⟩ := hwriter
      rw [hnew] at hinterval htimeout hping
      rw [hchecked, Writer.pulse_checked] at hthere
      have hping : x.written.channel.writer.nextPing = x.channel.writer.nextPing + interval := by
        rw [hping, h.every]
      have hheard : c.lastHeard = x.written.lastHeard start := congrArg Prod.snd hpulse
      rw [hheard] at hthere
      refine ⟨hinterval.trans h.every, htimeout.trans h.patience, ⟨false, hthere, ?_⟩, ?_, ?_, ?_⟩
      · rintro ⟨⟩
      · obtain ⟨n, hn⟩ := h.multiple
        refine ⟨n + 1, ?_⟩
        rw [hping, Duration.nanos_add, hn, Nat.add_mul (n + 1), Nat.one_mul, Nat.add_assoc]
      · rw [hping, hnow]
        exact Nat.add_le_add_right hticks.due _
      · rw [hping, hnow]
        exact fun _ => Nat.le_trans (h.punctual hticks.runs) (Nat.le_add_right _ _)

theorem Paced.step (h : Paced interval timeout start x) (hstep : Step x y) :
    Paced interval timeout start y := by
  cases hstep with
  | session k => exact h.stepped k
  | write => exact h.written
  | client inbound client => exact h.of_samePace (.refl _) (Duration.le_refl _) h.punctual h.pulse
  | others now pulse =>
    refine h.of_samePace (.refl _) (now ▸ Duration.le_refl _)
      (fun hruns => now ▸ h.punctual hruns) ?_
    rw [pulse]
    exact h.pulse
  | time later punctual =>
    refine h.of_samePace (.refl _) later (fun hruns => punctual _ ?_) h.pulse
    rw [Writer.due?, hruns]
    rfl

theorem Reached.paced (h : Reached interval timeout start x) : Paced interval timeout start x := by
  induction h with
  | start begins => exact begins.paced
  | step _ hstep ih => exact ih.step hstep

/-! ### Pings -/

/-- At a ping the flag makes no difference. -/
theorem Paced.isIdle_iff (h : Paced interval timeout start x) (hless : interval < timeout)
    (hticks : x.Ticks) :
    (x.connection.isIdle x.cluster.now x.channel.writer.timeout).1 = true ↔
      x.lastHeard start + timeout < x.cluster.now := by
  obtain ⟨c, alive, hc, hpulse, halive⟩ := h.there
  have hself : x.connection = c := Channel.connection_eq hc
  have hflag : c.isAlive = alive := congrArg Prod.fst hpulse
  have hheard : c.lastHeard = x.lastHeard start := congrArg Prod.snd hpulse
  have hsilent : x.channel.writer.timeout < x.cluster.now - c.lastHeard ↔
      x.lastHeard start + timeout < x.cluster.now := by
    rw [h.patience, hheard, Duration.lt_iff, Duration.lt_iff, Duration.nanos_add]
    exact Nat.lt_sub_iff_add_lt'
  rw [hself, Connection.isIdle, Connection.checkAlive, hflag, Bool.and_eq_true, decide_eq_true_iff,
    hsilent, Bool.not_eq_true']
  constructor
  · exact And.right
  · intro hlate
    refine ⟨Bool.eq_false_iff.mpr fun hup => ?_, hlate⟩
    -- the flag is up, so the client was heard from within the last interval
    have hlast := halive hup
    have hpunctual := h.punctual hticks.runs
    simp only [Duration.lt_iff, Duration.le_iff, Duration.nanos_add] at *
    omega

/-- While a ping is due, it is the next thing to do. Only a client that is not silent gets it. -/
theorem exists_next?_of_ticks (h : x.Ticks) :
    ∃ s, x.channel.writer.next? x.cluster.now x.connection = some s ∧
      s.frame = if (x.connection.isIdle x.cluster.now x.channel.writer.timeout).1 then none
        else some .ping := by
  obtain ⟨hruns, hunasked, hemptied, hdue⟩ := h
  rw [Writer.next?, hruns, hunasked, hemptied]
  dsimp only
  rw [if_neg Bool.false_ne_true, if_neg Bool.false_ne_true, if_pos hdue]
  split <;> exact ⟨_, rfl, rfl⟩

theorem isClosed_written :
    x.written.connection.isClosed = true ↔ x.connection.isClosed = true ∨
      x.Ticks ∧ (x.connection.isIdle x.cluster.now x.channel.writer.timeout).1 = true := by
  cases hnext : x.channel.writer.next? x.cluster.now x.connection with
  | none =>
    have hstill : ¬ x.Ticks := by
      intro hticks
      obtain ⟨s, hs, -⟩ := exists_next?_of_ticks hticks
      rw [hnext] at hs
      cases hs
    have hsame : x.written = x := by
      rw [Watch.written, Channel.write_of_none hnext]
    rw [hsame]
    exact ⟨.inl, fun hor => hor.resolve_right fun hticks => hstill hticks.1⟩
  | some s =>
    obtain ⟨hsession, -, ⟨k, hk, -, hclosed⟩, -⟩ := Channel.wrote_of_next? hnext
    have hself : x.written.connection = k := by
      refine Channel.connection_eq ?_
      rw [Watch.written, hsession]
      exact hk
    rw [hself, hclosed]
    obtain ⟨hstill, -, -, hsame⟩ | ⟨hticks, -, hchecked⟩ :=
      (Writer.goes_of_next? hnext).passes_or_ticks
    · rw [hsame]
      exact ⟨.inl, fun hor => hor.resolve_right fun hticks => hstill hticks.1⟩
    · rw [hchecked, Writer.isClosed_checked, Bool.or_eq_true, or_comm]
      exact or_congr_right ⟨fun hidle => ⟨hticks, hidle⟩, And.right⟩

theorem Paced.due?_eq (h : Paced interval timeout start x) (hticks : x.Ticks) :
    x.channel.writer.due? = some x.cluster.now := by
  have hnow : x.cluster.now.nanos = x.channel.writer.nextPing.nanos :=
    Nat.le_antisymm (h.punctual hticks.runs) hticks.due
  rw [Writer.due?, if_neg (Bool.eq_false_iff.mp hticks.runs)]
  exact congrArg (some ∘ Duration.mk) hnow.symm

theorem Paced.due (h : Paced interval timeout start x) {due : Duration}
    (hdue : x.channel.writer.due? = some due) :
    x.cluster.now ≤ due ∧ due ≤ x.cluster.now + interval ∧
      ∃ n : Nat, due.nanos = start.nanos + (n + 1) * interval.nanos := by
  rw [Writer.due?] at hdue
  split at hdue
  · cases hdue
  · next hruns =>
    obtain rfl := Option.some.inj hdue
    exact ⟨h.punctual (Bool.eq_false_iff.mpr hruns), h.recent, h.multiple⟩

/-- A step of the write side asks the connection to close just at a ping, and there just if the
client was silent for longer than the timeout. Until it ends, there is a ping at each multiple of
the interval. -/
theorem closes_iff_silent (hless : interval < timeout) (hx : Reached interval timeout start x) :
    (x.written.connection.isClosed = true ↔
      x.connection.isClosed = true ∨ x.Ticks ∧ x.lastHeard start + timeout < x.cluster.now) ∧
    (∀ due, x.channel.writer.due? = some due →
      x.cluster.now ≤ due ∧ due ≤ x.cluster.now + interval ∧
      ∃ n : Nat, due.nanos = start.nanos + (n + 1) * interval.nanos) ∧
    (x.Ticks → x.channel.writer.due? = some x.cluster.now ∧
      ∃ s, x.channel.writer.next? x.cluster.now x.connection = some s ∧
        s.frame = if x.lastHeard start + timeout < x.cluster.now then none else some .ping) := by
  have hpaced := hx.paced
  refine ⟨?_, fun _ => hpaced.due, fun hticks => ⟨hpaced.due?_eq hticks, ?_⟩⟩
  · rw [isClosed_written]
    exact or_congr_right (and_congr_right fun hticks => hpaced.isIdle_iff hless hticks)
  · obtain ⟨s, hs, hframe⟩ := exists_next?_of_ticks hticks
    simp only [hpaced.isIdle_iff hless hticks] at hframe
    exact ⟨s, hs, hframe⟩

/-! ### Channels that run -/

/-- Steps of the session as long as anything comes of it. -/
def driven (k : Channel.Controls) : Nat → Watch → Watch
  | 0, x => x
  | fuel + 1, x =>
    if (x.channel.step k x.cluster).1.1 then driven k fuel (x.stepped k) else x.stepped k

/-- The client hears of the end once the session is over. -/
def told (x : Watch) : Watch :=
  if x.channel.hasEnded then { x with channel := x.channel.deliver .ended } else x

/-- Moves the session and then the write side. -/
def polled (k : Channel.Controls) (x : Watch) : Watch :=
  if x.channel.hasEnded then x else (driven k x.channel.stepsAhead x).written.told

variable {k : Channel.Controls}

theorem driven_eq (k : Channel.Controls) (fuel : Nat) (x : Watch) :
    (driven k fuel x).channel = (x.channel.drive k fuel x.cluster).1.2 ∧
      (driven k fuel x).cluster = (x.channel.drive k fuel x.cluster).2 := by
  induction fuel generalizing x with
  | zero => exact ⟨rfl, rfl⟩
  | succ fuel ih =>
    rw [driven, Channel.drive]
    rcases hstep : x.channel.step k x.cluster with ⟨⟨_ | _, ch⟩, c⟩
    · rw [if_neg Bool.false_ne_true, stepped, hstep]
      exact ⟨rfl, rfl⟩
    · obtain ⟨hch, hc⟩ := ih (x.stepped k)
      rw [if_pos rfl, hch, hc, stepped, hstep]
      exact ⟨rfl, rfl⟩

/-- What is watched is what runs. -/
theorem polled_eq (k : Channel.Controls) (x : Watch) :
    (x.polled k).channel = (x.channel.poll k x.cluster).1.2 ∧
      (x.polled k).cluster = (x.channel.poll k x.cluster).2 := by
  rw [polled, Channel.poll]
  split
  · exact ⟨rfl, rfl⟩
  · obtain ⟨hch, hc⟩ := driven_eq k x.channel.stepsAhead x
    dsimp only
    rw [told, written, hch, hc]
    dsimp only
    split <;> exact ⟨rfl, rfl⟩

theorem Reached.driven (h : Reached interval timeout start x) (fuel : Nat) :
    Reached interval timeout start (driven k fuel x) := by
  induction fuel generalizing x with
  | zero => exact h
  | succ fuel ih =>
    rw [Watch.driven]
    split
    · exact ih (h.step (.session x k))
    · exact h.step (.session x k)

theorem Reached.polled (h : Reached interval timeout start x) :
    Reached interval timeout start (x.polled k) := by
  rw [Watch.polled]
  split
  · exact h
  · have hwritten := (h.driven (k := k) x.channel.stepsAhead).step (.write _)
    rw [told]
    split
    · exact hwritten.step (.client _ _ _)
    · exact hwritten

theorem Reached.pollTasks {before after : List Gateway.Task}
    (h : Reached interval timeout start x)
    (hbefore : ∀ t ∈ before, t.IsAside x.channel.session.number)
    (hafter : ∀ t ∈ after, t.IsAside x.channel.session.number) :
    ∃ y before' after', Reached interval timeout start y ∧
      (Gateway.pollTasks k (before ++ .channel x.channel :: after) x.cluster).1.2 =
        before' ++ .channel y.channel :: after' ∧
      (Gateway.pollTasks k (before ++ .channel x.channel :: after) x.cluster).2 = y.cluster := by
  induction before generalizing x k with
  | nil =>
    obtain ⟨hchannel, hcluster⟩ := x.polled_eq k
    have hsession : (x.polled k).channel.session = x.channel.session :=
      hchannel ▸ (x.channel.poll_follows k x.cluster).session
    rw [← hsession] at hafter
    have hothers := Gateway.pulse?_pollTasks hafter { k with place := k.place + 1 }
      (x.polled k).cluster
    rcases hpolls : Gateway.pollTasks { k with place := k.place + 1 } after (x.polled k).cluster
      with ⟨⟨moved, tasks⟩, c⟩
    rw [hpolls] at hothers
    refine ⟨{ x.polled k with cluster := c }, [], tasks,
      h.polled.step (.others _ hothers.1 hothers.2), ?_⟩
    rw [hcluster] at hpolls
    rw [List.nil_append, List.nil_append, Gateway.pollTasks, Gateway.Task.poll]
    dsimp only
    rw [hpolls, hchannel]
    exact ⟨rfl, rfl⟩
  | cons t rest ih =>
    obtain ⟨ht, hrest⟩ := List.forall_mem_cons.mp hbefore
    obtain ⟨hnow, hpulse⟩ := Gateway.Task.pulse?_poll ht k x.cluster
    obtain ⟨y, before', after', hy, htasks, hcluster⟩ :=
      ih (k := { k with place := k.place + 1 }) (h.step (.others x hnow hpulse)) hrest hafter
    refine ⟨y, (t.poll k x.cluster).1.2 :: before', after', hy, ?_, hcluster⟩
    exact congrArg _ htasks

/-- A round of a gateway moves each of its channels by steps. -/
theorem Reached.round {g : Gateway} {before after : List Gateway.Task}
    (htasks : g.tasks = before ++ .channel x.channel :: after) (hcluster : g.cluster = x.cluster)
    (haside : ∀ t ∈ before ++ after, t.IsAside x.channel.session.number)
    (h : Reached interval timeout start x) :
    ∃ y before' after', Reached interval timeout start y ∧
      g.round.2.tasks = before' ++ .channel y.channel :: after' ∧
      g.round.2.cluster = y.cluster := by
  obtain ⟨hbefore, hafter⟩ := List.forall_mem_append.mp haside
  rw [Gateway.round, htasks, hcluster]
  exact h.pollTasks hbefore hafter

/-- The connection that a gateway accepted last, before anything is heard from it. -/
def newest? (g : Gateway) : Option Watch :=
  g.channels.getLast?.map fun ch => ⟨ch, g.cluster, []⟩

theorem begins_of_accept {g : Gateway} {client : String} {a : Attributes}
    (h : newest? (g.accept client a) = some x) :
    Begins g.config.pingInterval g.config.pongTimeout g.cluster.now x := by
  rw [newest?, Gateway.accept, Gateway.channels, List.filterMap_append] at h
  simp only [List.filterMap_cons, List.filterMap_nil, List.getLast?_concat, Option.map_some,
    Option.some.injEq] at h
  subst h
  refine ⟨rfl, rfl, ?_, rfl⟩
  rw [pulse?, Table.get?_insert, if_pos rfl]
  split <;> rfl

/-! ### A client that falls silent -/

/-- Time passes until then, unless a ping is due before. -/
def passed (t : Duration) (x : Watch) : Watch :=
  if x.cluster.now ≤ t ∧ x.channel.writer.due?.all (t ≤ ·) = true then
    { x with cluster := { x.cluster with now := t } }
  else x

/-- A message that the client sends. -/
def receives (m : Inbound) (x : Watch) : Watch :=
  { x with channel := { x.channel with inbound := x.channel.inbound ++ [m] } }

/-- The client stops to read, and so to answer pings. -/
def muted (x : Watch) : Watch :=
  { x with channel := { x.channel with client := { x.channel.client with isMuted := true } } }

theorem Reached.passed (h : Reached interval timeout start x) (t : Duration) :
    Reached interval timeout start (x.passed t) := by
  rw [Watch.passed]
  split
  · next hpasses =>
    refine h.step (.time x hpasses.1 fun due hdue => ?_)
    have hall := hpasses.2
    rw [hdue, Option.all_some, decide_eq_true_iff] at hall
    exact hall
  · exact h

theorem Reached.muted (h : Reached interval timeout start x) :
    Reached interval timeout start x.muted :=
  h.step (.client x _ _)

theorem Reached.receives (h : Reached interval timeout start x) (m : Inbound) :
    Reached interval timeout start (x.receives m) :=
  h.step (.client x _ _)

/-- Pings every two seconds and bears three of silence. -/
def warden : Gateway :=
  .new { pingIntervalSecs := 2, pongTimeoutSecs := 3 } ⟨"n"⟩ ⟨"gw", .ofSeconds 60⟩
    Lifecycle.doorstep

/-- A client is heard from for the last time a second after it came. Its second ping is due after
just the timeout. -/
def falling (x : Watch) : Watch :=
  let k := warden.controls
  let x := (((x.muted.polled k).passed (.ofSeconds 1)).receives (.pong [])).polled k
  ((x.passed (.ofSeconds 2)).polled k).passed (.ofSeconds 4)

/-- Its third ping is due. -/
def silent (x : Watch) : Watch := (x.falling.polled warden.controls).passed (.ofSeconds 6)

/-- A ping goes out after just the timeout. The next closes the connection instead. -/
theorem falling_pinged_silent_closed : ∃ x : Watch,
    Reached (.ofSeconds 2) (.ofSeconds 3) .zero x.falling ∧
    x.falling.Ticks ∧ x.falling.written.connection.isClosed = false ∧
    Reached (.ofSeconds 2) (.ofSeconds 3) .zero x.silent ∧
    x.silent.Ticks ∧ x.silent.written.connection.isClosed = true := by
  have hrun : (newest? (warden.accept "guest" Lifecycle.visitor.attributes)).any (fun x =>
      x.falling.Ticks ∧ x.falling.connection.isClosed = false ∧
      x.falling.heard = [.ofSeconds 1] ∧ x.falling.cluster.now = .ofSeconds 4 ∧
      x.silent.Ticks ∧ x.silent.heard = [.ofSeconds 1] ∧
      x.silent.cluster.now = .ofSeconds 6) = true := by decide +kernel
  obtain ⟨x, hx, htest⟩ := (Option.any_eq_true _ _).mp hrun
  obtain ⟨hfalling, hopen, hheard, hnow, hsilent, hheard', hnow'⟩ := of_decide_eq_true htest
  have hreached : Reached (.ofSeconds 2) (.ofSeconds 3) .zero x.falling :=
    ((((((Reached.start (begins_of_accept hx)).muted.polled.passed _).receives _).polled).passed
      _).polled).passed _
  have hreached' : Reached (.ofSeconds 2) (.ofSeconds 3) .zero x.silent := hreached.polled.passed _
  have hless : Duration.ofSeconds 2 < .ofSeconds 3 := by decide
  obtain ⟨hcloses, -⟩ := closes_iff_silent hless hreached
  obtain ⟨hcloses', -⟩ := closes_iff_silent hless hreached'
  rw [lastHeard, hheard, hnow, hopen] at hcloses
  rw [lastHeard, hheard', hnow'] at hcloses'
  refine ⟨x, hreached, hfalling, ?_, hreached', hsilent, ?_⟩
  · refine Bool.eq_false_iff.mpr fun hclosed => ?_
    have hlate := (hcloses.mp hclosed).resolve_left Bool.false_ne_true
    exact absurd hlate.2 (by decide)
  · exact hcloses'.mpr (.inr ⟨hsilent, by decide⟩)

end Watch

end SessionGateway
