import Mathlib.Data.List.Nodup
import SessionGateway.Proofs.Directory
import SessionGateway.Writer

/-!
# Texts on their way to connections

A text that is sent to a user, to a group or to a connection is offered once to each connection that
is registered there, and each of them answers for itself. What happens to the connections of a
directory is told as a log. From the log of any sequence of moves it can be read what each
connection took, refused, handed out and lost: nothing that was accepted is lost, doubled or
reordered, save for what waits when the receiving end is dropped.
-/

namespace SessionGateway

/-! ### One connection -/

namespace Connection

/-- Takes the oldest texts out of the queue, up to a number. -/
def take (c : Connection) (k : Nat) : List String × Connection :=
  (c.queue.take k, { c with queue := c.queue.drop k })

theorem receive_eq (c : Connection) : c.receive = c.take c.queue.length := by
  rw [take, List.take_length, List.drop_length]
  rfl

/-- A writer takes the oldest text. -/
theorem next?_eq {w : Writer} {now : Duration} {c : Connection} (hw : w.hasEnded = false)
    (hc : c.isClosed = false) {text : String} {rest : List String}
    (hqueue : c.queue = text :: rest) :
    w.next? now c = some ⟨none, some (.text text), w, (c.take 1).2⟩ ∧ (c.take 1).1 = [text] := by
  simp [Writer.next?, hw, hc, hqueue, take]

end Connection

namespace Delivery

/-- What befalls a connection. -/
inductive Deed where
  | offered (text : String) (answer : Except TransportError Unit)
  | received (texts : List String)
  /-- The receiving end was dropped, with the texts that waited. -/
  | discarded (texts : List String)
  | closing (answer : Except TransportError Unit)

namespace Deed

def accepted? : Deed → Option String
  | .offered text (.ok ()) => some text
  | _ => none

def received? : Deed → List String
  | .received texts => texts
  | _ => []

def discarded? : Deed → List String
  | .discarded texts => texts
  | _ => []

/-- A text was refused because the queue was full. -/
def isOverflow : Deed → Bool
  | .offered _ (.error .queueFull) => true
  | _ => false

def IsClosing : Deed → Prop
  | .closing _ => True
  | _ => False

def IsDiscard : Deed → Prop
  | .discarded _ => True
  | _ => False

end Deed

/-- What a deed makes of a connection. -/
structure Passes (c : Connection) (e : Deed) (c' : Connection) : Prop where
  queue : c.queue ++ e.accepted?.toList = e.received? ++ (e.discarded? ++ c'.queue)
  bounded : c.queue.length ≤ c.capacity → c'.queue.length ≤ c'.capacity
  dropped : c'.dropped = c.dropped + if e.isOverflow then 1 else 0
  closed : c.isClosed = true ∨ e.IsClosing → c'.isClosed = true
  abandoned : (c.isAbandoned = true ∧ c.queue = []) ∨ e.IsDiscard →
    c'.isAbandoned = true ∧ c'.queue = []
  accepts : e.accepted? ≠ none → c.isClosed = false ∧ c.isAbandoned = false
  closes : e = .closing (.ok ()) → c.isClosed = false

theorem passes_offered (c : Connection) (text : String) :
    Passes c (.offered text (c.send text).1) (c.send text).2 := by
  have hrefused : ∀ err, err = TransportError.closed →
      Passes c (.offered text (.error err)) c := by
    rintro err rfl
    exact ⟨List.append_nil _, id, rfl, fun h => h.resolve_right id, fun h => h.resolve_right id,
      fun h => absurd rfl h, nofun⟩
  rw [Connection.send]
  split
  · exact hrefused _ rfl
  · next hopen =>
    split
    · exact hrefused _ rfl
    · next hheld =>
      split
      · next hroom =>
        refine ⟨rfl, fun _ => ?_, rfl, fun h => h.resolve_right id, ?_, fun _ => ⟨?_, ?_⟩, nofun⟩
        · rw [List.length_append]
          exact hroom
        · rintro (⟨habandoned, -⟩ | h)
          · exact absurd habandoned hheld
          · exact h.elim
        · simpa using hopen
        · simpa using hheld
      · exact ⟨List.append_nil _, id, rfl, fun h => h.resolve_right id, fun h => h.resolve_right id,
          fun h => absurd rfl h, nofun⟩

theorem passes_received (c : Connection) (k : Nat) :
    Passes c (.received (c.take k).1) (c.take k).2 where
  queue := (List.append_nil _).trans (List.take_append_drop k c.queue).symm
  bounded h := Nat.le_trans (List.drop_sublist k c.queue).length_le h
  dropped := rfl
  closed h := h.resolve_right id
  abandoned h := by
    obtain ⟨habandoned, hqueue⟩ := h.resolve_right id
    exact ⟨habandoned, by rw [Connection.take, hqueue, List.drop_nil]⟩
  accepts h := absurd rfl h
  closes := nofun

theorem passes_discarded (c : Connection) : Passes c (.discarded c.queue) c.abandon where
  queue := by simp [Deed.accepted?, Deed.received?, Deed.discarded?, Connection.abandon]
  bounded _ := Nat.zero_le _
  dropped := rfl
  closed h := h.resolve_right id
  abandoned _ := ⟨rfl, rfl⟩
  accepts h := absurd rfl h
  closes := nofun

theorem passes_closing (c : Connection) : Passes c (.closing c.close.1) c.close.2 := by
  rw [Connection.close]
  split
  · next hclosed =>
    exact ⟨List.append_nil _, id, rfl, fun _ => hclosed, fun h => h.resolve_right id,
      fun h => absurd rfl h, nofun⟩
  · next hopen =>
    exact ⟨List.append_nil _, id, rfl, fun _ => rfl, fun h => h.resolve_right id,
      fun h => absurd rfl h, fun _ => by simpa using hopen⟩

/-- A connection with everything that befell it since its queue was empty, oldest first. -/
structure Balanced (ds : List Deed) (c : Connection) : Prop where
  conserved : ds.flatMap Deed.received? ++ (ds.flatMap Deed.discarded? ++ c.queue) =
    ds.filterMap Deed.accepted?
  bounded : c.queue.length ≤ c.capacity
  dropped : c.dropped = ds.countP Deed.isOverflow
  closed : ∀ e ∈ ds, e.IsClosing → c.isClosed = true
  abandoned : ∀ e ∈ ds, e.IsDiscard → c.isAbandoned = true ∧ c.queue = []
  ended : ds.Pairwise fun e e' => e.IsClosing ∨ e.IsDiscard → e'.accepted? = none
  closedOnce : ds.Pairwise fun e e' => e.IsClosing → e' ≠ .closing (.ok ())

theorem balanced_nil {c : Connection} (hqueue : c.queue = []) (hdropped : c.dropped = 0) :
    Balanced [] c where
  conserved := hqueue
  bounded := by rw [hqueue]; exact Nat.zero_le _
  dropped := hdropped
  closed e he := nomatch he
  abandoned e he := nomatch he
  ended := .nil
  closedOnce := .nil

theorem flatMap_discarded_eq_nil {ds : List Deed} (h : ∀ e ∈ ds, ¬ e.IsDiscard) :
    ds.flatMap Deed.discarded? = [] := by
  rw [List.flatMap_eq_nil_iff]
  intro e he
  cases e with
  | discarded texts => exact absurd trivial (h _ he)
  | offered | received | closing => rfl

theorem Balanced.snoc {ds : List Deed} {c c' : Connection} {e : Deed} (h : Balanced ds c)
    (hp : Passes c e c') : Balanced (ds ++ [e]) c' where
  conserved := by
    have hreceived : e.received? = [] ∨ ds.flatMap Deed.discarded? = [] := by
      by_cases hdiscard : ∃ d ∈ ds, d.IsDiscard
      · -- Nothing waits any more and nothing is taken in, so nothing can be handed out.
        obtain ⟨d, hd, hdiscard⟩ := hdiscard
        obtain ⟨habandoned, hqueue⟩ := h.abandoned d hd hdiscard
        have hnone : e.accepted? = none := by
          by_contra haccepts
          rw [(hp.accepts haccepts).2] at habandoned
          cases habandoned
        have hmoved := hp.queue
        rw [hqueue, hnone] at hmoved
        exact .inl (List.append_eq_nil_iff.mp hmoved.symm).1
      · exact .inr (flatMap_discarded_eq_nil fun d hd hdiscard' => hdiscard ⟨d, hd, hdiscard'⟩)
    rw [List.flatMap_append, List.flatMap_append, List.filterMap_append, ← h.conserved,
      List.flatMap_singleton, List.flatMap_singleton]
    have haccepted : [e].filterMap Deed.accepted? = e.accepted?.toList := by
      cases he : e.accepted? <;> simp [he]
    rw [haccepted, List.append_assoc, List.append_assoc, List.append_assoc, List.append_assoc,
      hp.queue]
    rcases hreceived with hnil | hnil <;> rw [hnil] <;> simp
  bounded := hp.bounded h.bounded
  dropped := by
    rw [hp.dropped, h.dropped, List.countP_append, List.countP_singleton]
  closed d hd hclosing := by
    rcases List.mem_append.mp hd with hd | hd
    · exact hp.closed (.inl (h.closed d hd hclosing))
    · rw [List.mem_singleton.mp hd] at hclosing
      exact hp.closed (.inr hclosing)
  abandoned d hd hdiscard := by
    rcases List.mem_append.mp hd with hd | hd
    · exact hp.abandoned (.inl (h.abandoned d hd hdiscard))
    · rw [List.mem_singleton.mp hd] at hdiscard
      exact hp.abandoned (.inr hdiscard)
  ended := by
    refine List.pairwise_append.mpr ⟨h.ended, List.pairwise_singleton _ _, ?_⟩
    rintro d hd e' he' hended
    obtain rfl := List.mem_singleton.mp he'
    by_contra haccepts
    obtain ⟨hopen, hheld⟩ := hp.accepts haccepts
    rcases hended with hclosing | hdiscard
    · rw [h.closed d hd hclosing] at hopen
      cases hopen
    · rw [(h.abandoned d hd hdiscard).1] at hheld
      cases hheld
  closedOnce := by
    refine List.pairwise_append.mpr ⟨h.closedOnce, List.pairwise_singleton _ _, ?_⟩
    rintro d hd e' he' hclosing hcloses
    obtain rfl := List.mem_singleton.mp he'
    have hopen := hp.closes hcloses
    rw [h.closed d hd hclosing] at hopen
    cases hopen

/-- At most one deed befalls a connection in a move. -/
inductive Undergoes : Connection → List Deed → Connection → Prop
  | nothing (c : Connection) : Undergoes c [] c
  | deed {c c' : Connection} {e : Deed} (passes : Passes c e c') : Undergoes c [e] c'

theorem Balanced.undergoes {ds es : List Deed} {c c' : Connection} (h : Balanced ds c)
    (hes : Undergoes c es c') : Balanced (ds ++ es) c' := by
  cases hes with
  | nothing => rwa [List.append_nil]
  | deed passes => exact h.snoc passes

/-! ### Sending to several connections -/

/-- The number of the connection behind a transport. -/
def number? (t : Transport) : Option Nat := t.link.map Prod.snd

theorem send_of_number {t : Transport} {n : Nat} {cs : Connections} {c : Connection} (text : String)
    (ht : number? t = some n) (hc : cs.get? n = some c) :
    t.send text cs = ((c.send text).1, cs.insert n (c.send text).2) := by
  obtain ⟨l, hl, rfl⟩ := Option.map_eq_some_iff.mp ht
  simp [Transport.send, hl, hc]

theorem close_of_number {t : Transport} {n : Nat} {cs : Connections} {c : Connection}
    (ht : number? t = some n) (hc : cs.get? n = some c) :
    t.close cs = (c.close.1, cs.insert n c.close.2) := by
  obtain ⟨l, hl, rfl⟩ := Option.map_eq_some_iff.mp ht
  simp [Transport.close, hl, hc]

theorem close_of_missing {t : Transport} {cs : Connections} (h : (number? t).bind cs.get? = none) :
    t.close cs = (.error .closed, cs) := by
  rw [number?] at h
  rw [Transport.close]
  cases hl : t.link with
  | none => rfl
  | some l =>
    have hmissing : cs.get? l.2 = none := by simpa [hl] using h
    simp [hmissing]

/-- What befalls connections, each under its number, oldest first. -/
abbrev Log : Type := List (Nat × Deed)

/-- What befalls the connections of transports that a text is offered to in turn. -/
def offers (text : String) : List Transport → Connections → Log
  | [], _ => []
  | t :: rest, cs =>
    (number? t).toList.map (fun n => (n, .offered text (t.send text cs).1)) ++
      offers text rest (t.send text cs).2

/-- How a connection would answer if a text were offered to it. -/
def answerTo (text : String) (cs : Connections) (n : Nat) : Except TransportError Unit :=
  ((cs.get? n).map fun c => (c.send text).1).getD (.error .closed)

/-- Transports of different connections are served independently: each connection answers from its
own queue. -/
theorem deliverAll_eq (text : String) {ts : List Transport} {numbers : List Nat}
    {cs : Connections} (hnumbers : ts.map number? = numbers.map some) (hdistinct : numbers.Nodup)
    (hpresent : ∀ n ∈ numbers, (cs.get? n).isSome) :
    offers text ts cs = numbers.map (fun n => (n, .offered text (answerTo text cs n))) ∧
    (Directory.deliverAll text ts cs).1 = numbers.countP (fun n => (answerTo text cs n).isOk) ∧
    ∀ m, (Directory.deliverAll text ts cs).2.get? m =
      (cs.get? m).map fun c => if m ∈ numbers then (c.send text).2 else c := by
  induction ts generalizing numbers cs with
  | nil =>
    obtain rfl : numbers = [] := by simpa using hnumbers.symm
    exact ⟨rfl, rfl, fun m => by simp [Directory.deliverAll]⟩
  | cons t rest ih =>
    cases numbers with
    | nil => simp at hnumbers
    | cons n numbers =>
      rw [List.map_cons, List.map_cons, List.cons.injEq] at hnumbers
      obtain ⟨ht, hrest⟩ := hnumbers
      obtain ⟨hn, hdistinct⟩ := List.nodup_cons.mp hdistinct
      obtain ⟨c, hc⟩ := Option.isSome_iff_exists.mp (hpresent n List.mem_cons_self)
      have hsend := send_of_number text ht hc
      have hother : ∀ m ∈ numbers, (cs.insert n (c.send text).2).get? m = cs.get? m := by
        intro m hm
        rw [Table.get?_insert, if_neg]
        rintro rfl
        exact hn hm
      have hanswers : ∀ m ∈ numbers,
          answerTo text (cs.insert n (c.send text).2) m = answerTo text cs m := by
        intro m hm
        rw [answerTo, hother m hm, answerTo]
      have hanswer : answerTo text cs n = (c.send text).1 := by rw [answerTo, hc]; rfl
      have hpresent' : ∀ m ∈ numbers, ((cs.insert n (c.send text).2).get? m).isSome := by
        intro m hm
        rw [hother m hm]
        exact hpresent m (List.mem_cons_of_mem _ hm)
      obtain ⟨hoffers, hcount, hget⟩ := ih hrest hdistinct hpresent'
      refine ⟨?_, ?_, ?_⟩
      · rw [offers, ht, hsend, hoffers, List.map_cons, hanswer]
        refine congrArg (List.cons _) (List.map_congr_left ?_)
        intro m hm
        rw [hanswers m hm]
      · rw [Directory.deliverAll, hsend]
        simp only
        rw [hcount, List.countP_cons, hanswer]
        refine congrArg (· + _) (List.countP_congr ?_)
        intro m hm
        rw [hanswers m hm]
      · intro m
        rw [Directory.deliverAll, hsend]
        simp only
        rw [hget, Table.get?_insert]
        by_cases hm : n = m
        · subst hm
          simp [hn, hc]
        · simp [hm, Ne.symm hm]

/-! ### Registered connections -/

inductive Recipient where
  | user (userId : Int64)
  | group (name : String)
  | connection (id : ConnectionId)

/-- The transports that are registered under a recipient, with their ids. -/
def sessionsOf (d : Directory) : Recipient → List (ConnectionId × Transport)
  | .user userId => (d.sessionsOfUser userId).map fun e => (e.1, e.2.transport)
  | .group name => (d.sessionsOfGroup name).map fun e => (e.1, e.2.transport)
  | .connection id => (d.transport? id).toList.map fun t => (id, t)

/-- Sends to a recipient; how many queues gained the text. -/
def send (d : Directory) (whom : Recipient) (text : String) (cs : Connections) :
    Nat × Connections :=
  match whom with
  | .user userId => d.sendToUser userId text cs
  | .group name => d.sendToGroup name text cs
  | .connection id =>
    let (queued, cs) := d.sendToConnection id text cs
    (queued.toNat, cs)

theorem send_eq (d : Directory) (whom : Recipient) (text : String) (cs : Connections) :
    send d whom text cs = Directory.deliverAll text ((sessionsOf d whom).map Prod.snd) cs := by
  cases whom with
  | user userId => rw [send, Directory.sendToUser, sessionsOf, List.map_map]; rfl
  | group name => rw [send, Directory.sendToGroup, sessionsOf, List.map_map]; rfl
  | connection id =>
    rw [send, Directory.sendToConnection, sessionsOf]
    cases d.transport? id with
    | none => rfl
    | some t =>
      cases hok : (t.send text cs).1.isOk <;> simp [Directory.deliverAll, hok]

/-- A transport is registered under an id. -/
def Registers (d : Directory) (id : ConnectionId) (t : Transport) : Prop :=
  (∃ s, d.userSession? id = some s ∧ s.transport = t) ∨
    ∃ s, d.groupSession? id = some s ∧ s.transport = t

/-- A connection is registered under a recipient. -/
def Holds (d : Directory) (n : Nat) : Recipient → Prop
  | .user userId => ∃ id s, d.userSession? id = some s ∧ s.entry.userId = userId ∧
      number? s.transport = some n
  | .group name => ∃ id s, d.groupSession? id = some s ∧ s.entry.group = name ∧
      number? s.transport = some n
  | .connection id => ∃ t, Registers d id t ∧ number? t = some n

/-- A directory and the connections of its process. -/
structure Scene where
  directory : Directory
  connections : Connections

/-- Every registered transport leads to a connection, and there is one for each id. -/
structure Scene.Wired (s : Scene) : Prop where
  bound : ∀ id t, Registers s.directory id t →
    ∃ n, number? t = some n ∧ (s.connections.get? n).isSome
  single : ∀ id id' t t', Registers s.directory id t → Registers s.directory id' t' →
    (number? t = number? t' ↔ id = id')

theorem registers_of_mem {d : Directory} {whom : Recipient} {x : ConnectionId × Transport}
    (h : x ∈ sessionsOf d whom) : Registers d x.1 x.2 := by
  cases whom with
  | user userId =>
    obtain ⟨⟨id, s⟩, he, rfl⟩ := List.mem_map.mp h
    exact .inl ⟨s, (Table.mem_entries_iff _).mp (List.mem_filter.mp he).1, rfl⟩
  | group name =>
    obtain ⟨⟨id, s⟩, he, rfl⟩ := List.mem_map.mp h
    exact .inr ⟨s, (Table.mem_entries_iff _).mp (List.mem_filter.mp he).1, rfl⟩
  | connection id =>
    obtain ⟨t, ht, rfl⟩ := List.mem_map.mp h
    rcases Option.or_eq_some_iff.mp (Option.mem_toList.mp ht) with huser | ⟨-, hgroup⟩
    · obtain ⟨s, hs, rfl⟩ := Option.map_eq_some_iff.mp huser
      exact .inl ⟨s, hs, rfl⟩
    · obtain ⟨s, hs, rfl⟩ := Option.map_eq_some_iff.mp hgroup
      exact .inr ⟨s, hs, rfl⟩

theorem nodup_sessionsOf (d : Directory) (whom : Recipient) :
    ((sessionsOf d whom).map Prod.fst).Nodup := by
  cases whom with
  | user userId =>
    rw [sessionsOf, List.map_map]
    exact d.users.distinct.sublist (List.filter_sublist.map Prod.fst)
  | group name =>
    rw [sessionsOf, List.map_map]
    exact d.groups.distinct.sublist (List.filter_sublist.map Prod.fst)
  | connection id =>
    rw [sessionsOf]
    cases d.transport? id <;> simp

theorem Scene.Wired.holds_iff {s : Scene} (hs : s.Wired) (n : Nat) (whom : Recipient) :
    Holds s.directory n whom ↔ ∃ x ∈ sessionsOf s.directory whom, number? x.2 = some n := by
  cases whom with
  | user userId =>
    simp only [Holds, sessionsOf, Directory.sessionsOfUser, List.mem_map, List.mem_filter,
      Prod.exists, Table.mem_entries_iff, decide_eq_true_eq]
    constructor
    · rintro ⟨id, x, hx, huser, hn⟩
      exact ⟨id, x.transport, ⟨id, x, ⟨hx, huser⟩, rfl⟩, hn⟩
    · rintro ⟨_, _, ⟨id, x, ⟨hx, huser⟩, heq⟩, hn⟩
      obtain ⟨-, rfl⟩ := Prod.mk.inj heq
      exact ⟨id, x, hx, huser, hn⟩
  | group name =>
    simp only [Holds, sessionsOf, Directory.sessionsOfGroup, List.mem_map, List.mem_filter,
      Prod.exists, Table.mem_entries_iff, decide_eq_true_eq]
    constructor
    · rintro ⟨id, x, hx, hgroup, hn⟩
      exact ⟨id, x.transport, ⟨id, x, ⟨hx, hgroup⟩, rfl⟩, hn⟩
    · rintro ⟨_, _, ⟨id, x, ⟨hx, hgroup⟩, heq⟩, hn⟩
      obtain ⟨-, rfl⟩ := Prod.mk.inj heq
      exact ⟨id, x, hx, hgroup, hn⟩
  | connection id =>
    constructor
    · rintro ⟨t, ht, hn⟩
      obtain ⟨t', ht'⟩ : ∃ t', s.directory.transport? id = some t' := by
        rcases ht with ⟨x, hx, -⟩ | ⟨x, hx, -⟩
        · rw [Directory.transport?, show s.directory.users.get? id = some x from hx]
          exact ⟨x.transport, rfl⟩
        · rw [Directory.transport?, show s.directory.groups.get? id = some x from hx]
          cases s.directory.users.get? id with
          | none => exact ⟨x.transport, rfl⟩
          | some y => exact ⟨y.transport, rfl⟩
      have hmem : (id, t') ∈ sessionsOf s.directory (.connection id) := by simp [sessionsOf, ht']
      refine ⟨_, hmem, ?_⟩
      rw [← hn]
      exact (hs.single id id t' t (registers_of_mem hmem) ht).mpr rfl
    · rintro ⟨x, hmem, hn⟩
      obtain ⟨t, -, rfl⟩ := List.mem_map.mp hmem
      exact ⟨t, registers_of_mem hmem, hn⟩

/-- The connections that are registered under a recipient. -/
theorem Scene.Wired.numbers {s : Scene} (hs : s.Wired) (whom : Recipient) :
    ∃ numbers : List Nat, numbers.Nodup ∧ (∀ n, n ∈ numbers ↔ Holds s.directory n whom) ∧
      (∀ n ∈ numbers, (s.connections.get? n).isSome) ∧
      ((sessionsOf s.directory whom).map Prod.snd).map number? = numbers.map some := by
  have hnumbered : ∀ l : List (ConnectionId × Transport),
      (∀ x ∈ l, ∃ n, number? x.2 = some n) →
        (l.map Prod.snd).map number? = (l.filterMap fun x => number? x.2).map some := by
    intro l hl
    induction l with
    | nil => rfl
    | cons x rest ih =>
      obtain ⟨hx, hrest⟩ := List.forall_mem_cons.mp hl
      obtain ⟨n, hn⟩ := hx
      simp only [List.map_cons, List.filterMap_cons, hn, ih hrest]
  have hbound : ∀ x ∈ sessionsOf s.directory whom,
      ∃ n, number? x.2 = some n ∧ (s.connections.get? n).isSome := fun x hx =>
    hs.bound x.1 x.2 (registers_of_mem hx)
  have hmap := hnumbered _ fun x hx => (hbound x hx).imp fun _ h => h.1
  have hkeys := nodup_sessionsOf s.directory whom
  refine ⟨_, ?_, ?_, ?_, hmap⟩
  · refine List.Nodup.of_map some ?_
    rw [← hmap, List.map_map]
    refine (List.Nodup.of_map Prod.fst hkeys).map_on ?_
    intro x hx y hy heq
    exact List.inj_on_of_nodup_map hkeys hx hy
      ((hs.single x.1 y.1 x.2 y.2 (registers_of_mem hx) (registers_of_mem hy)).mp heq)
  · intro n
    rw [hs.holds_iff, List.mem_filterMap]
  · intro n hn
    obtain ⟨x, hx, hxn⟩ := List.mem_filterMap.mp hn
    obtain ⟨n', hn', hsome⟩ := hbound x hx
    rwa [← Option.some.inj (hn'.symm.trans hxn)]

/-! ### Moves -/

inductive Move where
  | send (whom : Recipient) (text : String)
  /-- The oldest texts are taken out of a queue, up to a number. -/
  | take (n k : Nat)
  | close (t : Transport)
  /-- The receiving end of a connection is dropped. -/
  | abandon (n : Nat)
  | addUser (s : UserSession)
  | addGroup (s : GroupSession)
  | withdrawUser (id : ConnectionId) (t : Transport)
  | withdrawGroup (id : ConnectionId) (t : Transport)
  | remove (id : ConnectionId)

/-- Does something to a connection, if it is there. -/
def Scene.at (s : Scene) (n : Nat) (act : Connection → Deed × Connection) : Log × Scene :=
  match s.connections.get? n with
  | none => ([], s)
  | some c => ([(n, (act c).1)], { s with connections := s.connections.insert n (act c).2 })

/-- What befalls connections in a move, and the scene afterwards. -/
def Move.play (s : Scene) : Move → Log × Scene
  | .send whom text =>
    (offers text ((sessionsOf s.directory whom).map Prod.snd) s.connections,
      { s with connections := (Delivery.send s.directory whom text s.connections).2 })
  | .take n k => s.at n fun c => (.received (c.take k).1, (c.take k).2)
  | .close t =>
    ((number? t).toList.map fun n => (n, .closing (t.close s.connections).1),
      { s with connections := (t.close s.connections).2 })
  | .abandon n => s.at n fun c => (.discarded c.queue, c.abandon)
  | .addUser x => ([], { s with directory := s.directory.addUser x })
  | .addGroup x => ([], { s with directory := s.directory.addGroup x })
  | .withdrawUser id t => ([], { s with directory := (s.directory.withdrawUser id t).2 })
  | .withdrawGroup id t => ([], { s with directory := (s.directory.withdrawGroup id t).2 })
  | .remove id => ([], { s with directory := (s.directory.remove id).2 })

/-- A registration keeps one connection for each id. -/
def Move.Fits (s : Scene) (mv : Move) : Prop :=
  match mv with
  | .addUser _ | .addGroup _ => (mv.play s).2.Wired
  | _ => True

/-- What befell one connection. -/
def about (m : Nat) (log : Log) : List Deed :=
  log.filterMap fun e => if e.1 = m then some e.2 else none

theorem about_append (m : Nat) (log log' : Log) :
    about m (log ++ log') = about m log ++ about m log' := List.filterMap_append

theorem about_singleton (m n : Nat) (e : Deed) :
    about m [(n, e)] = if n = m then [e] else [] := by
  by_cases h : n = m <;> simp [about, h]

theorem about_map {numbers : List Nat} (h : numbers.Nodup) (m : Nat) (f : Nat → Deed) :
    about m (numbers.map fun n => (n, f n)) = if m ∈ numbers then [f m] else [] := by
  induction numbers with
  | nil => rfl
  | cons n rest ih =>
    obtain ⟨hn, hrest⟩ := List.nodup_cons.mp h
    have hcons : about m ((n :: rest).map fun n => (n, f n)) =
        about m [(n, f n)] ++ about m (rest.map fun n => (n, f n)) := about_append m [(n, f n)] _
    rw [hcons, about_singleton, ih hrest]
    by_cases hm : n = m
    · subst hm
      simp [hn]
    · simp [hm, Ne.symm hm]

theorem Scene.directory_at (s : Scene) (n : Nat) (act : Connection → Deed × Connection) :
    (s.at n act).2.directory = s.directory := by
  rw [Scene.at]
  cases s.connections.get? n <;> rfl

theorem Scene.undergoes_at {s : Scene} {n m : Nat} {act : Connection → Deed × Connection}
    (hact : ∀ c, Passes c (act c).1 (act c).2) {c : Connection}
    (hc : s.connections.get? m = some c) :
    ∃ c', (s.at n act).2.connections.get? m = some c' ∧
      Undergoes c (about m (s.at n act).1) c' := by
  rw [Scene.at]
  cases hn : s.connections.get? n with
  | none => exact ⟨c, hc, .nothing c⟩
  | some c₁ =>
    simp only [about_singleton, Table.get?_insert]
    by_cases hnm : n = m
    · subst hnm
      obtain rfl : c₁ = c := Option.some.inj (hn.symm.trans hc)
      rw [if_pos rfl, if_pos rfl]
      exact ⟨_, rfl, .deed (hact c₁)⟩
    · rw [if_neg hnm, if_neg hnm]
      exact ⟨c, hc, .nothing c⟩

/-- In a move, at most one deed befalls each connection. -/
theorem Move.undergoes {s : Scene} (hs : s.Wired) (mv : Move) {m : Nat} {c : Connection}
    (hc : s.connections.get? m = some c) :
    ∃ c', (mv.play s).2.connections.get? m = some c' ∧ Undergoes c (about m (mv.play s).1) c' := by
  cases mv with
  | send whom text =>
    obtain ⟨numbers, hdistinct, -, hpresent, hnumbers⟩ := hs.numbers whom
    obtain ⟨hoffers, -, hget⟩ := deliverAll_eq text hnumbers hdistinct hpresent
    have hafter : (Move.play s (.send whom text)).2.connections.get? m =
        some (if m ∈ numbers then (c.send text).2 else c) := by
      rw [Move.play, send_eq, hget, hc]
      rfl
    have hdeeds : about m (Move.play s (.send whom text)).1 =
        if m ∈ numbers then [.offered text (c.send text).1] else [] := by
      rw [Move.play, hoffers, about_map hdistinct, answerTo, hc]
      rfl
    refine ⟨_, hafter, ?_⟩
    rw [hdeeds]
    split
    · exact .deed (passes_offered c text)
    · exact .nothing c
  | take n k => exact s.undergoes_at (fun c => passes_received c k) hc
  | abandon n => exact s.undergoes_at passes_discarded hc
  | close t =>
    rw [Move.play]
    cases hn : number? t with
    | none =>
      rw [close_of_missing (by rw [hn]; rfl)]
      exact ⟨c, hc, .nothing c⟩
    | some n =>
      show ∃ c', (t.close s.connections).2.get? m = some c' ∧
        Undergoes c (about m [(n, .closing (t.close s.connections).1)]) c'
      rw [about_singleton]
      by_cases hnm : n = m
      · subst hnm
        rw [close_of_number hn hc, if_pos rfl, Table.get?_insert, if_pos rfl]
        exact ⟨_, rfl, .deed (passes_closing c)⟩
      · rw [if_neg hnm]
        refine ⟨c, ?_, .nothing c⟩
        cases hc₁ : s.connections.get? n with
        | none =>
          rw [close_of_missing (by rw [hn]; exact hc₁)]
          exact hc
        | some c₁ =>
          rw [close_of_number hn hc₁, Table.get?_insert, if_neg hnm]
          exact hc
  | addUser | addGroup | withdrawUser | withdrawGroup | remove => exact ⟨c, hc, .nothing c⟩

theorem Scene.Wired.mono {s s' : Scene} (hs : s.Wired)
    (hdirectory : ∀ id t, Registers s'.directory id t → Registers s.directory id t)
    (hpresent : ∀ n, (s.connections.get? n).isSome → (s'.connections.get? n).isSome) :
    s'.Wired where
  bound id t h := (hs.bound id t (hdirectory id t h)).imp fun n hn => ⟨hn.1, hpresent n hn.2⟩
  single id id' t t' h h' := hs.single id id' t t' (hdirectory id t h) (hdirectory id' t' h')

theorem Registers.mono {d d' : Directory} {id : ConnectionId} {t : Transport}
    (h : Registers d' id t)
    (husers : ∀ x, d'.userSession? id = some x → d.userSession? id = some x)
    (hgroups : ∀ x, d'.groupSession? id = some x → d.groupSession? id = some x) :
    Registers d id t :=
  h.imp (fun ⟨x, hx, ht⟩ => ⟨x, husers x hx, ht⟩) (fun ⟨x, hx, ht⟩ => ⟨x, hgroups x hx, ht⟩)

/-- Every move keeps one connection for each id. -/
theorem Move.wired {s : Scene} (hs : s.Wired) {mv : Move} (hfits : mv.Fits s) :
    (mv.play s).2.Wired := by
  have hpresent : ∀ n, (s.connections.get? n).isSome →
      ((mv.play s).2.connections.get? n).isSome := by
    intro n hn
    obtain ⟨c, hc⟩ := Option.isSome_iff_exists.mp hn
    obtain ⟨c', hc', -⟩ := mv.undergoes hs hc
    rw [hc']
    rfl
  cases mv with
  | addUser x | addGroup x => exact hfits
  | withdrawUser id' t' =>
    refine hs.mono (fun id t h => ?_) hpresent
    refine h.mono (fun x hx => Directory.userSession?_of_withdraw hx) ?_
    intro x hx
    rwa [Move.play, Directory.withdrawUser_groups] at hx
  | withdrawGroup id' t' =>
    refine hs.mono (fun id t h => ?_) hpresent
    refine h.mono ?_ fun x hx => Directory.groupSession?_of_withdraw hx
    intro x hx
    rwa [Move.play, Directory.withdrawGroup_users] at hx
  | remove id' =>
    exact hs.mono (fun id t h => h.mono (fun x hx => Directory.userSession?_of_remove hx)
      fun x hx => Directory.groupSession?_of_remove hx) hpresent
  | send whom text => exact hs.mono (fun id t h => h) hpresent
  | close t => exact hs.mono (fun id t h => h) hpresent
  | take n k =>
    refine hs.mono (fun id t h => ?_) hpresent
    rwa [Move.play, Scene.directory_at] at h
  | abandon n =>
    refine hs.mono (fun id t h => ?_) hpresent
    rwa [Move.play, Scene.directory_at] at h

/-- The scenes that moves lead to, with what befell connections on the way, oldest first. -/
inductive Plays (s₀ : Scene) : Log → Scene → Prop
  | start : Plays s₀ [] s₀
  | move {log : Log} {s : Scene} (played : Plays s₀ log s) (mv : Move) (fits : mv.Fits s) :
      Plays s₀ (log ++ (mv.play s).1) (mv.play s).2

theorem Plays.wired {s₀ s : Scene} {log : Log} (h : Plays s₀ log s) (hs₀ : s₀.Wired) : s.Wired := by
  induction h with
  | start => exact hs₀
  | move _ _ fits ih => exact Move.wired ih fits

/-- Nothing waits at any connection, and nothing was refused yet. -/
def Scene.IsFresh (s : Scene) : Prop :=
  ∀ m c, s.connections.get? m = some c → c.queue = [] ∧ c.dropped = 0

theorem Plays.balanced {s₀ s : Scene} {log : Log} (h : Plays s₀ log s) (hs₀ : s₀.Wired)
    (hfresh : s₀.IsFresh) {m : Nat} {c₀ : Connection} (hc₀ : s₀.connections.get? m = some c₀) :
    ∃ c, s.connections.get? m = some c ∧ Balanced (about m log) c := by
  induction h with
  | start =>
    obtain ⟨hqueue, hdropped⟩ := hfresh m c₀ hc₀
    exact ⟨c₀, hc₀, balanced_nil hqueue hdropped⟩
  | move played mv fits ih =>
    obtain ⟨c, hc, hbalanced⟩ := ih
    obtain ⟨c', hc', hundergoes⟩ := mv.undergoes (played.wired hs₀) hc
    rw [about_append]
    exact ⟨c', hc', hbalanced.undergoes hundergoes⟩

/-! ### Conservation -/

/-- The texts that wait at a connection. -/
def queueOf (cs : Connections) (m : Nat) : List String := ((cs.get? m).map (·.queue)).getD []

/-- A text that is sent to a recipient is offered once to each connection that is registered there
and to no other, each of them answers for itself, and the answer counts the queues that gained the
text. -/
structure Conveys (s : Scene) (whom : Recipient) (text : String) : Prop where
  once : ∃ numbers : List Nat, numbers.Nodup ∧ (∀ n, n ∈ numbers ↔ Holds s.directory n whom) ∧
    (Move.play s (.send whom text)).1 =
      numbers.map fun n => (n, .offered text (answerTo text s.connections n))
  offered : ∀ m c, s.connections.get? m = some c → Holds s.directory m whom →
    (send s.directory whom text s.connections).2.get? m = some (c.send text).2
  spared : ∀ m, ¬ Holds s.directory m whom →
    (send s.directory whom text s.connections).2.get? m = s.connections.get? m
  counted : (send s.directory whom text s.connections).1 = s.connections.keys.countP fun m =>
    queueOf (send s.directory whom text s.connections).2 m = queueOf s.connections m ++ [text]

/-- A queue gains a text just if its connection accepts it. -/
theorem queue_send_iff (c : Connection) (text : String) :
    (c.send text).2.queue = c.queue ++ [text] ↔ (c.send text).1.isOk = true := by
  rw [Connection.send]
  split
  · simp [Except.isOk, Except.toBool]
  · split
    · simp [Except.isOk, Except.toBool]
    · split <;> simp [Except.isOk, Except.toBool]

theorem Scene.Wired.conveys {s : Scene} (hs : s.Wired) (whom : Recipient) (text : String) :
    Conveys s whom text := by
  obtain ⟨numbers, hdistinct, hholds, hpresent, hnumbers⟩ := hs.numbers whom
  obtain ⟨hoffers, hcount, hget⟩ := deliverAll_eq text hnumbers hdistinct hpresent
  rw [← send_eq] at hcount hget
  refine ⟨⟨numbers, hdistinct, hholds, hoffers⟩, ?_, ?_, ?_⟩
  · intro m c hc hm
    rw [hget, hc, Option.map_some, if_pos ((hholds m).mpr hm)]
  · intro m hm
    rw [hget]
    simp [mt (hholds m).mp hm]
  · -- Each side counts the connections that accept the text, one along the transports and the other
    -- along all connections.
    have hgains : ∀ m c, s.connections.get? m = some c →
        (queueOf (send s.directory whom text s.connections).2 m =
            queueOf s.connections m ++ [text] ↔
          m ∈ numbers ∧ (answerTo text s.connections m).isOk = true) := by
      intro m c hc
      rw [queueOf, queueOf, hget, hc, answerTo, hc]
      by_cases hm : m ∈ numbers
      · simpa [hm] using queue_send_iff c text
      · simp [hm]
    have hkeys : ∀ m, m ∈ s.connections.keys ↔ (s.connections.get? m).isSome := fun m =>
      (Table.contains_iff_mem_keys _ _).symm
    rw [hcount, List.countP_eq_length_filter, List.countP_eq_length_filter]
    refine List.Perm.length_eq ((List.perm_ext_iff_of_nodup (hdistinct.filter _)
      (s.connections.distinct.filter _)).mpr fun m => ?_)
    rw [List.mem_filter, List.mem_filter, decide_eq_true_eq]
    constructor
    · rintro ⟨hm, hok⟩
      obtain ⟨c, hc⟩ := Option.isSome_iff_exists.mp (hpresent m hm)
      exact ⟨(hkeys m).mpr (hpresent m hm), (hgains m c hc).mpr ⟨hm, hok⟩⟩
    · rintro ⟨hm, hgained⟩
      obtain ⟨c, hc⟩ := Option.isSome_iff_exists.mp ((hkeys m).mp hm)
      exact (hgains m c hc).mp hgained

/-- What the log tells of a connection: what was received and what waits is what was accepted, in
order, until the receiving end is dropped with what waits. -/
structure Settled (ds : List Deed) (c : Connection) : Prop where
  whole : (∀ e ∈ ds, ¬ e.IsDiscard) →
    ds.flatMap Deed.received? ++ c.queue = ds.filterMap Deed.accepted?
  cut : (∃ e ∈ ds, e.IsDiscard) →
    ds.flatMap Deed.received? ++ ds.flatMap Deed.discarded? = ds.filterMap Deed.accepted? ∧
      c.queue = []
  bounded : c.queue.length ≤ c.capacity
  dropped : c.dropped = ds.countP Deed.isOverflow
  /-- Nothing is accepted after closing, or after the receiving end was dropped. -/
  ended : ds.Pairwise fun e e' => e.IsClosing ∨ e.IsDiscard → e'.accepted? = none
  closedOnce : ds.Pairwise fun e e' => e.IsClosing → e' ≠ .closing (.ok ())

theorem Balanced.settled {ds : List Deed} {c : Connection} (h : Balanced ds c) : Settled ds c where
  whole hnone := by rw [← h.conserved, flatMap_discarded_eq_nil hnone, List.nil_append]
  cut hdiscard := by
    obtain ⟨e, he, hdiscard⟩ := hdiscard
    obtain ⟨-, hqueue⟩ := h.abandoned e he hdiscard
    refine ⟨?_, hqueue⟩
    rw [← h.conserved, hqueue, List.append_nil]
  bounded := h.bounded
  dropped := h.dropped
  ended := h.ended
  closedOnce := h.closedOnce

/-- However texts are sent, received, and connections closed, dropped, registered and removed: a
text reaches exactly the connections that it is for, and what becomes of it there is accounted
for. -/
theorem delivery_conserves {s₀ s : Scene} {log : Log} (hwired : s₀.Wired) (hfresh : s₀.IsFresh)
    (h : Plays s₀ log s) :
    (∀ whom text, Conveys s whom text) ∧
    ∀ m c₀, s₀.connections.get? m = some c₀ →
      ∃ c, s.connections.get? m = some c ∧ Settled (about m log) c := by
  refine ⟨fun whom text => (h.wired hwired).conveys whom text, ?_⟩
  intro m c₀ hc₀
  obtain ⟨c, hc, hbalanced⟩ := h.balanced hwired hfresh hc₀
  exact ⟨c, hc, hbalanced.settled⟩

/-- A connection with room for one text. -/
def letterbox (id : String) : Connection :=
  { id := ⟨id⟩, attributes := .empty, capacity := 1, openedAt := .zero, lastHeard := .zero }

/-- A session of user 7 over the connection of a number. -/
def lodger (id : String) (n : Nat) : UserSession :=
  let p : Principal := ⟨7, 1, none, none, "jwt"⟩
  ⟨.ofPrincipal ⟨id⟩ p ⟨"b"⟩, p, ⟨n, some (⟨id⟩, n), .empty⟩⟩

/-- User 7 has two connections. -/
def hallway : Scene :=
  ⟨((Directory.empty ⟨"b"⟩).addUser (lodger "c" 0)).addUser (lodger "d" 1),
    (Table.empty.insert 0 (letterbox "c")).insert 1 (letterbox "d")⟩

theorem registers_hallway {id : ConnectionId} {t : Transport}
    (h : Registers hallway.directory id t) :
    (id = ⟨"c"⟩ ∧ t = (lodger "c" 0).transport) ∨ (id = ⟨"d"⟩ ∧ t = (lodger "d" 1).transport) := by
  rcases h with ⟨x, hx, rfl⟩ | ⟨x, hx, -⟩
  · rw [hallway, Directory.userSession?_addUser, Directory.userSession?_addUser] at hx
    split at hx
    · next hid =>
      obtain rfl := Option.some.inj hx
      exact .inr ⟨hid.symm, rfl⟩
    · split at hx
      · next hid =>
        obtain rfl := Option.some.inj hx
        exact .inl ⟨hid.symm, rfl⟩
      · cases hx
  · cases hx

theorem wired_hallway : hallway.Wired where
  bound id t h := by
    rcases registers_hallway h with ⟨-, rfl⟩ | ⟨-, rfl⟩
    · exact ⟨0, rfl, rfl⟩
    · exact ⟨1, rfl, rfl⟩
  single id id' t t' h h' := by
    rcases registers_hallway h with ⟨rfl, rfl⟩ | ⟨rfl, rfl⟩ <;>
      rcases registers_hallway h' with ⟨rfl, rfl⟩ | ⟨rfl, rfl⟩ <;> decide

theorem isFresh_hallway : hallway.IsFresh := by
  intro m c hc
  rw [hallway, Table.get?_insert, Table.get?_insert] at hc
  split at hc
  · obtain rfl := Option.some.inj hc
    exact ⟨rfl, rfl⟩
  · split at hc
    · obtain rfl := Option.some.inj hc
      exact ⟨rfl, rfl⟩
    · cases hc

/-- Two texts for user 7, between which one device reads: the other has no room for the second. -/
theorem hallway_conserves :
    hallway.Wired ∧ hallway.IsFresh ∧ ∃ log s, Plays hallway log s ∧
      (about 0 log).filterMap Deed.accepted? = ["a", "b"] ∧
      (about 1 log).filterMap Deed.accepted? = ["a"] ∧
      (∀ whom text, Conveys s whom text) ∧
      ∀ m c₀, hallway.connections.get? m = some c₀ →
        ∃ c, s.connections.get? m = some c ∧ Settled (about m log) c := by
  have hstart : Plays hallway [] hallway := .start
  have hplays := ((hstart.move (.send (.user 7) "a") trivial).move (.take 0 1) trivial).move
    (.send (.user 7) "b") trivial
  refine ⟨wired_hallway, isFresh_hallway, _, _, hplays, ?_, ?_,
    delivery_conserves wired_hallway isFresh_hallway hplays⟩
  · decide +kernel
  · decide +kernel

/-- A text that waits when the receiving end is dropped is neither received nor queued. -/
theorem waiting_text_is_lost :
    hallway.Wired ∧ hallway.IsFresh ∧ ∃ log s c, Plays hallway log s ∧
      s.connections.get? 0 = some c ∧
      (about 0 log).flatMap Deed.received? ++ c.queue ≠ (about 0 log).filterMap Deed.accepted? := by
  have hstart : Plays hallway [] hallway := .start
  have hplays := (hstart.move (.send (.user 7) "a") trivial).move (.abandon 0) trivial
  refine ⟨wired_hallway, isFresh_hallway, _, _, _, hplays, rfl, ?_⟩
  decide +kernel

end Delivery

end SessionGateway
