import SessionGateway.Proofs.Cache.Writing

/-!
# What the operations read

On a memory that mirrors a ledger, the brokers are those with a heartbeat that is not too old, in
the order of their ids, and a lookup across them finds the last entry of each while it counts.
-/

namespace SessionGateway.SessionCache

open Cache (Operation horizon wallAt)
open Store (Memory)

/-- What was put last, while it counts. -/
def current {α : Type} (c : SessionCache) (t : Nat) (last : Option (α × Nat)) : Option α :=
  last.bind fun x => if t < x.2 + c.ttl.millis then some x.1 else none

/-- Whether a heartbeat, with its broker, is not too old at a time. -/
def isAlive (c : SessionCache) (now : Int64) (beat : String × String) : Bool :=
  match Text.int64? beat.2.toList with
  | some s => c.cutoffAt now ≤ s
  | none => false

section

variable {c : SessionCache} {L : Ledger} {m : Memory} {t origin : Nat}

/-- Distinct brokers are listed in the strict order of their ids. -/
theorem pairwise_lt_mergeSort {bs : List BrokerId} (h : bs.Nodup) :
    (bs.mergeSort fun a b => decide (a.text ≤ b.text)).Pairwise fun a b => a.text < b.text := by
  have hsorted : (bs.mergeSort fun a b => decide (a.text ≤ b.text)).Pairwise
      fun a b => decide (a.text ≤ b.text) = true := by
    apply List.pairwise_mergeSort
    · intro a b d hab hbd
      exact decide_eq_true (String.le_trans (of_decide_eq_true hab) (of_decide_eq_true hbd))
    · intro a b
      simp only [Bool.or_eq_true, decide_eq_true_eq]
      exact String.le_total a.text b.text
  have hdistinct := (List.mergeSort_perm bs fun a b => decide (a.text ≤ b.text)).nodup_iff.mpr h
  refine hsorted.imp₂ ?_ hdistinct
  intro a b hle hne
  refine Std.lt_of_le_of_ne (of_decide_eq_true hle) ?_
  intro htext
  obtain ⟨text⟩ := a
  obtain rfl : text = b.text := htext
  exact hne rfl

/-- All heartbeats are read, and then the brokers whose heartbeats are not too old are sorted. -/
theorem brokers_run (c : SessionCache) :
    c.brokers.run = .ask .wallClock fun now =>
      .ask (.store (.hashGetAll c.brokersKey)) fun
        | .error e => .done (.error e)
        | .ok found => .done (.ok (((found.filter (c.isAlive now)).map
            fun b => BrokerId.mk b.1).mergeSort fun a b => decide (a.text ≤ b.text))) := by
  rw [brokers]
  show Program.ask _ _ = Program.ask _ _
  congr 1
  funext now
  show Program.ask _ _ = Program.ask _ _
  congr 1
  funext x
  cases x <;> rfl

/-- The brokers whose heartbeats are not too old, in the strict order of their ids. -/
theorem brokers_listed {answer : (r : Cache.Request) → Memory → r.Answer × Memory} {now : Int64}
    {beats : Table String String} (hclock : answer .wallClock m = (now, m))
    (hbeats : answer (.store (.hashGetAll c.brokersKey)) m = (.ok beats.entries, m)) :
    ∃ bs : List BrokerId, c.brokers.run.run answer m = (.ok bs, m) ∧
      bs.Pairwise (fun a b => a.text < b.text) ∧
      ∀ b, b ∈ bs ↔
        ∃ text, beats.get? b.text = some text ∧ c.isAlive now (b.text, text) = true := by
  let lives : String × String → Bool := c.isAlive now
  let bs := ((beats.entries.filter lives).map fun b => BrokerId.mk b.1).mergeSort
    fun a b => decide (a.text ≤ b.text)
  refine ⟨bs, ?_, ?_, ?_⟩
  · simp only [c.brokers_run, Program.run, hclock, hbeats]
    rfl
  · apply pairwise_lt_mergeSort
    have hkeys : ((beats.entries.filter lives).map Prod.fst).Nodup :=
      beats.distinct.sublist (List.filter_sublist.map Prod.fst)
    refine List.pairwise_map.mpr ((List.pairwise_map.mp hkeys).imp ?_)
    intro x y hxy heq
    exact hxy (congrArg BrokerId.text heq)
  · intro b
    simp only [bs, List.mem_mergeSort, List.mem_map, List.mem_filter, Prod.exists]
    constructor
    · rintro ⟨field, text, ⟨hentry, hlive⟩, rfl⟩
      exact ⟨text, (Table.mem_entries_iff _).mp hentry, hlive⟩
    · rintro ⟨text, hget, hlive⟩
      exact ⟨b.text, text, ⟨(Table.mem_entries_iff _).mpr hget, hlive⟩, rfl⟩

namespace Mirrors

theorem liveField_at {α : Type} {read? : String → Option (Stamped α)}
    {members : α → List (String × Option Json)}
    (hread : ∀ a stamp, read? (Stamped.render (members a) stamp) = some ⟨a, stamp⟩)
    (h : Mirrors c L m t) (ht : origin + t < horizon) {p : Place} {field : String}
    (hf : p.field? = some field) {last : Option (α × Nat)}
    (hlast : L p = last.map fun x => (c.stamped origin (members x.1) x.2, x.2)) :
    (liveField read? (p.key c) field).at origin t m = (.ok (c.current t last), m) := by
  have hhash := h.isHash p (by rw [hf]; rfl)
  rw [liveField, Cache.at_bind, Cache.at_command, Store.Memory.answer_hashGet hhash,
    ← Place.read_of_field hf]
  have hp := h.agrees p
  cases hfound : p.read c m (.ofMillis t) with
  | none =>
    rcases last with _ | ⟨a, s⟩
    · rfl
    · have hnot : ¬ t < s + c.ttl.millis := by
        intro hts
        rw [hp.kept _ s hlast t (Nat.le_refl t) hts] at hfound
        cases hfound
      simp only [current, Option.bind_some, if_neg hnot]
      rfl
  | some text =>
    obtain ⟨s, hs⟩ := hp.known text hfound
    rcases last with _ | ⟨a, s'⟩
    · rw [hs] at hlast
      cases hlast
    · simp only [hs, Option.map_some, Option.some.injEq, Prod.mk.injEq] at hlast
      obtain ⟨rfl, rfl⟩ := hlast
      have hstamp := Cache.wallAt_lt_stampAt_iff c (hp.past _ _ hs) ht
      have hentry : read? (c.stamped origin (members a) s) =
          some ⟨a, c.stampAt (wallAt origin s)⟩ := hread _ _
      simp only [hentry]
      show (Except.ok (if wallAt origin t < c.stampAt (wallAt origin s) then some a else none), m) =
        _
      simp only [current, Option.bind_some, hstamp]

theorem locateIn_at {α : Type} {read? : String → Option (Stamped α)}
    {members : α → List (String × Option Json)}
    (hread : ∀ a stamp, read? (Stamped.render (members a) stamp) = some ⟨a, stamp⟩)
    (h : Mirrors c L m t) (ht : origin + t < horizon) {place : BrokerId → Place} {field : String}
    (hf : ∀ b, (place b).field? = some field) {last : BrokerId → Option (α × Nat)}
    (hlast : ∀ b, L (place b) = (last b).map fun x => (c.stamped origin (members x.1) x.2, x.2))
    (bs : List BrokerId) :
    (locateIn read? (fun b => (place b).key c) field bs).at origin t m =
      (.ok (bs.filterMap fun b => c.current t (last b)), m) := by
  induction bs with
  | nil => rfl
  | cons b rest ih =>
    rw [locateIn, Cache.at_bind, h.liveField_at hread ht (hf b) (hlast b)]
    show Operation.at (locateIn _ _ _ _ >>= _) origin t m = _
    simp only [Cache.at_bind, ih, List.filterMap_cons]
    cases c.current t (last b) with
    | none => rfl
    | some a => rfl

/-- The entry that was put for a connection alone is found for the time to live. -/
theorem userOf_at (h : Mirrors c L m t) {id : ConnectionId} {e : UserEntry} {s : Nat}
    (hlast : L (.connection id) = some (e.toJson.render, s)) (hlive : t < s + c.ttl.millis) :
    (c.userOf id).at origin t m = (.ok (some e), m) := by
  have htext : m.textAt (.ofMillis t) (c.connectionKey id) = some e.toJson.render :=
    (h.agrees (.connection id)).kept _ s hlast t (Nat.le_refl t) hlive
  have hkey : m.IsText (.ofMillis t) (c.connectionKey id) := h.isText (.connection id) rfl
  rw [userOf, Cache.at_bind, Cache.at_command, Store.Memory.answer_get hkey, htext]
  simp only [e.decode_render]
  rfl

/-- The living brokers, in the strict order of their ids. -/
theorem brokers_at (h : Mirrors c L m t) (ht : origin + t < horizon)
    (hbeats : ∀ b text s, L (.beat b) = some (text, s) → text = toString (wallAt origin s).toInt) :
    ∃ bs : List BrokerId, c.brokers.at origin t m = (.ok bs, m) ∧
      bs.Pairwise (fun a b => a.text < b.text) ∧
      (∀ b text s, L (.beat b) = some (text, s) → t < s + c.ttl.millis → b ∈ bs) ∧
      (∀ b ∈ bs, ∃ text s, L (.beat b) = some (text, s) ∧ t ≤ s + c.ttl.millis) := by
  have hhash : m.IsHash (.ofMillis t) c.brokersKey := h.isHash (.beat ⟨""⟩) rfl
  have hclock : Cache.answer origin t .wallClock m = (wallAt origin t, m) := rfl
  have hfound : Cache.answer origin t (.store (.hashGetAll c.brokersKey)) m =
      (.ok (m.fieldsAt (.ofMillis t) c.brokersKey).entries, m) :=
    Store.Memory.answer_hashGetAll hhash
  obtain ⟨bs, hlist, hsorted, hmem⟩ := brokers_listed hclock hfound
  -- a heartbeat that is found was put at a time of the ledger
  have hlives : ∀ b text s, L (.beat b) = some (text, s) →
      (c.isAlive (wallAt origin t) (b.text, text) = true ↔ t ≤ s + c.ttl.millis) := by
    intro b text s hlast
    have hs := (h.agrees (.beat b)).past text s hlast
    rw [isAlive, hbeats b text s hlast, Text.int64?_toString]
    simp only [decide_eq_true_eq]
    exact Cache.cutoffAt_le_wallAt_iff c hs ht
  refine ⟨bs, hlist, hsorted, ?_, ?_⟩
  · intro b text s hlast hlive
    have hread := (h.agrees (.beat b)).kept text s hlast t (Nat.le_refl t) hlive
    exact (hmem b).mpr ⟨text, hread, (hlives b text s hlast).mpr (Nat.le_of_lt hlive)⟩
  · intro b hb
    obtain ⟨text, hget, hlive⟩ := (hmem b).mp hb
    obtain ⟨s, hlast⟩ := (h.agrees (.beat b)).known text hget
    exact ⟨text, s, hlast, (hlives b text s hlast).mp hlive⟩

end Mirrors

end

end SessionGateway.SessionCache
