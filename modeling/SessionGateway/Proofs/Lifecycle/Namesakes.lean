import SessionGateway.Proofs.Cache.History
import SessionGateway.Proofs.Cluster.Answers
import SessionGateway.Proofs.Lifecycle.Requests

/-!
# Connections of one id on several nodes

The entry that the cache keeps for a connection alone is not kept by broker. What a reader finds
there is what was written last for the id, whichever node wrote it. It belongs to a node as long as
no other node writes for an id of its own connections. Ids are only distinct within a node, and the
entry of a living session is lost to a namesake on another node, or with it.
-/

namespace SessionGateway.SessionCache

open Cache (Operation horizon wallAt)

/-- The node that does an operation. -/
def Op.owner? : Op → Option BrokerId
  | .refreshUser e | .refreshConnection e | .forgetUser e => some e.owner
  | .refreshGroup e => some e.owner
  | .registerBroker b | .deregisterBroker b | .prune b => some b
  | .purge => none

/-- No other node than `b` writes for a connection. -/
def History.IsOwn (h : History) (b : BrokerId) (id : ConnectionId) : Prop :=
  ∀ x ∈ h, x.2.Writes (.connection id) → x.2.owner? = some b

section

variable {c : SessionCache} {origin t : Nat} {h : History} {id : ConnectionId}

theorem owner_of_lastConnection {b : BrokerId} {e : UserEntry} {s : Nat} (hown : h.IsOwn b id)
    (hlast : lastConnection id h = some (e, s)) : e.owner = b := by
  induction h with
  | nil => cases hlast
  | cons x older ih =>
    obtain ⟨s', op⟩ := x
    have holder : History.IsOwn older b id := fun x hx => hown x (List.mem_cons_of_mem _ hx)
    cases op with
    | refreshConnection e' =>
      rw [lastConnection] at hlast
      split at hlast
      · next he =>
        have howner := hown _ List.mem_cons_self (congrArg Place.connection he.symm)
        cases hlast
        exact Option.some.inj howner
      · exact ih holder hlast
    | forgetUser e' =>
      rw [lastConnection] at hlast
      split at hlast
      · cases hlast
      · exact ih holder hlast
    | _ => exact ih holder hlast

/-- Whatever is found for a connection was written for it last, and it is found in its time. -/
theorem Mirrors.userOf_last {m : Store.Memory} (hm : Mirrors c (ledgerOf c origin h) m t)
    (id : ConnectionId) :
    ∃ found, (c.userOf id).at origin t m = (.ok found, m) ∧
      (∀ e s, lastConnection id h = some (e, s) → t < s + c.ttl.millis → found = some e) ∧
      ∀ e, found = some e → ∃ s, lastConnection id h = some (e, s) := by
  have hledger : ledgerOf c origin h (.connection id) =
      (lastConnection id h).map fun x => (x.1.toJson.render, x.2) := ledgerOf_connection id h
  have hagrees := hm.agrees (.connection id)
  have hread : (Place.connection id).read c m (.ofMillis t) =
      m.textAt (.ofMillis t) (c.connectionKey id) := rfl
  have hrun : Store.Memory.answer (.ofMillis t) (.get (c.connectionKey id)) m =
      (.ok (m.textAt (.ofMillis t) (c.connectionKey id)), m) :=
    Store.Memory.answer_get (hm.isText (.connection id) rfl)
  rcases htext : m.textAt (.ofMillis t) (c.connectionKey id) with _ | text
  · refine ⟨none, ?_, ?_, by simp⟩
    · rw [userOf, Cache.at_bind, Cache.at_command, hrun, htext]
      rfl
    · intro e s hlast hlive
      rw [hlast, Option.map_some] at hledger
      have hkept := hagrees.kept _ _ hledger t (Nat.le_refl t) hlive
      rw [hread, htext] at hkept
      cases hkept
  · obtain ⟨s, hs⟩ := hagrees.known text (hread.trans htext)
    rw [hs] at hledger
    obtain ⟨⟨e, s'⟩, hlast, htold⟩ := Option.map_eq_some_iff.mp hledger.symm
    obtain ⟨rfl, rfl⟩ := Prod.mk.inj htold
    refine ⟨some e, ?_, ?_, ?_⟩
    · rw [userOf, Cache.at_bind, Cache.at_command, hrun, htext]
      simp only [e.decode_render]
      rfl
    · intro e' s'' hlast' _
      rw [hlast, Option.some.injEq, Prod.mk.injEq] at hlast'
      rw [hlast'.1]
    · intro e' he'
      exact ⟨s', by rw [hlast, Option.some.inj he']⟩

/-- After any history the entry that was written last for a connection is found in its time,
whichever node wrote it. It is a node's own if no other node wrote for a connection of this id. -/
theorem userOf_after_history (c : SessionCache) (origin t : Nat) (h : History) (id : ConnectionId)
    (hend : h.EndsBy t) (ht : origin + t < horizon) :
    ∃ found, (c.userOf id).at origin t (memoryAfter c origin h) =
        (.ok found, memoryAfter c origin h) ∧
      (∀ e s, lastConnection id h = some (e, s) → t < s + c.ttl.millis → found = some e) ∧
      (∀ e, found = some e → ∃ s, lastConnection id h = some (e, s)) ∧
      ∀ b e, h.IsOwn b id → found = some e → e.owner = b := by
  obtain ⟨found, hrun, hkept, hknown⟩ := (mirrors_memoryAfter hend ht).userOf_last id
  refine ⟨found, hrun, hkept, hknown, ?_⟩
  intro b e hown hfound
  obtain ⟨s, hlast⟩ := hknown e hfound
  exact owner_of_lastConnection hown hlast

end

/-- Two nodes publish a connection of one id; one of them has another beside it. -/
def namesakes : History :=
  [(30, .refreshConnection ⟨⟨"d"⟩, 1, 9, none, "v", ⟨"b"⟩⟩),
    (20, .refreshConnection ⟨⟨"c"⟩, 1, 8, none, "u", ⟨"b"⟩⟩),
    (10, .refreshConnection ⟨⟨"c"⟩, 1, 7, none, "t", ⟨"a"⟩⟩)]

theorem userOf_after_namesakes :
    let c : SessionCache := ⟨"k", .ofMillis 100⟩
    let m := memoryAfter c 1700000000000 namesakes
    (c.userOf ⟨"c"⟩).at 1700000000000 40 m =
        (.ok (some ⟨⟨"c"⟩, 1, 8, none, "u", ⟨"b"⟩⟩), m) ∧
      ∃ e, (c.userOf ⟨"d"⟩).at 1700000000000 40 m = (.ok (some e), m) ∧ e.owner = ⟨"b"⟩ := by
  intro c m
  have hend : History.EndsBy namesakes 40 := by simp [namesakes, History.EndsBy]
  constructor
  · obtain ⟨found, hrun, hkept, -⟩ :=
      userOf_after_history c 1700000000000 40 namesakes ⟨"c"⟩ hend (by decide)
    have hfound := hkept ⟨⟨"c"⟩, 1, 8, none, "u", ⟨"b"⟩⟩ 20 rfl (by decide)
    rw [hrun, hfound]
  · obtain ⟨found, hrun, hkept, -, howner⟩ :=
      userOf_after_history c 1700000000000 40 namesakes ⟨"d"⟩ hend (by decide)
    have hfound := hkept ⟨⟨"d"⟩, 1, 9, none, "v", ⟨"b"⟩⟩ 30 rfl (by decide)
    have hown : History.IsOwn namesakes ⟨"b"⟩ ⟨"d"⟩ := by
      simp [History.IsOwn, namesakes, Op.Writes, Op.owner?]
    refine ⟨_, ?_, howner ⟨"b"⟩ _ hown hfound⟩
    rw [hrun, hfound]

end SessionGateway.SessionCache

namespace SessionGateway.Lifecycle

/-- A node beside `porter` on its store. -/
def neighbour : Lifecycle := { porter with broker := ⟨"n"⟩ }

/-- A connection of another user under the id of `visitor`'s. -/
def namesake : Transport := ⟨1, some (⟨"c"⟩, 0), .ofList [("token", "pass")]⟩

/-- The identity service knows both. -/
def twoDoors : Cluster :=
  { doorstep with
    accounts := doorstep.accounts.insert "pass" ⟨.ok ⟨8, 1, none, none, "pass"⟩, .zero⟩ }

/-- `visitor` is let in at one node and `namesake` at the other. -/
def bothIn : Cluster :=
  let k := ((porter.onOpen visitor).run (Cluster.perform porter.broker) twoDoors).2
  ((neighbour.onOpen namesake).run (Cluster.perform neighbour.broker) k).2

/-- `visitor` is let in, and the registration of `namesake` fails at its second write. -/
def oneTurnedAway : Cluster :=
  let k := ((porter.onOpen visitor).run (Cluster.perform porter.broker) twoDoors).2
  let k := { k with store := { k.store with outages := Table.empty.insert .put ⟨0, none⟩ } }
  ((neighbour.onOpen namesake).run (Cluster.perform neighbour.broker) k).2

/-- A session stays registered at its node, and its entry was written at this very instant. Yet its
connection leads to a namesake's user on another node, or to nobody once the namesake was turned
away. -/
theorem namesake_displaces_visitor :
    ((bothIn.directory porter.broker).userSession? ⟨"c"⟩).map (·.entry) =
        some ⟨⟨"c"⟩, 1, 7, none, "jwt", porter.broker⟩ ∧
      (bothIn.read (porter.cache.userOf ⟨"c"⟩)).toOption =
        some (some ⟨⟨"c"⟩, 1, 8, none, "pass", neighbour.broker⟩) ∧
      ((oneTurnedAway.directory porter.broker).userSession? ⟨"c"⟩).map (·.entry) =
        some ⟨⟨"c"⟩, 1, 7, none, "jwt", porter.broker⟩ ∧
      (oneTurnedAway.read (porter.cache.userOf ⟨"c"⟩)).toOption = some none := by
  decide +kernel

end SessionGateway.Lifecycle
