import SessionGateway.Proofs.Cache.Keys
import SessionGateway.Proofs.Cluster.Answers
import SessionGateway.Proofs.Entry
import SessionGateway.Proofs.Lifecycle.Footprints

/-!
# Where an opened connection ends up

From any state of a node, whatever the store, the locks and the identity service answer: where a
connection stands after it was opened tells what the directory and the cache hold of it, and it was
closed exactly if the error that ended its registration says so.
-/

namespace SessionGateway

open Node (AnswersLater Request)
open Program (Surroundings)

/-! ### What happened in a run -/

namespace Exchange

/-- A command of the store failed. -/
def StoreFailed : Exchange Node.interface Cluster → Prop
  | ⟨.cache (.store _), x, _⟩ => ∃ e, x = .error e
  | _ => False

/-- A lock was not had in time. -/
def TimedOut : Exchange Node.interface Cluster → Prop
  | ⟨.acquire .., x, _⟩ => x = false
  | _ => False

/-- The identity service gave a principal for a credential. -/
def Identified (credential : String) (p : Principal) : Exchange Node.interface Cluster → Prop
  | ⟨.identify credential', x, _⟩ => credential' = credential ∧ x = .ok p
  | _ => False

/-- The identity service gave no principal. -/
def Refused : Exchange Node.interface Cluster → Prop
  | ⟨.identify _, x, _⟩ => ∃ e, x = .error e
  | _ => False

/-- The transport that was closed. -/
def closed? (x : Exchange Node.interface Cluster) : Option Transport :=
  match x.request with
  | .close t => some t
  | _ => none

end Exchange

namespace Lifecycle

variable {l : Lifecycle} {b : BrokerId} {k k' : Cluster}

/-- Everything but the time and what was reported is the same. -/
structure Alike (k k' : Cluster) : Prop where
  sites : k'.sites = k.sites
  store : k'.store = k.store
  connections : k'.connections = k.connections

theorem Alike.refl (k : Cluster) : Alike k k := ⟨rfl, rfl, rfl⟩

theorem Alike.trans {k'' : Cluster} (h : Alike k k') (h' : Alike k' k'') : Alike k k'' :=
  ⟨h'.sites.trans h.sites, h'.store.trans h.store, h'.connections.trans h.connections⟩

theorem Alike.directory (h : Alike k k') : k'.directory b = k.directory b :=
  Cluster.directory_congr h.sites

theorem alike_of_idle {r : Request} {x : r.Answer} (h : AnswersLater b true r k x k')
    (hr : r.IsIdle) : Alike k k' := by
  obtain ⟨now, -, h⟩ := h
  cases r with
  | cache r =>
    cases r with
    | store command => exact hr.elim
    | _ => cases h; exact ⟨rfl, rfl, rfl⟩
  | measure m n => cases h; exact ⟨rfl, rfl, rfl⟩
  | _ => exact hr.elim

theorem ensures_idle {α : Type} {p : NodeProgram α} (hp : p.Only Request.IsIdle) :
    p.Ensures (AnswersLater b true) k fun trace _ k' =>
      Alike k k' ∧ ∀ x ∈ trace, x.request.IsIdle :=
  hp.ensures (K := Alike k) (fun _ _ _ _ hr hk h => hk.trans (alike_of_idle h hr)) (Alike.refl k)

/-! ### Publishing -/

/-- Something of a sort happened in a run. -/
def Happened (P : Exchange Node.interface Cluster → Prop)
    (trace : List (Exchange Node.interface Cluster)) : Prop :=
  ∃ x ∈ trace, P x

section

variable {P : Exchange Node.interface Cluster → Prop} {x : Exchange Node.interface Cluster}
  {trace trace' : List (Exchange Node.interface Cluster)}

@[simp] theorem not_happened_nil : ¬ Happened P [] := by
  rintro ⟨x, hx, -⟩
  cases hx

@[simp] theorem happened_cons : Happened P (x :: trace) ↔ P x ∨ Happened P trace := by
  simp only [Happened, List.mem_cons, or_and_right, exists_or, exists_eq_left]

@[simp] theorem happened_append :
    Happened P (trace ++ trace') ↔ Happened P trace ∨ Happened P trace' := by
  simp only [Happened, List.mem_append, or_and_right, exists_or]

theorem not_failed_of_idle (h : ∀ x ∈ trace, x.request.IsIdle) :
    ¬ Happened Exchange.StoreFailed trace := by
  rintro ⟨⟨r, x, k⟩, hx, hfailed⟩
  have hr := h _ hx
  cases r with
  | cache r => cases r <;> first | exact hr | exact hfailed
  | _ => exact hfailed

end

/-- How a command of the store is answered on a node. -/
theorem answered_store {command : Store.Command} {x : Store.Result command}
    (h : AnswersLater b true (.cache (.store command)) k x k') :
    k'.sites = k.sites ∧ k'.connections = k.connections ∧
      ((∃ e, x = .error e) ∨ ∃ now, Store.Memory.Carries now command k.memory x k'.memory) := by
  obtain ⟨now, -, hk', hcarried | ⟨-, -, herror⟩⟩ := h
  · exact ⟨by rw [hk'], by rw [hk'], .inr ⟨now, hcarried⟩⟩
  · exact ⟨by rw [hk'], by rw [hk'], .inl herror⟩

theorem ensures_putStamped (c : SessionCache) (key field : String)
    (members : List (String × Option Json)) :
    (c.putStamped key field members).Ensures (AnswersLater b true) k fun trace r k' =>
      k'.sites = k.sites ∧
        ((r = .ok () ∧ ¬ Happened Exchange.StoreFailed trace ∧
            ∃ stamp, k'.memory.Holds key field (Stamped.render members stamp)) ∨
          (∃ e, r = .error e) ∧ Happened Exchange.StoreFailed trace) := by
  intro now k₁ hnow x k₂ hput
  have hsame := alike_of_idle hnow trivial
  obtain ⟨hsites, -, ⟨e, rfl⟩ | ⟨now', hcarried⟩⟩ := answered_store hput
  · exact ⟨hsites.trans hsame.sites, .inr ⟨⟨e, rfl⟩, by simp [Exchange.StoreFailed]⟩⟩
  · obtain ⟨hx, hmemory⟩ := Store.Memory.eq_of_carries hcarried fun e => e
    refine ⟨hsites.trans hsame.sites, ?_⟩
    rcases x with e | u
    · exact .inr ⟨⟨e, rfl⟩, by simp [Exchange.StoreFailed]⟩
    · refine .inl ⟨rfl, by simp [Exchange.StoreFailed], c.stampAt now, ?_⟩
      · rw [hmemory]
        exact Store.Memory.holds_of_hashPut hx.symm

/-- A field holds a user's entry under some stamp. -/
def HoldsUser (c : SessionCache) (m : Store.Memory) (e : UserEntry) : Prop :=
  ∃ text stamp, m.Holds (c.userBucket e.owner) (SessionCache.userField e.userId) text ∧
    Stamped.readUser? text = some ⟨e, stamp⟩

/-- A field holds a group's entry under some stamp. -/
def HoldsGroup (c : SessionCache) (m : Store.Memory) (e : GroupEntry) : Prop :=
  ∃ text stamp, m.Holds (c.groupBucket e.owner) e.group text ∧
    Stamped.readGroup? text = some ⟨e, stamp⟩

/-- The key of a connection holds its user's entry. -/
def HoldsConnection (c : SessionCache) (m : Store.Memory) (e : UserEntry) : Prop :=
  ∃ text, m.HoldsText (c.connectionKey e.connection) text ∧
    (Json.Document.read? text).bind UserEntry.decode = some e

theorem ensures_refreshGroup (c : SessionCache) (e : GroupEntry) :
    (Node.cached (c.refreshGroup e)).Ensures (AnswersLater b true) k fun trace r k' =>
      k'.sites = k.sites ∧
        ((r = .ok () ∧ ¬ Happened Exchange.StoreFailed trace ∧ HoldsGroup c k'.memory e) ∨
          (∃ err, r = .error err) ∧ Happened Exchange.StoreFailed trace) := by
  rw [c.cached_refreshGroup]
  refine (ensures_putStamped c _ _ _).mono ?_
  rintro trace r k' ⟨hsites, ⟨hr, hclean, stamp, hholds⟩ | hfailed⟩
  · exact ⟨hsites, .inl ⟨hr, hclean, _, stamp, hholds, Stamped.readGroup?_render e stamp⟩⟩
  · exact ⟨hsites, .inr hfailed⟩

theorem ensures_publishUser (c : SessionCache) (e : UserEntry) :
    (Node.cached (c.publishUser e)).Ensures (AnswersLater b true) k fun trace r k' =>
      k'.sites = k.sites ∧
        ((r = .ok () ∧ ¬ Happened Exchange.StoreFailed trace ∧ HoldsUser c k'.memory e ∧
            HoldsConnection c k'.memory e) ∨
          (∃ err, r = .error err) ∧ Happened Exchange.StoreFailed trace) := by
  rw [c.cached_publishUser, Program.ensures_bind]
  refine (ensures_putStamped c _ _ _).mono ?_
  rintro trace r k₁ ⟨hsites, ⟨rfl, hclean, stamp, hholds⟩ | ⟨⟨err, rfl⟩, hfailed⟩⟩
  · intro x k₂ hput
    obtain ⟨hsites', -, ⟨err, rfl⟩ | ⟨now, hcarried⟩⟩ := answered_store hput
    · exact ⟨hsites'.trans hsites, .inr ⟨⟨err, rfl⟩, by simp [Exchange.StoreFailed]⟩⟩
    · obtain ⟨rfl, hmemory⟩ := Store.Memory.eq_of_carries hcarried fun e => e
      refine ⟨hsites'.trans hsites, .inl ⟨rfl, ?_, ⟨_, stamp, ?_, Stamped.readUser?_render e stamp⟩,
        ⟨_, ?_, e.decode_render⟩⟩⟩
      · simp [Exchange.StoreFailed, hclean, Store.Memory.answer]
      · rw [hmemory]
        exact hholds.put (c.userBucket_ne_connectionKey _ _).symm
      · rw [hmemory]
        exact Store.Memory.holdsText_put
  · exact ⟨hsites, .inr ⟨⟨err, rfl⟩, by simp [hfailed]⟩⟩

/-! ### Enrolling -/

theorem ensures_idle_bind {α β : Type} {p : NodeProgram α} {f : α → NodeProgram β}
    {Q : List (Exchange Node.interface Cluster) → β → Cluster → Prop}
    (hp : p.Only Request.IsIdle)
    (h : ∀ trace a k', Alike k k' → (∀ x ∈ trace, x.request.IsIdle) →
      (f a).Ensures (AnswersLater b true) k' fun trace' r k'' => Q (trace ++ trace') r k'') :
    (p.bind f).Ensures (AnswersLater b true) k Q := by
  rw [Program.ensures_bind]
  refine (ensures_idle hp).mono ?_
  rintro trace a k' ⟨halike, htrace⟩
  exact h trace a k' halike htrace

theorem directory_addUser {s : UserSession} {x : Bool}
    (h : AnswersLater b true (.addUser s) k x k') :
    k'.directory b = (k.directory b).addUser s := by
  obtain ⟨now, -, ⟨⟩⟩ := h
  exact Cluster.directory_setDirectory _ _ _

theorem directory_addGroup {s : GroupSession} {x : Bool}
    (h : AnswersLater b true (.addGroup s) k x k') :
    k'.directory b = (k.directory b).addGroup s := by
  obtain ⟨now, -, ⟨⟩⟩ := h
  exact Cluster.directory_setDirectory _ _ _

theorem ensures_enrolUser (s : UserSession) :
    (l.enrolUser s).Ensures (AnswersLater b true) k fun trace r k' =>
      (r = .ok s.principal ∧ ¬ Happened Exchange.StoreFailed trace ∧
          (k'.directory b).userSession? s.entry.connection = some s ∧
          HoldsUser l.cache k'.memory s.entry ∧ HoldsConnection l.cache k'.memory s.entry) ∨
        (∃ err, r = .error (.cache err)) ∧ Happened Exchange.StoreFailed trace := by
  rw [l.enrolUser_eq]
  intro replaced k₁ hadd
  rw [Program.ensures_bind]
  refine (ensures_publishUser l.cache s.entry).mono ?_
  rintro trace r k₂ ⟨hsites, ⟨rfl, hclean, huser, hconnection⟩ | ⟨⟨err, rfl⟩, hfailed⟩⟩
  · refine ensures_idle_bind (only_log _) fun trace₁ _ k₃ halike₁ htrace₁ => ?_
    refine ensures_idle_bind (only_countRegistered _ _) fun trace₂ _ k₄ halike₂ htrace₂ => ?_
    have halike := halike₁.trans halike₂
    refine .inl ⟨rfl, ?_, ?_, ?_, ?_⟩
    · simp [Exchange.StoreFailed, hclean, not_failed_of_idle htrace₁, not_failed_of_idle htrace₂]
    · simp only [halike.directory, Cluster.directory_congr hsites, directory_addUser hadd]
      exact (Table.get?_insert _ _ _ _).trans (if_pos rfl)
    · rw [Cluster.memory, halike.store]
      exact huser
    · rw [Cluster.memory, halike.store]
      exact hconnection
  · intro withdrawn k₃ _
    refine Program.ensures_bind_any fun trace₁ _ k₄ => ?_
    refine Program.ensures_bind_any fun trace₂ _ k₅ => ?_
    refine .inr ⟨⟨err, rfl⟩, ?_⟩
    simp [hfailed]

theorem ensures_enrolGroup (s : GroupSession) :
    (l.enrolGroup s).Ensures (AnswersLater b true) k fun trace r k' =>
      (r = .ok () ∧ ¬ Happened Exchange.StoreFailed trace ∧
          (k'.directory b).groupSession? s.entry.connection = some s ∧
          HoldsGroup l.cache k'.memory s.entry) ∨
        (∃ err, r = .error (.cache err)) ∧ Happened Exchange.StoreFailed trace := by
  rw [l.enrolGroup_eq]
  intro replaced k₁ hadd
  rw [Program.ensures_bind]
  refine (ensures_refreshGroup l.cache s.entry).mono ?_
  rintro trace r k₂ ⟨hsites, ⟨rfl, hclean, hgroup⟩ | ⟨⟨err, rfl⟩, hfailed⟩⟩
  · refine ensures_idle_bind (only_log _) fun trace₁ _ k₃ halike₁ htrace₁ => ?_
    refine ensures_idle_bind (only_countRegistered _ _) fun trace₂ _ k₄ halike₂ htrace₂ => ?_
    have halike := halike₁.trans halike₂
    refine .inl ⟨rfl, ?_, ?_, ?_⟩
    · simp [Exchange.StoreFailed, hclean, not_failed_of_idle htrace₁, not_failed_of_idle htrace₂]
    · simp only [halike.directory, Cluster.directory_congr hsites, directory_addGroup hadd]
      exact (Table.get?_insert _ _ _ _).trans (if_pos rfl)
    · rw [Cluster.memory, halike.store]
      exact hgroup
  · intro withdrawn k₃ _
    refine Program.ensures_bind_any fun trace₁ _ k₄ => ?_
    refine .inr ⟨⟨err, rfl⟩, ?_⟩
    simp [hfailed]

/-! ### Registering -/

/-- How a registration under a lock may end: as a body that has not failed, with an error of the
cache, or without the lock and without effect. -/
inductive Registering {α : Type} (l : Lifecycle) (k : Cluster) (Good : α → Cluster → Prop) :
    List (Exchange Node.interface Cluster) → Except OpenError α → Cluster → Prop
  | enrolled {trace k'} (a : α) (sound : ¬ Happened Exchange.StoreFailed trace)
      (inTime : ¬ Happened Exchange.TimedOut trace) (good : Good a k') :
      Registering l k Good trace (.ok a) k'
  | failed {trace k'} (err : CacheError) (failed : Happened Exchange.StoreFailed trace)
      (inTime : ¬ Happened Exchange.TimedOut trace) :
      Registering l k Good trace (.error (.cache err)) k'
  | late {trace k'} (sound : ¬ Happened Exchange.StoreFailed trace)
      (late : Happened Exchange.TimedOut trace) (alike : Alike k k') :
      Registering l k Good trace (.error (.lockTimeout l.patience)) k'

theorem Registering.cons {α : Type} {Good : α → Cluster → Prop} {k₁ : Cluster}
    {x : Exchange Node.interface Cluster} {trace : List (Exchange Node.interface Cluster)}
    {r : Except OpenError α} (h : Registering l k₁ Good trace r k') (hk : Alike k k₁)
    (hfailed : ¬ x.StoreFailed) (hlate : ¬ x.TimedOut) :
    Registering l k Good (x :: trace) r k' := by
  cases h with
  | enrolled a sound inTime good =>
    exact .enrolled a (by simp [hfailed, sound]) (by simp [hlate, inTime]) good
  | failed err failed inTime => exact .failed err (by simp [failed]) (by simp [hlate, inTime])
  | late sound late alike =>
    exact .late (by simp [hfailed, sound]) (by simp [late]) (hk.trans alike)

theorem not_timedOut_of_keepsLocks {trace : List (Exchange Node.interface Cluster)}
    (h : ∀ x ∈ trace, x.request.KeepsLocks) : ¬ Happened Exchange.TimedOut trace := by
  rintro ⟨⟨r, x, k⟩, hx, hlate⟩
  have hr := h _ hx
  cases r <;> first | exact hr | exact hlate

theorem ensures_registering {α : Type} {kind : ConnectionKind}
    {body : NodeProgram (Except OpenError α)} {Good : α → Cluster → Prop}
    (hgood : ∀ a k k', k'.directory b = k.directory b → k'.memory = k.memory → Good a k →
      Good a k')
    (hbody : ∀ k, body.Ensures (AnswersLater b true) k fun trace r k' =>
      (∃ a, r = .ok a ∧ ¬ Happened Exchange.StoreFailed trace ∧ Good a k') ∨
        (∃ err, r = .error (.cache err)) ∧ Happened Exchange.StoreFailed trace)
    (honly : body.Only Request.KeepsLocks) :
    (l.registering kind body).Ensures (AnswersLater b true) k (Registering l k Good) := by
  have hkeeps := fun k => honly.ensures (A := AnswersLater b true) (K := fun _ => True)
    (fun _ _ _ _ _ _ _ => trivial) (s := k) trivial
  simp only [l.registering_eq, Program.ensures_bind, holding_eq]
  rintro x k₁ ⟨now, -, ⟨rfl, -, hk₁⟩ | ⟨rfl, -, hk₁⟩⟩
  · rw [Program.ensures_bind]
    refine ((hbody k₁).and (hkeeps k₁)).mono ?_
    rintro trace r k₂ ⟨hr, -, htrace⟩ ⟨⟩ k₃ ⟨now₃, -, ⟨⟩⟩
    have hlate := not_timedOut_of_keepsLocks htrace
    obtain ⟨a, rfl, hsound, ha⟩ | ⟨⟨err, rfl⟩, hfailed⟩ := hr
    · refine .enrolled a ?_ ?_ ?_
      · simp [Exchange.StoreFailed, hsound]
      · simp [Exchange.TimedOut, hlate]
      · exact hgood a k₂ _ (Cluster.directory_setLock _ _ _ _) rfl ha
    · refine .failed err ?_ ?_
      · simp [hfailed]
      · simp [Exchange.TimedOut, hlate]
  · subst hk₁
    refine ensures_idle_bind (only_measure _ _) fun trace _ k₂ halike htrace => ?_
    refine .late ?_ ?_ ?_
    · simp [Exchange.StoreFailed, not_failed_of_idle htrace]
    · simp [Exchange.TimedOut]
    · exact ⟨halike.sites, halike.store, halike.connections⟩

/-! ### Opening -/

/-- A state in which a connection is registered, with all that it means. -/
def Active (l : Lifecycle) (t : Transport) (trace : List (Exchange Node.interface Cluster))
    (k' : Cluster) : ConnectionState → Prop
  | .endUserActive => ∃ id token p, t.id? = some id ∧ t.attributes.classify = some .endUser ∧
      t.attributes.token? = some token ∧ Happened (Exchange.Identified token p) trace ∧
      (k'.directory l.broker).userSession? id = some ⟨.ofPrincipal id p l.broker, p, t⟩ ∧
      HoldsUser l.cache k'.memory (.ofPrincipal id p l.broker) ∧
      HoldsConnection l.cache k'.memory (.ofPrincipal id p l.broker)
  | .groupActive => ∃ id group, t.id? = some id ∧ t.attributes.classify = some .groupSecret ∧
      t.attributes.group? = some group ∧
      (∀ x ∈ trace, ∀ credential, x.request ≠ .identify credential) ∧
      (k'.directory l.broker).groupSession? id = some ⟨⟨id, group, l.broker⟩, t⟩ ∧
      HoldsGroup l.cache k'.memory ⟨id, group, l.broker⟩
  | .unregistered | .closed => False

/-- How the registration of a connection may end. -/
inductive Registered (l : Lifecycle) (t : Transport) (k : Cluster) :
    List (Exchange Node.interface Cluster) → Except OpenError ConnectionState → Cluster → Prop
  | unplaced (noId : t.id? = none) : Registered l t k [] (.error .unrecognizedTransport) k
  | unclassified (noKind : t.attributes.classify = none) :
      Registered l t k [] (.error .unclassified) k
  | refused {trace k'} (err : Identity.Error) (refused : Happened Exchange.Refused trace)
      (inTime : ¬ Happened Exchange.TimedOut trace) :
      Registered l t k trace (.error (.identity err)) k'
  | registering {α : Type} {Good : α → Cluster → Prop} {trace k' r} (state : α → ConnectionState)
      (known : t.id?.isSome ∧ t.attributes.classify.isSome)
      (accepted : ¬ Happened Exchange.Refused trace)
      (active : ∀ a, Good a k' → Active l t trace k' (state a))
      (registering : Registering l k Good trace r k') :
      Registered l t k trace (r.map state) k'

theorem token_of_endUser {a : Attributes} (h : a.classify = some .endUser) :
    ∃ token, a.token? = some token := by
  rw [Attributes.classify] at h
  split at h
  · next hgiven =>
    cases ht : a.token? with
    | none => rw [ht] at hgiven; cases hgiven
    | some token => exact ⟨token, rfl⟩
  · split at h <;> cases h

theorem group_of_groupSecret {a : Attributes} (h : a.classify = some .groupSecret) :
    ∃ group, a.group? = some group := by
  rw [Attributes.classify] at h
  split at h
  · cases h
  · split at h
    · next hgiven =>
      cases hg : a.group? with
      | none => simp [hg, Attributes.isGiven] at hgiven
      | some group => exact ⟨group, rfl⟩
    · cases h

/-- A request to the identity service. -/
theorem not_refused_of_ne {trace : List (Exchange Node.interface Cluster)}
    (h : ∀ x ∈ trace, ∀ credential, x.request ≠ Request.identify credential) :
    ¬ Happened Exchange.Refused trace := by
  rintro ⟨⟨r, x, k⟩, hx, hrefused⟩
  cases r <;> first | exact h _ hx _ rfl | exact hrefused

/-- The directory and the cache hold a user's session. -/
structure UserHeld (l : Lifecycle) (s : UserSession) (k' : Cluster) : Prop where
  session : (k'.directory l.broker).userSession? s.entry.connection = some s
  user : HoldsUser l.cache k'.memory s.entry
  connection : HoldsConnection l.cache k'.memory s.entry

/-- The directory and the cache hold a group's session. -/
structure GroupHeld (l : Lifecycle) (s : GroupSession) (k' : Cluster) : Prop where
  session : (k'.directory l.broker).groupSession? s.entry.connection = some s
  group : HoldsGroup l.cache k'.memory s.entry

/-- A request that asks for no principal. -/
abbrev AsksNobody (r : Request) : Prop := ∀ credential, r ≠ .identify credential

theorem asksNobody_of_work {key : String} {r : Request} (h : r.IsWork key) : AsksNobody r := by
  rintro credential rfl
  exact h

theorem asksNobody_registering {α : Type} {kind : ConnectionKind}
    {body : NodeProgram (Except OpenError α)}
    (h : body.Only fun r : Request => AsksNobody r ∧ r.KeepsLocks) :
    (l.registering kind body).Only AsksNobody := by
  have horderly : Orderly (fun _ => AsksNobody) none (l.registering kind body) none :=
    orderly_registering nofun nofun
      (fun r hr => asksNobody_of_work (hr.work : r.IsWork l.cache.brokersKey)) h
  exact horderly.only fun _ _ hr => hr

theorem asksNobody_enrolUser (s : UserSession) :
    (l.enrolUser s).Only fun r : Request => AsksNobody r ∧ r.KeepsLocks := by
  refine (l.only_enrolUser s).mono ?_
  rintro r (rfl | hr)
  · exact ⟨nofun, trivial⟩
  · exact ⟨asksNobody_of_work hr, hr.keepsLocks⟩

theorem asksNobody_enrolGroup (s : GroupSession) :
    (l.enrolGroup s).Only fun r : Request => AsksNobody r ∧ r.KeepsLocks := by
  refine (l.only_enrolGroup s).mono ?_
  rintro r (rfl | hr)
  · exact ⟨nofun, trivial⟩
  · exact ⟨asksNobody_of_work hr, hr.keepsLocks⟩

theorem ensures_registering_user (s : UserSession) :
    (l.registering .endUser (l.enrolUser s)).Ensures (AnswersLater l.broker true) k
      fun trace r k' => Registering l k (fun _ => UserHeld l s) trace r k' ∧
        ∀ x ∈ trace, AsksNobody x.request := by
  have honly := l.asksNobody_enrolUser s
  have hasks : (l.registering .endUser (l.enrolUser s)).Only AsksNobody :=
    asksNobody_registering honly
  refine Program.Ensures.and (ensures_registering ?_ ?_ (honly.mono fun _ hr => hr.2))
    (hasks.requests k)
  · rintro _ k k' hdirectory hmemory ⟨hsession, huser, hconnection⟩
    exact ⟨by rw [hdirectory, hsession], by rw [hmemory]; exact huser,
      by rw [hmemory]; exact hconnection⟩
  · intro k
    refine (ensures_enrolUser s).mono ?_
    rintro trace r k' (⟨hr, hsound, hsession, huser, hconnection⟩ | hfailed)
    · exact .inl ⟨_, hr, hsound, hsession, huser, hconnection⟩
    · exact .inr hfailed

theorem ensures_registering_group (s : GroupSession) :
    (l.registering .groupSecret (l.enrolGroup s)).Ensures (AnswersLater l.broker true) k
      fun trace r k' => Registering l k (fun _ => GroupHeld l s) trace r k' ∧
        ∀ x ∈ trace, AsksNobody x.request := by
  have honly := l.asksNobody_enrolGroup s
  have hasks : (l.registering .groupSecret (l.enrolGroup s)).Only AsksNobody :=
    asksNobody_registering honly
  refine Program.Ensures.and (ensures_registering ?_ ?_ (honly.mono fun _ hr => hr.2))
    (hasks.requests k)
  · rintro _ k k' hdirectory hmemory ⟨hsession, hgroup⟩
    exact ⟨by rw [hdirectory, hsession], by rw [hmemory]; exact hgroup⟩
  · intro k
    refine (ensures_enrolGroup s).mono ?_
    rintro trace r k' (⟨hr, hsound, hsession, hgroup⟩ | hfailed)
    · exact .inl ⟨_, hr, hsound, hsession, hgroup⟩
    · exact .inr hfailed

theorem ensures_register (t : Transport) :
    (l.register t).Ensures (AnswersLater l.broker true) k (Registered l t k) := by
  rw [l.register_eq]
  cases hid : t.id? with
  | none => exact .unplaced hid
  | some id =>
    cases hclass : t.attributes.classify with
    | none => exact .unclassified hclass
    | some kind =>
      have hknown : t.id?.isSome ∧ t.attributes.classify.isSome := by simp [hid, hclass]
      cases kind with
      | endUser =>
        obtain ⟨token, htoken⟩ := token_of_endUser hclass
        simp only [Program.ensures_bind, l.registerUser_eq, htoken]
        rintro (err | p) k₁ ⟨now, -, rfl⟩
        · exact .refused err (by simp [Exchange.Refused]) (by simp [Exchange.TimedOut])
        · refine (ensures_registering_user ⟨.ofPrincipal id p l.broker, p, t⟩).mono ?_
          rintro trace r k' ⟨hr, htrace⟩
          show Registered l t k (_ :: (trace ++ [])) (r.map _) k'
          rw [List.append_nil]
          refine .registering (fun _ => .endUserActive) hknown ?_ ?_
            (hr.cons ⟨rfl, rfl, rfl⟩ (fun e => e) fun e => e)
          · simp [Exchange.Refused, not_refused_of_ne htrace]
          · rintro a ⟨hsession, huser, hconnection⟩
            exact ⟨id, token, p, hid, hclass, htoken, by simp [Exchange.Identified], hsession,
              huser, hconnection⟩
      | groupSecret =>
        obtain ⟨group, hgroup⟩ := group_of_groupSecret hclass
        simp only [Program.ensures_bind, l.registerGroup_eq, hgroup]
        refine (ensures_registering_group ⟨⟨id, group, l.broker⟩, t⟩).mono ?_
        rintro trace r k' ⟨hr, htrace⟩
        show Registered l t k (trace ++ []) (r.map _) k'
        rw [List.append_nil]
        refine .registering (fun _ => .groupActive) hknown (not_refused_of_ne htrace) ?_ hr
        rintro a ⟨hsession, hholds⟩
        exact ⟨id, group, hid, hclass, hgroup, htrace, hsession, hholds⟩

/-- A request that closes nothing. -/
abbrev ClosesNothing (r : Request) : Prop := ∀ t, r ≠ .close t

theorem only_closesNothing (t : Transport) : (l.register t).Only ClosesNothing := by
  refine (l.orderly_register t).only ?_
  rintro place r ⟨id, kind, -, -, hasks⟩ t rfl
  cases hasks with
  | work work => exact work

theorem closed_of_closesNothing {trace : List (Exchange Node.interface Cluster)}
    (h : ∀ x ∈ trace, ClosesNothing x.request) : trace.filterMap Exchange.closed? = [] := by
  rw [List.filterMap_eq_nil_iff]
  intro x hx
  rw [Exchange.closed?]
  split
  · next t hr => exact absurd hr (h x hx t)
  · rfl

/-- Where a connection ends up, and what that tells. -/
structure Opened (l : Lifecycle) (t : Transport) (k : Cluster)
    (trace : List (Exchange Node.interface Cluster)) (s : ConnectionState) (k' : Cluster) :
    Prop where
  /-- An active connection is registered in the directory and in the cache. -/
  active : s = .endUserActive ∨ s = .groupActive → Active l t trace k' s
  /-- It is left unregistered exactly if the lock was not had in time. -/
  unregistered : s = .unregistered ↔ Happened Exchange.TimedOut trace
  untouched : s = .unregistered → Alike k k'
  closed : s = .closed ↔ t.id? = none ∨ t.attributes.classify = none ∨
    Happened Exchange.Refused trace ∨ Happened Exchange.StoreFailed trace
  /-- It is closed once if it ends up closed, and else never. -/
  closes : trace.filterMap Exchange.closed? = if s = .closed then [t] else []
  /-- It ends up closed exactly if it was not registered and the error closes connections. -/
  policy : ∃ registration r k₁, (l.register t).Runs (AnswersLater l.broker true) k registration
      r k₁ ∧ registration <+: trace ∧
    (s = .closed ↔ ∃ err, r = .error err ∧ err.kind.closesConnection = true)

/-- A registration that ended with an error that closes the connection. -/
theorem opened_of_error {t : Transport} {registration rest : List (Exchange Node.interface Cluster)}
    {err : OpenError} {s : ConnectionState} {k₁ : Cluster}
    (hreg : (l.register t).Runs (AnswersLater l.broker true) k registration (.error err) k₁)
    (hkind : err.kind.closesConnection = true)
    (hcause : t.id? = none ∨ t.attributes.classify = none ∨
      Happened Exchange.Refused registration ∨ Happened Exchange.StoreFailed registration)
    (hlate : ¬ Happened Exchange.TimedOut registration)
    (hrest : Program.Runs (AnswersLater l.broker true) (.ask (.measure (.rejected err.kind) 1)
      fun _ => .ask (.close t) fun _ => .done .closed) k₁ rest s k') :
    Opened l t k (registration ++ rest) s k' := by
  have hcloses := closed_of_closesNothing ((only_closesNothing t).of_mem hreg)
  cases hrest with
  | ask hmeasure hrest =>
    cases hrest with
    | ask hclose hrest =>
      cases hrest
      refine ⟨by simp, ?_, by simp, ?_, ?_, registration, _, k₁, hreg, List.prefix_append _ _, ?_⟩
      · simp [hlate, Exchange.TimedOut]
      · simp only [happened_append, true_iff]
        rcases hcause with h | h | h | h
        · exact .inl h
        · exact .inr (.inl h)
        · exact .inr (.inr (.inl (.inl h)))
        · exact .inr (.inr (.inr (.inl h)))
      · rw [List.filterMap_append, hcloses]
        rfl
      · exact ⟨fun _ => ⟨err, rfl, hkind⟩, fun _ => rfl⟩

/-- A request that is not bound to wait for a lock. -/
abbrev Patient (r : Request) : Prop := ∀ kind, r ≠ .acquire kind none

theorem only_patient (l : Lifecycle) (t : Transport) : (l.onOpen t).Only Patient := by
  refine (l.orderly_onOpen t).only ?_
  rintro place r hasks kind rfl
  cases hasks with
  | register own described asks =>
    cases asks with
    | work work => exact work
  | report idle => exact idle

theorem exists_answer {r : Request} (k : Cluster) (hr : Patient r) :
    ∃ x k', AnswersLater b true r k x k' := by
  cases r with
  | cache r =>
    cases r with
    | store command =>
      exact ⟨.error .redis, k, k.now, Duration.le_refl _, rfl, .inr ⟨rfl, rfl, .redis, rfl⟩⟩
    | _ => exact ⟨_, _, k.now, Duration.le_refl _, rfl⟩
  | identify credential => exact ⟨.ok default, k, k.now, Duration.le_refl _, rfl⟩
  | acquire kind patience =>
    cases patience with
    | none => exact absurd rfl (hr kind)
    | some d => exact ⟨false, k, k.now, Duration.le_refl _, .inr ⟨rfl, rfl, rfl⟩⟩
  | _ => exact ⟨_, _, k.now, Duration.le_refl _, rfl⟩

/-- From any state and whatever is answered, opening a connection comes to an end, and where the
connection then stands tells what has happened. -/
theorem onOpen_outcome (l : Lifecycle) (t : Transport) (k : Cluster) :
    (∃ trace s k', (l.onOpen t).Runs (AnswersLater l.broker true) k trace s k') ∧
      ∀ trace s k', (l.onOpen t).Runs (AnswersLater l.broker true) k trace s k' →
        Opened l t k trace s k' := by
  refine ⟨(l.only_patient t).exists_runs (fun r k => exists_answer k) k, ?_⟩
  intro trace s k' hrun
  rw [l.onOpen_eq] at hrun
  obtain ⟨registration, r, k₁, rest, rfl, hreg, hrest⟩ := hrun.of_bind
  have hcloses := closed_of_closesNothing ((only_closesNothing t).of_mem hreg)
  cases hreg.of_ensures (ensures_register t) with
  | unplaced noId => exact opened_of_error hreg rfl (.inl noId) (by simp) hrest
  | unclassified noKind => exact opened_of_error hreg rfl (.inr (.inl noKind)) (by simp) hrest
  | refused err refused inTime =>
    exact opened_of_error hreg rfl (.inr (.inr (.inl refused))) inTime hrest
  | registering state known accepted active registering =>
    obtain ⟨hid, hclass⟩ := known
    rw [Option.isSome_iff_ne_none] at hid hclass
    cases registering with
    | failed err failed inTime =>
      exact opened_of_error hreg rfl (.inr (.inr (.inr failed))) inTime hrest
    | enrolled a sound inTime good =>
      have hactive := active a good
      cases hrest
      rw [List.append_nil]
      have hunregistered : state a ≠ .unregistered := by
        intro h
        rw [h] at hactive
        exact hactive
      have hclosed : state a ≠ .closed := by
        intro h
        rw [h] at hactive
        exact hactive
      refine ⟨fun _ => hactive, ?_, fun h => absurd h hunregistered, ?_, ?_,
        registration, _, _, hreg, List.prefix_rfl, ?_⟩
      · simp [hunregistered, inTime]
      · simp [hclosed, hid, hclass, accepted, sound]
      · rw [hcloses, if_neg hclosed]
      · refine ⟨fun h => absurd h hclosed, ?_⟩
        rintro ⟨err, ⟨⟩, -⟩
    | late sound late alike =>
      cases hrest with
      | ask hlog hrest =>
        cases hrest
        refine ⟨by simp, by simp [late], fun _ => alike.trans (alike_of_idle hlog trivial), ?_, ?_,
          registration, _, _, hreg, List.prefix_append _ _, ?_⟩
        · simp [hid, hclass, accepted, sound, Exchange.Refused, Exchange.StoreFailed]
        · rw [List.filterMap_append, hcloses]
          rfl
        · refine ⟨nofun, ?_⟩
          rintro ⟨err, ⟨⟩, hkind⟩
          cases hkind

theorem visitor_opened :
    ∃ trace k', (porter.onOpen visitor).Runs (AnswersLater porter.broker true) doorstep trace
        .endUserActive k' ∧
      Opened porter visitor doorstep trace .endUserActive k' := by
  have hstore : Node.Behaves true doorstep.store := ⟨rfl, rfl, nofun⟩
  have hgoes : Node.goesThrough porter.broker (porter.onOpen visitor) doorstep = true := rfl
  obtain ⟨trace, hrun⟩ := Node.runs_perform porter.broker hgoes hstore
  have hactive : ((porter.onOpen visitor).run (Cluster.perform porter.broker) doorstep).1 =
    .endUserActive := rfl
  rw [hactive] at hrun
  have hlater := hrun.mono fun _ _ _ _ h => h.later
  exact ⟨trace, _, hlater, (onOpen_outcome porter visitor doorstep).2 trace _ _ hlater⟩

end Lifecycle

end SessionGateway
