import SessionGateway.Proofs.Dispatch.Turns
import SessionGateway.Proofs.Gateway.Admission
import SessionGateway.Proofs.Lifecycle.Opening

/-!
# Group connections and the identity service

A group's connection carries no credential, so nothing on it asks the identity service: neither its
opening nor any frame that comes on it, and processors that need a principal are called without one.
A token that is there but empty makes a connection a group's all the same, and is asked for once for
each processor that needs a principal. No handshake leaves such a token behind.
-/

namespace SessionGateway

open Lifecycle (AsksNobody)
open Node (Request Turn)

/-! ### Credentials of group connections -/

/-- A group's connection has no token, or an empty one. -/
theorem Attributes.token?_of_groupSecret {a : Attributes} (h : a.classify = some .groupSecret) :
    a.token? = none ∨ a.token? = some "" := by
  rw [classify] at h
  split at h
  · cases h
  · next hgiven =>
    cases htoken : a.token? with
    | none => exact .inl rfl
    | some token => simpa [htoken, isGiven] using hgiven

theorem Handshake.token?_attributes_ne (h : Handshake) : h.attributes.token? ≠ some "" := by
  have hcopied : ∀ a : Attributes,
      (h.copy (h.copy a Attributes.secretKey) Attributes.groupKey).token? = a.token? := by
    intro a
    rw [Attributes.token?, get?_copy, if_neg (by decide), get?_copy, if_neg (by decide)]
    rfl
  rw [attributes, hcopied]
  split
  · next token htoken =>
    have hgiven : token ≠ "" := by simpa using (Option.filter_eq_some_iff.mp htoken).2
    rwa [Attributes.token?, Attributes.get?_insert, if_pos rfl, Ne, Option.some.injEq]
  · intro hempty
    cases hempty

theorem Lifecycle.only_onOpen_group (l : Lifecycle) {t : Transport}
    (hkind : t.attributes.classify = some .groupSecret) : (l.onOpen t).Only AsksNobody := by
  refine (l.orderly_onOpen t).only ?_
  rintro place r hasks credential rfl
  cases hasks with
  | register own described asks =>
    obtain rfl := Option.some.inj (hkind.symm.trans described)
    cases asks with
    | work work => exact work
  | report idle => exact idle

namespace Dispatch

variable {d : Dispatch} {id : ConnectionId} {a : Attributes} {f : Frame} {σ : Type}

/-! ### One frame -/

def Consulted.isIdentity : Consulted → Bool
  | .identity .. => true
  | .processor .. => false

theorem Service.Fits.count_identity {s : Service} (h : s.Fits a) {credential : String}
    (htoken : a.token? = some credential) :
    (s.consulted d id a f).countP Consulted.isIdentity =
      if s.processor.needsPrincipal then 1 else 0 := by
  rcases s with ⟨p, token, e⟩ | ⟨p, resolved, turn⟩
  · rw [processor, if_pos h.1]
    rfl
  · have hfits : resolved.map Prod.fst = if p.needsPrincipal then a.token? else none := h
    rw [htoken] at hfits
    cases resolved with
    | none =>
      have hneeds : p.needsPrincipal = false := by simpa using hfits
      rw [processor, hneeds]
      rfl
    | some resolved =>
      have hneeds : p.needsPrincipal = true := by
        by_contra hnot
        simp [hnot] at hfits
      rw [processor, if_pos hneeds]
      rfl

/-- A credential, an empty one included, is asked for once for each processor that needs a
principal. -/
theorem Serves.count_identity {ps : List Processor} {services : List Service}
    {trace : List (Exchange Node.interface σ)} {report : DispatchReport}
    (h : Serves d id a f ps services trace report) {credential : String}
    (htoken : a.token? = some credential) :
    (trace.filterMap consulted?).countP Consulted.isIdentity = ps.countP (·.needsPrincipal) := by
  rw [h.consulted, ← h.turns, List.countP_map]
  have hfits := h.fits
  clear h
  induction services with
  | nil => rfl
  | cons s rest ih =>
    rw [List.flatMap_cons, List.countP_append, List.countP_cons,
      (hfits s List.mem_cons_self).count_identity htoken,
      ih fun s hs => hfits s (List.mem_cons_of_mem _ hs)]
    exact Nat.add_comm _ _

/-- A processor's turn that went without a principal. -/
def Service.IsUnnamed (s : Service) : Prop := ∃ turn, s = .called s.processor none turn

theorem Service.Fits.isUnnamed {s : Service} (h : s.Fits a) (htoken : a.token? = none) :
    s.IsUnnamed := by
  rcases s with ⟨p, token, e⟩ | ⟨p, - | resolved, turn⟩
  · exact absurd (htoken.symm.trans h.2) nofun
  · exact ⟨turn, rfl⟩
  · simp [Fits, htoken] at h

theorem Service.IsUnnamed.failure?_ne {s : Service} (h : s.IsUnnamed) (name : String)
    (e : Identity.Error) : s.failure? d ≠ some (.unauthenticated name e) := by
  obtain ⟨⟨⟨_ | _⟩ | _, elapsed⟩, hs⟩ := h <;> rw [hs] <;> simp [failure?]

/-! ### One frame after another -/

/-- A frame that came, the processors that were registered then, and what came of it. -/
structure Reception where
  arrival : Arrival
  registry : Registry
  trace : List (Exchange Node.interface Registry)
  report : DispatchReport

/-- Frames of a connection are dispatched one after another, while the registry of the node may
change at any time. -/
inductive Receives (d : Dispatch) (id : ConnectionId) (a : Attributes) :
    Registry → List Reception → Registry → Prop
  | done (r : Registry) : Receives d id a r [] r
  | changed {r r₁ r' : Registry} {xs : List Reception} (rest : Receives d id a r₁ xs r') :
      Receives d id a r xs r'
  | frame {r r₁ r' : Registry} {m : Arrival} {trace : List (Exchange Node.interface Registry)}
      {report : DispatchReport} {xs : List Reception}
      (dispatched : (m.dispatch d id a).Runs Answers r trace report r₁)
      (rest : Receives d id a r₁ xs r') : Receives d id a r (⟨m, r, trace, report⟩ :: xs) r'

/-- The identity service was not asked, and every processor that was registered when the frame came
was called without a principal. -/
structure Reception.IsUnnamed (d : Dispatch) (id : ConnectionId) (a : Attributes)
    (x : Reception) : Prop where
  asksNobody : ∀ y ∈ x.trace, AsksNobody y.request
  served : ∀ f, x.arrival.frame? d = some f → ∃ services,
    Serves d id a f x.registry.snapshot services x.trace x.report ∧
      ∀ s ∈ services, s.IsUnnamed
  authenticated : ∀ name e, DispatchError.unauthenticated name e ∉ x.report.failures

theorem serves_of_runs {m : Arrival} (hf : m.frame? d = some f) {r r' : Registry}
    {trace : List (Exchange Node.interface Registry)} {report : DispatchReport}
    (h : (m.dispatch d id a).Runs Answers r trace report r') :
    ∃ services, Serves d id a f r.snapshot services trace report := by
  obtain ⟨meter, hm⟩ := dispatch_eq id a hf
  rw [hm] at h
  refine h.of_ensures (Q := fun trace report _ =>
    ∃ services, Serves d id a f r.snapshot services trace report) ?_
  rintro ⟨⟩ r₁ ⟨⟩ ps r₂ ⟨rfl, rfl⟩
  refine (ensures_fanOut _).mono ?_
  rintro trace report r' ⟨services, h⟩
  exact ⟨services, h.turns, h.fits, h.consulted, h.heartbeat, h.delivered, h.failures⟩

/-- A heartbeat fails nothing, and an undecodable text fails before any processor has a turn. -/
theorem ends_dispatch {m : Arrival} (hf : m.frame? d = none) :
    (m.dispatch d id a).Ends fun report =>
      report.failures = [] ∨ report.failures = [.undecodable] := by
  cases m with
  | binary payload => cases hf
  | text s =>
    rw [Arrival.frame?] at hf
    rw [Arrival.dispatch, onText]
    split at hf
    · next hs =>
      rw [if_pos hs]
      exact fun _ => .inl rfl
    · next hs =>
      rw [if_neg hs, Option.map_eq_none_iff.mp hf]
      exact fun _ _ _ => .inr rfl

theorem isUnnamed_of_runs (htoken : a.token? = none) {m : Arrival} {r r' : Registry}
    {trace : List (Exchange Node.interface Registry)} {report : DispatchReport}
    (h : (m.dispatch d id a).Runs Answers r trace report r') :
    Reception.IsUnnamed d id a ⟨m, r, trace, report⟩ := by
  have hasks : ∀ y ∈ trace, AsksNobody y.request := by
    rintro y hy credential hcredential
    have hown := (only_dispatch m).of_mem h y hy
    rw [hcredential] at hown
    exact absurd (htoken.symm.trans hown) nofun
  have hserved : ∀ f, m.frame? d = some f → ∃ services,
      Serves d id a f r.snapshot services trace report ∧ ∀ s ∈ services, s.IsUnnamed := by
    intro f hf
    obtain ⟨services, hserves⟩ := serves_of_runs hf h
    exact ⟨services, hserves, fun s hs => (hserves.fits s hs).isUnnamed htoken⟩
  refine ⟨hasks, hserved, ?_⟩
  intro name e he
  cases hf : m.frame? d with
  | none => rcases h.of_ends (ends_dispatch hf) with hnone | hone <;> simp_all
  | some f =>
    obtain ⟨services, hserves, hunnamed⟩ := hserved f hf
    rw [hserves.failures] at he
    obtain ⟨s, hs, hfailure⟩ := List.mem_filterMap.mp he
    exact (hunnamed s hs).failure?_ne name e hfailure

/-- Every frame of a connection without a credential is served without one. -/
theorem Receives.isUnnamed (htoken : a.token? = none) {r r' : Registry} {xs : List Reception}
    (h : Receives d id a r xs r') : ∀ x ∈ xs, x.IsUnnamed d id a := by
  induction h with
  | done r => exact fun x hx => nomatch hx
  | changed rest ih => exact ih
  | frame dispatched rest ih =>
    exact List.forall_mem_cons.mpr ⟨isUnnamed_of_runs htoken dispatched, ih⟩

/-- Nothing on a group's connection asks the identity service, however it opens and whatever comes
on it, and each processor is called without a principal; an empty token is excluded. -/
theorem group_asks_nobody (l : Lifecycle) (d : Dispatch) (id : ConnectionId) {t : Transport}
    (hkind : t.attributes.classify = some .groupSecret) (htoken : t.attributes.token? ≠ some "") :
    (l.onOpen t).Only AsksNobody ∧
    ∀ r xs r', Receives d id t.attributes r xs r' →
      ∀ x ∈ xs, x.IsUnnamed d id t.attributes := by
  have hnone : t.attributes.token? = none :=
    (Attributes.token?_of_groupSecret hkind).resolve_right htoken
  exact ⟨l.only_onOpen_group hkind, fun r xs r' h => h.isUnnamed hnone⟩

/-- A connection of a group, with attributes that an upgrade request may bring. -/
def member : Transport := ⟨0, some (⟨"c"⟩, 0), .ofList [("secretKey", "s"), ("group", "g")]⟩

/-- The processors of `crowd` on a frame of `member`: only one fails, and not for want of a
principal. -/
theorem member_asks_nobody : ∃ trace report r',
    Receives ⟨"hb", .ofSeconds 1⟩ ⟨"c"⟩ member.attributes crowd
      [⟨.binary [0], crowd, trace, report⟩] r' ∧
    report.delivered = 3 ∧ report.failures = [.processor "heckler" (.failed "no")] ∧
    member.attributes.classify = some .groupSecret ∧ member.attributes.token? ≠ some "" ∧
    (Lifecycle.porter.onOpen member).Only AsksNobody ∧
    Reception.IsUnnamed ⟨"hb", .ofSeconds 1⟩ ⟨"c"⟩ member.attributes
      ⟨.binary [0], crowd, trace, report⟩ := by
  obtain ⟨trace, hrun⟩ := Program.runs_run (A := Answers) (fun c => Cluster.registry c ⟨"b"⟩)
    (answers_perform ⟨"b"⟩) ((Arrival.binary [0]).dispatch ⟨"hb", .ofSeconds 1⟩ ⟨"c"⟩
      member.attributes) (Cluster.empty.setRegistry ⟨"b"⟩ crowd)
  rw [Cluster.registry_setRegistry] at hrun
  have hkind : member.attributes.classify = some .groupSecret := by decide +kernel
  have htoken : member.attributes.token? ≠ some "" := by decide +kernel
  obtain ⟨hopen, hframes⟩ :=
    group_asks_nobody Lifecycle.porter ⟨"hb", .ofSeconds 1⟩ ⟨"c"⟩ hkind htoken
  have hreceived := Receives.frame hrun (.done _)
  refine ⟨trace, _, _, hreceived, ?_, ?_, hkind, htoken, hopen,
    hframes _ _ _ hreceived _ List.mem_cons_self⟩
  · decide +kernel
  · decide +kernel

/-- With an empty token beside them, the attributes of `member` are a group's still, and the
processor of `crowd` that needs a principal is not called. -/
theorem empty_token_is_refused :
    (member.attributes.insert "token" "").classify = some .groupSecret ∧
    ∃ trace report r',
      ((Arrival.binary [0]).dispatch ⟨"hb", .ofSeconds 1⟩ ⟨"c"⟩
        (member.attributes.insert "token" "")).Runs Answers crowd trace report r' ∧
      .unauthenticated "clerk" (.rejected 401 "invalid_token") ∈ report.failures ∧
      (trace.filterMap consulted?).countP Consulted.isIdentity = 1 := by
  obtain ⟨trace, hrun⟩ := Program.runs_run (A := Answers) (fun c => Cluster.registry c ⟨"b"⟩)
    (answers_perform ⟨"b"⟩) ((Arrival.binary [0]).dispatch ⟨"hb", .ofSeconds 1⟩ ⟨"c"⟩
      (member.attributes.insert "token" "")) (Cluster.empty.setRegistry ⟨"b"⟩ crowd)
  rw [Cluster.registry_setRegistry] at hrun
  obtain ⟨services, hserves⟩ := serves_of_runs (f := .binary [0]) rfl hrun
  have htoken : (member.attributes.insert "token" "").token? = some "" := by decide +kernel
  refine ⟨by decide +kernel, trace, _, _, hrun, ?_, ?_⟩
  · decide +kernel
  · rw [hserves.count_identity htoken]
    decide +kernel

end Dispatch

end SessionGateway
