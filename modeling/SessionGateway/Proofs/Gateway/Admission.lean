import SessionGateway.Proofs.Gateway.Sessions
import SessionGateway.Proofs.Handshake
import SessionGateway.Proofs.Lifecycle.Steps

/-!
# Who is let in

With a shared secret configured, a session that stands for a group comes from a request that named
this secret and a group. A request that names another secret is refused before anything is begun.
One that names none is let through to be classified, and so is one with the secret and an empty
group; neither is ever classified as a group's.
-/

namespace SessionGateway

open Program (Surroundings)

/-! ### Attributes of a request -/

namespace Attributes

/-- A group's connection names a secret and a group, neither of them empty. -/
theorem given_of_groupSecret {a : Attributes} (h : a.classify = some .groupSecret) :
    (∃ secret, a.secret? = some secret ∧ secret ≠ "") ∧
      ∃ group, a.group? = some group ∧ group ≠ "" := by
  rw [classify] at h
  split at h
  · cases h
  · split at h
    · next hgiven =>
      rw [Bool.and_eq_true, isGiven_iff, isGiven_iff] at hgiven
      exact hgiven
    · cases h

end Attributes

namespace Handshake

theorem isForged_iff {secret : String} {a : Attributes} :
    isForged (some secret) a = true ↔ ∃ given, a.secret? = some given ∧ given ≠ secret := by
  unfold isForged
  cases a.secret? with
  | none => simp
  | some given => simp [Ne, eq_comm (a := secret)]

theorem genuine_iff {h : Handshake} {secret : String} :
    isForged (some secret) h.attributes = false ↔
      ∀ given, h.query.get? "secretKey" = some given → given = secret := by
  rw [← Bool.not_eq_true, isForged_iff, secret?_attributes]
  simp only [not_exists, not_and, ne_eq, Decidable.not_not]
  rfl

/-- The parameters of a request name a secret, and a group that is not empty. -/
def NamesGroup (h : Handshake) (secret : String) : Prop :=
  h.query.get? "secretKey" = some secret ∧
    ∃ group, h.query.get? "group" = some group ∧ group ≠ ""

/-- The two checks leave no gap: the one that compares secrets lets a missing one pass, and the one
that classifies asks for a secret, whichever it is. -/
theorem namesGroup_of_groupSecret {h : Handshake} {secret : String}
    (hgenuine : isForged (some secret) h.attributes = false)
    (hgroup : h.attributes.classify = some .groupSecret) : h.NamesGroup secret := by
  obtain ⟨⟨given, hgiven, -⟩, group, hnamed, hne⟩ := Attributes.given_of_groupSecret hgroup
  rw [secret?_attributes] at hgiven
  rw [group?_attributes] at hnamed
  obtain rfl := genuine_iff.mp hgenuine given hgiven
  exact ⟨hgiven, group, hnamed, hne⟩

end Handshake

/-! ### Opening -/

/-- The kind of the registration that brings a connection where it stands. -/
def ConnectionState.kind? : ConnectionState → Option ConnectionKind
  | .endUserActive => some .endUser
  | .groupActive => some .groupSecret
  | .unregistered | .closed => none

/-- A connection is registered under no other kind than its attributes describe. -/
def ConnectionState.Suits (a : Attributes) (s : ConnectionState) : Prop :=
  ∀ kind, s.kind? = some kind → a.classify = some kind

namespace Lifecycle

theorem register_ends (l : Lifecycle) (t : Transport) :
    (l.register t).Ends fun r => ∀ s, r = .ok s → s.Suits t.attributes := by
  have hmapped : ∀ {α : Type} (p : NodeProgram (Except OpenError α)) (s : ConnectionState),
      s.Suits t.attributes →
      (p.bind fun r => .done (r.map fun _ => s)).Ends fun r =>
        ∀ s, r = .ok s → s.Suits t.attributes := by
    intro α p s hs
    rw [Program.ends_bind]
    apply Program.ends_of_forall
    rintro (e | a) s' hs'
    · cases hs'
    · cases hs'
      exact hs
  rw [l.register_eq]
  cases t.id? with
  | none => exact fun s hs => nomatch hs
  | some id =>
    dsimp only
    cases hkind : t.attributes.classify with
    | none => exact fun s hs => nomatch hs
    | some kind =>
      cases kind with
      | endUser =>
        apply hmapped
        rintro kind ⟨⟩
        exact hkind
      | groupSecret =>
        apply hmapped
        rintro kind ⟨⟩
        exact hkind

theorem onOpen_ends (l : Lifecycle) (t : Transport) :
    (l.onOpen t).Ends (ConnectionState.Suits t.attributes) := by
  rw [l.onOpen_eq, Program.ends_bind]
  refine (l.register_ends t).mono ?_
  rintro (e | s) hr
  · cases e with
    | lockTimeout d =>
      exact Program.ends_bind.mpr (Program.ends_of_forall (fun _ kind hkind => nomatch hkind) _)
    | _ => exact fun _ _ kind hkind => nomatch hkind
  · exact hr s rfl

end Lifecycle

theorem Session.enter_ends (s : Session) (l : Lifecycle) :
    (s.enter l).Ends (ConnectionState.Suits s.attributes) :=
  fun _ _ => l.onOpen_ends s.transport

/-! ### Upgrades -/

theorem Route.genuine_of_switching {config : ServerConfig} {target : String} {a : Attributes}
    (h : replyToUpgrade config target a = .switching) :
    Handshake.isForged config.secretKey a = false := by
  have hplain : reply config "GET" target ≠ .switching := by
    unfold reply
    rw [if_neg (by decide)]
    cases of? config target with
    | none => exact nofun
    | some r => cases r <;> exact nofun
  unfold replyToUpgrade at h
  split at h
  · split at h
    · cases h
    · next hgenuine => exact eq_false_of_ne_true hgenuine
  · exact absurd h hplain

namespace Gateway

theorem accept_tasks (g : Gateway) (client : String) (a : Attributes) :
    ∃ ch, (g.accept client a).tasks = g.tasks ++ [.channel ch] ∧ ch.session.number = g.made ∧
      ch.session.attributes = a ∧
      ch.phase = .opening (.new g.broker (ch.session.enter g.lifecycle)) :=
  ⟨_, rfl, rfl, rfl, rfl⟩

/-- An upgrade starts a session for a request that is not forged, or only takes note of it. -/
theorem upgrade_cases (g : Gateway) (client target : String) (h : Handshake) :
    ((g.upgrade client target h).1 = .switching ∧
        Handshake.isForged g.config.secretKey h.attributes = false ∧
        (g.upgrade client target h).2 = g.accept client h.attributes) ∨
      ((g.upgrade client target h).1 ≠ .switching ∧
        ∃ c, (g.upgrade client target h).2 = { g with cluster := c }) := by
  rw [upgrade]
  cases hreply : Route.replyToUpgrade g.config target h.attributes with
  | switching => exact .inl ⟨rfl, Route.genuine_of_switching hreply, rfl⟩
  | _ => exact .inr ⟨nofun, _, rfl⟩

/-- Nothing comes of a request: no session, no question to the identity service, and no change to
a directory or to the store. -/
structure Unmoved (g g' : Gateway) : Prop where
  tasks : g'.tasks = g.tasks
  made : g'.made = g.made
  identifications : g'.cluster.identifications = g.cluster.identifications
  sites : g'.cluster.sites = g.cluster.sites
  store : g'.cluster.store = g.cluster.store
  connections : g'.cluster.connections = g.cluster.connections

section Requests

variable {g : Gateway} {secret target : String} {h : Handshake}

theorem unmoved_of_forged (hsecret : g.config.secretKey = some secret)
    (hroute : Route.of? g.config target = some .upgrade) {given : String}
    (hgiven : h.query.get? "secretKey" = some given) (hne : given ≠ secret) (client : String) :
    (g.upgrade client target h).1.status = 401 ∧ g.Unmoved (g.upgrade client target h).2 := by
  have hforged : Handshake.isForged (some secret) h.attributes = true :=
    Handshake.isForged_iff.mpr ⟨given, h.secret?_attributes.trans hgiven, hne⟩
  have hreply : Route.replyToUpgrade g.config target h.attributes = .unauthorized := by
    simp [Route.replyToUpgrade, hroute, hsecret, hforged]
  rw [upgrade, hreply]
  exact ⟨rfl, rfl, rfl, rfl, rfl, rfl, rfl⟩

theorem upgrade_of_genuine (hsecret : g.config.secretKey = some secret)
    (hroute : Route.of? g.config target = some .upgrade)
    (hgiven : ∀ given, h.query.get? "secretKey" = some given → given = secret) (client : String) :
    g.upgrade client target h = (.switching, g.accept client h.attributes) := by
  have hgenuine := Handshake.genuine_iff.mpr hgiven
  have hreply : Route.replyToUpgrade g.config target h.attributes = .switching := by
    simp [Route.replyToUpgrade, hroute, hsecret, hgenuine]
  rw [upgrade, hreply]

end Requests

/-! ### Sessions under way -/

/-- A session was started for a request that is not forged, and stands in no way that its
attributes do not describe. -/
structure Admitted (config : ServerConfig) (accepted : List Handshake) (ch : Channel) : Prop where
  request : ∃ h, accepted[ch.session.number]? = some h ∧ ch.session.attributes = h.attributes ∧
    Handshake.isForged config.secretKey h.attributes = false
  suits : ch.phase.Leads (ConnectionState.Suits ch.session.attributes)

theorem Admitted.follows {config : ServerConfig} {accepted : List Handshake} {ch ch' : Channel}
    (h : Admitted config accepted ch) (hfollows : Channel.Follows ch ch') :
    Admitted config accepted ch' := by
  refine ⟨?_, ?_⟩
  · rw [hfollows.session]
    exact h.request
  · rw [hfollows.session]
    exact hfollows.leads _ h.suits

theorem Admitted.append {config : ServerConfig} {accepted : List Handshake} {ch : Channel}
    (h : Admitted config accepted ch) (more : List Handshake) :
    Admitted config (accepted ++ more) ch := by
  obtain ⟨request, hrequest, hsame⟩ := h.request
  obtain ⟨hlt, hget⟩ := List.getElem?_eq_some_iff.mp hrequest
  refine ⟨⟨request, ?_, hsame⟩, h.suits⟩
  rw [List.getElem?_append_left hlt]
  exact hrequest

/-- Every session of a gateway was admitted, and the next one gets the next number. -/
structure Guarded (c : ServerConfig) (accepted : List Handshake) (g : Gateway) : Prop where
  config : g.config = c
  made : g.made = accepted.length
  channels : ∀ ch, .channel ch ∈ g.tasks → Admitted c accepted ch

theorem Guarded.upgrade {config : ServerConfig} {accepted : List Handshake} {g : Gateway}
    (hg : Guarded config accepted g) (client target : String) (h : Handshake) :
    Guarded config
      (accepted ++ if (g.upgrade client target h).1 = .switching then [h] else [])
      (g.upgrade client target h).2 := by
  rcases g.upgrade_cases client target h with ⟨hreply, hgenuine, hnext⟩ | ⟨hreply, c, hnext⟩
  · rw [if_pos hreply, hnext]
    refine ⟨hg.config, ?_, ?_⟩
    · rw [List.length_append, List.length_singleton, ← hg.made]
      rfl
    · intro ch hch
      obtain ⟨new, htasks, hnumber, hattributes, hphase⟩ := g.accept_tasks client h.attributes
      rw [htasks] at hch
      rcases List.mem_append.mp hch with hold | hnew
      · exact (hg.channels ch hold).append [h]
      · cases List.mem_singleton.mp hnew
        refine ⟨⟨h, ?_, hattributes, ?_⟩, ?_⟩
        · rw [hnumber, hg.made, List.getElem?_append_right (Nat.le_refl _), Nat.sub_self]
          rfl
        · rw [← hg.config]
          exact hgenuine
        · rw [hphase]
          exact ch.session.enter_ends g.lifecycle
  · rw [if_neg hreply, List.append_nil, hnext]
    exact ⟨hg.config, hg.made, hg.channels⟩

theorem Reached.guarded {config : ServerConfig} {accepted : List Handshake} {g : Gateway}
    (hg : Reached config accepted g) : Guarded config accepted g := by
  induction hg with
  | new broker cache cluster => exact ⟨rfl, rfl, fun _ h => absurd h List.not_mem_nil⟩
  | upgrade client target h _ ih => exact ih.upgrade client target h
  | move _ hmove ih =>
    have hadvances := hmove.advances
    refine ⟨hadvances.config.trans ih.config, hadvances.made.trans ih.made, ?_⟩
    intro ch' hch'
    obtain ⟨ch, hch, hfollows⟩ := hadvances.channels ch' hch'
    exact (ih.channels ch hch).follows hfollows

/-- With a shared secret, a session that stands for a group is one of a request that named this
secret and a group. A request to upgrade that names another secret is refused and nothing comes of
it. Any other starts a session, which stands for a group only if the request named the secret and a
group, whatever the identity service and the store answer. -/
theorem groups_share_secret {config : ServerConfig} {secret : String}
    (hsecret : config.secretKey = some secret) {accepted : List Handshake} {g : Gateway}
    (hg : Reached config accepted g) :
    (∀ ch ∈ g.channels, ∃ h, accepted[ch.session.number]? = some h ∧
        ch.session.attributes = h.attributes ∧
        (ch.state? = some .groupActive → h.NamesGroup secret)) ∧
      ∀ (client target : String) (h : Handshake), Route.of? config target = some .upgrade →
        (∀ given, h.query.get? "secretKey" = some given → given ≠ secret →
          (g.upgrade client target h).1.status = 401 ∧
            g.Unmoved (g.upgrade client target h).2) ∧
        ((∀ given, h.query.get? "secretKey" = some given → given = secret) →
          ∃ ch, (g.upgrade client target h).1 = .switching ∧
            (g.upgrade client target h).2.tasks = g.tasks ++ [.channel ch] ∧
            ch.session.attributes = h.attributes ∧
            ∀ (l : Lifecycle) {σ : Type} (A : Surroundings Node.interface σ) (before after : σ)
              (trace : List (Exchange Node.interface σ)),
              (ch.session.enter l).Runs A before trace .groupActive after →
                h.NamesGroup secret) := by
  have hguarded := hg.guarded
  have hconfig := hguarded.config
  subst hconfig
  refine ⟨?_, fun client target h hroute => ⟨?_, ?_⟩⟩
  · intro ch hch
    have hadmitted := hguarded.channels ch (mem_channels.mp hch)
    obtain ⟨h, hrequest, hsame, hgenuine⟩ := hadmitted.request
    refine ⟨h, hrequest, hsame, ?_⟩
    intro hactive
    have hkind := hadmitted.suits.of_state? hactive _ rfl
    rw [hsecret] at hgenuine
    rw [hsame] at hkind
    exact Handshake.namesGroup_of_groupSecret hgenuine hkind
  · intro given hgiven hne
    exact unmoved_of_forged hsecret hroute hgiven hne client
  · intro hgiven
    have hupgrade := upgrade_of_genuine hsecret hroute hgiven client
    obtain ⟨ch, htasks, -, hattributes, -⟩ := g.accept_tasks client h.attributes
    rw [hupgrade]
    refine ⟨ch, rfl, htasks, hattributes, ?_⟩
    intro l σ A before after trace hrun
    have hkind := hrun.of_ends (ch.session.enter_ends l) _ rfl
    rw [hattributes] at hkind
    exact Handshake.namesGroup_of_groupSecret (Handshake.genuine_iff.mpr hgiven) hkind

/-- A front end with a shared secret. -/
def gated : ServerConfig := { secretKey := some "s3cret" }

/-- A service that names the secret and a group. -/
def caller : Handshake := ⟨.ofList [("secretKey", "s3cret"), ("group", "ops")], []⟩

/-- A user's credential beside a secret that is not the shared one. -/
def intruder : Handshake :=
  ⟨.ofList [("access_token", "alice"), ("secretKey", ""), ("group", "ops")], []⟩

/-- The gateway right after the service has come in. -/
def occupied : Gateway :=
  ((new gated ⟨"n"⟩ ⟨"gw", .ofSeconds 60⟩ .empty).upgrade "svc" "/websocket" caller).2.round.2

theorem reached_occupied : Reached gated [caller] occupied :=
  .move (.upgrade "svc" "/websocket" caller (.new ⟨"n"⟩ _ .empty)) .round

theorem caller_let_in :
    gated.secretKey = some "s3cret" ∧ Reached gated [caller] occupied ∧
      (∃ ch ∈ occupied.channels, ch.state? = some .groupActive) ∧ caller.NamesGroup "s3cret" ∧
      (occupied.upgrade "mallory" "/websocket" intruder).1.status = 401 ∧
      occupied.Unmoved (occupied.upgrade "mallory" "/websocket" intruder).2 := by
  have hopen : (occupied.channels.any fun ch => ch.state? = some .groupActive) = true := by
    decide +kernel
  obtain ⟨ch, hch, hactive⟩ := List.any_eq_true.mp hopen
  have hactive := of_decide_eq_true hactive
  have hsecret : gated.secretKey = some "s3cret" := rfl
  obtain ⟨hsessions, hrequests⟩ := groups_share_secret hsecret reached_occupied
  obtain ⟨h, hrequest, -, hnamed⟩ := hsessions ch hch
  cases List.mem_singleton.mp (List.mem_of_getElem? hrequest)
  have hrefused := (hrequests "mallory" "/websocket" intruder (by decide)).1 "" (by decide)
    (by decide)
  exact ⟨hsecret, reached_occupied, ⟨ch, hch, hactive⟩, hnamed hactive, hrefused⟩

end Gateway

end SessionGateway
