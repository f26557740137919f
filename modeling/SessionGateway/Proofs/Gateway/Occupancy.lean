import Mathlib.Data.List.Perm.Subperm
import SessionGateway.Proofs.Gateway.Tenure

/-!
# Whoever is in the directory has an open session

What is known of all tasks of a node at once is kept by everything that may happen on it. So a
connection is in the directory only while its session has started and has not ended, however the
tasks interleave.
-/

namespace SessionGateway

namespace Gateway

/-! ### The sessions of a list of tasks -/

def Task.session? : Task → Option Session
  | .channel ch => some ch.session
  | .reconciler .. => none

def sessions (tasks : List Task) : List Session := tasks.filterMap Task.session?

variable {g : Gateway} {told news : List Told} {c' : Cluster} {before after tasks : List Task}
  {t t' : Task}

theorem mem_sessions {s : Session} :
    s ∈ sessions tasks ↔ ∃ ch, .channel ch ∈ tasks ∧ ch.session = s := by
  simp only [sessions, List.mem_filterMap]
  constructor
  · rintro ⟨t, ht, hs⟩
    cases t with
    | channel ch => exact ⟨ch, ht, Option.some.inj hs⟩
    | reconciler r place => cases hs
  · rintro ⟨ch, hch, rfl⟩
    exact ⟨_, hch, rfl⟩

theorem isReconciler_eq (t : Task) : t.isReconciler = t.session?.isNone := by
  cases t <;> rfl

/-- A task that goes on stays what it is. -/
theorem sessions_middle (h : t'.session? = t.session?) :
    sessions (before ++ t' :: after) = sessions (before ++ t :: after) := by
  simp only [sessions, List.filterMap_append, List.filterMap_cons, h]

theorem countP_middle (h : t'.session? = t.session?) :
    (before ++ t' :: after).countP Task.isReconciler =
      (before ++ t :: after).countP Task.isReconciler := by
  simp only [List.countP_append, List.countP_cons, isReconciler_eq, h]

/-- Other sessions have other names. -/
theorem id_ne_of_distinct {s s' : Session} (hs : t.session? = some s)
    (h : ((sessions (before ++ t :: after)).map Session.id).Nodup)
    (hs' : s' ∈ sessions (before ++ after)) : s'.id ≠ s.id := by
  have heq : sessions (before ++ t :: after) = sessions before ++ s :: sessions after := by
    simp only [sessions, List.filterMap_append, List.filterMap_cons, hs]
  rw [heq, List.map_append, List.map_cons, List.nodup_middle, ← List.map_append] at h
  intro hid
  rw [sessions, List.filterMap_append] at hs'
  exact (List.nodup_cons.mp h).1 (hid ▸ List.mem_map_of_mem hs')

/-- A connection that comes has the next name, and its session opens. -/
theorem accept_eq (g : Gateway) (client : String) (a : Attributes) :
    ∃ ch c', g.accept client a =
        { g with cluster := c', tasks := g.tasks ++ [.channel ch], made := g.made + 1 } ∧
      ch.session.id = g.nextId ∧
      ch.phase = .opening (.new g.broker (ch.session.enter g.lifecycle)) ∧
      c'.sites = g.cluster.sites ∧ c'.now = g.cluster.now ∧ c'.memory = g.cluster.memory :=
  ⟨_, _, rfl, rfl, rfl, rfl, rfl, rfl⟩

/-- What a task brings into the directory. -/
def Task.Brings (t : Task) (id : ConnectionId) (kind : ConnectionKind) : Prop :=
  ∃ s, t.session? = some s ∧ s.Brings id kind

/-- What is known of a task. -/
def Task.Keeps (b : BrokerId) (cache : SessionCache) (told : List Told) (c : Cluster) : Task → Prop
  | .channel ch => ch.phase.Keeps b cache.brokersKey ch.session (c.directory b)
  | .reconciler r _ =>
    (r.lifecycle.broker = b ∧ r.lifecycle.cache = cache) ∧ r.phase.Keeps r.lifecycle told c

theorem Task.Keeps.mono {b : BrokerId} {cache : SessionCache} {told' : List Told} {c : Cluster}
    (h : t.Keeps b cache told c)
    (habsent : ∀ s, t.session? = some s → (c.directory b).Absent s.id →
      (c'.directory b).Absent s.id)
    (hleft : t.isReconciler = true → HasLeft b cache.brokersKey told c →
      HasLeft b cache.brokersKey told' c') : t.Keeps b cache told' c' := by
  cases t with
  | channel ch => exact Channel.Phase.Keeps.mono h (habsent _ rfl)
  | reconciler r place =>
    obtain ⟨⟨rfl, rfl⟩, hphase⟩ := h
    exact ⟨⟨rfl, rfl⟩, hphase.mono (hleft rfl)⟩

/-- What is known of a task stays known when it goes on, and it brings in nobody but itself. Only
the reconciler gives the store commands on the heartbeats. -/
theorem Task.Goes.keeps {b : BrokerId} {d : Dispatch} {cache : SessionCache} {c : Cluster}
    (h : t.Goes b d c news t' c') (ht : t.Keeps b cache told c)
    (hapart : ∀ s, t.session? = some s → ∀ kind kind', (c.directory b).Holds s.id kind →
      (c.directory b).Holds s.id kind' → kind = kind') :
    t'.session? = t.session? ∧ Directory.Admits t.Brings (c.directory b) (c'.directory b) ∧
      t'.Keeps b cache (news ++ told) c' ∧
      (t.isReconciler = false → HasLeft b cache.brokersKey told c →
        HasLeft b cache.brokersKey (news ++ told) c') := by
  cases h with
  | @channel ch ch' _ _ _ h =>
    cases h with
    | session h =>
      obtain ⟨hvisited, hphase⟩ := h.keeps ht (hapart _ rfl)
      exact ⟨rfl, fun id kind hkind => (hvisited.admits id kind hkind).imp_right
        fun hb => ⟨_, rfl, hb⟩, hphase, fun _ hleft => hleft.visited hvisited⟩
    | beside hsession hphase =>
      refine ⟨congrArg some hsession, Directory.admits_of_eq rfl, ?_, fun _ hleft => hleft⟩
      show Channel.Phase.Keeps _ _ _ _ _
      rw [hsession, hphase]
      exact ht
  | reconciler h =>
    obtain ⟨⟨rfl, rfl⟩, hkeeps⟩ := ht
    obtain ⟨hadmits, hphase⟩ := h.keeps hkeeps
    exact ⟨rfl, fun id kind hkind => (hadmits id kind hkind).imp_right fun hno => hno.elim,
      ⟨⟨rfl, rfl⟩, hphase⟩, fun hno => nomatch hno⟩
  | queue => exact ⟨rfl, Directory.admits_of_eq rfl, ht, fun _ hleft => hleft⟩

/-! ### What every step keeps -/

/-- What is known of a node: its sessions have different names, whoever is in its directory has a
session, and each of its tasks is where its phase says. -/
structure Sound (g : Gateway) (told : List Told) : Prop where
  distinct : ((sessions g.tasks).map Session.id).Nodup
  holds : ∀ id kind, g.directory.Holds id kind → ∃ s ∈ sessions g.tasks, s.Brings id kind
  lone : g.tasks.countP Task.isReconciler ≤ 1
  tasks : ∀ t ∈ g.tasks, t.Keeps g.broker g.cache told g.cluster

namespace Sound

/-- A session brings in its connection for one kind only. -/
theorem kind_eq (h : Sound g told) {s : Session} (hs : s ∈ sessions g.tasks)
    {kind kind' : ConnectionKind} (hkind : g.directory.Holds s.id kind)
    (hkind' : g.directory.Holds s.id kind') : kind = kind' := by
  obtain ⟨s₁, hs₁, hid₁, hclass₁⟩ := h.holds _ kind hkind
  obtain ⟨s₂, hs₂, hid₂, hclass₂⟩ := h.holds _ kind' hkind'
  cases List.inj_on_of_nodup_map h.distinct hs₁ hs hid₁
  cases List.inj_on_of_nodup_map h.distinct hs₂ hs hid₂
  exact Option.some.inj (hclass₁.symm.trans hclass₂)

theorem task {d : Dispatch} (h : Sound g told) (hg : g.tasks = before ++ t :: after)
    (hgoes : t.Goes g.broker d g.cluster news t' c') :
    Sound { g with tasks := before ++ t' :: after, cluster := c' } (news ++ told) := by
  obtain ⟨hdistinct, hholds, hlone, htasks⟩ := h
  have hmem : t ∈ g.tasks := by
    rw [hg]
    exact List.mem_append_right _ List.mem_cons_self
  have hothers : ∀ t₂, t₂ ∈ before ++ after → t₂ ∈ g.tasks := by
    intro t₂ ht₂
    rw [hg]
    exact Ensemble.mem_middle.mpr (.inr ht₂)
  have hapart : ∀ s, t.session? = some s → ∀ kind kind', g.directory.Holds s.id kind →
      g.directory.Holds s.id kind' → kind = kind' := fun s hs _ _ =>
    kind_eq ⟨hdistinct, hholds, hlone, htasks⟩ (List.mem_filterMap.mpr ⟨t, hmem, hs⟩)
  obtain ⟨hsession, hadmits, hkeeps, hleft⟩ := hgoes.keeps (htasks t hmem) hapart
  have hsessions : sessions (before ++ t' :: after) = sessions g.tasks := by
    rw [hg]
    exact sessions_middle hsession
  constructor
  · rwa [hsessions]
  · intro id kind hkind
    rw [hsessions]
    rcases hadmits id kind hkind with hold | ⟨s, hs, hbrings⟩
    · exact hholds id kind hold
    · exact ⟨s, List.mem_filterMap.mpr ⟨t, hmem, hs⟩, hbrings⟩
  · rwa [hg, ← countP_middle hsession] at hlone
  · intro t₂ ht₂
    rcases Ensemble.mem_middle.mp ht₂ with rfl | hother
    · exact hkeeps
    rw [hg] at hdistinct hlone
    refine (htasks t₂ (hothers t₂ hother)).mono ?_ ?_
    · -- the connection of another session is not what this task brings in
      intro s₂ hs₂ habsent
      refine hadmits.absent ?_ habsent
      rintro kind ⟨s, hs, hid, -⟩
      exact id_ne_of_distinct hs hdistinct (List.mem_filterMap.mpr ⟨t₂, hother, hs₂⟩) hid.symm
    · intro hreconciler
      refine hleft (Bool.eq_false_iff.mpr fun ht => ?_)
      have hpos : 0 < (before ++ after).countP Task.isReconciler :=
        List.countP_pos_iff.mpr ⟨t₂, hother, hreconciler⟩
      rw [List.countP_append] at hlone hpos
      rw [List.countP_cons_of_pos ht] at hlone
      omega

theorem around (h : Sound g told) (hc : g.cluster.Spares g.broker g.cache.brokersKey c')
    (places : Nat) : Sound { g with cluster := c', places } told := by
  have hdirectory : c'.directory g.broker = g.directory := hc.directory
  refine ⟨h.distinct, ?_, h.lone, ?_⟩
  · intro id kind hkind
    exact h.holds id kind (hdirectory ▸ hkind)
  · intro t ht
    refine (h.tasks t ht).mono ?_ ?_
    · intro s _ habsent
      rwa [hc.directory]
    · intro _ hleft
      have hnone : ∀ t ∈ ([] : List Told), ¬ t.command.Changes g.cache.brokersKey :=
        fun _ hno => nomatch hno
      exact hleft.mono hnone hc.beat

/-- Being told to stop, in whatever order, changes nothing that is known. -/
theorem stop (h : Sound g told) (htasks : tasks.Perm (g.tasks.map stopTask)) :
    Sound { g with isStopping := true, tasks } told := by
  have hstopped : Task.session? ∘ stopTask = Task.session? := by
    funext t
    cases t <;> rfl
  have hsessions : (sessions tasks).Perm (sessions g.tasks) := by
    have hperm := htasks.filterMap Task.session?
    rwa [List.filterMap_map, hstopped] at hperm
  have hcount : tasks.countP Task.isReconciler = g.tasks.countP Task.isReconciler := by
    rw [htasks.countP_eq, List.countP_map]
    congr 1
    funext t
    cases t <;> rfl
  refine ⟨?_, ?_, ?_, ?_⟩
  · exact (hsessions.map Session.id).nodup_iff.mpr h.distinct
  · intro id kind hkind
    obtain ⟨s, hs, hbrings⟩ := h.holds id kind hkind
    exact ⟨s, hsessions.mem_iff.mpr hs, hbrings⟩
  · exact hcount ▸ h.lone
  · intro t ht
    obtain ⟨t₁, ht₁, rfl⟩ := List.mem_map.mp (htasks.mem_iff.mp ht)
    have hkeeps := h.tasks t₁ ht₁
    cases t₁ with
    | channel ch => exact hkeeps
    | reconciler r place => exact hkeeps

/-- A task of its own name begins. -/
theorem append (h : Sound g told)
    (hfresh : ∀ s, t.session? = some s → ∀ s' ∈ sessions g.tasks, s'.id ≠ s.id)
    (hlone : t.isReconciler = true → ∀ t' ∈ g.tasks, t'.isReconciler = false)
    (ht : t.Keeps g.broker g.cache told g.cluster) (made : Nat) :
    Sound { g with tasks := g.tasks ++ [t], made } told := by
  refine ⟨?_, ?_, ?_, ?_⟩
  · have hsessions : sessions (g.tasks ++ [t]) = sessions g.tasks ++ t.session?.toList := by
      rw [sessions, List.filterMap_append]
      cases t <;> rfl
    rw [hsessions, List.map_append, List.nodup_append]
    refine ⟨h.distinct, ?_, ?_⟩
    · cases t.session? <;> simp
    · intro id hid id' hid'
      obtain ⟨s', hs', rfl⟩ := List.mem_map.mp hid
      obtain ⟨s, hs, rfl⟩ := List.mem_map.mp hid'
      exact hfresh s (Option.mem_toList.mp hs) s' hs'
  · intro id kind hkind
    obtain ⟨s, hs, hbrings⟩ := h.holds id kind hkind
    refine ⟨s, ?_, hbrings⟩
    rw [sessions, List.filterMap_append]
    exact List.mem_append_left _ hs
  · rw [List.countP_append]
    by_cases hr : t.isReconciler = true
    · rw [List.countP_eq_zero.mpr fun t' ht' => Bool.eq_false_iff.mp (hlone hr t' ht'),
        Nat.zero_add]
      exact List.countP_le_length
    · rw [List.countP_cons_of_neg hr]
      exact h.lone
  · intro t' ht'
    rcases List.mem_append.mp ht' with hold | hnew
    · exact h.tasks t' hold
    · cases List.mem_singleton.mp hnew
      exact ht

theorem accept (h : Sound g told) (client : String) (a : Attributes)
    (hfresh : ∀ ch ∈ g.channels, ch.session.id ≠ g.nextId) : Sound (g.accept client a) told := by
  obtain ⟨ch, c', heq, hid, hphase, hsites, hnow, hmemory⟩ := g.accept_eq client a
  have hspares : g.cluster.Spares g.broker g.cache.brokersKey c' :=
    ⟨hnow ▸ Duration.le_refl _, Cluster.directory_congr hsites, by rw [hnow, hmemory]; exact id⟩
  rw [heq]
  refine (h.around hspares g.places).append ?_ ?_ ?_ (g.made + 1)
  · intro s hs s' hs'
    cases hs
    obtain ⟨ch', hch', rfl⟩ := mem_sessions.mp hs'
    rw [hid]
    exact hfresh ch' (mem_channels.mpr hch')
  · exact fun hno => absurd hno Bool.false_ne_true
  · show ch.phase.Keeps _ _ _ _
    rw [hphase]
    exact ⟨rfl, ch.session.only_enter g.lifecycle⟩

theorem spawn (h : Sound g told) (hnone : ∀ t ∈ g.tasks, t.isReconciler = false) :
    Sound g.spawnReconciler told := by
  refine h.append (t := .reconciler _ g.places) ?_ (fun _ => hnone) ?_ g.made
  · intro s hs
    cases hs
  · cases g.isStopping with
    | false => exact ⟨⟨rfl, rfl⟩, rfl, trivial, fun _ => trivial⟩
    | true => exact ⟨⟨rfl, rfl⟩, rfl, trivial, fun _ => trivial⟩

end Sound

theorem Step.sound {x y : Scene} (h : Step x y) (hx : Sound x.gateway x.told) :
    Sound y.gateway y.told := by
  cases h with
  | task hg hgoes => exact hx.task hg hgoes
  | around hc => exact hx.around hc _
  | accept client a hfresh => exact hx.accept client a hfresh
  | spawn hnone => exact hx.spawn hnone
  | shutdown htasks | call htasks => exact hx.stop htasks
  | sessionsGone | tasksGone | timeout => exact hx

theorem sound_of_arises {x : Scene} (h : Arises x) : Sound x.gateway x.told := by
  obtain ⟨config, broker, cache, cluster, hempty, hsteps⟩ := h
  induction hsteps with
  | refl =>
    refine ⟨List.nodup_nil, ?_, Nat.zero_le 1, fun t ht => absurd ht List.not_mem_nil⟩
    intro id kind hkind
    exact absurd hkind (Directory.not_holds_iff.mpr (hempty id) kind)
  | tail _ hstep ih => exact hstep.sound ih

/-! ### Who is left -/

namespace Sound

/-- Whoever is in the directory has a session that has not ended. -/
theorem session_of_holds (h : Sound g told) {id : ConnectionId} {kind : ConnectionKind}
    (hkind : g.directory.Holds id kind) :
    ∃ ch ∈ g.channels, ch.session.id = id ∧ ch.hasEnded = false := by
  obtain ⟨s, hs, hid, -⟩ := h.holds id kind hkind
  obtain ⟨ch, hch, rfl⟩ := mem_sessions.mp hs
  refine ⟨ch, mem_channels.mpr hch, hid, Bool.eq_false_iff.mpr fun hended => ?_⟩
  have hkeeps : ch.phase.Keeps _ _ ch.session g.directory := h.tasks _ hch
  rw [Channel.hasEnded_iff.mp hended] at hkeeps
  exact Directory.not_holds_iff.mpr hkeeps kind (hid ▸ hkind)

theorem count_le (h : Sound g told) :
    g.directory.userCount + g.directory.groupCount ≤ g.openSessions := by
  have huser : ∀ id ∈ g.directory.users.keys, g.directory.Holds id .endUser := by
    intro id hid hnone
    exact (Table.get?_eq_none_iff _ id).mp hnone hid
  have hgroup : ∀ id ∈ g.directory.groups.keys, g.directory.Holds id .groupSecret := by
    intro id hid hnone
    exact (Table.get?_eq_none_iff _ id).mp hnone hid
  have hnodup : (g.directory.users.keys ++ g.directory.groups.keys).Nodup := by
    refine List.nodup_append.mpr ⟨g.directory.users.distinct, g.directory.groups.distinct, ?_⟩
    rintro id hu _ hg rfl
    obtain ⟨s, hs, rfl, -⟩ := h.holds id _ (huser id hu)
    cases h.kind_eq hs (huser _ hu) (hgroup _ hg)
  have hsub : g.directory.users.keys ++ g.directory.groups.keys ⊆
      (g.channels.filter fun ch => !ch.hasEnded).map fun ch => ch.session.id := by
    intro id hid
    have hheld : ∃ kind, g.directory.Holds id kind := (List.mem_append.mp hid).elim
      (fun hu => ⟨_, huser id hu⟩) fun hg => ⟨_, hgroup id hg⟩
    obtain ⟨kind, hkind⟩ := hheld
    obtain ⟨ch, hch, hname, hopen⟩ := h.session_of_holds hkind
    exact List.mem_map.mpr ⟨ch, List.mem_filter.mpr ⟨hch, by rw [hopen]; rfl⟩, hname⟩
  have hlength := (List.subperm_of_subset hnodup hsub).length_le
  rw [List.length_append, List.length_map, ← List.countP_eq_length_filter] at hlength
  rw [Directory.userCount, Directory.groupCount, Table.size_eq_length_keys,
    Table.size_eq_length_keys]
  exact hlength

end Sound

theorem exists_holds_of_contains {d : Directory} {id : ConnectionId} (h : d.contains id = true) :
    ∃ kind, d.Holds id kind := by
  by_contra hnone
  obtain ⟨huser, hgroup⟩ := Directory.not_holds_iff.mp (not_exists.mp hnone)
  rw [Directory.contains, Directory.kindOf, Table.contains, Table.contains,
    show d.users.get? id = none from huser, show d.groups.get? id = none from hgroup] at h
  cases h

end Gateway

end SessionGateway
