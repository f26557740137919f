import SessionGateway.Proofs.Gateway.Interleaving
import SessionGateway.Proofs.Program.Strands

/-!
# Rounds as steps

What a gateway does in a round comes about step by step: each task goes on until it has to wait, one
request after the other, and what else it does to the cluster is none of the directory's or the
heartbeats' business.
-/

namespace SessionGateway

open Node (Request)
open Store (Memory)

/-! ### Around a request -/

namespace Cluster

variable {b : BrokerId} {beats : String} {c c' c'' : Cluster}

/-- Nothing has become of the clock, the directories and the store. -/
structure Alike (c c' : Cluster) : Prop where
  now : c'.now = c.now
  directory : ∀ b, c'.directory b = c.directory b
  store : c'.store = c.store

theorem alike_of_sites (hnow : c'.now = c.now) (hsites : c'.sites = c.sites)
    (hstore : c'.store = c.store) : c.Alike c' :=
  ⟨hnow, fun _ => directory_congr hsites, hstore⟩

theorem Alike.refl (c : Cluster) : c.Alike c := ⟨rfl, fun _ => rfl, rfl⟩

theorem Alike.trans (h : c.Alike c') (h' : c'.Alike c'') : c.Alike c'' :=
  ⟨h'.now.trans h.now, fun b => (h'.directory b).trans (h.directory b), h'.store.trans h.store⟩

theorem Alike.memory (h : c.Alike c') : c'.memory = c.memory := congrArg Store.Faulty.memory h.store

theorem Alike.spares (h : c.Alike c') : c.Spares b beats c' := by
  refine ⟨h.now ▸ Duration.le_refl _, h.directory b, ?_⟩
  rw [h.now, h.memory]
  exact id

theorem alike_setLock (c : Cluster) (b : BrokerId) (kind : ConnectionKind) (l : Lock) :
    c.Alike (c.setLock b kind l) := by
  refine ⟨rfl, fun b' => ?_, rfl⟩
  by_cases hb : b = b'
  · rw [hb, directory_setLock]
  · have hsite : (c.setLock b kind l).site b' = c.site b' := by
      rw [site, setLock, setSite, Table.get?_insert, if_neg hb, site]
    rw [directory, hsite, directory]

theorem spares_later {t : Duration} (h : c.now ≤ t) : c.Spares b beats { c with now := t } := by
  refine ⟨h, rfl, fun hnone => ?_⟩
  show (c.memory.fieldsAt t beats).get? b.text = none
  cases hlater : (c.memory.fieldsAt t beats).get? b.text with
  | none => rfl
  | some text =>
    rw [Memory.get?_fieldsAt_later h hlater] at hnone
    cases hnone

/-- Time passes. -/
theorem spares_setTime (c : Cluster) (t : Duration) : c.Spares b beats (c.setTime t) := by
  rw [setTime]
  split
  · next hlater => exact spares_later (Nat.le_of_lt hlater)
  · exact (Alike.refl c).spares

theorem directory_turn (c : Cluster) (b : BrokerId) (p : Processor) (x : FrameContext) (f : Frame)
    (limit : Duration) : (c.turn b p x f limit).2.directory b = c.directory b := by
  rw [turn]
  split
  · rfl
  · split
    · rfl
    · cases p.work with
      | register | unregister => exact c.directory_setRegistry b _
      | observe | pause | fail | refuse | echo | route => rfl

/-- What happens as soon as a request is made concerns the identity service and the processors. -/
theorem alike_begin (c : Cluster) (r : Request) : c.Alike (c.begin r) := by
  cases r with
  | turn p x f limit =>
    rw [begin]
    split <;> exact alike_of_sites rfl rfl rfl
  | _ => exact alike_of_sites rfl rfl rfl

end Cluster

namespace Node

variable {b : BrokerId} {r : Request} {c c' : Cluster}

/-- A field that was deleted is not there, whether it was there before or not. -/
theorem get?_of_hashDelete {now : Duration} {m : Memory} {key field : String}
    (h : (Memory.answer now (.hashDelete key field) m).1.isOk = true) :
    ((Memory.answer now (.hashDelete key field) m).2.fieldsAt now key).get? field = none := by
  by_cases hhash : m.IsHash now key
  · show ((m.deleteField now key field fun _ => true).2.fieldsAt now key).get? field = none
    rw [Memory.get?_fieldsAt_deleteField hhash (Duration.le_refl _)]
    split
    · rfl
    · next hno =>
      cases hfield : (m.fieldsAt now key).get? field with
      | none => rfl
      | some text => exact absurd ⟨rfl, by rw [hfield]; rfl⟩ hno
  · rw [Memory.answer, Memory.deleteField_of_not_isHash hhash] at h
    cases h

theorem mayAnswer_of_carries {now : Duration} {k : Store.Command} {m m' : Memory}
    {x : Store.Result k} (h : Memory.Carries now k m x m') : m.MayAnswer now k x m' := by
  have hanswer : m' = (Memory.answer now k m).2 := by
    cases k with
    | hashGetAll key =>
      rw [h.1, Memory.answer]
      split <;> rfl
    | _ => exact (Memory.eq_of_carries h fun e => e).2
  refine ⟨fun key hk => ?_, ?_⟩
  · rw [hanswer]
    exact Memory.live?_answer_of_not_changes (Duration.le_refl _) hk
  · rintro key field rfl hok
    rw [(Memory.eq_of_carries h fun e => e).1] at hok
    rw [hanswer]
    exact get?_of_hashDelete hok

/-- What the cluster does with a request is a way to answer it. -/
theorem mayAnswer_perform (r : Request) (hb : Behaves true c.store) :
    MayAnswer b r c (c.perform b r).1 (c.perform b r).2 ∧ Behaves true (c.perform b r).2.store := by
  cases r with
  | cache r =>
    cases r with
    | store k =>
      obtain ⟨⟨hsame, hanswer⟩, hrest⟩ := answers_perform b (.cache (.store k)) hb rfl
      refine ⟨⟨rfl, rfl, ?_⟩, hrest⟩
      rcases hanswer with hcarries | ⟨-, hkept, e, herror⟩
      · exact mayAnswer_of_carries hcarries
      · rw [herror]
        exact ⟨fun key _ => by rw [hkept], fun _ _ _ hok => nomatch hok⟩
    | wallClock | log e => exact ⟨⟨rfl, rfl, rfl⟩, hb⟩
  | directory | addUser u | addGroup u | withdrawUser id t | withdrawGroup id t | remove id =>
    exact ⟨rfl, hb⟩
  | acquire kind patience =>
    simp only [Cluster.perform]
    split
    · exact ⟨⟨rfl, rfl, rfl⟩, hb⟩
    · exact ⟨⟨rfl, c.directory_setLock b kind _, rfl⟩, hb⟩
  | release kind => exact ⟨⟨rfl, c.directory_setLock b kind _, rfl⟩, hb⟩
  | turn p x f limit =>
    obtain ⟨hstore, hnow⟩ := turn_keeps c b p x f limit
    have hstore' : (c.perform b (.turn p x f limit)).2.store = c.store := hstore
    exact ⟨⟨hnow, c.directory_turn b p x f limit, congrArg Store.Faulty.memory hstore⟩,
      hstore' ▸ hb⟩
  | identify | close | measure | processors => exact ⟨⟨rfl, rfl, rfl⟩, hb⟩

theorem mayAnswer_of_begin {x : r.Answer} (h : MayAnswer b r (c.begin r) x c') :
    MayAnswer b r c x c' := by
  have halike := c.alike_begin r
  cases r with
  | identify | turn =>
    exact ⟨h.1.trans halike.now, h.2.1.trans (halike.directory b), h.2.2.trans halike.memory⟩
  | _ => exact h

/-- A request is answered as it may be, or it waits and nothing becomes of what counts. -/
def Fits (b : BrokerId) (r : Request) (c : Cluster) : Attempt r.Answer → Prop
  | .answered x c' => MayAnswer b r c x c' ∧ Behaves true c'.store
  | .waiting _ c' => c.Alike c'

theorem fits_answerAt {c₀ : Cluster} (hc₀ : c₀ = c ∨ c₀ = c.begin r) (hb : Behaves true c.store)
    (t : Duration) : Fits b r c (c₀.answerAt b r t) := by
  have halike : c.Alike c₀ := by
    rcases hc₀ with rfl | rfl
    · exact .refl _
    · exact c.alike_begin r
  rw [Cluster.answerAt]
  split
  · obtain ⟨hanswer, hrest⟩ := mayAnswer_perform (b := b) r (halike.store ▸ hb)
    refine ⟨?_, hrest⟩
    rcases hc₀ with rfl | rfl
    · exact hanswer
    · exact mayAnswer_of_begin hanswer
  · exact halike

/-- Whoever waits for a lock changes nothing but locks. -/
theorem fits_await {kind : ConnectionKind} {patience : Option Duration} {c₀ : Cluster}
    (h : c.Alike c₀) (hb : Behaves true c.store) (ticket : Nat) (deadline : Option Duration) :
    Fits b (.acquire kind patience) c (c₀.await b kind ticket deadline) := by
  have hanswer : ∀ {x c'}, c.Alike c' → Fits b (.acquire kind patience) c (.answered x c') :=
    fun h' => ⟨⟨h'.now, h'.directory b, h'.memory⟩, h'.store ▸ hb⟩
  unfold Cluster.await
  dsimp only
  split
  · exact hanswer h
  · split
    · exact h
    · split
      · exact hanswer (h.trans (c₀.alike_setLock b kind _))
      · exact h

theorem fits_attempt (r : Request) (w : Wait) (hb : Behaves true c.store) :
    Fits b r c (Cluster.attempt b r w c) := by
  cases r with
  | acquire kind patience =>
    cases w with
    | lock ticket deadline => exact fits_await (.refl c) hb ticket deadline
    | nothing | start | answer => exact fits_await (c.alike_setLock b kind _) hb _ _
  | _ =>
    cases w with
    | answer t => exact fits_answerAt (.inl rfl) hb t
    | nothing | start | lock => exact fits_answerAt (.inr rfl) hb _

end Node

/-! ### Parts of a node -/

/-- A part of a node goes on by and by, while things may happen around it. -/
inductive Moves {τ : Type} (G : τ → Cluster → List Told → τ → Cluster → Prop) (b : BrokerId)
    (beats : String) : τ → Cluster → List Told → τ → Cluster → Prop
  | refl (t : τ) (c : Cluster) : Moves G b beats t c [] t c
  | goes {t t' t'' : τ} {c c' c'' : Cluster} {news news' : List Told}
      (before : Moves G b beats t c news t' c') (h : G t' c' news' t'' c'') :
      Moves G b beats t c (news' ++ news) t'' c''
  | around {t t' : τ} {c c' c'' : Cluster} {news : List Told}
      (before : Moves G b beats t c news t' c') (h : c'.Spares b beats c'') :
      Moves G b beats t c news t' c''

namespace Moves

variable {τ υ : Type} {G : τ → Cluster → List Told → τ → Cluster → Prop}
  {H : υ → Cluster → List Told → υ → Cluster → Prop} {b : BrokerId} {beats : String}
  {t t' t'' : τ} {c c' c'' : Cluster} {news news' : List Told}

theorem trans (h : Moves G b beats t c news t' c') (h' : Moves G b beats t' c' news' t'' c'') :
    Moves G b beats t c (news' ++ news) t'' c'' := by
  induction h' with
  | refl => exact h
  | goes _ hgoes ih =>
    rw [List.append_assoc]
    exact (ih h).goes hgoes
  | around _ hspares ih => exact (ih h).around hspares

/-- What a part does, whatever it is part of does. -/
theorem map (wrap : τ → υ)
    (hwrap : ∀ t c news t' c', G t c news t' c' → H (wrap t) c news (wrap t') c')
    (h : Moves G b beats t c news t' c') : Moves H b beats (wrap t) c news (wrap t') c' := by
  induction h with
  | refl => exact .refl _ _
  | goes _ hgoes ih => exact ih.goes (hwrap _ _ _ _ _ hgoes)
  | around _ hspares ih => exact ih.around hspares

end Moves

/-- A part of a node comes to be what it is in another cluster, and the store still behaves. -/
def Comes {τ : Type} (G : τ → Cluster → List Told → τ → Cluster → Prop) (b : BrokerId)
    (beats : String) (t : τ) (c : Cluster) (r : τ × Cluster) : Prop :=
  (∃ news, Moves G b beats t c news r.1 r.2) ∧ Node.Behaves true r.2.store

namespace Comes

variable {τ υ : Type} {G : τ → Cluster → List Told → τ → Cluster → Prop}
  {H : υ → Cluster → List Told → υ → Cluster → Prop} {b : BrokerId} {beats : String}
  {t t' t'' : τ} {c c' c'' : Cluster} {news : List Told}

theorem refl (hb : Node.Behaves true c.store) : Comes G b beats t c (t, c) :=
  ⟨⟨[], .refl t c⟩, hb⟩

theorem trans (h : Comes G b beats t c (t', c')) {r : τ × Cluster}
    (h' : Comes G b beats t' c' r) : Comes G b beats t c r := by
  obtain ⟨⟨news, hmoves⟩, -⟩ := h
  obtain ⟨⟨news', hmoves'⟩, hb⟩ := h'
  exact ⟨⟨_, hmoves.trans hmoves'⟩, hb⟩

theorem goes (h : Comes G b beats t c (t', c')) (hgoes : G t' c' news t'' c'')
    (hb : Node.Behaves true c''.store) : Comes G b beats t c (t'', c'') := by
  obtain ⟨⟨_, hmoves⟩, -⟩ := h
  exact ⟨⟨_, hmoves.goes hgoes⟩, hb⟩

theorem around (h : Comes G b beats t c (t', c')) (halike : c'.Alike c'') :
    Comes G b beats t c (t', c'') := by
  obtain ⟨⟨_, hmoves⟩, hb⟩ := h
  exact ⟨⟨_, hmoves.around halike.spares⟩, halike.store ▸ hb⟩

theorem map (wrap : τ → υ)
    (hwrap : ∀ t c news t' c', G t c news t' c' → H (wrap t) c news (wrap t') c')
    {r : τ × Cluster} (h : Comes G b beats t c r) : Comes H b beats (wrap t) c (wrap r.1, r.2) := by
  obtain ⟨⟨news, hmoves⟩, hb⟩ := h
  exact ⟨⟨news, hmoves.map wrap hwrap⟩, hb⟩

end Comes

/-! ### Fibers -/

namespace Fiber

variable {α : Type} {b : BrokerId} {beats : String} {c : Cluster}

theorem comes_goOn (node : BrokerId) (p : NodeProgram α) (w : Wait) (moved : Bool)
    (hb : Node.Behaves true c.store) :
    Comes Goes b beats (⟨node, p, w, none⟩ : Fiber α) c
      ((goOn node moved p w c).1.2, (goOn node moved p w c).2) := by
  induction p generalizing w moved c with
  | done a => exact (Comes.refl hb).goes .wait hb
  | ask r next ih =>
    have hfits : Node.Fits node r c (Cluster.attempt node r w c) := Node.fits_attempt r w hb
    rw [goOn]
    cases hattempt : Cluster.attempt node r w c with
    | answered x c' =>
      rw [hattempt] at hfits
      exact ((Comes.refl hb).goes (.answer hfits.1) hfits.2).trans (ih x .nothing true hfits.2)
    | waiting w' c' =>
      rw [hattempt] at hfits
      exact ((Comes.refl hb).goes .wait hb).around hfits

theorem comes_poll (f : Fiber α) (hb : Node.Behaves true c.store) :
    Comes Goes b beats f c ((f.poll c).1.2, (f.poll c).2) := by
  obtain ⟨node, p, w, endedAt⟩ := f
  cases endedAt with
  | some t => exact .refl hb
  | none =>
    cases w with
    | start t =>
      rw [poll]
      dsimp only
      split
      · exact ((Comes.refl hb).goes .wait hb).trans (comes_goOn node p .nothing false hb)
      · exact .refl hb
    | nothing | answer | lock => exact comes_goOn node p _ false hb

end Fiber

/-! ### Channels -/

namespace Channel

variable {b : BrokerId} {beats : String} {d : Dispatch} {s : Session} {k : Controls}
  {c c' : Cluster} {ch ch' : Channel}

theorem alike_setConnection (ch : Channel) (conn : Connection) (c : Cluster) :
    c.Alike (ch.setConnection conn c) := Cluster.alike_of_sites rfl rfl rfl

theorem comes_await {α : Type} {before : Fiber α → Phase} {after : α → Phase} (f : Fiber α)
    (hbefore : ∀ (f : Fiber α) (c : Cluster) (news : List Told) (f' : Fiber α) (c' : Cluster),
      f.Goes c news f' c' → (before f).Goes b d s c news (before f') c')
    (hafter : ∀ (f : Fiber α) (c : Cluster) (a : α), f.result? = some a →
      (before f).Goes b d s c [] (after a) c) (hb : Node.Behaves true c.store) :
    Comes (Phase.Goes b d s) b beats (before f) c
      ((await f c before after).1.2, (await f c before after).2) := by
  have hpoll : Comes (Phase.Goes b d s) b beats (before f) c
      (before (f.poll c).1.2, (f.poll c).2) := (f.comes_poll hb).map before hbefore
  unfold await
  dsimp only
  cases hresult : (f.poll c).1.2.result? with
  | none => exact hpoll
  | some a => exact hpoll.goes (hafter _ _ a hresult) hpoll.2

/-- A session goes on as its phase does. -/
theorem comes_of_phase {r : Phase × Cluster}
    (h : Comes (Phase.Goes b d ch.session) b beats ch.phase c r) :
    Comes (Goes b d) b beats ch c ({ ch with phase := r.1 }, r.2) :=
  h.map (fun p => { ch with phase := p }) fun _ _ _ _ _ hgoes => .session hgoes

theorem comes_read {st : ConnectionState} (h : ch.read k st c = some (ch', c'))
    (hp : ch.phase.Reads st) (hb : Node.Behaves true c.store) :
    Comes (Goes k.broker k.dispatch) k.broker beats ch c (ch', c') := by
  have hstart : Comes (Goes k.broker k.dispatch) k.broker beats ch c (ch, c) := .refl hb
  unfold read at h
  dsimp only at h
  split at h
  · cases h
    exact hstart.goes (.session (.quit hp)) hb
  · split at h
    · cases h
      exact (hstart.goes (.session (.quit hp)) hb).around (ch.alike_setConnection _ c)
    · split at h
      · cases h
      · next m rest hinbound =>
        cases h
        obtain ⟨hsession, hphase⟩ := acknowledge_same { ch with inbound := rest } m
        have hbeside := hstart.goes (.beside hsession hphase) hb
        have hheard := hbeside.goes (.session (.hear (hphase ▸ hp) m)) hb
        refine hheard.around ?_
        split
        · exact ch.alike_setConnection _ c
        · exact .refl c

theorem comes_step (ch : Channel) (hb : Node.Behaves true c.store) :
    Comes (Goes k.broker k.dispatch) k.broker beats ch c ((ch.step k c).1.2, (ch.step k c).2) := by
  have hstart : Comes (Goes k.broker k.dispatch) k.broker beats ch c (ch, c) := .refl hb
  have hphased : ∀ {r : (Bool × Phase) × Cluster},
      Comes (Phase.Goes k.broker k.dispatch ch.session) k.broker beats ch.phase c (r.1.2, r.2) →
      Comes (Goes k.broker k.dispatch) k.broker beats ch c ({ ch with phase := r.1.2 }, r.2) :=
    fun h => comes_of_phase h
  rw [step]
  cases hp : ch.phase with
  | opening f =>
    refine hphased ?_
    rw [hp]
    exact comes_await f (fun _ _ _ _ _ => .opening) (fun _ _ _ => .opened) hb
  | reading st =>
    dsimp only
    cases hread : ch.read k st c with
    | none =>
      refine comes_of_phase (r := (.listening st k.place, c)) ?_
      rw [hp]
      exact (Comes.refl hb).goes .listen hb
    | some r => exact comes_read hread (hp ▸ rfl) hb
  | listening st place =>
    dsimp only
    cases hread : ch.read k st c with
    | none => exact hstart
    | some r => exact comes_read hread (hp ▸ rfl) hb
  | reacting st f =>
    refine hphased ?_
    rw [hp]
    exact comes_await f (fun _ _ _ _ _ => .reacting) (fun _ _ _ => .reacted) hb
  | leaving st f =>
    refine hphased ?_
    rw [hp]
    exact comes_await f (fun _ _ _ _ _ => .leaving) (fun _ _ _ => .left) hb
  | flushing st =>
    dsimp only
    split
    · refine hphased ?_
      rw [hp]
      have hflushed : Comes (Phase.Goes k.broker k.dispatch ch.session) k.broker beats
          (.flushing st) c (_, c) := (Comes.refl hb).goes (.flushed (ch.connection c).dropped) hb
      exact hflushed.trans (comes_await _ (fun _ _ _ _ _ => .parting) (fun _ _ _ => .parted) hb)
    · exact hstart
  | parting f =>
    refine hphased ?_
    rw [hp]
    exact comes_await f (fun _ _ _ _ _ => .parting) (fun _ _ _ => .parted) hb
  | ended => exact hstart

theorem comes_drive (fuel : Nat) (ch : Channel) (hb : Node.Behaves true c.store) :
    Comes (Goes k.broker k.dispatch) k.broker beats ch c
      ((drive k fuel ch c).1.2, (drive k fuel ch c).2) := by
  induction fuel generalizing ch c with
  | zero => exact .refl hb
  | succ fuel ih =>
    have hstep : Comes (Goes k.broker k.dispatch) k.broker beats ch c _ := comes_step ch hb
    rw [drive]
    rcases hs : ch.step k c with ⟨⟨_ | _, ch'⟩, c'⟩
    · rw [hs] at hstep
      exact hstep
    · rw [hs] at hstep
      exact hstep.trans (ih ch' hstep.2)

theorem comes_write (ch : Channel) (hb : Node.Behaves true c.store) :
    Comes (Goes b d) b beats ch c ((ch.write c).1.2, (ch.write c).2) := by
  have hstart : Comes (Goes b d) b beats ch c (ch, c) := .refl hb
  have hbeside : ∀ {ch' c'}, ch'.session = ch.session → ch'.phase = ch.phase → c.Alike c' →
      Comes (Goes b d) b beats ch c (ch', c') := fun hsession hphase halike =>
    (hstart.goes (.beside hsession hphase) hb).around halike
  rw [write]
  cases ch.writer.next? c.now (ch.connection c) with
  | none => exact hstart
  | some s =>
    have halike : c.Alike ((s.event.map (ch.setConnection s.connection c).log).getD
        (ch.setConnection s.connection c)) := by
      cases s.event with
      | none => exact ch.alike_setConnection _ c
      | some e => exact Cluster.alike_of_sites rfl rfl rfl
    dsimp only
    cases s.frame with
    | none => exact hbeside rfl rfl halike
    | some f =>
      dsimp only
      split
      · exact hbeside rfl rfl (halike.trans (alike_setConnection _ _ _))
      · exact hbeside rfl rfl halike

theorem comes_poll (ch : Channel) (hb : Node.Behaves true c.store) :
    Comes (Goes k.broker k.dispatch) k.broker beats ch c ((ch.poll k c).1.2, (ch.poll k c).2) := by
  rw [poll]
  split
  · exact .refl hb
  · have hdrive : Comes (Goes k.broker k.dispatch) k.broker beats ch c _ :=
      comes_drive ch.stepsAhead ch hb
    have hwrite := hdrive.trans (comes_write _ hdrive.2)
    dsimp only
    split
    · exact hwrite.goes (.beside rfl rfl) hwrite.2
    · exact hwrite

end Channel

/-! ### Reconcilers -/

/-- A fiber that was not known to have ended, and is now, has ended. -/
theorem Fiber.result?_of_poll {α : Type} {f : Fiber α} {c : Cluster} (hf : f.endedAt = none) :
    (f.poll c).1.2.endedAt = none ∨ ∃ a, (f.poll c).1.2.result? = some a := by
  have hgoOn : ∀ (p : NodeProgram α) (w : Wait) (moved : Bool) (c : Cluster),
      (goOn f.node moved p w c).1.2.endedAt = none ∨
        ∃ a, (goOn f.node moved p w c).1.2.result? = some a := by
    intro p
    induction p with
    | done a => exact fun _ _ _ => .inr ⟨a, rfl⟩
    | ask r next ih =>
      intro w moved c
      rw [goOn]
      cases Cluster.attempt f.node r w c with
      | answered x c' => exact ih x _ _ _
      | waiting w' c' => exact .inl rfl
  rw [poll, hf]
  split
  · next heq => cases heq
  · split
    · exact hgoOn _ _ _ _
    · exact .inl hf
  · exact hgoOn _ _ _ _

namespace Reconciler

variable {b : BrokerId} {beats : String} {l : Lifecycle} {stops : Bool} {c : Cluster}

/-- No program under way is known to have ended. -/
def Phase.IsAwake : Phase → Prop
  | .starting f | .passing f _ | .leaving f => f.endedAt = none
  | .idle _ | .ended => True

theorem comes_await {before : Fiber Unit → Phase} {after : Phase} (f : Fiber Unit)
    (hbefore : ∀ (f : Fiber Unit) (c : Cluster) (news : List Told) (f' : Fiber Unit) (c' : Cluster),
      f.Goes c news f' c' → (before f).Goes l stops c news (before f') c')
    (hafter : ∀ (f : Fiber Unit) (c : Cluster), f.result? = some () →
      (before f).Goes l stops c [] after c)
    (hawake : ∀ f, f.endedAt = none → (before f).IsAwake) (hended : after.IsAwake)
    (hf : f.endedAt = none) (hb : Node.Behaves true c.store) :
    Comes (Phase.Goes l stops) b beats (before f) c
        ((await f c before after).1.2, (await f c before after).2) ∧
      (await f c before after).1.2.IsAwake := by
  have hpoll : Comes (Phase.Goes l stops) b beats (before f) c
      (before (f.poll c).1.2, (f.poll c).2) := (f.comes_poll hb).map before hbefore
  unfold await
  dsimp only
  rcases Fiber.result?_of_poll (c := c) hf with hnone | ⟨⟨⟩, hresult⟩
  · rw [hnone]
    exact ⟨hpoll, hawake _ hnone⟩
  · cases hended? : (f.poll c).1.2.endedAt with
    | none => exact ⟨hpoll, hawake _ hended?⟩
    | some t => exact ⟨hpoll.goes (hafter _ _ hresult) hpoll.2, hended⟩

theorem comes_advance (r : Reconciler) (hr : r.phase.IsAwake) (hb : Node.Behaves true c.store) :
    Comes (Phase.Goes r.lifecycle r.isStopping) b beats r.phase c
        ((r.advance c).1.2, (r.advance c).2) ∧ (r.advance c).1.2.IsAwake := by
  unfold advance
  dsimp only
  cases hp : r.phase with
  | starting f =>
    rw [hp] at hr
    exact comes_await f (fun _ _ _ _ _ => .starting) (fun _ _ h => .started h _)
      (fun _ h => h) trivial hr hb
  | idle due =>
    dsimp only
    split
    · next hstop =>
      have hquit : Comes (Phase.Goes r.lifecycle r.isStopping) b beats (.idle due) c (_, c) :=
        (Comes.refl hb).goes (.quit hstop) hb
      obtain ⟨hcomes, hawake⟩ := comes_await (b := b)
        (.new r.lifecycle.broker r.lifecycle.leaveMembership) (fun _ _ _ _ _ => .leaving)
        (fun _ _ => .left) (fun _ h => h) trivial rfl hb
      exact ⟨hquit.trans hcomes, hawake⟩
    · split
      · have hbegin : Comes (Phase.Goes r.lifecycle r.isStopping) b beats (.idle due) c (_, c) :=
          (Comes.refl hb).goes (.begin (r.nextDue due c.now)) hb
        obtain ⟨hcomes, hawake⟩ := comes_await (b := b)
          (.new r.lifecycle.broker r.lifecycle.reconcile) (fun _ _ _ _ _ => .passing)
          (fun _ _ => .passed) (fun _ h => h) trivial rfl hb
        exact ⟨hbegin.trans hcomes, hawake⟩
      · exact ⟨.refl hb, trivial⟩
  | passing f due =>
    rw [hp] at hr
    exact comes_await f (fun _ _ _ _ _ => .passing) (fun _ _ => .passed) (fun _ h => h) trivial hr
      hb
  | leaving f =>
    rw [hp] at hr
    exact comes_await f (fun _ _ _ _ _ => .leaving) (fun _ _ => .left) (fun _ h => h) trivial hr hb
  | ended => exact ⟨.refl hb, trivial⟩

end Reconciler

/-! ### Gateways -/

namespace Gateway

variable {g g' g'' : Gateway} {k : Channel.Controls} {beats : String} {c c' : Cluster}
  {t t' : Task} {before after : List Task}

def Task.IsAwake : Task → Prop
  | .channel _ => True
  | .reconciler r _ => r.phase.IsAwake

theorem Task.comes_poll (t : Task) (ht : t.IsAwake) (hb : Node.Behaves true c.store) :
    Comes (Task.Goes k.broker k.dispatch) k.broker beats t c ((t.poll k c).1.2, (t.poll k c).2) ∧
      (t.poll k c).1.2.IsAwake := by
  cases t with
  | channel ch =>
    exact ⟨(Channel.comes_poll ch hb).map Task.channel fun _ _ _ _ _ => .channel, trivial⟩
  | reconciler r place =>
    obtain ⟨hcomes, hawake⟩ := Reconciler.comes_advance (b := k.broker) r ht hb
    have hmoved : Comes (Task.Goes k.broker k.dispatch) k.broker beats (.reconciler r place) c
        (.reconciler { r with phase := (r.advance c).1.2 } place, (r.advance c).2) :=
      hcomes.map (fun p => Task.reconciler { r with phase := p } place)
        fun p _ _ _ _ hgoes => Task.Goes.reconciler (r := { r with phase := p }) hgoes
    exact ⟨hmoved.goes .queue hmoved.2, hawake⟩

/-- A node whose store behaves and whose reconciler takes note of the end of its programs. -/
def Sane (g : Gateway) : Prop := Node.Behaves true g.cluster.store ∧ ∀ t ∈ g.tasks, t.IsAwake

/-- A node comes to be another step by step, whatever its tasks told the store before. -/
def Becomes (g g' : Gateway) : Prop :=
  (∃ news, ∀ told drain, Steps ⟨g, told, drain⟩ ⟨g', news ++ told, drain⟩) ∧ g'.Sane

namespace Becomes

theorem refl (h : g.Sane) : Becomes g g := ⟨⟨[], fun _ _ => .refl⟩, h⟩

theorem trans (h : Becomes g g') (h' : Becomes g' g'') : Becomes g g'' := by
  obtain ⟨⟨news, hsteps⟩, -⟩ := h
  obtain ⟨⟨news', hsteps'⟩, hsane⟩ := h'
  refine ⟨⟨news' ++ news, fun told drain => ?_⟩, hsane⟩
  rw [List.append_assoc]
  exact (hsteps told drain).trans (hsteps' _ drain)

theorem single (h : ∀ told drain, Step ⟨g, told, drain⟩ ⟨g', told, drain⟩) (hg' : g'.Sane) :
    Becomes g g' :=
  ⟨⟨[], fun told drain => .single (h told drain)⟩, hg'⟩

end Becomes

theorem steps_of_moves {news told : List Told} {drain : Drain}
    (h : Moves (Task.Goes g.broker g.dispatch) g.broker g.cache.brokersKey t c news t' c') :
    Steps ⟨{ g with tasks := before ++ t :: after, cluster := c }, told, drain⟩
      ⟨{ g with tasks := before ++ t' :: after, cluster := c' }, news ++ told, drain⟩ := by
  induction h with
  | refl => exact .refl
  | goes _ hgoes ih =>
    rw [List.append_assoc]
    exact ih.tail (.task rfl hgoes)
  | around _ hspares ih => exact ih.tail (.around hspares)

/-- One task of a node goes on. -/
theorem becomes_task (h : { g with tasks := before ++ t :: after, cluster := c }.Sane)
    (hcomes : Comes (Task.Goes g.broker g.dispatch) g.broker g.cache.brokersKey t c (t', c'))
    (ht' : t'.IsAwake) :
    Becomes { g with tasks := before ++ t :: after, cluster := c }
      { g with tasks := before ++ t' :: after, cluster := c' } := by
  obtain ⟨⟨news, hmoves⟩, hb⟩ := hcomes
  refine ⟨⟨news, fun _ _ => steps_of_moves hmoves⟩, hb, fun t₂ ht₂ => ?_⟩
  rcases Ensemble.mem_middle.mp ht₂ with rfl | hother
  · exact ht'
  · exact h.2 t₂ (Ensemble.mem_middle.mpr (.inr hother))

theorem becomes_pollTasks (hbroker : k.broker = g.broker) (hdispatch : k.dispatch = g.dispatch)
    (rest before : List Task) (c : Cluster)
    (h : { g with tasks := before ++ rest, cluster := c }.Sane) :
    Becomes { g with tasks := before ++ rest, cluster := c }
      { g with tasks := before ++ (pollTasks k rest c).1.2
               cluster := (pollTasks k rest c).2 } := by
  induction rest generalizing k before c with
  | nil => exact .refl h
  | cons t rest ih =>
    have hcomes : Comes (Task.Goes k.broker k.dispatch) k.broker g.cache.brokersKey t c _ ∧ _ :=
      t.comes_poll (h.2 t (List.mem_append_right _ List.mem_cons_self)) h.1
    rw [hbroker, hdispatch] at hcomes
    have hfirst := becomes_task h hcomes.1 hcomes.2
    have hrest := ih (k := { k with place := k.place + 1 }) hbroker hdispatch
      (before ++ [(t.poll k c).1.2]) (t.poll k c).2 (by
        rw [← List.append_cons]
        exact hfirst.2)
    rw [← List.append_cons, ← List.append_cons] at hrest
    exact hfirst.trans hrest

/-- A round of a node comes about step by step. -/
theorem becomes_round (h : g.Sane) : Becomes g g.round.2 := by
  have htasks := becomes_pollTasks (g := g) (k := g.controls) rfl rfl g.tasks [] g.cluster h
  exact htasks.trans (.single (fun _ _ => .around (Cluster.Alike.refl _).spares) htasks.2)

theorem becomes_setTime (h : g.Sane) (time : Duration) : Becomes g (g.setTime time) :=
  .single (fun _ _ => .around (g.cluster.spares_setTime time)) h

theorem becomes_log (h : g.Sane) (e : Log.Event) :
    Becomes g { g with cluster := g.cluster.log e } := by
  have halike : g.cluster.Alike (g.cluster.log e) := Cluster.alike_of_sites rfl rfl rfl
  exact .single (fun _ _ => .around halike.spares) h

/-- Whatever a loop does that moves the tasks in rounds comes about step by step. -/
theorem respects_becomes {l : EventLoop Gateway} (hround : l.round = round)
    (htime : l.setTime = setTime) : l.Respects fun g g' => g.Sane → Becomes g g' where
  refl _ := .refl
  trans _ _ _ h h' hg := (h hg).trans (h' (h hg).2)
  round _ hg := hround ▸ becomes_round hg
  setTime time _ hg := htime ▸ becomes_setTime hg time

theorem becomes_settle (h : g.Sane) : Becomes g g.settle :=
  (respects_becomes rfl rfl).settle _ g h

theorem becomes_pass (h : g.Sane) (d : Duration) : Becomes g (g.pass d) :=
  (respects_becomes rfl rfl).runTo _ _ g h

theorem becomes_accept (h : g.Sane) (client : String) (a : Attributes)
    (hfresh : ∀ ch ∈ g.channels, ch.session.id ≠ g.nextId) : Becomes g (g.accept client a) := by
  refine .single (fun _ _ => .accept client a hfresh) ⟨h.1, fun t ht => ?_⟩
  rcases List.mem_append.mp ht with hold | hnew
  · exact h.2 t hold
  · cases List.mem_singleton.mp hnew
    trivial

theorem becomes_spawnReconciler (h : g.Sane) (hnone : ∀ t ∈ g.tasks, t.isReconciler = false) :
    Becomes g g.spawnReconciler := by
  refine .single (fun _ _ => .spawn hnone) ⟨h.1, fun t ht => ?_⟩
  rcases List.mem_append.mp ht with hold | hnew
  · exact h.2 t hold
  · cases List.mem_singleton.mp hnew
    cases g.isStopping <;> rfl

theorem sane_stop (h : g.Sane) {tasks : List Task} (htasks : tasks.Perm (g.tasks.map stopTask)) :
    { g with isStopping := true, tasks }.Sane := by
  refine ⟨h.1, fun t ht => ?_⟩
  obtain ⟨t', ht', rfl⟩ := List.mem_map.mp (htasks.mem_iff.mp ht)
  have hawake := h.2 t' ht'
  cases t' <;> exact hawake

theorem becomes_shutdown (h : g.Sane) : Becomes g g.shutdown := by
  rw [shutdown]
  split
  · exact .refl h
  · have htasks := (List.mergeSort_perm g.tasks fun a b => decide (a.place ≤ b.place)).map stopTask
    exact .single (fun _ _ => .shutdown htasks) (sane_stop h htasks)

/-- A task with its channel changed, if it is one. -/
def Task.mapChannel (f : Channel → Channel) : Task → Task
  | .channel ch => .channel (f ch)
  | .reconciler r place => .reconciler r place

theorem becomes_mapTasks {f : Channel → Channel}
    (hf : ∀ ch, (f ch).session = ch.session ∧ (f ch).phase = ch.phase) (rest before : List Task)
    (h : { g with tasks := before ++ rest }.Sane) :
    Becomes { g with tasks := before ++ rest }
      { g with tasks := before ++ rest.map (Task.mapChannel f) } := by
  induction rest generalizing before with
  | nil => exact .refl h
  | cons t rest ih =>
    have hfirst : Becomes { g with tasks := before ++ t :: rest }
        { g with tasks := before ++ t.mapChannel f :: rest } := by
      cases t with
      | channel ch =>
        exact becomes_task h ((Comes.refl h.1).goes (.channel (.beside (hf ch).1 (hf ch).2)) h.1)
          trivial
      | reconciler r place => exact .refl h
    have hrest := ih (before ++ [t.mapChannel f]) (by
      rw [← List.append_cons]
      exact hfirst.2)
    rw [← List.append_cons, ← List.append_cons] at hrest
    exact hfirst.trans hrest

/-- Clients send and read, and what they send waits for their sessions. -/
theorem becomes_mapChannels {f : Channel → Channel} (h : g.Sane)
    (hf : ∀ ch, (f ch).session = ch.session ∧ (f ch).phase = ch.phase) :
    Becomes g (g.mapChannels f) :=
  becomes_mapTasks hf g.tasks [] h

end Gateway

end SessionGateway
