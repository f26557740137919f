import SessionGateway.Proofs.Lifecycle.Errands
import SessionGateway.Proofs.Program.Strands

/-!
# The gauge of active sessions

Calls that register, publish again and remove, interleaved at their requests in any order. Every
session in the directory is counted by the gauge of its kind, except one that a registration has put
in place first and has not published.
-/

namespace SessionGateway

open Node (Answers Request)

namespace Lifecycle

/-! ### Scenes -/

/-- Any calls may be made, as long as none removes a connection while another registers it. The
store may fail without effect. Between two requests anything may happen that leaves the locks, the
directory and the gauges of the node alone. The note of a call is the kind of a session that it put
in place first, until it has published it or taken it back. -/
def errands (l : Lifecycle) : Ensemble Node.interface Errand (Option ConnectionKind) Cluster where
  program := Errand.program l
  answers _ := Answers l.broker true
  drifts k k' := k'.directory l.broker = k.directory l.broker ∧
    (∀ kind, (k'.site l.broker).lock kind = (k.site l.broker).lock kind) ∧
    ∀ kind, k'.gauge kind = k.gauge kind
  admits strands c := ∀ f ∈ strands, f.isDone = true ∨ c.Apart f.call
  blank := none
  notes pending r x := pendingAfter pending (event r x)

/-- A call of the errands with its note. -/
abbrev Runner : Type := Strand Node.interface Errand (Option ConnectionKind)

/-- How many calls have put a session of a kind in place first and have not published it. -/
def unpublished (strands : List Runner) (kind : ConnectionKind) : Nat :=
  strands.countP fun f => f.note = some kind

/-- Nobody has a lock, and all sessions are counted. -/
structure Begins (l : Lifecycle) (k : Cluster) : Prop where
  free : ∀ kind, ((k.site l.broker).lock kind).holder = none
  alone : ∀ kind, ((k.site l.broker).lock kind).waiting = []
  counted : ∀ kind, k.gauge kind = (k.directory l.broker).count kind

/-! ### What every step preserves -/

/-- A lock with so many inside; nobody waits for it. -/
structure Sole (lock : Lock) (n : Nat) : Prop where
  waiting : lock.waiting = []
  inside : n = if lock.holder.isSome then 1 else 0

/-- Calls, each with its phase. -/
abbrev Phased : Type := List (Runner × Phase)

def Phased.inside (phased : Phased) (kind : ConnectionKind) : Nat :=
  phased.countP fun e => e.2.place = some kind

def Phased.debt (phased : Phased) (kind : ConnectionKind) : Int :=
  phased.foldr (fun e owed => e.2.debt kind + owed) 0

/-- A session that the call of a phase has put in place is its own and is still there. -/
def Phase.Holds (c : Errand) (handle? : ConnectionKind → ConnectionId → Option Nat) (p : Phase) :
    Prop :=
  ∀ kind id h fresh, p = .enrolled kind id h fresh →
    c.registers? = some id ∧ handle? kind id = some h

/-- Both calls may be under way at once. -/
def Runner.Beside (f f' : Runner) : Prop :=
  f.isDone = true ∨ f'.isDone = true ∨ f.call.Apart f'.call

/-- What every step preserves: at most one call is inside each lock, what a call has put in place
stays there, and what the calls owe is what the gauges lack. -/
structure InBalance (l : Lifecycle) (k : Cluster) (phased : Phased) : Prop where
  follows : ∀ e ∈ phased, Follows e.1.call e.1.left e.2 fun p _ => p = .outside
  noted : ∀ e ∈ phased, e.1.note = e.2.pending?
  beside : phased.Pairwise fun e e' => Runner.Beside e.1 e'.1
  holds : ∀ e ∈ phased, e.2.Holds e.1.call (k.directory l.broker).handle?
  locks : ∀ kind, Sole ((k.site l.broker).lock kind) (phased.inside kind)
  balance : ∀ kind, k.gauge kind + phased.debt kind = (k.directory l.broker).count kind

section

variable {l : Lifecycle} {k k' : Cluster} {c c' : Errand} {p p' : Phase} {ev : Event}
  {kind : ConnectionKind} {f f' : Runner} {before after phased : Phased} {n : Nat} {lock : Lock}

theorem Runner.Beside.symm (h : f.Beside f') : f'.Beside f := by
  obtain h | h | h := h
  · exact .inr (.inl h)
  · exact .inl h
  · exact .inr (.inr h.symm)

theorem Phased.inside_middle : Phased.inside (before ++ (f, p) :: after) kind =
    Phased.inside (before ++ after) kind + if p.place = some kind then 1 else 0 := by
  simp only [Phased.inside, List.countP_append, List.countP_cons, decide_eq_true_eq]
  omega

theorem Phased.inside_cons_outside :
    Phased.inside ((f, .outside) :: phased) kind = phased.inside kind := by
  rw [Phased.inside, List.countP_cons_of_neg]
  · rfl
  · exact nofun

theorem Phased.debt_cons :
    Phased.debt ((f, p) :: phased) kind = p.debt kind + phased.debt kind :=
  rfl

theorem Phased.debt_middle : Phased.debt (before ++ (f, p) :: after) kind =
    Phased.debt (before ++ after) kind + p.debt kind := by
  induction before with
  | nil => exact Int.add_comm _ _
  | cons e before ih =>
    rw [List.cons_append, debt_cons, ih, List.cons_append, debt_cons, Int.add_assoc]

/-- At most one is inside once a call was answered. -/
theorem Sole.answered {place : Option ConnectionKind}
    (h : Sole lock (n + if place = some kind then 1 else 0)) (hev : ev.Befits place)
    (hfree : ev = .took kind → lock.holder = none) :
    Sole (ev.lockAfter kind lock) (n + if ev.placeAfter place = some kind then 1 else 0) := by
  obtain ⟨hwaiting, hinside⟩ := h
  cases ev with
  | took kind' =>
    obtain rfl : place = none := hev
    by_cases hkind : kind' = kind
    · subst hkind
      have hholder := hfree rfl
      rw [hholder] at hinside
      simp only [Event.lockAfter, if_true, Lock.join, hholder]
      exact ⟨hwaiting, by simpa [Event.placeAfter] using hinside⟩
    · simp only [Event.lockAfter, if_neg hkind, Event.placeAfter, Option.some.injEq]
      exact ⟨hwaiting, hinside⟩
  | gave kind' =>
    obtain rfl : place = some kind' := hev
    by_cases hkind : kind' = kind
    · subst hkind
      simp only [Event.lockAfter, if_true, Lock.pass, hwaiting]
      refine ⟨rfl, ?_⟩
      simp only [if_true] at hinside
      split at hinside <;> simp [Event.placeAfter] <;> omega
    · simp only [Event.lockAfter, if_neg hkind]
      simp only [Option.some.injEq, if_neg hkind] at hinside
      exact ⟨hwaiting, hinside⟩
  | nothing | put | dropped | missed | published | counted => exact ⟨hwaiting, hinside⟩

theorem Phase.Next.befits (h : Phase.Next c p ev p') : ev.Befits p.place := by
  cases h with
  | took | gave | put => rfl
  | nothing | aside | published | renewed | undone | lost | removed | counted => trivial

theorem Phase.Next.place_eq (h : Phase.Next c p ev p') : p'.place = ev.placeAfter p.place := by
  cases h with
  | @counted place => cases place <;> rfl
  | nothing | took | gave | put | aside | published | renewed | undone | lost | removed => rfl

/-- At most one is inside once a call has gone on. -/
theorem Sole.next (h : Sole lock (n + if p.place = some kind then 1 else 0))
    (hnext : Phase.Next c p ev p') (hfree : ev = .took kind → lock.holder = none) :
    Sole (ev.lockAfter kind lock) (n + if p'.place = some kind then 1 else 0) := by
  rw [hnext.place_eq]
  exact h.answered hnext.befits hfree

/-- What a call has put in place stays while it goes on. -/
theorem Phase.Holds.next {handle? handle?' : ConnectionKind → ConnectionId → Option Nat}
    (h : p.Holds c handle?) (hnext : Phase.Next c p ev p')
    (hafter : ∀ kind id, handle?' kind id = ev.handleAfter kind id (handle? kind id)) :
    p'.Holds c handle?' := by
  intro kind id handle fresh hp
  rw [hafter]
  cases hnext with
  | nothing => exact h _ _ _ _ hp
  | aside => exact h _ _ _ _ hp
  | put own =>
    cases hp
    exact ⟨own, if_pos ⟨rfl, rfl⟩⟩
  | @counted place => cases place <;> cases hp
  | took | gave | published | renewed | undone | lost | removed => cases hp

/-- What a call has put in place stays while another goes on that neither is inside the lock of its
kind nor removes its connection. -/
theorem Phase.Holds.beside {handle? handle?' : ConnectionKind → ConnectionId → Option Nat}
    {p₁ : Phase} (h : p₁.Holds c' handle?) (hnext : Phase.Next c p ev p')
    (hafter : ∀ kind id, handle?' kind id = ev.handleAfter kind id (handle? kind id))
    (hplace : ∀ kind, p.place = some kind → p₁.place ≠ some kind)
    (hapart : p₁ ≠ .outside → c.Apart c') : p₁.Holds c' handle?' := by
  rintro kind id handle fresh rfl
  obtain ⟨hown, hhandle⟩ := h _ _ _ _ rfl
  refine ⟨hown, ?_⟩
  rw [hafter, hhandle]
  cases hnext with
  | @put kind' =>
    have hne : kind' ≠ kind := fun heq => hplace kind' rfl (congrArg some heq.symm)
    exact if_neg fun heq => hne heq.1
  | @undone kind' | @lost kind' =>
    have hne : kind' ≠ kind := fun heq => hplace kind' rfl (congrArg some heq.symm)
    exact if_neg fun heq => hne heq.1
  | @removed kind' id' own =>
    refine if_neg ?_
    rintro ⟨-, rfl⟩
    exact (hapart nofun).2 id' hown own
  | nothing | took | gave | aside | published | renewed | counted => rfl

/-- A call that has ended is outside. -/
theorem outside_of_isDone (h : Follows f.call f.left p fun p _ => p = .outside)
    (hdone : f.isDone = true) : p = .outside := by
  rw [Strand.isDone_iff.mp hdone] at h
  exact h

/-- Nobody else is inside where a call is. -/
theorem InBalance.place_ne (h : InBalance l k (before ++ (f, p) :: after))
    {e : Runner × Phase} (he : e ∈ before ++ after) (hp : p.place = some kind) :
    e.2.place ≠ some kind := by
  have hinside := (h.locks kind).inside
  rw [Phased.inside_middle, if_pos hp] at hinside
  have hnone : Phased.inside (before ++ after) kind = 0 := by
    split at hinside <;> omega
  rw [Phased.inside, List.countP_eq_zero] at hnone
  intro hplace
  exact hnone e he (decide_eq_true hplace)

theorem InBalance.beside_middle (h : InBalance l k (before ++ (f, p) :: after))
    {e : Runner × Phase} (he : e ∈ before ++ after) : f.Beside e.1 := by
  have hmiddle := (List.pairwise_middle fun hx => hx.symm).mp h.beside
  exact List.rel_of_pairwise_cons hmiddle he

theorem inBalance_answer {note : Option ConnectionKind} {r : Request}
    {next : r.Answer → NodeProgram Unit} {x : r.Answer}
    (h : InBalance l k (before ++ (⟨c, note, .ask r next⟩, p) :: after))
    (hx : Answers l.broker true r k x k') :
    ∃ p', InBalance l k'
      (before ++ (⟨c, pendingAfter note (event r x), next x⟩, p') :: after) := by
  have hself : (⟨⟨c, note, .ask r next⟩, p⟩ : Runner × Phase) ∈
      before ++ (⟨c, note, .ask r next⟩, p) :: after := Ensemble.mem_middle.mpr (.inl rfl)
  obtain ⟨htells, hlocks, ⟨hcount, hhandle⟩, hgauge⟩ := effect_of_answer hx
  -- what was put in place is still there, so it is not missed when it is taken back
  have hexpected : p.Expects (event r x) := by
    intro kind id handle fresh hp hmissed
    rw [hmissed] at htells
    exact htells (h.holds _ hself _ _ _ _ hp).2
  obtain ⟨p', hnext, hrest⟩ := (h.follows _ hself).2 x hexpected
  refine ⟨p', ?_⟩
  constructor
  · intro e he
    rcases Ensemble.mem_middle.mp he with rfl | he
    · exact hrest
    · exact h.follows e (Ensemble.mem_middle.mpr (.inr he))
  · intro e he
    rcases Ensemble.mem_middle.mp he with rfl | he
    · rw [hnext.pending?_eq, ← h.noted _ hself]
    · exact h.noted e (Ensemble.mem_middle.mpr (.inr he))
  · rw [List.pairwise_middle fun hx => hx.symm]
    have hmiddle := (List.pairwise_middle fun hx => hx.symm).mp h.beside
    refine hmiddle.tail.cons ?_
    intro e he
    obtain hdone | hdone | hapart := List.rel_of_pairwise_cons hmiddle he
    · cases hdone
    · exact .inr (.inl hdone)
    · exact .inr (.inr hapart)
  · intro e he
    rcases Ensemble.mem_middle.mp he with rfl | he
    · exact (h.holds _ hself).next hnext hhandle
    · have hbefore : e ∈ before ++ (⟨c, note, .ask r next⟩, p) :: after :=
        Ensemble.mem_middle.mpr (.inr he)
      refine (h.holds e hbefore).beside hnext hhandle (fun kind hp => h.place_ne he hp) ?_
      intro hinside
      obtain hdone | hdone | hapart := h.beside_middle he
      · cases hdone
      · exact absurd (outside_of_isDone (h.follows e hbefore) hdone) hinside
      · exact hapart
  · intro kind
    rw [hlocks, Phased.inside_middle]
    have hlock := h.locks kind
    rw [Phased.inside_middle] at hlock
    refine hlock.next hnext ?_
    intro htook
    rw [htook] at htells
    exact htells
  · intro kind
    have hbalance := h.balance kind
    have hdebt : p'.debt kind + (event r x).counts kind = p.debt kind + (event r x).gains kind :=
      hnext.debt_eq kind
    rw [Phased.debt_middle] at hbalance ⊢
    rw [hgauge, hcount]
    omega

theorem inBalance_nil (h : Begins l k) : InBalance l k [] := by
  refine ⟨List.forall_mem_nil _, List.forall_mem_nil _, .nil, List.forall_mem_nil _, ?_, ?_⟩
  · intro kind
    refine ⟨h.alone kind, ?_⟩
    rw [h.free kind]
    rfl
  · intro kind
    exact (Int.add_zero _).trans (h.counted kind)

theorem inBalance_call (h : InBalance l k phased)
    (hbeside : ∀ e ∈ phased, e.1.isDone = true ∨ c.Apart e.1.call) :
    InBalance l k ((⟨c, none, c.program l⟩, .outside) :: phased) := by
  constructor
  · exact List.forall_mem_cons.mpr ⟨follows_program c, h.follows⟩
  · exact List.forall_mem_cons.mpr ⟨rfl, h.noted⟩
  · exact h.beside.cons fun e he => .inr (hbeside e he)
  · refine List.forall_mem_cons.mpr ⟨?_, h.holds⟩
    rintro _ _ _ _ ⟨⟩
  · intro kind
    rw [Phased.inside_cons_outside]
    exact h.locks kind
  · intro kind
    rw [Phased.debt_cons, Phase.debt, Int.zero_add]
    · exact h.balance kind
    · rintro _ _ _ ⟨⟩
    · rintro _ _ _ ⟨⟩

theorem inBalance_drift (h : InBalance l k phased) (hd : (errands l).drifts k k') :
    InBalance l k' phased := by
  obtain ⟨hdirectory, hlock, hgauge⟩ := hd
  refine ⟨h.follows, h.noted, h.beside, ?_, ?_, ?_⟩
  · rw [hdirectory]
    exact h.holds
  · intro kind
    rw [hlock]
    exact h.locks kind
  · intro kind
    rw [hgauge, hdirectory]
    exact h.balance kind

/-- At every moment the calls owe what the gauges lack. -/
theorem inBalance_of_reached
    {x : Ensemble.Scene Node.interface Errand (Option ConnectionKind) Cluster}
    (h : (errands l).Reached (Begins l) x) :
    ∃ phased, phased.map Prod.fst = x.strands ∧ InBalance l x.state phased := by
  refine h.ascribed (fun _ => inBalance_nil) ?_ ?_ ?_
  · exact fun k k' phased hbalance hd => inBalance_drift hbalance hd
  · intro k phased c hbalance hbeside
    exact ⟨.outside, inBalance_call hbalance fun e he => hbeside e.1 (List.mem_map_of_mem he)⟩
  · exact fun k k' before after c note r next p a hbalance ha => inBalance_answer hbalance ha

/-! ### What the gauge tells -/

theorem Phase.pending?_eq_some (h : p.pending? = some kind) :
    ∃ id handle, p = .enrolled kind id handle true := by
  cases p with
  | enrolled kind' id handle fresh =>
    cases fresh with
    | true =>
      obtain rfl := Option.some.inj h
      exact ⟨id, handle, rfl⟩
    | false => cases h
  | outside | inside | owing => cases h

theorem Phase.debt_eq_of_not_owing (h : p.isOwing = false) :
    p.debt kind = if p.pending? = some kind then 1 else 0 := by
  cases p with
  | enrolled kind' id handle fresh => cases fresh <;> simp [Phase.debt, Phase.pending?]
  | outside | inside => rfl
  | owing => cases h

variable (kind) in
theorem Phased.debt_eq_countP (h : ∀ e ∈ phased, e.2.isOwing = false) :
    phased.debt kind = (phased.countP fun e => e.2.pending? = some kind : Nat) := by
  induction phased with
  | nil => rfl
  | cons e phased ih =>
    obtain ⟨he, hrest⟩ := List.forall_mem_cons.mp h
    rw [Phased.debt_cons, ih hrest, Phase.debt_eq_of_not_owing he, List.countP_cons]
    simp only [decide_eq_true_eq]
    split <;> omega

/-- Whether a call is about to log or to count, which it does without waiting. -/
def Runner.isReporting (f : Runner) : Bool :=
  match f.left with
  | .ask r _ => r.isReport
  | .done _ => false

theorem isOwing_eq_false (h : Follows f.call f.left p fun p _ => p = .outside)
    (hquiet : f.isReporting = false) : p.isOwing = false := by
  obtain ⟨call, note, left⟩ := f
  cases left with
  | done a =>
    obtain rfl : p = .outside := h
    rfl
  | ask r next =>
    refine Bool.eq_false_iff.mpr fun howing => ?_
    have hreport : r.isReport = true := h.1 howing
    rw [show r.isReport = false from hquiet] at hreport
    cases hreport

theorem InBalance.unpublished_eq (h : InBalance l k phased) :
    unpublished (phased.map Prod.fst) kind =
      phased.countP fun e => e.2.pending? = some kind := by
  rw [unpublished, List.countP_map]
  apply List.countP_congr
  intro e he
  simp only [Function.comp_apply, h.noted e he]

/-- What a call has in place and not published is its own, and it has not ended. -/
theorem InBalance.pending (h : InBalance l k phased) {e : Runner × Phase} (he : e ∈ phased)
    (hnote : e.1.note = some kind) : e.1.isDone = false ∧
      ∃ id handle, e.1.call.registers? = some id ∧
        (k.directory l.broker).handle? kind id = some handle := by
  rw [h.noted e he] at hnote
  obtain ⟨id, handle, hp⟩ := Phase.pending?_eq_some hnote
  refine ⟨Bool.eq_false_iff.mpr fun hdone => ?_, id, handle, h.holds e he _ _ _ _ hp⟩
  rw [outside_of_isDone (h.follows e he) hdone] at hp
  cases hp

/-- What is not published was put in place inside the lock of its kind. -/
theorem InBalance.unpublished_le_one (h : InBalance l k phased) (kind : ConnectionKind) :
    unpublished (phased.map Prod.fst) kind ≤ 1 := by
  have hle : unpublished (phased.map Prod.fst) kind ≤ phased.inside kind := by
    rw [h.unpublished_eq]
    refine List.countP_mono_left fun e he hp => ?_
    obtain ⟨id, handle, hp⟩ := Phase.pending?_eq_some (of_decide_eq_true hp)
    rw [hp]
    exact decide_eq_true rfl
  have hinside := (h.locks kind).inside
  split at hinside <;> omega

/-- Whenever no call is about to report, the gauge of a kind tells how many sessions of the kind are
in the directory, less those that a registration has put in place first and has not published. There
are never more of these than sessions, and none if every registration has ended. -/
theorem gauge_counts_sessions
    {x : Ensemble.Scene Node.interface Errand (Option ConnectionKind) Cluster}
    (h : (errands l).Reached (Begins l) x) (hquiet : ∀ f ∈ x.strands, Runner.isReporting f = false)
    (kind : ConnectionKind) :
    x.state.gauge kind = (x.state.directory l.broker).count kind -
        unpublished x.strands kind ∧
      (∀ f ∈ x.strands, f.note = some kind → f.isDone = false ∧ ∃ id handle,
        f.call.registers? = some id ∧
          (x.state.directory l.broker).handle? kind id = some handle) ∧
      0 ≤ x.state.gauge kind ∧
      ((∀ f ∈ x.strands, f.call.registers?.isSome = true → f.isDone = true) →
        x.state.gauge kind = (x.state.directory l.broker).count kind) := by
  obtain ⟨phased, hstrands, hbalance⟩ := inBalance_of_reached h
  rw [← hstrands] at hquiet ⊢
  have hdebt := Phased.debt_eq_countP kind fun e he =>
    isOwing_eq_false (hbalance.follows e he) (hquiet e.1 (List.mem_map_of_mem he))
  have hgauge := hbalance.balance kind
  rw [hdebt, ← hbalance.unpublished_eq] at hgauge
  have hpending : ∀ f ∈ phased.map Prod.fst, f.note = some kind → f.isDone = false ∧
      ∃ id handle, f.call.registers? = some id ∧
        (x.state.directory l.broker).handle? kind id = some handle := by
    intro f hf hnote
    obtain ⟨e, he, rfl⟩ := List.mem_map.mp hf
    exact hbalance.pending he hnote
  refine ⟨by omega, hpending, ?_, ?_⟩
  · rcases Nat.eq_zero_or_pos (unpublished (phased.map Prod.fst) kind) with hnone | hsome
    · omega
    · obtain ⟨f, hf, hnote⟩ := List.countP_pos_iff.mp hsome
      obtain ⟨-, id, handle, -, hhandle⟩ := hpending f hf (of_decide_eq_true hnote)
      have hcount := Directory.count_pos_of_handle? hhandle
      have hsole := hbalance.unpublished_le_one kind
      omega
  · intro hended
    have hnone : unpublished (phased.map Prod.fst) kind = 0 := by
      refine List.countP_eq_zero.mpr fun f hf hnote => ?_
      obtain ⟨hdone, id, -, hregisters, -⟩ := hpending f hf (of_decide_eq_true hnote)
      rw [hended f hf (by rw [hregisters]; rfl)] at hdone
      cases hdone
    omega

end

/-! ### A registration under way -/

theorem answers_of_free (l : Lifecycle) {r : Request} {k : Cluster} {x : r.Answer} {k' : Cluster}
    (hk : Node.Behaves true k.store)
    (hx : (if Node.isFree l.broker k r then some (k.perform l.broker r) else none) = some (x, k')) :
    Answers l.broker true r k x k' ∧ Node.Behaves true k'.store := by
  split at hx
  · next hfree =>
    have hanswer := Node.answers_perform l.broker r hk hfree
    rw [Option.some.inj hx] at hanswer
    exact hanswer
  · cases hx

/-- The errands as the cluster answers them by itself. -/
def performing (l : Lifecycle) : Ensemble.Player (errands l) where
  answer _ r k := if Node.isFree l.broker k r then some (k.perform l.broker r) else none
  drift t k := some { k with now := .ofMillis t }
  allow strands c := decide (∀ f ∈ strands, f.isDone = true ∨ c.Apart f.call)
  Good k := Node.Behaves true k.store
  answers := answers_of_free l
  drifts {t k k'} hk hd := by
    obtain rfl := Option.some.inj hd
    exact ⟨⟨rfl, fun _ => rfl, fun _ => rfl⟩, hk⟩
  admits {strands c} h :=
    of_decide_eq_true (p := ∀ f ∈ strands, f.isDone = true ∨ c.Apart f.call) h

/-- A second connection of the user of `visitor` opens while the first is not published yet. -/
def doubleVisit : List (Ensemble.Move Errand) :=
  [.call (.opens companion), .advance 0 10, .call (.opens visitor), .drift 3, .advance 0 4]

/-- Two sessions are in the directory and one of them is counted. -/
theorem one_of_two_counted : ∃ x, (errands porter).Reached (Begins porter) x ∧
    (∀ f ∈ x.strands, Runner.isReporting f = false) ∧
    (x.state.directory porter.broker).count .endUser = 2 ∧
    unpublished x.strands .endUser = 1 ∧ x.state.gauge .endUser = 1 := by
  have hplay : ((performing porter).play doubleVisit ⟨doorstep, []⟩).any (fun x =>
      x.strands.all (fun f => !Runner.isReporting f) &&
      (x.state.directory porter.broker).count .endUser = 2 &&
      unpublished x.strands .endUser = 1) = true := by decide +kernel
  obtain ⟨x, hx, htest⟩ := (Option.any_eq_true _ _).mp hplay
  simp only [Bool.and_eq_true, decide_eq_true_eq, List.all_eq_true, Bool.not_eq_true'] at htest
  obtain ⟨⟨hquiet, hcount⟩, hpending⟩ := htest
  have hstart : Begins porter doorstep := by
    constructor <;> rintro (_ | _) <;> rfl
  have hstore : Node.Behaves true doorstep.store := ⟨rfl, rfl, nofun⟩
  have hreached := Ensemble.Player.reached_play (.start hstart) hstore hx
  obtain ⟨hgauge, -⟩ := gauge_counts_sessions hreached hquiet .endUser
  rw [hcount, hpending] at hgauge
  exact ⟨x, hreached, hquiet, hcount, hpending, hgauge⟩

end Lifecycle

end SessionGateway
