import SessionGateway.Proofs.Lifecycle.Locking
import SessionGateway.Proofs.Program.Strands

/-!
# Calls side by side

Any number of connections that open and of passes that publish again, interleaved at their requests
in any order. Between two requests each call stands outside the locks or holds one of them, and a
half whose lock is free agrees. So when no call is under way, the directory of the node and its part
of the cache hold the same sessions.
-/

namespace SessionGateway

open Node (Answers Request)
open SessionCache (userField)
open Store (Memory)

namespace Lifecycle

/-! ### Calls under way -/

/-- A call of the controller. -/
inductive Call where
  | opens (t : Transport)
  | republishes

/-- The connection that a call is to register. -/
def Call.connection? : Call → Option ConnectionId
  | .opens t => t.id?
  | .republishes => none

/-- What is done for a call, whatever comes of it. -/
def Call.program (l : Lifecycle) : Call → NodeProgram Unit
  | .opens t => (l.onOpen t).bind fun _ => .done ()
  | .republishes => l.republish.bind fun _ => .done ()

/-- The calls do not register the same connection. -/
def Call.Apart (c c' : Call) : Prop := ∀ id, c.connection? = some id → c'.connection? ≠ some id

/-- Calls of a node while nothing expires. The note of a call is whether the store has failed for
it. After that, all that the call still asks of the store is to restore a user's field; that does
not fail. -/
def calls (l : Lifecycle) : Ensemble Node.interface Call Bool Cluster where
  program := Call.program l
  answers hurt r k x k' := Answers l.broker (!hurt) r k x k' ∧ k'.memory.Unexpired k'.now
  drifts k k' := k.now ≤ k'.now ∧ k.memory.Unexpired k'.now ∧ k' = { k with now := k'.now }
  admits strands c := ∀ f ∈ strands, c.Apart f.call
  blank := false
  notes hurt r x := hurt || failed r x

/-- A call under way, or one that has ended. -/
abbrev Flight : Type := Strand Node.interface Call Bool

/-- An empty directory, an empty store and free locks. -/
structure Untouched (l : Lifecycle) (k : Cluster) : Prop where
  directory : k.directory l.broker = .empty l.broker
  memory : k.memory = .empty
  locks : ∀ kind, (k.site l.broker).lock kind = .free

/-! ### Where a call stands -/

/-- A call stands outside the locks or holds the lock of a kind. Outside, the connection for which
it may still act is not in the directory. -/
inductive Standing (l : Lifecycle) (k : Cluster) (f : Flight) : Option ConnectionKind → Prop
  | outside {own : Option ConnectionId}
      (owns : ∀ id, own = some id → f.call.connection? = some id ∧ (k.directory l.broker).Absent id)
      (guarded : Guarded l own f.left) : Standing l k f none
  | inside {kind : ConnectionKind} {own : Option ConnectionId} {β : Type} {body : NodeProgram β}
      {rest : β → NodeProgram Unit} (owns : ∀ id, own = some id → f.call.connection? = some id)
      (left : f.left = body.bind fun a => .ask (.release kind) fun _ => rest a)
      (under : Under l kind own body (half l k kind, f.note) fun _ v => Agreed l.broker kind v.1)
      (after : ∀ a, Guarded l none (rest a)) : Standing l k f (some kind)

/-- The lock of a kind with so many calls inside. -/
structure LockKept (l : Lifecycle) (k : Cluster) (kind : ConnectionKind) (inside : Nat) : Prop where
  waiting : ((k.site l.broker).lock kind).waiting = []
  held : ((k.site l.broker).lock kind).holder.isSome → inside = 1
  free : ((k.site l.broker).lock kind).holder = none →
    inside = 0 ∧ Agreed l.broker kind (half l k kind)

/-- Calls, each with the kind whose lock it holds. -/
abbrev Placed : Type := List (Flight × Option ConnectionKind)

def Placed.inside (placed : Placed) (kind : ConnectionKind) : Nat :=
  placed.countP fun e => e.2 = some kind

/-- What every step preserves: each call stands where it may, at most one holds each lock, and only
connections that calls were made for are in the directory. -/
structure Safe (l : Lifecycle) (k : Cluster) (placed : Placed) : Prop where
  sound : Sound l k
  apart : (placed.map fun e => e.1.call).Pairwise Call.Apart
  standing : ∀ e ∈ placed, Standing l k e.1 e.2
  known : ∀ id, (∀ e ∈ placed, e.1.call.connection? ≠ some id) → (k.directory l.broker).Absent id
  locks : ∀ kind, LockKept l k kind (placed.inside kind)

section

variable {l : Lifecycle} {k k' : Cluster} {kind : ConnectionKind} {f f' : Flight}
  {place place' : Option ConnectionKind} {before after placed : Placed} {n : Nat}

theorem Call.Apart.symm {c c' : Call} (h : c.Apart c') : c'.Apart c :=
  fun id hc' hc => h id hc hc'

theorem inside_middle : Placed.inside (before ++ (f, place) :: after) kind =
    Placed.inside (before ++ after) kind + if place = some kind then 1 else 0 := by
  simp only [Placed.inside, List.countP_append, List.countP_cons, decide_eq_true_eq]
  omega

theorem Standing.congr (h : Standing l k f place)
    (hd : ∀ id, f.call.connection? = some id → (k.directory l.broker).Absent id →
      (k'.directory l.broker).Absent id)
    (hhalf : ∀ kind, place = some kind → half l k' kind = half l k kind) :
    Standing l k' f place := by
  cases h with
  | outside owns guarded =>
    refine .outside ?_ guarded
    intro id hid
    obtain ⟨hcall, habsent⟩ := owns id hid
    exact ⟨hcall, hd id hcall habsent⟩
  | @inside kind own β body rest owns left under after =>
    refine .inside owns left ?_ after
    rw [hhalf kind rfl]
    exact under

theorem LockKept.congr (h : LockKept l k kind n)
    (hlock : (k'.site l.broker).lock kind = (k.site l.broker).lock kind)
    (hhalf : n = 0 → half l k' kind = half l k kind) : LockKept l k' kind n := by
  obtain ⟨hwaiting, hheld, hfree⟩ := h
  rw [← hlock] at hwaiting hheld hfree
  refine ⟨hwaiting, hheld, ?_⟩
  intro hholder
  obtain ⟨hn, hagreed⟩ := hfree hholder
  rw [hhalf hn]
  exact ⟨hn, hagreed⟩

/-- Nobody else is inside where a call is. -/
theorem Safe.alone (h : Safe l k (before ++ (f, some kind) :: after)) :
    Placed.inside (before ++ after) kind = 0 ∧
      ((k.site l.broker).lock kind).holder.isSome := by
  have hlock := h.locks kind
  rw [inside_middle, if_pos rfl] at hlock
  cases hholder : ((k.site l.broker).lock kind).holder with
  | none =>
    have := (hlock.free hholder).1
    omega
  | some ticket =>
    have := hlock.held (by rw [hholder]; rfl)
    exact ⟨by omega, rfl⟩

theorem Safe.beside_ne (h : Safe l k (before ++ (f, some kind) :: after))
    {e : Flight × Option ConnectionKind} (he : e ∈ before ++ after) : e.2 ≠ some kind := by
  have hnone := h.alone.1
  rw [Placed.inside, List.countP_eq_zero] at hnone
  intro hplace
  exact hnone e he (decide_eq_true hplace)

theorem Safe.beside_apart (h : Safe l k (before ++ (f, place) :: after))
    {e : Flight × Option ConnectionKind} (he : e ∈ before ++ after) : e.1.call.Apart f.call := by
  have hapart := h.apart
  simp only [List.map_append, List.map_cons, List.pairwise_append, List.pairwise_cons] at hapart
  obtain ⟨-, ⟨hafter, -⟩, hbefore⟩ := hapart
  rcases List.mem_append.mp he with he | he
  · exact hbefore _ (List.mem_map_of_mem he) _ List.mem_cons_self
  · exact (hafter _ (List.mem_map_of_mem he)).symm

/-- What a step of one call must keep for the others. -/
theorem Safe.act (h : Safe l k (before ++ (f, place) :: after)) (hcall : f'.call = f.call)
    (hsound : Sound l k')
    (hd : ∀ id, f.call.connection? ≠ some id → (k.directory l.broker).Absent id →
      (k'.directory l.broker).Absent id)
    (hhalf : ∀ kind, place ≠ some kind → half l k' kind = half l k kind)
    (hstanding : Standing l k' f' place')
    (hlocks : ∀ kind n, LockKept l k kind (n + if place = some kind then 1 else 0) →
      LockKept l k' kind (n + if place' = some kind then 1 else 0)) :
    Safe l k' (before ++ (f', place') :: after) where
  sound := hsound
  apart := by
    have hcalls : (before ++ (f', place') :: after).map (fun e => e.1.call) =
        (before ++ (f, place) :: after).map fun e => e.1.call := by
      simp only [List.map_append, List.map_cons, hcall]
    rw [hcalls]
    exact h.apart
  standing e he := by
    rcases Ensemble.mem_middle.mp he with rfl | he
    · exact hstanding
    · refine (h.standing e (Ensemble.mem_middle.mpr (.inr he))).congr ?_ ?_
      · intro id hid habsent
        exact hd id (h.beside_apart he id hid) habsent
      · intro kind hkind
        apply hhalf kind
        rintro rfl
        exact h.beside_ne he hkind
  known id hid := by
    have hcaller : f.call.connection? ≠ some id := by
      rw [← hcall]
      exact hid (f', place') (Ensemble.mem_middle.mpr (.inl rfl))
    refine hd id hcaller (h.known id ?_)
    intro e he
    rcases Ensemble.mem_middle.mp he with rfl | he
    · exact hcaller
    · exact hid e (Ensemble.mem_middle.mpr (.inr he))
  locks kind := by
    rw [inside_middle]
    apply hlocks
    rw [← inside_middle]
    exact h.locks kind

/-! ### What a step preserves -/

theorem safe_wait {now : Duration} (h : Safe l k placed) (later : k.now ≤ now)
    (live : k.memory.Unexpired now) : Safe l { k with now := now } placed := by
  have hlive : ∀ key, k.memory.live? now key = k.memory.live? k.now key := by
    intro key
    rw [Memory.live?_eq_of_unexpired live, Memory.live?_eq_of_unexpired h.sound.unexpired]
  have hhalf : ∀ kind, half l { k with now := now } kind = half l k kind := half_congr rfl hlive
  have hsound : Sound l { k with now := now } := by
    constructor
    · exact live
    · exact h.sound.users.later later
    · exact h.sound.groups.later later
    · exact fun id => (h.sound.connections id).later later
  constructor
  · exact hsound
  · exact h.apart
  · intro e he
    exact (h.standing e he).congr (fun _ _ habsent => habsent) fun kind _ => hhalf kind
  · exact h.known
  · intro kind
    exact (h.locks kind).congr rfl fun _ => hhalf kind

theorem guarded_program (c : Call) : Guarded l c.connection? (c.program l) := by
  cases c with
  | opens t => exact (guarded_onOpen t).bind fun _ _ => .done ()
  | republishes => exact guarded_republish.bind fun _ _ => .done ()

theorem safe_call {c : Call} (h : Safe l k placed) (fresh : ∀ e ∈ placed, c.Apart e.1.call) :
    Safe l k ((⟨c, false, c.program l⟩, none) :: placed) := by
  constructor
  · exact h.sound
  · refine List.Pairwise.cons ?_ h.apart
    intro c' hc'
    obtain ⟨e, he, rfl⟩ := List.mem_map.mp hc'
    exact fresh e he
  · intro e he
    rcases List.mem_cons.mp he with rfl | he
    · refine .outside ?_ (guarded_program c)
      intro id hid
      exact ⟨hid, h.known id fun e he => fresh e he id hid⟩
    · exact h.standing e he
  · intro id hid
    exact h.known id fun e he => hid e (List.mem_cons_of_mem _ he)
  · intro kind
    have hinside : Placed.inside ((⟨c, false, c.program l⟩, none) :: placed) kind =
        placed.inside kind := by
      simp [Placed.inside]
    rw [hinside]
    exact h.locks kind

theorem half_setLock (l : Lifecycle) (k : Cluster) (kind : ConnectionKind) (lock : Lock)
    (kind' : ConnectionKind) :
    half l (k.setLock l.broker kind lock) kind' = half l k kind' :=
  half_congr (Cluster.directory_setLock _ _ _ _) (fun _ => rfl) kind'

/-- A lock that is set leaves the lock of the other kind as it was. -/
theorem LockKept.setLock_ne {kind' : ConnectionKind} {lock : Lock} (h : LockKept l k kind' n)
    (hne : kind ≠ kind') : LockKept l (k.setLock l.broker kind lock) kind' n := by
  refine h.congr ?_ fun _ => half_setLock _ _ _ _ _
  rw [Cluster.lock_setLock, if_neg hne]

theorem lockKept_held {lock : Lock} (hwaiting : lock.waiting = []) (hheld : lock.holder.isSome) :
    LockKept l (k.setLock l.broker kind lock) kind 1 := by
  have hlock : ((k.setLock l.broker kind lock).site l.broker).lock kind = lock := by
    rw [Cluster.lock_setLock, if_pos rfl]
  constructor
  · rw [hlock]
    exact hwaiting
  · intro _
    rfl
  · intro hfree
    rw [hlock] at hfree
    rw [hfree] at hheld
    cases hheld

theorem lockKept_free {lock : Lock} (hwaiting : lock.waiting = []) (hfree : lock.holder = none)
    (hagreed : Agreed l.broker kind (half l k kind)) :
    LockKept l (k.setLock l.broker kind lock) kind 0 := by
  have hlock : ((k.setLock l.broker kind lock).site l.broker).lock kind = lock := by
    rw [Cluster.lock_setLock, if_pos rfl]
  constructor
  · rw [hlock]
    exact hwaiting
  · intro hheld
    rw [hlock, hfree] at hheld
    cases hheld
  · intro _
    rw [half_setLock]
    exact ⟨rfl, hagreed⟩

theorem lacks_of_absent {own : Option ConnectionId}
    (h : ∀ id, own = some id → (k.directory l.broker).Absent id) (kind : ConnectionKind) :
    Lacks kind (half l k kind) own := by
  cases kind with
  | endUser => exact fun id hid => (h id hid).1
  | groupSecret => exact fun id hid => (h id hid).2

section

variable {c : Call} {r : Request} {next : r.Answer → NodeProgram Unit} {hurt : Bool} {x : r.Answer}

theorem safe_aside (h : Safe l k (before ++ (⟨c, hurt, .ask r next⟩, none) :: after))
    (hr : r.IsAside) {own : Option ConnectionId}
    (owns : ∀ id, own = some id → c.connection? = some id ∧ (k.directory l.broker).Absent id)
    (rest : ∀ x, Guarded l own (next x)) (hx : Answers l.broker (!hurt) r k x k') :
    Safe l k' (before ++ (⟨c, hurt || failed r x, next x⟩, none) :: after) := by
  obtain ⟨hnow, hsites, hmemory⟩ := aside_answer hr hx
  have hd : k'.directory l.broker = k.directory l.broker := Cluster.directory_congr hsites
  have hlock : ∀ kind, (k'.site l.broker).lock kind = (k.site l.broker).lock kind := by
    intro kind
    have hinside : Inside l kind none r := inside_of_aside hr
    exact lock_answer hinside hx
  refine h.act rfl (h.sound.congr hnow hmemory) ?_ (fun kind _ => half_aside hr hx kind) ?_ ?_
  · intro id _ habsent
    rw [hd]
    exact habsent
  · refine .outside ?_ (rest x)
    rw [hd]
    exact owns
  · intro kind n hkept
    exact hkept.congr (hlock kind) fun _ => half_aside hr hx kind

/-- A call that takes a lock is inside; it finds a half that agrees. -/
theorem safe_enter {patience : Option Duration} {next : Bool → NodeProgram Unit} {β : Type}
    {body : NodeProgram β} {rest : β → NodeProgram Unit} {own : Option ConnectionId}
    (h : Safe l k (before ++ (⟨c, hurt, .ask (.acquire kind patience) next⟩, none) :: after))
    (owns : ∀ id, own = some id → c.connection? = some id ∧ (k.directory l.broker).Absent id)
    (keeps : Keeps l kind own body)
    (had : next true = body.bind fun a => .ask (.release kind) fun _ => rest a)
    (hafter : ∀ a, Guarded l none (rest a))
    (hfree : ((k.site l.broker).lock kind).holder = none) :
    Safe l (k.setLock l.broker kind ((k.site l.broker).lock kind).join.2)
      (before ++ (⟨c, hurt, next true⟩, some kind) :: after) := by
  have hagreed := ((h.locks kind).free hfree).2
  have hlacks := lacks_of_absent (fun id hid => (owns id hid).2) kind
  have hhalf := half_setLock l k kind ((k.site l.broker).lock kind).join.2
  refine h.act rfl (h.sound.congr rfl rfl) ?_ (fun kind' _ => hhalf kind') ?_ ?_
  · intro id _ habsent
    rw [Cluster.directory_setLock]
    exact habsent
  · refine .inside (fun id hid => (owns id hid).1) had ?_ hafter
    rw [hhalf]
    exact keeps _ _ hagreed hlacks
  · intro kind' n hn
    by_cases hkind : kind = kind'
    · subst hkind
      have hnone : n = 0 := by
        have := (hn.free hfree).1
        omega
      have hjoin : ((k.site l.broker).lock kind).join.2.waiting = [] ∧
          ((k.site l.broker).lock kind).join.2.holder.isSome := by
        simp only [Lock.join, hfree, hn.waiting, Option.isSome_some, and_self]
      rw [hnone, if_pos rfl]
      exact lockKept_held hjoin.1 hjoin.2
    · have hplace : some kind ≠ some kind' := fun heq => hkind (Option.some.inj heq)
      rw [if_neg hplace]
      exact LockKept.setLock_ne hn hkind

/-- A request under a lock. -/
theorem safe_inside {own : Option ConnectionId} {β : Type} {ask : r.Answer → NodeProgram β}
    {rest : β → NodeProgram Unit}
    (h : Safe l k (before ++ (⟨c, hurt, .ask r next⟩, some kind) :: after))
    (owns : ∀ id, own = some id → c.connection? = some id)
    (left : ∀ x, next x = (ask x).bind fun a => .ask (.release kind) fun _ => rest a)
    (under : Under l kind own (.ask r ask) (half l k kind, hurt)
      fun _ v => Agreed l.broker kind v.1)
    (hafter : ∀ a, Guarded l none (rest a)) (hx : Answers l.broker (!hurt) r k x k')
    (live : k'.memory.Unexpired k'.now) :
    Safe l k' (before ++ (⟨c, hurt || failed r x, next x⟩, some kind) :: after) := by
  obtain ⟨hr, hunder⟩ := under
  have hsound : Sound l k' := sound_answer h.sound hr hx live
  have hbeside : Beside l kind r (half l k kind, hurt) x (half l k' kind, hurt || failed r x) :=
    ⟨rfl, k, k', h.sound, hsound, rfl, rfl, hx⟩
  have hother : ∀ kind', some kind ≠ some kind' → half l k' kind' = half l k kind' := by
    intro kind' hne
    exact half_other hr hx fun heq => hne (congrArg some heq.symm)
  refine h.act rfl hsound ?_ hother ?_ ?_
  · intro id hid
    refine (directory_answer hr hx).absent id ?_
    intro hown
    exact hid (owns id hown)
  · exact .inside owns (left x) (hunder x _ hbeside) hafter
  · intro kind' n hn
    refine hn.congr (lock_answer hr hx) ?_
    intro hzero
    apply hother
    rintro heq
    rw [if_pos heq] at hzero
    omega

/-- A call that gives a lock back leaves a half that agrees. -/
theorem safe_leave {next : Unit → NodeProgram Unit}
    (h : Safe l k (before ++ (⟨c, hurt, .ask (.release kind) next⟩, some kind) :: after))
    (hagreed : Agreed l.broker kind (half l k kind)) (hafter : Guarded l none (next ())) :
    Safe l (k.setLock l.broker kind ((k.site l.broker).lock kind).pass)
      (before ++ (⟨c, hurt, next ()⟩, none) :: after) := by
  have hhalf := half_setLock l k kind ((k.site l.broker).lock kind).pass
  refine h.act rfl (h.sound.congr rfl rfl) ?_ (fun kind' _ => hhalf kind') ?_ ?_
  · intro id _ habsent
    rw [Cluster.directory_setLock]
    exact habsent
  · refine .outside ?_ hafter
    intro id hid
    cases hid
  · intro kind' n hn
    by_cases hkind : kind = kind'
    · subst hkind
      have hnone : n = 0 := by
        have := hn.held h.alone.2
        simp only [if_true] at this
        omega
      have hpass : ((k.site l.broker).lock kind).pass.waiting = [] ∧
          ((k.site l.broker).lock kind).pass.holder = none := by
        simp only [Lock.pass, hn.waiting, List.head?_nil, List.tail_nil, and_self]
      rw [hnone, if_neg nofun]
      exact lockKept_free hpass.1 hpass.2 hagreed
    · have hplace : some kind ≠ some kind' := fun heq => hkind (Option.some.inj heq)
      rw [if_neg hplace] at hn
      exact LockKept.setLock_ne hn hkind

theorem safe_answer {place : Option ConnectionKind}
    (h : Safe l k (before ++ (⟨c, hurt, .ask r next⟩, place) :: after))
    (hx : Answers l.broker (!hurt) r k x k') (live : k'.memory.Unexpired k'.now) :
    ∃ place', Safe l k' (before ++ (⟨c, hurt || failed r x, next x⟩, place') :: after) := by
  have hstanding := h.standing _ (List.mem_append_right _ List.mem_cons_self)
  cases hstanding with
  | @outside own owns guarded =>
    cases guarded with
    | aside hr rest => exact ⟨none, safe_aside h hr owns rest hx⟩
    | @locked _ kind patience _ β body rest keeps had late hafter =>
      obtain ⟨rfl, hfree, rfl⟩ | ⟨rfl, -, rfl⟩ := hx
      · refine ⟨some kind, ?_⟩
        simp only [failed, Bool.or_false]
        exact safe_enter h owns keeps had hafter hfree
      · refine ⟨none, ?_⟩
        simp only [failed, Bool.or_false]
        refine h.act rfl h.sound (fun _ _ habsent => habsent) (fun _ _ => rfl) ?_ fun _ _ hn => hn
        exact .outside owns late
  | @inside kind own β body rest owns left under hafter =>
    cases body with
    | done a =>
      cases left
      cases hx
      refine ⟨none, ?_⟩
      simp only [failed, Bool.or_false]
      exact safe_leave h under (hafter a)
    | ask r' ask =>
      cases left
      exact ⟨some kind, safe_inside h owns (fun _ => rfl) under hafter hx live⟩

end

theorem agreed_start (directory : k.directory l.broker = .empty l.broker)
    (memory : k.memory = .empty) (kind : ConnectionKind) :
    Agreed l.broker kind (half l k kind) := by
  have hlive : ∀ key, k.memory.live? k.now key = none := by
    intro key
    rw [memory]
    exact Memory.live?_empty
  cases kind with
  | endUser =>
    have hhalf : half l k .endUser = ⟨.empty, fun _ => none, fun _ => none⟩ := by
      simp only [half, directory, Memory.fieldsAt, Memory.textAt, hlive, Option.bind_none]
      rfl
    rw [hhalf]
    exact UserHalf.agrees_empty
  | groupSecret =>
    have hhalf : half l k .groupSecret = ⟨.empty, fun _ => none⟩ := by
      simp only [half, directory, Memory.fieldsAt, hlive]
      rfl
    rw [hhalf]
    exact GroupHalf.agrees_empty

theorem safe_start (h : Untouched l k) : Safe l k [] := by
  constructor
  · exact sound_of_empty h.memory
  · exact List.Pairwise.nil
  · intro e he
    cases he
  · intro id _
    simp only [h.directory]
    exact ⟨rfl, rfl⟩
  · intro kind
    have hlock := h.locks kind
    constructor
    · rw [hlock]
      rfl
    · intro hheld
      rw [hlock] at hheld
      cases hheld
    · intro _
      exact ⟨rfl, agreed_start h.directory h.memory kind⟩

/-- At every moment each call stands where it may stand. -/
theorem safe_of_reached {x : Ensemble.Scene Node.interface Call Bool Cluster}
    (h : (calls l).Reached (Untouched l) x) :
    ∃ placed, placed.map Prod.fst = x.strands ∧ Safe l x.state placed := by
  refine h.ascribed (fun _ => safe_start) ?_ ?_ ?_
  · rintro k k' placed hsafe ⟨later, live, heq⟩
    rw [heq]
    exact safe_wait hsafe later live
  · intro k placed c hsafe fresh
    exact ⟨none, safe_call hsafe fun e he => fresh e.1 (List.mem_map_of_mem he)⟩
  · rintro k k' before after c hurt r next place a hsafe ⟨hanswer, live⟩
    exact safe_answer hsafe hanswer live

/-! ### When no call is under way -/

theorem bind_ask_ne_done {α β : Type} {p : NodeProgram β} {r : Request}
    {rest : β → r.Answer → NodeProgram α} {a : α} :
    (p.bind fun b => .ask r (rest b)) ≠ .done a := by
  cases p <;> exact nofun

theorem Safe.agreed (h : Safe l k placed) (hquiet : ∀ e ∈ placed, e.1.left = .done ())
    (kind : ConnectionKind) : Agreed l.broker kind (half l k kind) := by
  have hnone : placed.inside kind = 0 := by
    rw [Placed.inside, List.countP_eq_zero]
    intro e he hplace
    have hstanding := h.standing e he
    have hdone := hquiet e he
    obtain ⟨f, place⟩ := e
    cases hstanding with
    | outside => cases of_decide_eq_true hplace
    | inside _ left => exact bind_ask_ne_done (left.symm.trans hdone)
  have hkept := h.locks kind
  rw [hnone] at hkept
  cases hholder : ((k.site l.broker).lock kind).holder with
  | none => exact (hkept.free hholder).2
  | some ticket =>
    have := hkept.held (by rw [hholder]; rfl)
    omega

end

/-- The directory of a node and its own part of the cache hold the same sessions. -/
structure SameSessions (l : Lifecycle) (k : Cluster) : Prop where
  /-- A user has a field if a connection of the user is in the directory; it names one of those. -/
  users : ∀ userId, ∃ text?,
    k.read (Cache.command (.hashGet (l.cache.userBucket l.broker) (userField userId))) =
        .ok text? ∧
      (text?.isSome ↔
        ∃ id s, (k.directory l.broker).userSession? id = some s ∧ s.entry.userId = userId) ∧
      ∀ text, text? = some text → ∃ id s stamp,
        (k.directory l.broker).userSession? id = some s ∧ s.entry.userId = userId ∧
          s.entry.connection = id ∧ Stamped.readUser? text = some ⟨s.entry, stamp⟩
  /-- A user is found behind a connection just if it is in the directory. -/
  connections : ∀ id, k.read (l.cache.userOf id) =
    .ok (((k.directory l.broker).userSession? id).map fun s => s.entry)
  /-- A group has a field if a connection of the group is in the directory; it names one of
  those. -/
  groups : ∀ group, ∃ text?,
    k.read (Cache.command (.hashGet (l.cache.groupBucket l.broker) group)) = .ok text? ∧
      (text?.isSome ↔
        ∃ id s, (k.directory l.broker).groupSession? id = some s ∧ s.entry.group = group) ∧
      ∀ text, text? = some text → ∃ id s stamp,
        (k.directory l.broker).groupSession? id = some s ∧ s.entry.group = group ∧
          s.entry.connection = id ∧ Stamped.readGroup? text = some ⟨s.entry, stamp⟩

section

variable {l : Lifecycle} {k : Cluster}

theorem sameSessions_of_agrees (hs : Sound l k)
    (husers : UserHalf.Agrees l.broker (half l k .endUser))
    (hgroups : GroupHalf.Agrees l.broker (half l k .groupSecret)) : SameSessions l k := by
  constructor
  · intro userId
    refine ⟨_, Cluster.read_hashGet hs.users, ?_, ?_⟩
    · constructor
      · intro hsome
        obtain ⟨text, htext⟩ := Option.isSome_iff_exists.mp hsome
        obtain ⟨id, s, stamp, hheld, hfield, -⟩ := husers.known _ text htext
        exact ⟨id, s, hheld, (SessionCache.userField_inj.mp hfield).symm⟩
      · rintro ⟨id, s, hheld, rfl⟩
        exact husers.found id s hheld
    · intro text htext
      obtain ⟨id, s, stamp, hheld, hfield, rfl⟩ := husers.known _ text htext
      exact ⟨id, s, stamp, hheld, (SessionCache.userField_inj.mp hfield).symm,
        (husers.filed id s hheld).1, Stamped.readUser?_render _ _⟩
  · intro id
    refine Cluster.read_userOf (hs.connections id) ?_
    rw [Option.map_map]
    exact husers.texts id
  · intro group
    refine ⟨_, Cluster.read_hashGet hs.groups, ?_, ?_⟩
    · constructor
      · intro hsome
        obtain ⟨text, htext⟩ := Option.isSome_iff_exists.mp hsome
        obtain ⟨id, s, stamp, hheld, hgroup, -⟩ := hgroups.known _ text htext
        exact ⟨id, s, hheld, hgroup.symm⟩
      · rintro ⟨id, s, hheld, rfl⟩
        exact hgroups.found id s hheld
    · intro text htext
      obtain ⟨id, s, stamp, hheld, hgroup, rfl⟩ := hgroups.known _ text htext
      exact ⟨id, s, stamp, hheld, hgroup.symm, (hgroups.filed id s hheld).1,
        Stamped.readGroup?_render _ _⟩

/-- However the calls are interleaved and wherever the store fails, the directory and the cache hold
the same sessions whenever no call is under way. -/
theorem sameSessions_of_reached {x : Ensemble.Scene Node.interface Call Bool Cluster}
    (h : (calls l).Reached (Untouched l) x) (hquiet : ∀ f ∈ x.strands, f.left = .done ()) :
    SameSessions l x.state := by
  obtain ⟨placed, hstrands, hsafe⟩ := safe_of_reached h
  have hdone : ∀ e ∈ placed, e.1.left = .done () := by
    intro e he
    apply hquiet
    rw [← hstrands]
    exact List.mem_map_of_mem he
  exact sameSessions_of_agrees hsafe.sound (hsafe.agreed hdone .endUser)
    (hsafe.agreed hdone .groupSecret)

/-! ### Calls that the cluster answers at once -/

theorem answers_of_not_failed {b : BrokerId} {r : Request} {x : r.Answer} {c c' : Cluster}
    (h : Answers b true r c x c') (hx : failed r x = false) : Answers b false r c x c' := by
  cases r with
  | cache r =>
    cases r with
    | store command =>
      obtain ⟨hc, hcarried | ⟨-, -, e, rfl⟩⟩ := h
      · exact ⟨hc, .inl hcarried⟩
      · cases hx
    | _ => exact h
  | _ => exact h

theorem answers_at_once {hurt : Bool} {r : Request} {x : r.Answer} {k' : Cluster}
    (hk : Node.Behaves true k.store)
    (hx : (if Node.isFree l.broker k r then some (k.perform l.broker r) else none).filter
      (fun e => !(hurt && failed r e.1) && decide (e.2.memory.Unexpired e.2.now)) = some (x, k')) :
    (calls l).answers hurt r k x k' ∧ Node.Behaves true k'.store := by
  obtain ⟨hperformed, hkept⟩ := Option.filter_eq_some_iff.mp hx
  simp only [Bool.and_eq_true, decide_eq_true_eq] at hkept
  obtain ⟨honce, hlive⟩ := hkept
  split at hperformed
  · next hfree =>
    obtain ⟨hanswer, hk'⟩ := Node.answers_perform l.broker r hk hfree
    rw [Option.some.inj hperformed] at hanswer hk'
    refine ⟨⟨?_, hlive⟩, hk'⟩
    cases hurt with
    | false => exact hanswer
    | true => exact answers_of_not_failed hanswer (by simpa using honce)
  · cases hperformed

end

/-- The calls as the cluster answers them by itself, as long as nothing expires and the store fails
once at most for each. -/
def atOnce (l : Lifecycle) : Ensemble.Player (calls l) where
  answer hurt r k :=
    (if Node.isFree l.broker k r then some (k.perform l.broker r) else none).filter fun e =>
      !(hurt && failed r e.1) && decide (e.2.memory.Unexpired e.2.now)
  drift _ _ := none
  allow strands c := strands.all fun f => c.connection? ≠ f.call.connection?
  Good k := Node.Behaves true k.store
  answers := answers_at_once
  drifts _ hd := by cases hd
  admits {strands c} h f hf id hc hf' := by
    have hne := of_decide_eq_true (List.all_eq_true.mp h f hf)
    exact hne (hc.trans hf'.symm)

/-- The node of `doorstep` with a store that fails to put the second text. -/
def slippery : Cluster :=
  { doorstep with
    store := { Store.Faulty.empty with outages := Table.empty.insert .put ⟨1, some 1⟩ } }

/-- The second connection comes while the first has not taken the lock yet. -/
def visits : List (Ensemble.Move Call) :=
  [.call (.opens visitor), .advance 0 1, .call (.opens companion), .advance 0 1, .advance 1 20,
    .advance 0 20]

/-- Both connections open, the second in vain. -/
theorem sameSessions_companions : ∃ x, (calls porter).Reached (Untouched porter) x ∧
    (∀ f ∈ x.strands, f.left = .done ()) ∧
    (x.strands.map fun f => f.call.connection?) = [some ⟨"d"⟩, some ⟨"c"⟩] ∧
    (x.state.directory porter.broker).users.keys = [⟨"c"⟩] ∧ SameSessions porter x.state := by
  have hplay : ((atOnce porter).play visits ⟨slippery, []⟩).any (fun x =>
      x.strands.all Strand.isDone &&
      (x.strands.map fun f => f.call.connection?) = [some ⟨"d"⟩, some ⟨"c"⟩] &&
      (x.state.directory porter.broker).users.keys = [⟨"c"⟩]) = true := by decide +kernel
  obtain ⟨x, hx, htest⟩ := (Option.any_eq_true _ _).mp hplay
  simp only [Bool.and_eq_true, decide_eq_true_eq, List.all_eq_true] at htest
  obtain ⟨⟨hdone, hcalls⟩, hkeys⟩ := htest
  have hstart : Untouched porter slippery := ⟨rfl, rfl, fun kind => by cases kind <;> rfl⟩
  have hstore : Node.Behaves true slippery.store := ⟨rfl, rfl, nofun⟩
  have hreached := Ensemble.Player.reached_play (.start hstart) hstore hx
  have hquiet : ∀ f ∈ x.strands, f.left = .done () := fun f hf =>
    Strand.isDone_iff.mp (hdone f hf)
  exact ⟨x, hreached, hquiet, hcalls, hkeys, sameSessions_of_reached hreached hquiet⟩

end Lifecycle

end SessionGateway
