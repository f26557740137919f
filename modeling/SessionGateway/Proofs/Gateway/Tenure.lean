import SessionGateway.Proofs.Gateway.Interleaving
import SessionGateway.Proofs.Lifecycle.Scope
import SessionGateway.Proofs.Program.Strands

/-!
# Who is in the directory, and for how long

A session that opens brings in its own connection. It leaves by taking the connection out again,
whichever way it comes to leave, and after that nothing it asks for brings it back. A reconciler
that leaves the membership gives the store no further command on the heartbeats. Both are kept by
every step of every task.
-/

namespace SessionGateway

open Node (Request)
open Store (Memory)

/-! ### What an answer changes -/

namespace Directory

/-- A connection is among the users or among the groups. -/
def Holds (d : Directory) (id : ConnectionId) : ConnectionKind → Prop
  | .endUser => d.userSession? id ≠ none
  | .groupSecret => d.groupSession? id ≠ none

theorem not_holds_iff {d : Directory} {id : ConnectionId} :
    (∀ kind, ¬ d.Holds id kind) ↔ d.Absent id := by
  constructor
  · intro h
    exact ⟨Decidable.not_not.mp (h .endUser), Decidable.not_not.mp (h .groupSecret)⟩
  · rintro ⟨huser, hgroup⟩ (_ | _) hkind
    · exact hkind huser
    · exact hkind hgroup

/-- Nobody is in the second directory but who was in the first or was brought in. -/
def Admits (brings : ConnectionId → ConnectionKind → Prop) (d d' : Directory) : Prop :=
  ∀ id kind, d'.Holds id kind → d.Holds id kind ∨ brings id kind

variable {brings : ConnectionId → ConnectionKind → Prop} {d d' : Directory} {id : ConnectionId}

theorem admits_of_eq (h : d' = d) : Admits brings d d' := by
  subst h
  exact fun _ _ => .inl

theorem Admits.absent (h : Admits brings d d') (hid : ∀ kind, ¬ brings id kind)
    (ha : d.Absent id) : d'.Absent id := by
  rw [← not_holds_iff] at ha ⊢
  intro kind hkind
  rcases h id kind hkind with hold | hnew
  · exact ha kind hold
  · exact hid kind hnew

theorem admits_of_some
    (huser : ∀ id s, d'.userSession? id = some s → d.userSession? id = some s)
    (hgroup : ∀ id s, d'.groupSession? id = some s → d.groupSession? id = some s) :
    Admits brings d d' := by
  rintro id (_ | _) hkind
  · obtain ⟨s, hs⟩ := Option.ne_none_iff_exists'.mp hkind
    exact .inl (Option.ne_none_iff_exists'.mpr ⟨s, huser id s hs⟩)
  · obtain ⟨s, hs⟩ := Option.ne_none_iff_exists'.mp hkind
    exact .inl (Option.ne_none_iff_exists'.mpr ⟨s, hgroup id s hs⟩)

theorem admits_addUser (u : UserSession) :
    Admits (fun id kind => u.entry.connection = id ∧ kind = .endUser) d (d.addUser u) := by
  rintro id (_ | _) hkind
  · by_cases hid : u.entry.connection = id
    · exact .inr ⟨hid, rfl⟩
    · rw [Holds, userSession?_addUser, if_neg hid] at hkind
      exact .inl hkind
  · exact .inl hkind

theorem admits_addGroup (u : GroupSession) :
    Admits (fun id kind => u.entry.connection = id ∧ kind = .groupSecret) d (d.addGroup u) := by
  rintro id (_ | _) hkind
  · exact .inl hkind
  · by_cases hid : u.entry.connection = id
    · exact .inr ⟨hid, rfl⟩
    · rw [Holds, groupSession?_addGroup, if_neg hid] at hkind
      exact .inl hkind

/-- What was among one kind at most is gone once it was removed. -/
theorem absent_remove (h : ∀ kind kind', d.Holds id kind → d.Holds id kind' → kind = kind') :
    (d.remove id).2.Absent id := by
  rw [remove]
  split
  · next huser =>
    have hheld : d.Holds id .endUser := by
      intro hnone
      rw [Table.contains, show d.users.get? id = none from hnone] at huser
      cases huser
    constructor
    · exact (Table.get?_erase _ _ _).trans (if_pos rfl)
    · by_contra hgroup
      cases h .endUser .groupSecret hheld hgroup
  · next huser =>
    have hnone : d.userSession? id = none := Option.not_isSome_iff_eq_none.mp huser
    split
    · exact ⟨hnone, (Table.get?_erase _ _ _).trans (if_pos rfl)⟩
    · next hgroup => exact ⟨hnone, Option.not_isSome_iff_eq_none.mp hgroup⟩

end Directory

/-- The connection that a request brings into a directory. -/
def Node.Request.Brings : Request → ConnectionId → ConnectionKind → Prop
  | .addUser u, id, kind => u.entry.connection = id ∧ kind = .endUser
  | .addGroup u, id, kind => u.entry.connection = id ∧ kind = .groupSecret
  | _, _, _ => False

/-- The connection that a session brings into a directory. -/
def Session.Brings (s : Session) (id : ConnectionId) (kind : ConnectionKind) : Prop :=
  s.id = id ∧ s.attributes.classify = some kind

theorem Session.AddsSelf.brings {s : Session} {r : Request} (h : s.AddsSelf r) {id : ConnectionId}
    {kind : ConnectionKind} (hr : r.Brings id kind) : s.Brings id kind := by
  cases r with
  | addUser u | addGroup u =>
    obtain ⟨rfl, rfl⟩ := hr
    exact ⟨h.1.symm, h.2⟩
  | _ => exact hr.elim

theorem Node.Request.AddsNone.brings {r : Request} (h : r.AddsNone) {id : ConnectionId}
    {kind : ConnectionKind} : ¬ r.Brings id kind := by
  cases r with
  | addUser u | addGroup u => exact h.elim
  | _ => exact fun hr => hr

namespace Node

variable {b : BrokerId} {r : Request} {c c' : Cluster} {x : r.Answer} {key : String}

theorem MayAnswer.now (h : MayAnswer b r c x c') : c'.now = c.now := by
  have hperform : c.perform b r = (x, c') → c'.now = c.now := by
    intro heq
    have hnow := now_perform b r c
    rwa [heq] at hnow
  cases r with
  | cache r =>
    cases r with
    | store k => exact h.1
    | wallClock | log e => exact h.1
  | directory | addUser u | addGroup u | withdrawUser id t | withdrawGroup id t | remove id =>
    exact hperform h
  | identify | acquire | release | close | measure | processors | turn => exact h.1

theorem MayAnswer.admits (h : MayAnswer b r c x c') :
    Directory.Admits r.Brings (c.directory b) (c'.directory b) := by
  have hperform : c.perform b r = (x, c') → c'.directory b = (c.perform b r).2.directory b := by
    intro heq
    rw [heq]
  cases r with
  | cache r =>
    cases r with
    | store k => exact Directory.admits_of_eq h.2.1
    | wallClock | log e => exact Directory.admits_of_eq h.2.1
  | directory => exact Directory.admits_of_eq (hperform h)
  | addUser u =>
    have hd := (hperform h).trans (c.directory_setDirectory b _)
    rw [hd]
    exact Directory.admits_addUser u
  | addGroup u =>
    have hd := (hperform h).trans (c.directory_setDirectory b _)
    rw [hd]
    exact Directory.admits_addGroup u
  | withdrawUser id t =>
    have hd := (hperform h).trans (c.directory_setDirectory b _)
    rw [hd]
    exact Directory.admits_of_some (fun _ _ => Directory.userSession?_of_withdraw) fun _ _ hs =>
      (Directory.withdrawUser_groups _ _ _ _).symm.trans hs
  | withdrawGroup id t =>
    have hd := (hperform h).trans (c.directory_setDirectory b _)
    rw [hd]
    exact Directory.admits_of_some (fun _ _ hs =>
      (Directory.withdrawGroup_users _ _ _ _).symm.trans hs)
      fun _ _ => Directory.groupSession?_of_withdraw
  | remove id =>
    have hd := (hperform h).trans (c.directory_setDirectory b _)
    rw [hd]
    exact Directory.admits_of_some (fun _ _ => Directory.userSession?_of_remove)
      fun _ _ => Directory.groupSession?_of_remove
  | identify | acquire | release | close | measure | processors | turn =>
    exact Directory.admits_of_eq h.2.1

theorem MayAnswer.fields (h : MayAnswer b r c x c') (hr : r.Leaves key) :
    c'.memory.fieldsAt c'.now key = c.memory.fieldsAt c.now key := by
  have hsame : c'.memory = c.memory → c'.memory.fieldsAt c'.now key =
      c.memory.fieldsAt c.now key := by
    intro hm
    rw [hm, h.now]
  have hperform : c.perform b r = (x, c') → (c.perform b r).2.memory = c.memory →
      c'.memory = c.memory := by
    intro heq hm
    rwa [heq] at hm
  cases r with
  | cache r =>
    cases r with
    | store k =>
      obtain ⟨hnow, -, hanswer⟩ := h
      apply Memory.fieldsAt_congr
      rw [hnow]
      exact hanswer.others key hr
    | wallClock | log e => exact hsame h.2.2
  | directory | addUser u | addGroup u | withdrawUser id t | withdrawGroup id t | remove id =>
    exact hsame (hperform h rfl)
  | identify | acquire | release | close | measure | processors | turn => exact hsame h.2.2

theorem told_leaves (hr : r.Leaves key) : ∀ t ∈ told r x, ¬ t.command.Changes key := by
  intro t ht
  cases r with
  | cache r =>
    cases r with
    | store k =>
      cases List.mem_singleton.mp ht
      exact hr
    | wallClock | log e => cases ht
  | _ => cases ht

end Node

/-- What a session may do to a cluster at once: it brings in nobody but itself, and neither changes
the hash of heartbeats nor gives the store a command to do so. -/
structure Cluster.Visited (b : BrokerId) (key : String)
    (brings : ConnectionId → ConnectionKind → Prop) (c : Cluster) (news : List Told)
    (c' : Cluster) : Prop where
  now : c'.now = c.now
  admits : Directory.Admits brings (c.directory b) (c'.directory b)
  fields : c'.memory.fieldsAt c'.now key = c.memory.fieldsAt c.now key
  news : ∀ t ∈ news, ¬ t.command.Changes key

section

variable {b : BrokerId} {key : String} {brings brings' : ConnectionId → ConnectionKind → Prop}
  {c c' : Cluster} {news : List Told} {s : Session}

theorem Cluster.Visited.refl : c.Visited b key brings [] c :=
  ⟨rfl, Directory.admits_of_eq rfl, rfl, fun _ h => nomatch h⟩

theorem Cluster.Visited.mono (h : c.Visited b key brings news c')
    (hb : ∀ id kind, brings id kind → brings' id kind) : c.Visited b key brings' news c' :=
  ⟨h.now, fun id kind hkind => (h.admits id kind hkind).imp_right (hb id kind), h.fields, h.news⟩

/-! ### Fibers -/

namespace Fiber

variable {α : Type} {f f' : Fiber α} {P : Request → Prop}

theorem Goes.node (h : f.Goes c news f' c') : f'.node = f.node := by
  cases h <;> rfl

theorem Goes.only (h : f.Goes c news f' c') (hf : f.program.Only P) : f'.program.Only P := by
  cases h with
  | answer h => exact hf.2 _
  | wait => exact hf

/-- What every answer to a request in a set does, a fiber does that asks for nothing else. -/
theorem Goes.of_only {K : List Told → Cluster → Prop} (h : f.Goes c news f' c')
    (hf : f.program.Only P) (hwait : K [] c)
    (hanswer : ∀ (r : Request) (x : r.Answer) (c' : Cluster), P r →
      Node.MayAnswer f.node r c x c' → K (Node.told r x) c') : K news c' := by
  cases h with
  | answer h => exact hanswer _ _ _ hf.1 h
  | wait => exact hwait

theorem Goes.visited (h : f.Goes c news f' c') (hnode : f.node = b) (hf : f.program.Only P)
    (hbrings : ∀ r, P r → ∀ id kind, r.Brings id kind → brings id kind)
    (hleaves : ∀ r, P r → r.Leaves key) : c.Visited b key brings news c' := by
  subst hnode
  refine h.of_only (K := fun news c' => c.Visited f.node key brings news c') hf .refl ?_
  intro r x c' hr hx
  exact ⟨hx.now, fun id kind hkind => (hx.admits id kind hkind).imp_right (hbrings r hr id kind),
    hx.fields (hleaves r hr), Node.told_leaves (hleaves r hr)⟩

/-- A session that has opened brings in nobody. -/
theorem Goes.visited_of_stays (h : f.Goes c news f' c') (hnode : f.node = b)
    (hf : f.program.Only (Session.Stays key)) : c.Visited b key (fun _ _ => False) news c' :=
  h.visited hnode hf (fun _ hr _ _ => hr.1.brings) fun _ hr => hr.2

theorem Goes.admits_of_addsNone (h : f.Goes c news f' c') (hnode : f.node = b)
    (hf : f.program.Only Request.AddsNone) :
    Directory.Admits (fun _ _ => False) (c.directory b) (c'.directory b) := by
  subst hnode
  refine h.of_only (K := fun _ c' => Directory.Admits _ _ (c'.directory f.node)) hf
    (Directory.admits_of_eq rfl) ?_
  intro r x c' hr hx id kind hkind
  exact (hx.admits id kind hkind).imp_right hr.brings

end Fiber

/-! ### Sessions -/

namespace Channel

/-- What is known of a session in each phase: what it still may ask for, and that its connection is
out of the directory once it was taken out. -/
def Phase.Keeps (b : BrokerId) (key : String) (s : Session) (d : Directory) : Phase → Prop
  | .opening f => f.node = b ∧ f.program.Only (s.Enters key)
  | .reading _ | .listening .. => True
  | .reacting _ f => f.node = b ∧ f.program.Only (Session.Stays key)
  | .leaving _ f =>
    f.node = b ∧ (f.program = s.leave ∨ f.program.Only (Session.Stays key) ∧ d.Absent s.id)
  | .flushing _ => d.Absent s.id
  | .parting f => (f.node = b ∧ f.program.Only (Session.Stays key)) ∧ d.Absent s.id
  | .ended => d.Absent s.id

theorem Phase.Keeps.mono {p : Phase} {d d' : Directory} (h : p.Keeps b key s d)
    (hd : d.Absent s.id → d'.Absent s.id) : p.Keeps b key s d' := by
  cases p with
  | leaving st f => exact ⟨h.1, h.2.imp_right fun hleft => ⟨hleft.1, hd hleft.2⟩⟩
  | flushing | ended => exact hd h
  | parting f => exact ⟨h.1, hd h.2⟩
  | _ => exact h

/-- A session that leaves takes its connection out with its first request. -/
theorem leaving_goes {f f' : Fiber Unit} (h : f.Goes c news f' c') (hnode : f.node = b)
    (hf : f.program = s.leave ∨ f.program.Only (Session.Stays key) ∧ (c.directory b).Absent s.id)
    (hapart : ∀ kind kind', (c.directory b).Holds s.id kind →
      (c.directory b).Holds s.id kind' → kind = kind') :
    c.Visited b key (fun _ _ => False) news c' ∧
      (f'.program = s.leave ∨
        f'.program.Only (Session.Stays key) ∧ (c'.directory b).Absent s.id) := by
  rcases hf with hleave | ⟨honly, habsent⟩
  · obtain ⟨next, hprogram, hrest⟩ : ∃ next, s.leave = .ask (.remove s.id) next ∧
        ∀ x, (next x).Only (Session.Stays key) := s.leave_eq
    cases h with
    | wait => exact ⟨.refl, .inl hleave⟩
    | @answer node r next' w w' e e' _ _ x hx =>
      obtain rfl : node = b := hnode
      rw [hprogram] at hleave
      cases hleave
      have hremoved : c'.directory node = ((c.directory node).remove s.id).2 :=
        (congrArg (fun y : _ × Cluster => y.2.directory node) hx).symm.trans
          (c.directory_setDirectory node _)
      refine ⟨⟨hx.now, ?_, hx.fields trivial, Node.told_leaves trivial⟩, .inr ⟨hrest x, ?_⟩⟩
      · exact hx.admits
      · rw [hremoved]
        exact Directory.absent_remove hapart
  · have hvisited := h.visited_of_stays hnode honly
    exact ⟨hvisited, .inr ⟨h.only honly, hvisited.admits.absent (fun _ hno => hno) habsent⟩⟩

/-- What is known of a session stays known, and all that it brings in is its connection. -/
theorem Phase.Goes.keeps {d : Dispatch} {p p' : Phase} (h : p.Goes b d s c news p' c')
    (hp : p.Keeps b key s (c.directory b))
    (hapart : ∀ kind kind', (c.directory b).Holds s.id kind →
      (c.directory b).Holds s.id kind' → kind = kind') :
    c.Visited b key s.Brings news c' ∧ p'.Keeps b key s (c'.directory b) := by
  have hself : ∀ {news c'}, c.Visited b key (fun _ _ => False) news c' →
      c.Visited b key s.Brings news c' := fun hv => hv.mono fun _ _ hno => hno.elim
  cases h with
  | opening h =>
    exact ⟨h.visited hp.1 hp.2 (fun _ hr _ _ => hr.1.brings) fun _ hr => hr.2,
      h.node.trans hp.1, h.only hp.2⟩
  | opened h =>
    refine ⟨.refl, ?_⟩
    split
    · exact ⟨rfl, .inl rfl⟩
    · trivial
  | listen => exact ⟨.refl, trivial⟩
  | hear h m => exact ⟨.refl, rfl, Session.only_react s d m⟩
  | quit h => exact ⟨.refl, rfl, .inl rfl⟩
  | reacting h =>
    exact ⟨hself (h.visited_of_stays hp.1 hp.2), h.node.trans hp.1, h.only hp.2⟩
  | @reacted st f goesOn _ h =>
    refine ⟨.refl, ?_⟩
    cases goesOn with
    | true => trivial
    | false => exact ⟨rfl, .inl rfl⟩
  | leaving h =>
    obtain ⟨hvisited, hrest⟩ := leaving_goes h hp.1 hp.2 hapart
    exact ⟨hself hvisited, h.node.trans hp.1, hrest⟩
  | @left st f _ h =>
    refine ⟨.refl, ?_⟩
    rcases hp.2 with hleave | hleft
    · rw [Fiber.result?, hleave] at h
      cases h
    · exact hleft.2
  | flushed dropped => exact ⟨.refl, ⟨rfl, Session.only_farewell _ _⟩, hp⟩
  | parting h =>
    obtain ⟨⟨hnode, honly⟩, habsent⟩ := hp
    have hvisited := h.visited_of_stays hnode honly
    exact ⟨hself hvisited, ⟨h.node.trans hnode, h.only honly⟩,
      hvisited.admits.absent (fun _ hno => hno) habsent⟩
  | parted h => exact ⟨.refl, hp.2⟩

theorem hasEnded_iff {ch : Channel} : ch.hasEnded = true ↔ ch.phase = .ended := by
  rw [hasEnded]
  cases ch.phase <;> simp

/-- A session that has ended goes no further. -/
theorem Phase.Goes.ne_ended {d : Dispatch} {p p' : Phase} (h : p.Goes b d s c news p' c') :
    p ≠ .ended := by
  rintro rfl
  cases h with
  | hear h | quit h => exact h

end Channel

/-! ### The reconciler -/

/-- The last command on the heartbeats deleted a node's own. If this succeeded, there is none. -/
def HasLeft (b : BrokerId) (key : String) (told : List Told) (c : Cluster) : Prop :=
  ∃ later result earlier, told = later ++ ⟨.hashDelete key b.text, result⟩ :: earlier ∧
    (∀ t ∈ later, ¬ t.command.Changes key) ∧
    ∀ gone, result = .ok gone → (c.memory.fieldsAt c.now key).get? b.text = none

variable {told : List Told}

/-- Nothing but a command on the heartbeats undoes a leave. -/
theorem HasLeft.mono (h : HasLeft b key told c) (hnews : ∀ t ∈ news, ¬ t.command.Changes key)
    (hfields : (c.memory.fieldsAt c.now key).get? b.text = none →
      (c'.memory.fieldsAt c'.now key).get? b.text = none) : HasLeft b key (news ++ told) c' := by
  obtain ⟨later, result, earlier, rfl, hlater, hgone⟩ := h
  refine ⟨news ++ later, result, earlier, (List.append_assoc _ _ _).symm, ?_, ?_⟩
  · intro t ht
    exact (List.mem_append.mp ht).elim (hnews t) (hlater t)
  · intro gone hok
    exact hfields (hgone gone hok)

theorem HasLeft.visited (h : HasLeft b key told c) (hv : c.Visited b key brings news c') :
    HasLeft b key (news ++ told) c' :=
  h.mono hv.news fun hnone => by rwa [hv.fields]

/-- A deletion of the heartbeat is the last command on it. -/
theorem hasLeft_of_answer {x : Node.Request.Answer (.cache (.store (.hashDelete key b.text)))}
    (h : Node.MayAnswer b (.cache (.store (.hashDelete key b.text))) c x c') :
    HasLeft b key (Node.told (.cache (.store (.hashDelete key b.text))) x ++ told) c' := by
  refine ⟨[], x, told, rfl, fun _ ht => (nomatch ht), ?_⟩
  rintro gone rfl
  rw [h.1]
  exact h.2.2.deleted key b.text rfl rfl

namespace Reconciler

/-- What is known of a reconciler in each phase. -/
def Phase.Keeps (l : Lifecycle) (told : List Told) (c : Cluster) : Phase → Prop
  | .starting f | .passing f _ => f.node = l.broker ∧ f.program.Only Request.AddsNone
  | .idle _ => True
  | .leaving f =>
    f.node = l.broker ∧ (f.program = l.leaveMembership ∨
      f.program.Only Request.IsIdle ∧ HasLeft l.broker l.cache.brokersKey told c)
  | .ended => HasLeft l.broker l.cache.brokersKey told c

theorem Phase.Keeps.mono {p : Phase} {l : Lifecycle} {told' : List Told}
    (h : p.Keeps l told c)
    (hleft : HasLeft l.broker l.cache.brokersKey told c →
      HasLeft l.broker l.cache.brokersKey told' c') : p.Keeps l told' c' := by
  cases p with
  | leaving f => exact ⟨h.1, h.2.imp_right fun hrest => ⟨hrest.1, hleft hrest.2⟩⟩
  | ended => exact hleft h
  | _ => exact h

/-- A reconciler that leaves deletes its heartbeat with its first request. -/
theorem leaving_goes {l : Lifecycle} {f f' : Fiber Unit} (h : f.Goes c news f' c')
    (hnode : f.node = l.broker)
    (hf : f.program = l.leaveMembership ∨
      f.program.Only Request.IsIdle ∧ HasLeft l.broker l.cache.brokersKey told c) :
    Directory.Admits (fun _ _ => False) (c.directory l.broker) (c'.directory l.broker) ∧
      (f'.program = l.leaveMembership ∨
        f'.program.Only Request.IsIdle ∧
          HasLeft l.broker l.cache.brokersKey (news ++ told) c') := by
  rcases hf with hleave | ⟨honly, hleft⟩
  · obtain ⟨next, hprogram, hrest⟩ := l.leaveMembership_eq
    cases h with
    | wait => exact ⟨Directory.admits_of_eq rfl, .inl hleave⟩
    | @answer node r next' w w' e e' _ _ x hx =>
      obtain rfl : node = l.broker := hnode
      rw [hprogram] at hleave
      cases hleave
      exact ⟨hx.admits, .inr ⟨hrest x, hasLeft_of_answer hx⟩⟩
  · have hvisited : c.Visited l.broker l.cache.brokersKey _ news c' :=
      h.visited_of_stays hnode (honly.mono fun _ => Session.stays_of_idle)
    exact ⟨hvisited.admits, .inr ⟨h.only honly, hleft.visited hvisited⟩⟩

/-- What is known of a reconciler stays known, and it brings nobody into the directory. -/
theorem Phase.Goes.keeps {l : Lifecycle} {stops : Bool} {p p' : Phase}
    (h : p.Goes l stops c news p' c') (hp : p.Keeps l told c) :
    Directory.Admits (fun _ _ => False) (c.directory l.broker) (c'.directory l.broker) ∧
      p'.Keeps l (news ++ told) c' := by
  have hsame : Directory.Admits (fun _ _ => False) (c.directory l.broker) (c.directory l.broker) :=
    Directory.admits_of_eq rfl
  cases h with
  | starting h | passing h =>
    exact ⟨h.admits_of_addsNone hp.1 hp.2, h.node.trans hp.1, h.only hp.2⟩
  | started h due => exact ⟨hsame, trivial⟩
  | begin due' => exact ⟨hsame, rfl, l.addsNone_reconcile⟩
  | passed h => exact ⟨hsame, trivial⟩
  | quit h => exact ⟨hsame, rfl, .inl rfl⟩
  | leaving h =>
    obtain ⟨hadmits, hrest⟩ := leaving_goes h hp.1 hp.2
    exact ⟨hadmits, h.node.trans hp.1, hrest⟩
  | @left f _ h =>
    refine ⟨hsame, ?_⟩
    rcases hp.2 with hleave | hleft
    · rw [Fiber.result?, hleave] at h
      cases h
    · exact hleft.2

theorem hasEnded_iff {r : Reconciler} : r.hasEnded = true ↔ r.phase = .ended := by
  rw [hasEnded]
  cases r.phase <;> simp

theorem Phase.Goes.ne_ended {l : Lifecycle} {stops : Bool} {p p' : Phase}
    (h : p.Goes l stops c news p' c') :
    p ≠ .ended := by
  rintro rfl
  cases h

end Reconciler

end

end SessionGateway
