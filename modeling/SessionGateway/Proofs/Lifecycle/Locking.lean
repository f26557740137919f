import SessionGateway.Proofs.Lifecycle.Agreement

/-!
# Keeping to the locks

What opens a connection and what publishes connections again touches a half only while it holds the
lock of its kind, and gives the lock back with a half in which the directory and the cache agree.
-/

namespace SessionGateway

open Node (Request)

namespace Lifecycle

/-- No session of a half is under a connection, if any. -/
def Lacks : (kind : ConnectionKind) → Half kind → Option ConnectionId → Prop
  | .endUser, u, own => ∀ id, own = some id → u.sessions.get? id = none
  | .groupSecret, u, own => ∀ id, own = some id → u.sessions.get? id = none

/-- Under the lock of a kind, a program that acts for a new connection, if any, leaves a half that
agrees if it finds one. -/
def Keeps {β : Type} (l : Lifecycle) (kind : ConnectionKind) (own : Option ConnectionId)
    (body : NodeProgram β) : Prop :=
  ∀ (u : Half kind) (hurt : Bool), Agreed l.broker kind u → Lacks kind u own →
    Under l kind own body (u, hurt) fun _ v => Agreed l.broker kind v.1

/-- A program that touches a half only under its lock. It acts for a connection, if any, under the
first lock that it takes. -/
inductive Guarded (l : Lifecycle) {α : Type} : Option ConnectionId → NodeProgram α → Prop
  | done {own : Option ConnectionId} (a : α) : Guarded l own (.done a)
  | aside {own : Option ConnectionId} {r : Request} {next : r.Answer → NodeProgram α}
      (hr : r.IsAside) (rest : ∀ x, Guarded l own (next x)) : Guarded l own (.ask r next)
  | locked {own : Option ConnectionId} {kind : ConnectionKind} {patience : Option Duration}
      {next : Bool → NodeProgram α} {β : Type} {body : NodeProgram β} {rest : β → NodeProgram α}
      (keeps : Keeps l kind own body)
      (had : next true = body.bind fun a => .ask (.release kind) fun _ => rest a)
      (late : Guarded l own (next false)) (after : ∀ a, Guarded l none (rest a)) :
      Guarded l own (.ask (.acquire kind patience) next)

variable {l : Lifecycle} {own : Option ConnectionId} {α β : Type}

theorem Guarded.bind {p : NodeProgram α} {f : α → NodeProgram β} (hp : Guarded l own p)
    (hf : ∀ own a, Guarded l own (f a)) : Guarded l own (p.bind f) := by
  induction hp with
  | done a => exact hf _ a
  | aside hr rest ih => exact .aside hr ih
  | @locked own kind patience next γ body rest keeps had late after ihlate ihafter =>
    have hbind : (next true).bind f =
        body.bind fun a => .ask (.release kind) fun _ => (rest a).bind f := by
      rw [had, Program.bind_assoc]
      rfl
    exact .locked keeps hbind ihlate ihafter

theorem Guarded.of_only {p : NodeProgram α} (hp : p.Only Request.IsAside) : Guarded l own p := by
  induction p with
  | done a => exact .done a
  | ask r next ih => exact .aside hp.1 fun x => ih x (hp.2 x)

theorem guarded_idle_bind {p : NodeProgram α} {f : α → NodeProgram β}
    (hp : p.Only Request.IsIdle) (hf : ∀ own a, Guarded l own (f a)) : Guarded l own (p.bind f) :=
  (Guarded.of_only (hp.mono aside_of_idle)).bind hf

theorem guarded_holding {kind : ConnectionKind} {patience : Option Duration}
    {body : NodeProgram β} (h : Keeps l kind own body) :
    Guarded l own (Node.holding kind patience body) := by
  rw [holding_eq]
  exact .locked h rfl (.done none) fun a => .done (some a)

/-! ### Opening -/

theorem guarded_registering {kind : ConnectionKind} {body : NodeProgram (Except OpenError α)}
    (h : Keeps l kind own body) : Guarded l own (l.registering kind body) := by
  rw [l.registering_eq]
  refine (guarded_holding h).bind ?_
  rintro own (_ | r)
  · exact guarded_idle_bind (only_measure _ _) fun _ _ => .done _
  · exact .done r

theorem guarded_register (t : Transport) : Guarded l t.id? (l.register t) := by
  rw [l.register_eq]
  cases t.id? with
  | none => exact .done _
  | some id =>
    rcases t.attributes.classify with _ | _ | _
    · exact .done _
    · refine Guarded.bind ?_ fun _ _ => .done _
      rw [l.registerUser_eq]
      cases t.attributes.token? with
      | none => exact .done _
      | some token =>
        refine .aside trivial ?_
        rintro (e | p)
        · exact .done _
        · refine guarded_registering ?_
          intro u hurt hu hlacks
          exact under_enrolUser (s := ⟨.ofPrincipal id p l.broker, p, t⟩) hu rfl (hlacks id rfl)
    · refine Guarded.bind ?_ fun _ _ => .done _
      rw [l.registerGroup_eq]
      cases t.attributes.group? with
      | none => exact .done _
      | some group =>
        refine guarded_registering ?_
        intro u hurt hu hlacks
        exact under_enrolGroup (s := ⟨⟨id, group, l.broker⟩, t⟩) hu rfl (hlacks id rfl)

theorem guarded_onOpen (t : Transport) : Guarded l t.id? (l.onOpen t) := by
  rw [l.onOpen_eq]
  refine (guarded_register t).bind ?_
  rintro own (e | s)
  · cases e with
    | lockTimeout d => exact guarded_idle_bind (only_log _) fun _ _ => .done _
    | _ => exact .aside trivial fun _ => .aside trivial fun _ => .done _
  · exact .done s

/-! ### Publishing again -/

theorem guarded_republishAll {kind : ConnectionKind}
    {publish : ConnectionId → NodeProgram (Except CacheError Bool)}
    (h : ∀ own id, Keeps l kind own (publish id)) (ids : List ConnectionId)
    (own : Option ConnectionId) : Guarded l own (republishAll kind publish ids) := by
  induction ids generalizing own with
  | nil => exact .done _
  | cons id rest ih =>
    rw [republishAll_cons]
    refine (guarded_holding (h own id)).bind ?_
    rintro own (_ | e | _ | _)
    · exact ih own
    · exact .done _
    · exact ih own
    · exact (ih own).bind fun _ _ => .done _

theorem keeps_republishUser (id : ConnectionId) : Keeps l .endUser own (l.republishUser id) :=
  fun _ _ hu _ => under_republishUser hu id

theorem keeps_republishGroup (id : ConnectionId) :
    Keeps l .groupSecret own (l.republishGroup id) :=
  fun _ _ hu _ => under_republishGroup hu id

theorem guarded_republish : Guarded l own l.republish := by
  rw [l.republish_eq]
  refine .aside trivial fun d => ?_
  refine (guarded_republishAll (fun _ => keeps_republishUser) _ _).bind ?_
  rintro own (e | m)
  · exact .done _
  · refine .aside trivial fun d' => ?_
    refine (guarded_republishAll (fun _ => keeps_republishGroup) _ _).bind ?_
    intro own r
    exact .done _

end Lifecycle

end SessionGateway
