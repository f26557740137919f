import SessionGateway.Lifecycle
import SessionGateway.Proofs.Table

/-!
# What a directory holds

Each change of a directory as what it does to the sessions under every id, and what the search for
another connection of a user finds.
-/

namespace SessionGateway

namespace Directory

variable (d : Directory)

theorem userSession?_addUser (s : UserSession) (id : ConnectionId) :
    (d.addUser s).userSession? id =
      if s.entry.connection = id then some s else d.userSession? id :=
  Table.get?_insert _ _ _ _

theorem groupSession?_addGroup (s : GroupSession) (id : ConnectionId) :
    (d.addGroup s).groupSession? id =
      if s.entry.connection = id then some s else d.groupSession? id :=
  Table.get?_insert _ _ _ _

/-- Removing a connection adds none. -/
theorem userSession?_of_remove {d : Directory} {id id' : ConnectionId} {s : UserSession}
    (h : (d.remove id).2.userSession? id' = some s) : d.userSession? id' = some s := by
  rw [remove] at h
  split at h
  · rw [userSession?, Table.get?_erase] at h
    split at h
    · cases h
    · exact h
  · split at h
    · exact h
    · exact h

theorem groupSession?_of_remove {d : Directory} {id id' : ConnectionId} {s : GroupSession}
    (h : (d.remove id).2.groupSession? id' = some s) : d.groupSession? id' = some s := by
  rw [remove] at h
  split at h
  · exact h
  · split at h
    · rw [groupSession?, Table.get?_erase] at h
      split at h
      · cases h
      · exact h
    · exact h

/-- What is under an id is withdrawn while it has the transport that it was registered with. -/
theorem withdrawUser_of_held {d : Directory} {s : UserSession} {id : ConnectionId}
    (h : d.userSession? id = some s) :
    d.withdrawUser id s.transport = (true, { d with users := d.users.erase id }) := by
  rw [withdrawUser, show d.users.get? id = some s from h]
  exact if_pos rfl

theorem withdrawGroup_of_held {d : Directory} {s : GroupSession} {id : ConnectionId}
    (h : d.groupSession? id = some s) :
    d.withdrawGroup id s.transport = (true, { d with groups := d.groups.erase id }) := by
  rw [withdrawGroup, show d.groups.get? id = some s from h]
  exact if_pos rfl

theorem withdrawUser_eq (d : Directory) (id : ConnectionId) (t : Transport) :
    (d.withdrawUser id t).2 = d ∨
      (d.withdrawUser id t).2 = { d with users := d.users.erase id } := by
  rw [withdrawUser]
  split
  · split
    · exact .inr rfl
    · exact .inl rfl
  · exact .inl rfl

theorem withdrawGroup_eq (d : Directory) (id : ConnectionId) (t : Transport) :
    (d.withdrawGroup id t).2 = d ∨
      (d.withdrawGroup id t).2 = { d with groups := d.groups.erase id } := by
  rw [withdrawGroup]
  split
  · split
    · exact .inr rfl
    · exact .inl rfl
  · exact .inl rfl

theorem withdrawUser_groups (d : Directory) (id : ConnectionId) (t : Transport)
    (id' : ConnectionId) :
    (d.withdrawUser id t).2.groupSession? id' = d.groupSession? id' := by
  rcases d.withdrawUser_eq id t with heq | heq
  · rw [heq]
  · rw [heq]; rfl

theorem withdrawGroup_users (d : Directory) (id : ConnectionId) (t : Transport)
    (id' : ConnectionId) :
    (d.withdrawGroup id t).2.userSession? id' = d.userSession? id' := by
  rcases d.withdrawGroup_eq id t with heq | heq
  · rw [heq]
  · rw [heq]; rfl

/-- Taking a connection back adds none. -/
theorem userSession?_of_withdraw {d : Directory} {id id' : ConnectionId} {t : Transport}
    {s : UserSession} (h : (d.withdrawUser id t).2.userSession? id' = some s) :
    d.userSession? id' = some s := by
  rcases d.withdrawUser_eq id t with heq | heq
  · rw [heq] at h
    exact h
  · rw [heq, userSession?, Table.get?_erase] at h
    split at h
    · cases h
    · exact h

theorem groupSession?_of_withdraw {d : Directory} {id id' : ConnectionId} {t : Transport}
    {s : GroupSession} (h : (d.withdrawGroup id t).2.groupSession? id' = some s) :
    d.groupSession? id' = some s := by
  rcases d.withdrawGroup_eq id t with heq | heq
  · rw [heq] at h
    exact h
  · rw [heq, groupSession?, Table.get?_erase] at h
    split at h
    · cases h
    · exact h

theorem mem_connectionsOfUser {d : Directory} {userId : Int64} {id : ConnectionId} :
    id ∈ d.connectionsOfUser userId ↔
      ∃ s, d.userSession? id = some s ∧ s.entry.userId = userId := by
  simp only [connectionsOfUser, sessionsOfUser, List.mem_map, List.mem_filter, Prod.exists,
    exists_and_right, exists_eq_right, Table.mem_entries_iff, decide_eq_true_eq]
  rfl

/-- The directories that a node comes to by registering connections of its own and removing some. -/
inductive Reached (b : BrokerId) : Directory → Prop
  | empty : Reached b (.empty b)
  | addUser {d : Directory} (reached : Reached b d) (s : UserSession) (own : s.entry.owner = b) :
      Reached b (d.addUser s)
  | addGroup {d : Directory} (reached : Reached b d) (s : GroupSession) (own : s.entry.owner = b) :
      Reached b (d.addGroup s)
  | withdrawUser {d : Directory} (reached : Reached b d) (id : ConnectionId) (t : Transport) :
      Reached b (d.withdrawUser id t).2
  | withdrawGroup {d : Directory} (reached : Reached b d) (id : ConnectionId) (t : Transport) :
      Reached b (d.withdrawGroup id t).2
  | remove {d : Directory} (reached : Reached b d) (id : ConnectionId) :
      Reached b (d.remove id).2

/-- No session is under an id. -/
def Absent (d : Directory) (id : ConnectionId) : Prop :=
  d.userSession? id = none ∧ d.groupSession? id = none

end Directory

namespace Lifecycle

theorem survivor?_eq_some {d : Directory} {userId : Int64} {e : UserEntry}
    (h : survivor? d userId = some e) :
    ∃ id s, d.userSession? id = some s ∧ s.entry = e ∧ e.userId = userId := by
  rw [survivor?, Option.map_eq_some_iff] at h
  obtain ⟨s, hfound, rfl⟩ := h
  obtain ⟨id, hid, hs⟩ := List.exists_of_findSome?_eq_some hfound
  obtain ⟨s', hs', huser⟩ := Directory.mem_connectionsOfUser.mp hid
  rw [hs, Option.some.injEq] at hs'
  exact ⟨id, s, hs, rfl, hs' ▸ huser⟩

theorem survivor?_eq_none {d : Directory} {userId : Int64} (h : survivor? d userId = none)
    (id : ConnectionId) (s : UserSession) (hs : d.userSession? id = some s) :
    s.entry.userId ≠ userId := by
  intro huser
  simp only [survivor?, Option.map_eq_none_iff, List.findSome?_eq_none_iff] at h
  simp only [h id (Directory.mem_connectionsOfUser.mpr ⟨s, hs, huser⟩)] at hs
  cases hs

end Lifecycle

end SessionGateway
