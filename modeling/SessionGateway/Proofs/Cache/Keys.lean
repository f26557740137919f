import SessionGateway.Cache
import SessionGateway.Proofs.Text.Decimal

/-!
# Keys of the session cache

Ids are arbitrary texts, colons included. Still the keys of different brokers and connections
differ, no key serves two purposes, and the fields of different users differ.
-/

namespace SessionGateway.SessionCache

variable (c : SessionCache)

theorem append_inj {start kind x y : String} : start ++ kind ++ x = start ++ kind ++ y ↔ x = y := by
  constructor
  · intro h
    have hl := congrArg String.toList h
    simp only [String.toList_append] at hl
    exact String.toList_inj.mp (List.append_cancel_left hl)
  · rintro rfl; rfl

/-- Two kinds of keys that differ at one place have no key in common. -/
theorem append_ne {start kind kind' : String} {a b : Char} (i : Nat)
    (ha : kind.toList[i]? = some a) (hb : kind'.toList[i]? = some b) (hab : a ≠ b)
    (x y : String) : start ++ kind ++ x ≠ start ++ kind' ++ y := by
  intro h
  have hl := congrArg String.toList h
  simp only [String.toList_append, List.append_assoc] at hl
  have hrest := congrArg (fun l => l[i]?) (List.append_cancel_left hl)
  obtain ⟨hi, -⟩ := List.getElem?_eq_some_iff.mp ha
  obtain ⟨hi', -⟩ := List.getElem?_eq_some_iff.mp hb
  simp only [List.getElem?_append_left hi, List.getElem?_append_left hi', ha, hb] at hrest
  exact hab (Option.some.inj hrest)

theorem userBucket_inj {b b' : BrokerId} : c.userBucket b = c.userBucket b' ↔ b = b' := by
  cases b; cases b'
  simp only [userBucket, append_inj, BrokerId.mk.injEq]

theorem groupBucket_inj {b b' : BrokerId} : c.groupBucket b = c.groupBucket b' ↔ b = b' := by
  cases b; cases b'
  simp only [groupBucket, append_inj, BrokerId.mk.injEq]

theorem connectionKey_inj {id id' : ConnectionId} :
    c.connectionKey id = c.connectionKey id' ↔ id = id' := by
  cases id; cases id'
  simp only [connectionKey, append_inj, ConnectionId.mk.injEq]

theorem userField_inj {u v : Int64} : userField u = userField v ↔ u = v :=
  Text.toString_toInt_inj

theorem userBucket_ne_groupBucket (b b' : BrokerId) : c.userBucket b ≠ c.groupBucket b' :=
  append_ne 7 rfl rfl (by decide) _ _

theorem userBucket_ne_connectionKey (b : BrokerId) (id : ConnectionId) :
    c.userBucket b ≠ c.connectionKey id :=
  append_ne 1 rfl rfl (by decide) _ _

theorem groupBucket_ne_connectionKey (b : BrokerId) (id : ConnectionId) :
    c.groupBucket b ≠ c.connectionKey id :=
  append_ne 1 rfl rfl (by decide) _ _

theorem userBucket_ne_brokersKey (b : BrokerId) : c.userBucket b ≠ c.brokersKey := by
  rw [brokersKey, ← String.append_empty (s := c.keyStart ++ ":brokers")]
  exact append_ne 7 rfl rfl (by decide) _ _

theorem groupBucket_ne_brokersKey (b : BrokerId) : c.groupBucket b ≠ c.brokersKey := by
  rw [brokersKey, ← String.append_empty (s := c.keyStart ++ ":brokers")]
  exact append_ne 7 rfl rfl (by decide) _ _

theorem connectionKey_ne_brokersKey (id : ConnectionId) : c.connectionKey id ≠ c.brokersKey := by
  rw [brokersKey, ← String.append_empty (s := c.keyStart ++ ":brokers")]
  exact append_ne 1 rfl rfl (by decide) _ _

end SessionGateway.SessionCache
