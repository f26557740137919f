import SessionGateway.Entry
import SessionGateway.Proofs.Json.RoundTrip

/-!
# Entries read back

The text of an entry, alone or with a stamp, reads as that entry with that stamp, whatever the ids,
the credential and the group may be. The stamp is also found by a reader that knows nothing else.
-/

namespace SessionGateway

theorem isWhole_int64 (n : Int64) : (Json.int n.toInt).IsWhole := by
  have hlow := n.minValue_le_toInt
  have hhigh := n.toInt_lt
  simp only [Json.int, Json.IsWhole, Json.leastInt, Json.greatestInt]
  have hmin : Int64.minValue.toInt = -0x8000000000000000 := by decide
  omega

theorem isWhole_text (s : String) : (Json.text s).IsWhole := by
  rw [Json.IsWhole]
  trivial

theorem int64_ofJson (n : Int64) :
    Json.Decoder.int64 (.number (some (.int n.toInt))) = some n := by
  simp only [Json.Decoder.int64, Json.Decoder.int, Option.bind_some, Text.int64OfInt?_toInt]

namespace UserEntry

/-- The members of an entry that are present. -/
def present (e : UserEntry) : List (String × Json) :=
  e.members.filterMap fun f => f.2.map fun v => (f.1, v)

theorem toJson_eq (e : UserEntry) : e.toJson = .object e.present := rfl

theorem membersWhole (e : UserEntry) (rest : List (String × Json))
    (hrest : Json.MembersWhole rest) : Json.MembersWhole (e.present ++ rest) := by
  cases h : e.roleId <;>
    simp [present, members, h, Json.MembersWhole, ConnectionId.toJson, BrokerId.toJson,
      isWhole_int64, isWhole_text, hrest]

theorem isWhole (e : UserEntry) : e.toJson.IsWhole := by
  have h := e.membersWhole [] (by rw [Json.MembersWhole]; trivial)
  rw [List.append_nil] at h
  rw [toJson_eq, Json.IsWhole]
  exact h

theorem decode_ofJson (e : UserEntry) : decode (.ofJson e.toJson) = some e := by
  obtain ⟨connection, tenantId, userId, roleId, credential, owner⟩ := e
  cases roleId <;>
    simp [toJson, members, Json.ofFields, decode, Json.Document.ofJson, Json.Document.ofMembers,
      Json.Fields.ofDocument?, fieldNames, Json.Fields.fileAll, Json.Fields.file, ofFields?,
      Json.Fields.required, Json.Fields.optional, Json.Fields.withDefault, Json.Fields.get,
      ConnectionId.toJson, BrokerId.toJson, ConnectionId.decode, BrokerId.decode,
      Json.Decoder.text, Json.Decoder.nullable, Json.int, int64_ofJson]

theorem decode_render (e : UserEntry) :
    (Json.Document.read? e.toJson.render).bind decode = some e := by
  simp only [Json.read?_render e.isWhole, Option.bind_some, decode_ofJson]

end UserEntry

namespace Stamped

theorem render_eq (members : List (String × Option Json)) (t : Int64) :
    render members t = (Json.object ((members.filterMap fun f => f.2.map fun v => (f.1, v)) ++
      [(stampKey, .int t.toInt)])).render := by
  simp [render, Json.ofFields]

theorem read?_render_user (e : UserEntry) (t : Int64) :
    Json.Document.read? (render e.members t) =
      some (.ofJson (.object (e.present ++ [(stampKey, .int t.toInt)]))) := by
  rw [render_eq]
  apply Json.read?_render
  rw [Json.IsWhole]
  apply e.membersWhole
  simp [Json.MembersWhole, isWhole_int64]

theorem read?_render_group (e : GroupEntry) (t : Int64) :
    Json.Document.read? (render e.members t) =
      some (.ofJson (.object [("connectionId", e.connection.toJson), ("group", .text e.group),
        ("owner", e.owner.toJson), (stampKey, .int t.toInt)])) := by
  rw [render_eq]
  apply Json.read?_render
  simp [GroupEntry.members, Json.IsWhole, Json.MembersWhole, isWhole_int64,
    ConnectionId.toJson, BrokerId.toJson]

theorem readUser?_render (e : UserEntry) (t : Int64) :
    readUser? (render e.members t) = some ⟨e, t⟩ := by
  obtain ⟨connection, tenantId, userId, roleId, credential, owner⟩ := e
  simp only [readUser?, read?, read?_render_user]
  cases roleId <;>
    simp [UserEntry.present, UserEntry.members, Json.Document.ofJson, Json.Document.ofMembers,
      Json.Fields.ofDocument?, UserEntry.fieldNames, stampKey, Json.Fields.fileAll,
      Json.Fields.file, Json.otherMembers?, UserEntry.ofFields?, Json.Fields.required,
      Json.Fields.optional, Json.Fields.withDefault, Json.Fields.get, ConnectionId.toJson,
      BrokerId.toJson, ConnectionId.decode, BrokerId.decode, Json.Decoder.text,
      Json.Decoder.nullable, Json.int, int64_ofJson]

theorem readGroup?_render (e : GroupEntry) (t : Int64) :
    readGroup? (render e.members t) = some ⟨e, t⟩ := by
  obtain ⟨connection, group, owner⟩ := e
  simp only [readGroup?, read?, read?_render_group]
  simp [Json.Document.ofJson, Json.Document.ofMembers, Json.Fields.ofDocument?,
    GroupEntry.fieldNames, stampKey, Json.Fields.fileAll, Json.Fields.file, Json.otherMembers?,
    GroupEntry.ofFields?, Json.Fields.required, Json.Fields.get, ConnectionId.toJson,
    BrokerId.toJson, ConnectionId.decode, BrokerId.decode, Json.Decoder.text, Json.int,
    int64_ofJson]

theorem stampOf?_render_user (e : UserEntry) (t : Int64) :
    stampOf? (render e.members t) = some t := by
  obtain ⟨connection, tenantId, userId, roleId, credential, owner⟩ := e
  simp only [stampOf?, Json.read?, read?_render_user]
  cases roleId <;>
    simp [UserEntry.present, UserEntry.members, stampKey, Json.Document.ofJson,
      Json.Document.ofMembers, Json.Document.maxDepth, Json.Document.toJson?,
      Json.Document.membersToJson?, putPair, Json.get?, Json.members?, findPair,
      ConnectionId.toJson, BrokerId.toJson, Json.int, Json.int?, Text.int64OfInt?_toInt]

theorem stampOf?_render_group (e : GroupEntry) (t : Int64) :
    stampOf? (render e.members t) = some t := by
  obtain ⟨connection, group, owner⟩ := e
  simp only [stampOf?, Json.read?, read?_render_group]
  simp [stampKey, Json.Document.ofJson, Json.Document.ofMembers, Json.Document.maxDepth,
    Json.Document.toJson?, Json.Document.membersToJson?, putPair, Json.get?, Json.members?,
    findPair, ConnectionId.toJson, BrokerId.toJson, Json.int, Json.int?, Text.int64OfInt?_toInt]

end Stamped

end SessionGateway
