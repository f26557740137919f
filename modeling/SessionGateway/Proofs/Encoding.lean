import SessionGateway.Attributes
import SessionGateway.ServerConfig
import SessionGateway.Proofs.Entry
import SessionGateway.Proofs.Settings.Layers

/-!
# Values read back from their texts

The text of a value reads as the value, whatever its texts and numbers may be and whichever of its
optional fields are there. This holds of principals, of entries alone and under a stamp, of
attributes and of both configurations. Settings that need no correction survive their file: merged
over the defaults, the members of their text leave no default standing and no field unset.
-/

namespace SessionGateway

open Json (Decoder Document Fields)

/-- Every value of a type is had back from the text of its encoding. -/
def Json.Inverts {α : Type} (read : Decoder α) (toJson : α → Json) : Prop :=
  ∀ a, (Document.read? (toJson a).render).bind read = some a

theorem Json.inverts_of {α : Type} {read : Decoder α} {toJson : α → Json}
    (hwhole : ∀ a, (toJson a).IsWhole) (hread : ∀ a, read (.ofJson (toJson a)) = some a) :
    Json.Inverts read toJson := by
  intro a
  rw [Json.read?_render (hwhole a), Option.bind_some, hread]

theorem isWhole_nat {n : Nat} (h : n < 0x10000000000000000) : (Json.nat n).IsWhole := by
  simp only [Json.nat, Json.int, Json.IsWhole, Json.leastInt, Json.greatestInt]
  omega

theorem isWhole_uint64 (n : UInt64) : (Json.uint64 n).IsWhole := isWhole_nat n.toNat_lt

theorem isWhole_uint16 (n : UInt16) : (Json.uint16 n).IsWhole :=
  isWhole_nat (Nat.lt_of_lt_of_le n.toNat_lt (by decide))

/-! ### Principals and entries -/

theorem Principal.isWhole (p : Principal) : p.toJson.IsWhole := by
  cases hrole : p.roleId <;> cases hname : p.username <;>
    simp [toJson, Json.ofFields, hrole, hname, Json.IsWhole, Json.MembersWhole, isWhole_int64]

theorem Principal.decode_ofJson (p : Principal) : decode (.ofJson p.toJson) = some p := by
  obtain ⟨userId, tenantId, roleId, username, credential⟩ := p
  cases roleId <;> cases username <;>
    simp [toJson, Json.ofFields, decode, Document.ofJson, Document.ofMembers,
      Fields.ofDocument?, fieldNames, Fields.fileAll, Fields.file, Fields.required,
      Fields.optional, Fields.withDefault, Fields.get, Decoder.text, Decoder.nullable, Json.int,
      int64_ofJson]

theorem GroupEntry.isWhole (e : GroupEntry) : e.toJson.IsWhole := by
  simp [toJson, members, Json.ofFields, Json.IsWhole, Json.MembersWhole, ConnectionId.toJson,
    BrokerId.toJson]

theorem GroupEntry.decode_ofJson (e : GroupEntry) : decode (.ofJson e.toJson) = some e := by
  simp [toJson, members, Json.ofFields, decode, Document.ofJson, Document.ofMembers,
    Fields.ofDocument?, fieldNames, Fields.fileAll, Fields.file, ofFields?, Fields.required,
    Fields.get, ConnectionId.toJson, BrokerId.toJson, ConnectionId.decode, BrokerId.decode,
    Decoder.text]

/-! ### Attributes -/

namespace Attributes

theorem membersWhole (pairs : List (String × String)) :
    Json.MembersWhole (pairs.map fun e => (e.1, .text e.2)) := by
  induction pairs with
  | nil => simp [Json.MembersWhole]
  | cons e rest ih => simp [Json.MembersWhole, Json.IsWhole, ih]

theorem read_ofMembers (pairs : List (String × String)) (a : Attributes) :
    decode.read a (Document.ofMembers (pairs.map fun e => (e.1, .text e.2))) =
      some ⟨pairs.foldl (fun t e => t.insert e.1 e.2) a.entries⟩ := by
  induction pairs generalizing a with
  | nil => rfl
  | cons e rest ih => exact ih (a.insert e.1 e.2)

/-- Attributes are read back as the same map, if not in the order in which they were first put. -/
theorem decode_render (a : Attributes) :
    ∃ a', (Document.read? a.toJson.render).bind decode = some a' ∧
      ∀ name, a'.get? name = a.get? name := by
  have hwhole : a.toJson.IsWhole := by
    rw [toJson, Json.IsWhole]
    exact membersWhole a.toList
  have hperm : a.toList.Perm a.entries.entries := List.mergeSort_perm _ _
  have hkeys : (a.toList.map Prod.fst).Nodup :=
    (hperm.map Prod.fst).nodup_iff.mpr a.entries.distinct
  refine ⟨⟨a.toList.foldl (fun t e => t.insert e.1 e.2) .empty⟩, ?_, ?_⟩
  · rw [Json.read?_render hwhole, Option.bind_some]
    exact read_ofMembers a.toList .empty
  · intro name
    have hentries : (a.toList.foldl (fun t e => t.insert e.1 e.2) Table.empty).entries =
        a.toList := by
      rw [entries_foldl_insert]
      exact putAll_of_nodup hkeys
    have hmem : ∀ value, Table.get? (a.toList.foldl (fun t e => t.insert e.1 e.2) Table.empty)
        name = some value ↔ a.entries.get? name = some value := by
      intro value
      rw [← Table.mem_entries_iff, ← Table.mem_entries_iff, hentries]
      exact hperm.mem_iff
    exact Option.ext hmem

end Attributes

/-! ### Configurations -/

theorem ServerConfig.isWhole (c : ServerConfig) : c.toJson.IsWhole := by
  cases hkey : c.secretKey <;>
    simp [toJson, hkey, Json.IsWhole, Json.MembersWhole, isWhole_uint64, isWhole_uint16]

/-- A field that is there is read before what comes after it. -/
theorem Json.Fields.required_bind {α β : Type} {fs : Fields} {i : Nat} {d : Document}
    {read : Decoder α} {a : α} (hget : fs.get i = some d) (hread : read d = some a)
    (next : α → Option β) : (fs.required i read >>= next) = next a := by
  rw [required, hget, Option.bind_some, hread, Option.bind_eq_bind, Option.bind_some]

theorem Json.Fields.nullable_bind {α β : Type} {fs : Fields} {i : Nat} {d : Document}
    {read : Decoder α} {a : Option α} (hget : fs.get i = some d)
    (hread : Decoder.nullable read d = some a) (next : Option α → Option β) :
    (fs.nullable i read >>= next) = next a := by
  simp only [nullable, hget, hread, Option.bind_eq_bind, Option.bind_some]

theorem ServerConfig.decode_ofJson (c : ServerConfig) : decode (.ofJson c.toJson) = some c := by
  rw [decode, toJson, Json.fields_of_object (by decide) (by simp), Option.bind_eq_bind,
    Option.bind_some]
  -- field by field, each by a proof of its own, since numbers must not be read by evaluation
  refine (Fields.required_bind rfl (Settings.text_ofJson c.host) _).trans ?_
  refine (Fields.required_bind rfl (Settings.uint16_ofJson c.port) _).trans ?_
  refine (Fields.required_bind rfl (Settings.text_ofJson c.wsPath) _).trans ?_
  refine (Fields.required_bind rfl (Settings.uint64_ofJson c.maxMessageSize) _).trans ?_
  refine (Fields.required_bind rfl (Settings.uint64_ofJson c.pingIntervalSecs) _).trans ?_
  refine (Fields.required_bind rfl (Settings.uint64_ofJson c.pongTimeoutSecs) _).trans ?_
  refine (Fields.required_bind rfl (Settings.uint64_ofJson c.sendQueueCapacity) _).trans ?_
  refine (Fields.nullable_bind (d := ?secret) (a := c.secretKey) ?get ?read _).trans ?_
  case get => rfl
  case read => cases c.secretKey <;> rfl
  refine (Fields.required_bind rfl (Settings.text_ofJson c.heartbeat) _).trans ?_
  refine (Fields.required_bind rfl (Settings.uint64_ofJson c.processorTimeoutMs) _).trans ?_
  refine (Fields.required_bind rfl (Settings.uint64_ofJson c.lockTimeoutMs) _).trans ?_
  exact Fields.required_bind rfl (Settings.uint64_ofJson c.reconcileIntervalSecs) _

namespace Settings

theorem node_ofJson (s : NodeSettings) : NodeSettings.decode (.ofJson s.toJson) = some s := by
  obtain ⟨brokerId⟩ := s
  cases brokerId <;>
    simp [NodeSettings.decode, NodeSettings.toJson, Json.ofFields, Document.ofJson,
      Document.ofMembers, Fields.ofDocument?, NodeSettings.fieldNames, Fields.fileAll, Fields.file,
      Fields.optional, Fields.withDefault, Fields.get, Decoder.nullable, Decoder.text]

theorem server_ofJson (s : ServerSettings) :
    ServerSettings.decode (.ofJson s.toJson) = some s := by
  rw [ServerSettings.decode, ServerSettings.toJson, Json.fields_of_object (by decide) (by simp)]
  simp -implicitDefEqProofs [Fields.withDefault, Fields.get, ServerSettings.fieldNames,
    text_ofJson, uint64_ofJson, uint16_ofJson]

theorem auth_ofJson (s : AuthSettings) : AuthSettings.decode (.ofJson s.toJson) = some s := by
  rw [AuthSettings.decode, AuthSettings.toJson, Json.fields_of_object (by decide) (by simp)]
  simp -implicitDefEqProofs [Fields.withDefault, Fields.get, AuthSettings.fieldNames, text_ofJson,
    uint64_ofJson]

theorem security_ofJson (s : SecuritySettings) :
    SecuritySettings.decode (.ofJson s.toJson) = some s := by
  obtain ⟨secretKey⟩ := s
  cases secretKey <;>
    simp [SecuritySettings.decode, SecuritySettings.toJson, Json.ofFields, Document.ofJson,
      Document.ofMembers, Fields.ofDocument?, SecuritySettings.fieldNames, Fields.fileAll,
      Fields.file, Fields.optional, Fields.withDefault, Fields.get, Decoder.nullable, Decoder.text]

theorem cache_ofJson (s : CacheSettings) : CacheSettings.decode (.ofJson s.toJson) = some s := by
  rw [CacheSettings.decode, CacheSettings.toJson, Json.fields_of_object (by decide) (by simp)]
  simp -implicitDefEqProofs [Fields.withDefault, Fields.get, CacheSettings.fieldNames,
    backend_ofJson, text_ofJson, uint64_ofJson]

theorem registration_ofJson (s : RegistrationSettings) :
    RegistrationSettings.decode (.ofJson s.toJson) = some s := by
  rw [RegistrationSettings.decode, RegistrationSettings.toJson,
    Json.fields_of_object (by decide) (by simp)]
  simp -implicitDefEqProofs [Fields.withDefault, Fields.get, RegistrationSettings.fieldNames,
    uint64_ofJson]

theorem dispatch_ofJson (s : DispatchSettings) :
    DispatchSettings.decode (.ofJson s.toJson) = some s := by
  rw [DispatchSettings.decode, DispatchSettings.toJson,
    Json.fields_of_object (by decide) (by simp)]
  simp -implicitDefEqProofs [Fields.withDefault, Fields.get, DispatchSettings.fieldNames,
    text_ofJson, uint64_ofJson]

theorem logging_ofJson (s : LoggingSettings) :
    LoggingSettings.decode (.ofJson s.toJson) = some s := by
  rw [LoggingSettings.decode, LoggingSettings.toJson, Json.fields_of_object (by decide) (by simp)]
  simp -implicitDefEqProofs [Fields.withDefault, Fields.get, LoggingSettings.fieldNames,
    text_ofJson, format_ofJson]

theorem decode_ofJson (s : Settings) : decode (.ofJson s.toJson) = some s := by
  rw [decode, toJson, Json.fields_of_object (by decide) (by simp)]
  simp -implicitDefEqProofs [Fields.withDefault, Fields.get, fieldNames, node_ofJson,
    server_ofJson, auth_ofJson, security_ofJson, cache_ofJson, registration_ofJson, dispatch_ofJson,
    logging_ofJson]

theorem isWhole (s : Settings) : s.toJson.IsWhole := by
  cases hnode : s.node.brokerId <;> cases hkey : s.security.secretKey <;>
    simp [toJson, NodeSettings.toJson, ServerSettings.toJson, AuthSettings.toJson,
      SecuritySettings.toJson, CacheSettings.toJson, RegistrationSettings.toJson,
      DispatchSettings.toJson, LoggingSettings.toJson, Json.ofFields, hnode, hkey, Json.IsWhole,
      Json.MembersWhole, isWhole_uint64, isWhole_uint16]

/-! ### A file of settings -/

/-- Merged over the defaults, the members of settings leave nothing of them. -/
theorem defaults_merge (s : Settings) : (toJson {}).merge s.toJson = s.toJson := by
  have hnode : ({} : NodeSettings).toJson.merge s.node.toJson = s.node.toJson := by
    obtain ⟨⟨brokerId⟩, _⟩ := s
    cases brokerId <;> rfl
  have hserver : ({} : ServerSettings).toJson.merge s.server.toJson = s.server.toJson :=
    Json.merge_of_replaces (by simp) (by repeat' constructor)
  have hauth : ({} : AuthSettings).toJson.merge s.auth.toJson = s.auth.toJson :=
    Json.merge_of_replaces (by simp) (by repeat' constructor)
  have hsecurity : ({} : SecuritySettings).toJson.merge s.security.toJson = s.security.toJson := by
    obtain ⟨_, _, _, ⟨secretKey⟩, _⟩ := s
    cases secretKey <;> rfl
  have hcache : ({} : CacheSettings).toJson.merge s.cache.toJson = s.cache.toJson :=
    Json.merge_of_replaces (by simp) (by repeat' constructor)
  have hregistration : ({} : RegistrationSettings).toJson.merge s.registration.toJson =
      s.registration.toJson :=
    Json.merge_of_replaces (by simp) (by repeat' constructor)
  have hdispatch : ({} : DispatchSettings).toJson.merge s.dispatch.toJson = s.dispatch.toJson :=
    Json.merge_of_replaces (by simp) (by repeat' constructor)
  have hlogging : ({} : LoggingSettings).toJson.merge s.logging.toJson = s.logging.toJson :=
    Json.merge_of_replaces (by simp) (by repeat' constructor)
  refine Json.merge_of_replaces (by simp) ?_
  exact .cons ⟨rfl, rfl, hnode⟩ (.cons ⟨rfl, rfl, hserver⟩ (.cons ⟨rfl, rfl, hauth⟩
    (.cons ⟨rfl, rfl, hsecurity⟩ (.cons ⟨rfl, rfl, hcache⟩ (.cons ⟨rfl, rfl, hregistration⟩
    (.cons ⟨rfl, rfl, hdispatch⟩ (.cons ⟨rfl, rfl, hlogging⟩ .nil)))))))

/-- The text of settings is read as their members. -/
theorem read?_render (s : Settings) : Json.read? s.toJson.render = some s.toJson := by
  have hnode : Document.toJson? 126 (.ofJson s.node.toJson) = some s.node.toJson := by
    obtain ⟨⟨brokerId⟩, _⟩ := s
    cases brokerId <;> rfl
  have hsecurity : Document.toJson? 126 (.ofJson s.security.toJson) = some s.security.toJson := by
    obtain ⟨_, _, _, ⟨secretKey⟩, _⟩ := s
    cases secretKey <;> rfl
  have hsections : ∀ e ∈ membersOf s.toJson, Document.toJson? 126 (.ofJson e.2) = some e.2 := by
    simp only [membersOf, toJson, Json.members?, Option.getD_some, List.forall_mem_cons]
    exact ⟨hnode, rfl, rfl, hsecurity, rfl, rfl, rfl, rfl, by simp⟩
  rw [Json.read?, Json.read?_render s.isWhole, Option.bind_some]
  exact Json.toJson?_object (by simp) hsections

theorem ofFile_encode (s : Settings) :
    ofFile (.bytes (Text.Utf8.encode s.toJson.render)) = .ok s := by
  simp only [ofFile, File.text?, Text.Utf8.decode?_encode, bind, Except.bind, s.read?_render, pure,
    Except.pure, s.defaults_merge, s.decode_ofJson]

/-- Settings that need no correction are loaded from their file as they are. -/
theorem load_encode {s : Settings} (hcorrect : s.correct.1 = s) {lookup : String → Option String}
    (hunset : ∀ x ∈ overrides, lookup x.name = none) :
    ∃ r, load (.bytes (Text.Utf8.encode s.toJson.render)) lookup = .ok r ∧ r.settings = s := by
  rw [load, s.ofFile_encode]
  refine ⟨_, rfl, ?_⟩
  show (applyEnvironment lookup s).1.correct.1 = s
  rw [applyEnvironment_of_unset hunset, hcorrect]

end Settings

/-- The text of every value is read as that value, an entry under any stamp with its stamp and
attributes as the same map. Settings that need no correction are loaded from a file with their text
as they are, if no variable is set. -/
theorem texts_read_back :
    Json.Inverts Principal.decode Principal.toJson ∧
      Json.Inverts UserEntry.decode UserEntry.toJson ∧
      Json.Inverts GroupEntry.decode GroupEntry.toJson ∧
      Json.Inverts ServerConfig.decode ServerConfig.toJson ∧
      Json.Inverts Settings.decode Settings.toJson ∧
      (∀ a : Attributes, ∃ a', (Document.read? a.toJson.render).bind Attributes.decode = some a' ∧
        ∀ name, a'.get? name = a.get? name) ∧
      (∀ (e : UserEntry) (t : Int64), Stamped.readUser? (Stamped.render e.members t) = some ⟨e, t⟩) ∧
      (∀ (e : GroupEntry) (t : Int64),
        Stamped.readGroup? (Stamped.render e.members t) = some ⟨e, t⟩) ∧
      ∀ (s : Settings) (lookup : String → Option String), s.correct.1 = s →
        (∀ x ∈ Settings.overrides, lookup x.name = none) →
        ∃ r, Settings.load (.bytes (Text.Utf8.encode s.toJson.render)) lookup = .ok r ∧
          r.settings = s :=
  ⟨Json.inverts_of Principal.isWhole Principal.decode_ofJson,
    UserEntry.decode_render,
    Json.inverts_of GroupEntry.isWhole GroupEntry.decode_ofJson,
    Json.inverts_of ServerConfig.isWhole ServerConfig.decode_ofJson,
    Json.inverts_of Settings.isWhole Settings.decode_ofJson,
    Attributes.decode_render, Stamped.readUser?_render, Stamped.readGroup?_render,
    fun _ _ hcorrect hunset => Settings.load_encode hcorrect hunset⟩

/-- Settings with texts that need escapes and numbers at the end of their range. -/
def intricate : Settings where
  node := ⟨some "a \"b\" \\ c"⟩
  server :=
    { host := "\t\n", port := 65535, wsPath := "/é😀", maxMessageSize := 18446744073709551615 }
  security := ⟨some "\x7f$"⟩
  cache := { backend := .redis, keyPrefix := "", entryTtlSecs := 61 }
  logging := { level := "\x00", format := .json }

theorem intricate_read_back :
    intricate.correct.1 = intricate ∧
      ∃ r, Settings.load (.bytes (Text.Utf8.encode intricate.toJson.render)) (fun _ => none) =
        .ok r ∧ r.settings = intricate := by
  have hcorrect : intricate.correct.1 = intricate := by decide +kernel
  obtain ⟨-, -, -, -, -, -, -, -, hload⟩ := texts_read_back
  exact ⟨hcorrect, hload intricate (fun _ => none) hcorrect fun _ _ => rfl⟩

end SessionGateway
