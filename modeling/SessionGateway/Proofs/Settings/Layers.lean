import SessionGateway.Settings.Load
import SessionGateway.Proofs.Json.Merge
import SessionGateway.Proofs.Json.RoundTrip
import SessionGateway.Proofs.Text.Utf8
import SessionGateway.Proofs.Settings.Environment

/-!
# Layers of settings

Which value a field of the settings has once they are loaded. A settings file is merged as a value
over the defaults and then decoded, which gives each field what the file holds for it, unless that
is null, and its default otherwise; the environment comes over both. Loading fails over a field that
does not decode and over nothing else.
-/

namespace SessionGateway.Settings

open Json (Document Decoder Fields given mergeMembers)

/-! ### What a file holds for a field -/

/-- Whether what is held for a field, if anything, decodes. -/
def Decodes {α : Type} (read : Decoder α) (held : Option Json) : Prop :=
  ∀ j, held = some j → (read (.ofJson j)).isSome

/-- The value of what is held for a field. -/
def valueOf {α : Type} (read : Decoder α) (held : Option Json) : Option α :=
  held.bind fun j => read (.ofJson j)

/-- The members of a value, if it is an object. -/
def membersOf (j : Json) : List (String × Json) := j.members?.getD []

/-- What a file holds under the name of a section, if that is an object. -/
def sectionOf (user : List (String × Json)) (name : String) : List (String × Json) :=
  ((findPair name user).map membersOf).getD []

/-- A field that is known: its name, and which documents decode to its type. -/
structure Known where
  name : String
  decodes : Document → Bool

def Known.of {α : Type} (name : String) (read : Decoder α) : Known :=
  ⟨name, fun d => (read d).isSome⟩

def nodeFields : List Known := [.of "brokerId" Decoder.text]

def serverFields : List Known := [
  .of "host" Decoder.text,
  .of "port" Decoder.uint16,
  .of "wsPath" Decoder.text,
  .of "maxMessageSize" Decoder.uint64,
  .of "pingIntervalSecs" Decoder.uint64,
  .of "pongTimeoutSecs" Decoder.uint64,
  .of "sendQueueCapacity" Decoder.uint64]

def authFields : List Known :=
  [.of "oauthUrl" Decoder.text, .of "requestTimeoutMs" Decoder.uint64]

def securityFields : List Known := [.of "secretKey" Decoder.text]

def cacheFields : List Known := [
  .of "backend" CacheBackend.decode,
  .of "redisUrl" Decoder.text,
  .of "keyPrefix" Decoder.text,
  .of "entryTtlSecs" Decoder.uint64,
  .of "reconcileIntervalSecs" Decoder.uint64]

def registrationFields : List Known := [.of "lockTimeoutMs" Decoder.uint64]

def dispatchFields : List Known :=
  [.of "heartbeat" Decoder.text, .of "processorTimeoutMs" Decoder.uint64]

def loggingFields : List Known := [.of "level" Decoder.text, .of "format" LogFormat.decode]

/-- The sections with the fields that are known in them. -/
def known : List (String × List Known) := [
  ("node", nodeFields),
  ("server", serverFields),
  ("auth", authFields),
  ("security", securityFields),
  ("cache", cacheFields),
  ("registration", registrationFields),
  ("dispatch", dispatchFields),
  ("logging", loggingFields)]

/-- Every known field that a section holds decodes to its type. -/
def SectionReadable (fields : List Known) (ms : List (String × Json)) : Prop :=
  ∀ f ∈ fields, ∀ j, given ms f.name = some j → f.decodes (.ofJson j)

/-- Every known field that a file holds decodes to its type. -/
def Readable (user : List (String × Json)) : Prop :=
  ∀ s ∈ known, SectionReadable s.2 (sectionOf user s.1)

/-! ### The settings of a file

Each field as the file has it, and otherwise by default. -/

section Sections

variable (ms : List (String × Json))

/-- The value of a field that a section holds. -/
def held {α : Type} (name : String) (read : Decoder α) : Option α := valueOf read (given ms name)

def nodeOf : NodeSettings := ⟨held ms "brokerId" Decoder.text⟩

def serverOf : ServerSettings :=
  let base : ServerSettings := {}
  { host := (held ms "host" Decoder.text).getD base.host
    port := (held ms "port" Decoder.uint16).getD base.port
    wsPath := (held ms "wsPath" Decoder.text).getD base.wsPath
    maxMessageSize := (held ms "maxMessageSize" Decoder.uint64).getD base.maxMessageSize
    pingIntervalSecs := (held ms "pingIntervalSecs" Decoder.uint64).getD base.pingIntervalSecs
    pongTimeoutSecs := (held ms "pongTimeoutSecs" Decoder.uint64).getD base.pongTimeoutSecs
    sendQueueCapacity :=
      (held ms "sendQueueCapacity" Decoder.uint64).getD base.sendQueueCapacity }

def authOf : AuthSettings :=
  let base : AuthSettings := {}
  { oauthUrl := (held ms "oauthUrl" Decoder.text).getD base.oauthUrl
    requestTimeoutMs := (held ms "requestTimeoutMs" Decoder.uint64).getD base.requestTimeoutMs }

def securityOf : SecuritySettings := ⟨held ms "secretKey" Decoder.text⟩

def cacheOf : CacheSettings :=
  let base : CacheSettings := {}
  { backend := (held ms "backend" CacheBackend.decode).getD base.backend
    redisUrl := (held ms "redisUrl" Decoder.text).getD base.redisUrl
    keyPrefix := (held ms "keyPrefix" Decoder.text).getD base.keyPrefix
    entryTtlSecs := (held ms "entryTtlSecs" Decoder.uint64).getD base.entryTtlSecs
    reconcileIntervalSecs :=
      (held ms "reconcileIntervalSecs" Decoder.uint64).getD base.reconcileIntervalSecs }

def registrationOf : RegistrationSettings :=
  let base : RegistrationSettings := {}
  { lockTimeoutMs := (held ms "lockTimeoutMs" Decoder.uint64).getD base.lockTimeoutMs }

def dispatchOf : DispatchSettings :=
  let base : DispatchSettings := {}
  { heartbeat := (held ms "heartbeat" Decoder.text).getD base.heartbeat
    processorTimeoutMs :=
      (held ms "processorTimeoutMs" Decoder.uint64).getD base.processorTimeoutMs }

def loggingOf : LoggingSettings :=
  let base : LoggingSettings := {}
  { level := (held ms "level" Decoder.text).getD base.level
    format := (held ms "format" LogFormat.decode).getD base.format }

end Sections

def fromFile (user : List (String × Json)) : Settings where
  node := nodeOf (sectionOf user "node")
  server := serverOf (sectionOf user "server")
  auth := authOf (sectionOf user "auth")
  security := securityOf (sectionOf user "security")
  cache := cacheOf (sectionOf user "cache")
  registration := registrationOf (sectionOf user "registration")
  dispatch := dispatchOf (sectionOf user "dispatch")
  logging := loggingOf (sectionOf user "logging")

/-! ### Reading a value over a default -/

theorem text_ofJson (s : String) : Decoder.text (.ofJson (.text s)) = some s := rfl

theorem naturalBelow_ofJson {bound n : Nat} (h : n < bound) :
    Decoder.naturalBelow bound (.ofJson (.nat n)) = some n := by
  have hlt : (n : Int) < bound := by omega
  simp [Decoder.naturalBelow, Decoder.int, Json.nat, Json.int, Document.ofJson, hlt]

theorem uint64_ofJson (n : UInt64) : Decoder.uint64 (.ofJson (.uint64 n)) = some n := by
  rw [Decoder.uint64, Json.uint64, naturalBelow_ofJson n.toNat_lt_size, Option.map_some,
    UInt64.ofNat_toNat]

theorem uint16_ofJson (n : UInt16) : Decoder.uint16 (.ofJson (.uint16 n)) = some n := by
  rw [Decoder.uint16, Json.uint16, naturalBelow_ofJson n.toNat_lt_size, Option.map_some,
    UInt16.ofNat_toNat]

theorem backend_ofJson (b : CacheBackend) :
    CacheBackend.decode (.ofJson (.text b.label)) = some b := by
  cases b <;> rfl

theorem format_ofJson (f : LogFormat) : LogFormat.decode (.ofJson (.text f.label)) = some f := by
  cases f <;> rfl

section Held

variable {α : Type} {read : Decoder α} {held : Option Json}

/-- What is held is read in the place of a default. -/
theorem read_getD {d : Json} {base : α} (hbase : read (.ofJson d) = some base) {x : α} :
    read (.ofJson (held.getD d)) = some x ↔
      Decodes read held ∧ (valueOf read held).getD base = x := by
  cases held with
  | none => simp [Decodes, valueOf, hbase]
  | some j =>
    simp only [Option.getD_some, Decodes, valueOf, Option.some.injEq, forall_eq',
      Option.bind_some]
    cases read (.ofJson j) <;> simp

@[simp] theorem text_getD {s x : String} :
    Decoder.text (.ofJson (held.getD (.text s))) = some x ↔
      Decodes Decoder.text held ∧ (valueOf Decoder.text held).getD s = x :=
  read_getD (text_ofJson s)

@[simp] theorem uint64_getD {n x : UInt64} :
    Decoder.uint64 (.ofJson (held.getD (.uint64 n))) = some x ↔
      Decodes Decoder.uint64 held ∧ (valueOf Decoder.uint64 held).getD n = x :=
  read_getD (uint64_ofJson n)

@[simp] theorem uint16_getD {n x : UInt16} :
    Decoder.uint16 (.ofJson (held.getD (.uint16 n))) = some x ↔
      Decodes Decoder.uint16 held ∧ (valueOf Decoder.uint16 held).getD n = x :=
  read_getD (uint16_ofJson n)

@[simp] theorem backend_getD {b x : CacheBackend} :
    CacheBackend.decode (.ofJson (held.getD (.text b.label))) = some x ↔
      Decodes CacheBackend.decode held ∧ (valueOf CacheBackend.decode held).getD b = x :=
  read_getD (backend_ofJson b)

@[simp] theorem format_getD {f x : LogFormat} :
    LogFormat.decode (.ofJson (held.getD (.text f.label))) = some x ↔
      Decodes LogFormat.decode held ∧ (valueOf LogFormat.decode held).getD f = x :=
  read_getD (format_ofJson f)

end Held

/-! ### Sections -/

/-- The fields of a record whose defaults, none of them an object, have had members merged over
them. -/
theorem ofDocument?_merged {names : List String} (hnames : names.Nodup)
    {defaults : List (String × Json)} (hdefaults : (defaults.map Prod.fst).Nodup)
    (hplain : defaults.all (fun e => e.2.members?.isNone)) {ms : List (String × Json)}
    (hms : (ms.map Prod.fst).Nodup) :
    Fields.ofDocument? names (.ofJson (.object (mergeMembers defaults ms))) =
      some ⟨false, names.map fun n => ((given ms n).or (findPair n defaults)).map .ofJson⟩ := by
  have hheld : ∀ n, findPair n (mergeMembers defaults ms) =
      (given ms n).or (findPair n defaults) := by
    intro n
    rw [Json.findPair_mergeMembers hms]
    cases given ms n with
    | none => rfl
    | some j =>
      cases hfind : findPair n defaults with
      | none => rfl
      | some d =>
        have hd : Json.merged (some d) j = j := by
          have hplain := List.all_eq_true.mp hplain _ (Table.mem_of_findPair hfind)
          exact Json.merge_of_not_object (Option.isNone_iff_eq_none.mp hplain)
        show some (Json.merged (some d) j) = some j
        rw [hd]
  rw [Json.fields_of_object hnames (Json.nodup_keys_mergeMembers hdefaults ms)]
  simp only [hheld]

/-- Merged over its defaults, a section decodes to what members hold for its fields if all of that
decodes, and not at all otherwise. -/
def Layered {σ : Type} (decode : Decoder σ) (defaults : Json) (fields : List Known)
    (result : List (String × Json) → σ) : Prop :=
  ∀ ms, (ms.map Prod.fst).Nodup → ∀ s,
    decode (.ofJson (.object (mergeMembers (membersOf defaults) ms))) = some s ↔
      SectionReadable fields ms ∧ result ms = s

/-- The one field of a record, which has no default. -/
theorem optional_given {α : Type} {read : Decoder α} {ms : List (String × Json)} {name : String}
    {x : Option α} :
    (⟨false, [(given ms name).map .ofJson]⟩ : Fields).optional 0 read = some x ↔
      Decodes read (given ms name) ∧ held ms name read = x := by
  rw [held]
  cases hgiven : given ms name with
  | none => simp [Fields.optional, Fields.withDefault, Fields.get, Decodes, valueOf]
  | some j =>
    have hnull : j.isNull = false := by
      simpa using (Option.filter_eq_some_iff.mp hgiven).2
    have hread : Decoder.nullable read (.ofJson j) = (read (.ofJson j)).map some := by
      cases j with
      | null => cases hnull
      | _ => rfl
    simp only [Fields.optional, Fields.withDefault, Fields.get, Option.map_some,
      List.getElem?_cons_zero, Option.join_some, hread, Decodes, valueOf, Option.some.injEq,
      forall_eq', Option.bind_some]
    cases read (.ofJson j) <;> simp

@[simp] theorem sectionReadable_nil (ms : List (String × Json)) : SectionReadable [] ms := by
  simp [SectionReadable]

@[simp] theorem sectionReadable_cons {α : Type} (name : String) (read : Decoder α)
    (fields : List Known) (ms : List (String × Json)) :
    SectionReadable (.of name read :: fields) ms ↔
      Decodes read (given ms name) ∧ SectionReadable fields ms :=
  List.forall_mem_cons

theorem node_layered :
    Layered NodeSettings.decode ({} : NodeSettings).toJson nodeFields nodeOf := by
  intro ms hms s
  rw [NodeSettings.decode, ofDocument?_merged (by decide) (by decide) (by rfl) hms]
  simp [NodeSettings.fieldNames, NodeSettings.toJson, membersOf, Json.members?, Json.ofFields,
    findPair, Option.bind_eq_some_iff, optional_given, nodeFields, nodeOf]

theorem server_layered :
    Layered ServerSettings.decode ({} : ServerSettings).toJson serverFields serverOf := by
  intro ms hms s
  rw [ServerSettings.decode, ofDocument?_merged (by decide) (by decide) (by rfl) hms]
  simp [Fields.withDefault, Fields.get, ServerSettings.fieldNames, ServerSettings.toJson,
    membersOf, Json.members?, Option.bind_eq_some_iff, and_assoc, serverFields, serverOf, held]

theorem auth_layered :
    Layered AuthSettings.decode ({} : AuthSettings).toJson authFields authOf := by
  intro ms hms s
  rw [AuthSettings.decode, ofDocument?_merged (by decide) (by decide) (by rfl) hms]
  simp [Fields.withDefault, Fields.get, AuthSettings.fieldNames, AuthSettings.toJson,
    membersOf, Json.members?, Option.bind_eq_some_iff, and_assoc, authFields, authOf, held]

theorem security_layered :
    Layered SecuritySettings.decode ({} : SecuritySettings).toJson securityFields securityOf := by
  intro ms hms s
  rw [SecuritySettings.decode, ofDocument?_merged (by decide) (by decide) (by rfl) hms]
  simp [SecuritySettings.fieldNames, SecuritySettings.toJson, membersOf, Json.members?,
    Json.ofFields, findPair, Option.bind_eq_some_iff, optional_given, securityFields, securityOf]

theorem cache_layered :
    Layered CacheSettings.decode ({} : CacheSettings).toJson cacheFields cacheOf := by
  intro ms hms s
  rw [CacheSettings.decode, ofDocument?_merged (by decide) (by decide) (by rfl) hms]
  simp [Fields.withDefault, Fields.get, CacheSettings.fieldNames, CacheSettings.toJson,
    membersOf, Json.members?, Option.bind_eq_some_iff, and_assoc, cacheFields, cacheOf, held]

theorem registration_layered :
    Layered RegistrationSettings.decode ({} : RegistrationSettings).toJson registrationFields
      registrationOf := by
  intro ms hms s
  rw [RegistrationSettings.decode, ofDocument?_merged (by decide) (by decide) (by rfl) hms]
  simp [Fields.withDefault, Fields.get, RegistrationSettings.fieldNames,
    RegistrationSettings.toJson, membersOf, Json.members?, Option.bind_eq_some_iff, and_assoc,
    registrationFields, registrationOf, held]

theorem dispatch_layered :
    Layered DispatchSettings.decode ({} : DispatchSettings).toJson dispatchFields dispatchOf := by
  intro ms hms s
  rw [DispatchSettings.decode, ofDocument?_merged (by decide) (by decide) (by rfl) hms]
  simp [Fields.withDefault, Fields.get, DispatchSettings.fieldNames, DispatchSettings.toJson,
    membersOf, Json.members?, Option.bind_eq_some_iff, and_assoc, dispatchFields, dispatchOf, held]

theorem logging_layered :
    Layered LoggingSettings.decode ({} : LoggingSettings).toJson loggingFields loggingOf := by
  intro ms hms s
  rw [LoggingSettings.decode, ofDocument?_merged (by decide) (by decide) (by rfl) hms]
  simp [Fields.withDefault, Fields.get, LoggingSettings.fieldNames, LoggingSettings.toJson,
    membersOf, Json.members?, Option.bind_eq_some_iff, and_assoc, loggingFields, loggingOf, held]

/-! ### Files -/

/-- The bytes of a file that is an object, with an object or a null for every section it has. -/
structure Describes (content : List UInt8) (user : List (String × Json)) : Prop where
  read : ∃ text, Text.Utf8.decode? content = some text ∧ Json.read? text = some (.object user)
  sections : ∀ name ∈ fieldNames, ∀ j, findPair name user = some j →
    j = .null ∨ ∃ ms, j = .object ms

/-- Two files hold the same for every known field, whatever else is in them. -/
def SameKnown (user user' : List (String × Json)) : Prop :=
  ∀ s ∈ known, ∀ f ∈ s.2,
    given (sectionOf user s.1) f.name = given (sectionOf user' s.1) f.name

section Files

variable {content : List UInt8} {user : List (String × Json)}

theorem Describes.nodup (h : Describes content user) : (user.map Prod.fst).Nodup := by
  obtain ⟨text, -, hread⟩ := h.read
  obtain ⟨d, -, hvalue⟩ := Option.bind_eq_some_iff.mp hread
  exact (Json.members_of_toJson? hvalue).1

theorem Describes.nodup_section (h : Describes content user) (name : String) :
    ((sectionOf user name).map Prod.fst).Nodup := by
  obtain ⟨text, -, hread⟩ := h.read
  obtain ⟨d, -, hvalue⟩ := Option.bind_eq_some_iff.mp hread
  cases hfind : findPair name user with
  | none => simp [sectionOf, hfind]
  | some j =>
    cases j with
    | object ms =>
      obtain ⟨room, d', hd'⟩ :=
        (Json.members_of_toJson? hvalue).2 _ (Table.mem_of_findPair hfind)
      have hsection : sectionOf user name = ms := by
        rw [sectionOf, hfind]
        rfl
      rw [hsection]
      exact (Json.members_of_toJson? hd').1
    | _ => simp [sectionOf, hfind, membersOf, Json.members?]

/-- A section of a file is merged over the section's defaults. -/
theorem Describes.findPair_merged (h : Describes content user) (name : String) (d : Json)
    (hname : name ∈ fieldNames)
    (hd : findPair name (membersOf (toJson {})) = some (.object (membersOf d))) :
    findPair name (mergeMembers (membersOf (toJson {})) user) =
      some (.object (mergeMembers (membersOf d) (sectionOf user name))) := by
  rw [Json.findPair_mergeMembers h.nodup, hd, given, sectionOf]
  cases hfind : findPair name user with
  | none => simp [mergeMembers]
  | some j =>
    rcases h.sections name hname j hfind with rfl | ⟨ms, rfl⟩
    · simp [Option.filter, Json.isNull, membersOf, Json.members?, mergeMembers]
    · simp [Option.filter, Json.isNull, Json.merged, Json.merge, membersOf, Json.members?]

/-- The settings that a file merged over the defaults decodes to. -/
theorem Describes.decode_merged (h : Describes content user) {s : Settings} :
    decode (.ofJson (.object (mergeMembers (membersOf (toJson {})) user))) = some s ↔
      Readable user ∧ fromFile user = s := by
  have hdefaults : ((membersOf (toJson {})).map Prod.fst).Nodup := by decide
  rw [decode, Json.fields_of_object (by decide) (Json.nodup_keys_mergeMembers hdefaults user)]
  have hmerged := h.findPair_merged
  have hms := h.nodup_section
  simp [Fields.withDefault, Fields.get, fieldNames, Option.bind_eq_some_iff, and_assoc,
    hmerged "node" ({} : NodeSettings).toJson (by decide) rfl, node_layered _ (hms "node"),
    hmerged "server" ({} : ServerSettings).toJson (by decide) rfl, server_layered _ (hms "server"),
    hmerged "auth" ({} : AuthSettings).toJson (by decide) rfl, auth_layered _ (hms "auth"),
    hmerged "security" ({} : SecuritySettings).toJson (by decide) rfl,
    security_layered _ (hms "security"),
    hmerged "cache" ({} : CacheSettings).toJson (by decide) rfl, cache_layered _ (hms "cache"),
    hmerged "registration" ({} : RegistrationSettings).toJson (by decide) rfl,
    registration_layered _ (hms "registration"),
    hmerged "dispatch" ({} : DispatchSettings).toJson (by decide) rfl,
    dispatch_layered _ (hms "dispatch"),
    hmerged "logging" ({} : LoggingSettings).toJson (by decide) rfl,
    logging_layered _ (hms "logging"),
    Readable, known, fromFile]

theorem Describes.ofFile_eq (h : Describes content user) :
    ofFile (.bytes content) =
      match decode (.ofJson (.object (mergeMembers (membersOf (toJson {})) user))) with
      | some s => .ok s
      | none => .error .json := by
  obtain ⟨text, htext, hread⟩ := h.read
  have hmerge : (toJson {}).merge (.object user) =
      .object (mergeMembers (membersOf (toJson {})) user) := by
    simp [toJson, membersOf, Json.members?, Json.merge]
  simp only [ofFile, File.text?, htext, bind, Except.bind, hread, pure, Except.pure, hmerge]
  rfl

theorem Describes.ofFile_readable (h : Describes content user) (hread : Readable user) :
    ofFile (.bytes content) = .ok (fromFile user) := by
  rw [h.ofFile_eq, h.decode_merged.mpr ⟨hread, rfl⟩]

theorem Describes.ofFile_not_readable (h : Describes content user) (hread : ¬ Readable user) :
    ofFile (.bytes content) = .error .json := by
  rw [h.ofFile_eq]
  cases hdecode : decode (.ofJson (.object (mergeMembers (membersOf (toJson {})) user))) with
  | none => rfl
  | some s => exact absurd (h.decode_merged.mp hdecode).1 hread

/-- No file is read like a file that is an empty object. -/
theorem Describes.ofFile_absent (h : Describes content []) :
    ofFile .absent = ofFile (.bytes content) := by
  rw [h.ofFile_eq, mergeMembers]
  rfl

theorem load_congr {file file' : File} (h : ofFile file = ofFile file')
    (lookup : String → Option String) : load file lookup = load file' lookup := by
  rw [load, load, h]

theorem SameKnown.readable_iff {user' : List (String × Json)} (h : SameKnown user user') :
    Readable user ↔ Readable user' := by
  apply forall₂_congr
  intro s hs
  apply forall₂_congr
  intro f hf
  rw [h s hs f hf]

theorem SameKnown.fromFile_eq {user' : List (String × Json)} (h : SameKnown user user') :
    fromFile user = fromFile user' := by
  simp only [SameKnown, known, nodeFields, serverFields, authFields, securityFields, cacheFields,
    registrationFields, dispatchFields, loggingFields, Known.of, List.forall_mem_cons,
    List.not_mem_nil, false_imp_iff, implies_true, and_true] at h
  simp [fromFile, nodeOf, serverOf, authOf, securityOf, cacheOf, registrationOf, dispatchOf,
    loggingOf, held, h]

/-- A file whose sections are objects loads just if every field that is known in it decodes. Each
field then has the value of its variable if that counts, what the file holds for it otherwise, and
its default otherwise, corrected as a whole at the end. What else is in the file does not show, and
an empty file is like none. -/
theorem load_layers (h : Describes content user) (lookup : String → Option String) :
    ((∃ r, load (.bytes content) lookup = .ok r) ↔ Readable user) ∧
      (∀ r, load (.bytes content) lookup = .ok r →
        r.settings = (overridden lookup (fromFile user)).correct.1) ∧
      (∀ content' user', Describes content' user' → SameKnown user user' →
        load (.bytes content') lookup = load (.bytes content) lookup) ∧
      (user = [] → load .absent lookup = load (.bytes content) lookup) := by
  have hok : Readable user → ∃ r, load (.bytes content) lookup = .ok r ∧
      r.settings = (overridden lookup (fromFile user)).correct.1 := by
    intro hread
    rw [load, h.ofFile_readable hread, ← applyEnvironment_eq]
    exact ⟨_, rfl, rfl⟩
  have herror : ¬ Readable user → load (.bytes content) lookup = .error .json := by
    intro hread
    rw [load, h.ofFile_not_readable hread]
    rfl
  refine ⟨⟨?_, ?_⟩, ?_, ?_, ?_⟩
  · rintro ⟨r, hr⟩
    by_contra hread
    rw [herror hread] at hr
    cases hr
  · intro hread
    obtain ⟨r, hr, -⟩ := hok hread
    exact ⟨r, hr⟩
  · intro r hr
    by_cases hread : Readable user
    · obtain ⟨r', hr', hsettings⟩ := hok hread
      rw [hr'] at hr
      cases hr
      exact hsettings
    · rw [herror hread] at hr
      cases hr
  · intro content' user' h' hsame
    apply load_congr
    by_cases hread : Readable user
    · rw [h.ofFile_readable hread, h'.ofFile_readable (hsame.readable_iff.mp hread),
        hsame.fromFile_eq]
    · rw [h.ofFile_not_readable hread,
        h'.ofFile_not_readable fun hread' => hread (hsame.readable_iff.mpr hread')]
  · rintro rfl
    exact load_congr h.ofFile_absent lookup

end Files

/-- The members of a file with a section that is null, a field that is null and keys that are not
known. -/
def sparse : List (String × Json) :=
  [("server", .object [("port", .nat 9000), ("host", .null), ("colour", .text "red")]),
    ("cache", .null), ("extra", .array [])]

def sparseBytes : List UInt8 := (Json.object sparse).chars.map fun c => UInt8.ofNat c.toNat

theorem sparse_described : Describes sparseBytes sparse where
  read := by
    have hall : (Json.object sparse).chars.all (fun c => c.toNat < 0x80) = true := by rfl
    have hascii : ∀ c ∈ (Json.object sparse).chars, c.toNat < 0x80 := by
      intro c hc
      simpa using List.all_eq_true.mp hall c hc
    have hwhole : (Json.object sparse).IsWhole := by
      simp [sparse, Json.IsWhole, Json.MembersWhole, Json.ItemsWhole, Json.nat, Json.int,
        Json.leastInt, Json.greatestInt]
    refine ⟨(Json.object sparse).render, Text.Utf8.decode?_ascii hascii, ?_⟩
    rw [Json.read?, Json.read?_render hwhole]
    rfl
  sections := by
    simp [sparse, fieldNames, findPair]

def sparseVariables (name : String) : Option String :=
  if name = "CONDUIT_PING_INTERVAL_SECS" then some "45"
  else if name = "CONDUIT_PORT" then some "0"
  else none

theorem sparse_loaded :
    Describes sparseBytes sparse ∧ ∃ r, load (.bytes sparseBytes) sparseVariables = .ok r ∧
      r.settings = { server := { port := 9000, pingIntervalSecs := 45 } } := by
  have hread : Readable sparse := by
    simp [Readable, known, nodeFields, serverFields, authFields, securityFields, cacheFields,
      registrationFields, dispatchFields, loggingFields, sectionOf, sparse, membersOf,
      Json.members?, given, Decodes, Json.isNull, findPair, Json.nat, Json.int, Document.ofJson,
      Decoder.uint16, Decoder.naturalBelow, Decoder.int, UInt16.size]
  have hlayers := load_layers sparse_described sparseVariables
  obtain ⟨r, hr⟩ := hlayers.1.mpr hread
  refine ⟨sparse_described, r, hr, ?_⟩
  rw [hlayers.2.1 r hr]
  rfl

end SessionGateway.Settings
