import SessionGateway.Envelope
import SessionGateway.Proofs.Json.Members
import SessionGateway.Proofs.Json.RoundTrip

/-!
# What an envelope keeps

A text frame is an envelope if it has a value, is an object, holds a text or a null under each field
that is a text, and repeats no field. The envelope holds what the value of the frame holds but the
fields that are null: a member of another name is kept with the value that counts, also when the
name is repeated.
-/

namespace SessionGateway

namespace Envelope

open Json (Document Fields Decoder valuesOf?)
open Json.Document (toJson? maxDepth)
open Json.Fields (occurrences)

/-- The fields that are texts. -/
def textNames : List String := ["key", "type", "message"]

/-- What the members of an envelope are, beside having values. -/
structure IsEnvelope (members : List (Option String × Document)) : Prop where
  texts : ∀ name ∈ textNames, ∀ d, (some name, d) ∈ members → d = .null ∨ ∃ s, d = .text s
  once : ∀ name ∈ fieldNames, occurrences members name ≤ 1

/-- What an envelope leaves out. -/
def leftOut (member : String × Json) : Bool := member.1 ∈ fieldNames && member.2.isNull

theorem nodup_fieldNames : fieldNames.Nodup := by decide

/-! ### Reading a field -/

/-- A field read from the members by its name. -/
def readField {α : Type} (read : Decoder α) (members : List (Option String × Document))
    (name : String) : Option (Option α) :=
  match findPair (some name) members with
  | some d => Decoder.nullable read d
  | none => some none

/-- The value under a name, if it is not null. -/
def held (pairs : List (String × Json)) (name : String) : Option Json :=
  (findPair name pairs).filter fun j => !j.isNull

theorem nullable_toJson? (room : Nat) (d : Document) :
    Decoder.nullable (toJson? room) d =
      (toJson? room d).map fun j => if j.isNull then none else some j := by
  cases d with
  | null => simp [Decoder.nullable, toJson?, Json.isNull]
  | bool b => simp [Decoder.nullable, toJson?, Json.isNull]
  | number n => cases n <;> simp [Decoder.nullable, toJson?, Json.isNull]
  | text s => cases s <;> simp [Decoder.nullable, toJson?, Json.isNull]
  | array items =>
    cases room with
    | zero => simp [Decoder.nullable, toJson?]
    | succ room =>
      cases hitems : Document.itemsToJson? room items <;>
        simp [Decoder.nullable, toJson?, hitems, Json.isNull]
  | object members =>
    cases room with
    | zero => simp [Decoder.nullable, toJson?]
    | succ room =>
      cases hmembers : Document.membersToJson? room [] members <;>
        simp [Decoder.nullable, toJson?, hmembers, Json.isNull]

theorem nullable_text_isSome {d : Document} (room : Nat) :
    (Decoder.nullable Decoder.text d).isSome ↔
      (toJson? room d).isSome ∧ (d = .null ∨ ∃ s, d = .text s) := by
  cases d with
  | text s => cases s <;> simp [Decoder.nullable, Decoder.text, toJson?]
  | _ => simp [Decoder.nullable, Decoder.text, toJson?]

theorem nullable_text_eq {d : Document} {s : Option String} (room : Nat)
    (h : Decoder.nullable Decoder.text d = some s) :
    (toJson? room d).filter (fun j => !j.isNull) = s.map .text := by
  cases d with
  | null =>
    cases h
    simp [toJson?, Json.isNull]
  | text s' =>
    cases s' with
    | none => cases h
    | some s' =>
      cases h
      simp [toJson?, Json.isNull]
  | _ => cases h

theorem ofMembers?_eq_some_iff {members : List (Option String × Document)} {e : Envelope} :
    ofMembers? members = some e ↔
      (∀ m ∈ members, m.1 ≠ none) ∧ (∀ n ∈ fieldNames, occurrences members n ≤ 1) ∧
        readField Decoder.text members "key" = some e.key ∧
        readField Decoder.text members "type" = some e.messageType ∧
        readField Decoder.text members "message" = some e.message ∧
        readField (toJson? (maxDepth - 1)) members "data" = some e.data ∧
        ∃ others, Json.otherMembers? fieldNames members = some others ∧
          e.extra = putAll [] others := by
  obtain ⟨key, messageType, message, data, extra⟩ := e
  simp only [ofMembers?, Option.bind_eq_bind, Option.bind_eq_some_iff, Option.pure_def,
    Option.some.injEq, Fields.ofDocument?_object nodup_fieldNames]
  constructor
  · rintro ⟨fs, ⟨hkeys, honce, rfl⟩, key, hkey, type, htype, message, hmessage, data, hdata,
      others, hothers, heq⟩
    cases heq
    exact ⟨hkeys, honce, hkey, htype, hmessage, hdata, others, hothers, rfl⟩
  · rintro ⟨hkeys, honce, hkey, htype, hmessage, hdata, others, hothers, rfl⟩
    exact ⟨_, ⟨hkeys, honce, rfl⟩, key, hkey, messageType, htype, message, hmessage, data, hdata,
      others, hothers, rfl⟩

theorem readField_isSome_iff {α : Type} {read : Decoder α}
    {members : List (Option String × Document)} {name : String}
    (honce : occurrences members name ≤ 1) :
    (readField read members name).isSome ↔
      ∀ d, (some name, d) ∈ members → (Decoder.nullable read d).isSome := by
  rw [readField]
  cases hfind : findPair (some name) members with
  | none =>
    have habsent := (findPair_eq_none_iff _ _).mp hfind
    simp only [Option.isSome_some, true_iff]
    intro d hd
    exact absurd (List.mem_map_of_mem hd) habsent
  | some d =>
    have hmem := Table.mem_of_findPair hfind
    constructor
    · intro h d' hd'
      have heq : d' = d := Fields.eq_of_occurrences honce hd' hmem
      rwa [heq]
    · intro h
      exact h d hmem

theorem readText_isSome_iff {members : List (Option String × Document)} {name : String}
    (room : Nat) (honce : occurrences members name ≤ 1) :
    (readField Decoder.text members name).isSome ↔ ∀ d, (some name, d) ∈ members →
      (toJson? room d).isSome ∧ (d = .null ∨ ∃ s, d = .text s) := by
  simp only [readField_isSome_iff honce, nullable_text_isSome room]

theorem readValue_isSome_iff {members : List (Option String × Document)} {name : String}
    (room : Nat) (honce : occurrences members name ≤ 1) :
    (readField (toJson? room) members name).isSome ↔
      ∀ d, (some name, d) ∈ members → (toJson? room d).isSome := by
  simp only [readField_isSome_iff honce, nullable_toJson?, Option.isSome_map]

/-- The members are an envelope if each field can be read, and the other members can. -/
theorem ofMembers?_isSome_of_fields {members : List (Option String × Document)}
    (hkeys : ∀ m ∈ members, m.1 ≠ none) (honce : ∀ n ∈ fieldNames, occurrences members n ≤ 1)
    (htexts : ∀ name ∈ textNames, (readField Decoder.text members name).isSome)
    (hdata : (readField (toJson? (maxDepth - 1)) members "data").isSome)
    (hothers : (Json.otherMembers? fieldNames members).isSome) : (ofMembers? members).isSome := by
  obtain ⟨key, hkey⟩ := Option.isSome_iff_exists.mp (htexts "key" (by decide))
  obtain ⟨type, htype⟩ := Option.isSome_iff_exists.mp (htexts "type" (by decide))
  obtain ⟨message, hmessage⟩ := Option.isSome_iff_exists.mp (htexts "message" (by decide))
  obtain ⟨data, hdata⟩ := Option.isSome_iff_exists.mp hdata
  obtain ⟨others, hothers⟩ := Option.isSome_iff_exists.mp hothers
  have he : ofMembers? members = some ⟨key, type, message, data, putAll [] others⟩ :=
    ofMembers?_eq_some_iff.mpr ⟨hkeys, honce, hkey, htype, hmessage, hdata, others, hothers, rfl⟩
  exact Option.isSome_of_eq_some he

theorem readText_of_ofMembers? {members : List (Option String × Document)} {e : Envelope}
    (he : ofMembers? members = some e) :
    ∀ name ∈ textNames, (readField Decoder.text members name).isSome := by
  obtain ⟨-, -, hkey, htype, hmessage, -⟩ := ofMembers?_eq_some_iff.mp he
  intro name hname
  simp only [textNames, List.mem_cons, List.not_mem_nil, or_false] at hname
  rcases hname with rfl | rfl | rfl
  · exact Option.isSome_of_eq_some hkey
  · exact Option.isSome_of_eq_some htype
  · exact Option.isSome_of_eq_some hmessage

theorem mem_fieldNames {name : String} : name ∈ fieldNames ↔ name ∈ textNames ∨ name = "data" := by
  rw [← List.mem_singleton]
  exact List.mem_append (s := textNames)

/-- The members of an object are an envelope just if all of them have values and the fields are what
they should be. -/
theorem ofMembers?_isSome_iff {members : List (Option String × Document)} :
    (ofMembers? members).isSome ↔
      (valuesOf? (maxDepth - 1) members).isSome ∧ IsEnvelope members := by
  rw [Json.valuesOf?_isSome_iff]
  constructor
  · intro h
    obtain ⟨e, he⟩ := Option.isSome_iff_exists.mp h
    obtain ⟨hkeys, honce, -, -, -, hdata, others, hothers, -⟩ := ofMembers?_eq_some_iff.mp he
    have htexts : ∀ name ∈ textNames, ∀ d, (some name, d) ∈ members →
        (toJson? (maxDepth - 1) d).isSome ∧ (d = .null ∨ ∃ s, d = .text s) := fun name hname =>
      (readText_isSome_iff _ (honce name (mem_fieldNames.mpr (.inl hname)))).mp
        (readText_of_ofMembers? he name hname)
    have hvalue : ∀ d, (some "data", d) ∈ members → (toJson? (maxDepth - 1) d).isSome :=
      (readValue_isSome_iff _ (honce "data" (by decide))).mp (Option.isSome_of_eq_some hdata)
    constructor
    · rintro ⟨key, d⟩ hm
      cases key with
      | none => exact absurd rfl (hkeys _ hm)
      | some name =>
        refine ⟨rfl, ?_⟩
        by_cases hfield : name ∈ fieldNames
        · rcases mem_fieldNames.mp hfield with htext | rfl
          · exact (htexts name htext d hm).1
          · exact hvalue d hm
        · obtain ⟨k, hk, hother⟩ := Json.otherMembers?_isSome_iff.mp
            (Option.isSome_of_eq_some hothers) _ hm
          cases hk
          exact hother.resolve_left hfield
    · exact ⟨fun name hname d hd => (htexts name hname d hd).2, honce⟩
  · rintro ⟨hvalues, htexts, honce⟩
    refine ofMembers?_isSome_of_fields ?_ honce ?_ ?_ ?_
    · intro m hm
      exact Option.isSome_iff_ne_none.mp (hvalues m hm).1
    · intro name hname
      rw [readText_isSome_iff (maxDepth - 1) (honce name (mem_fieldNames.mpr (.inl hname)))]
      exact fun d hd => ⟨(hvalues _ hd).2, htexts name hname d hd⟩
    · rw [readValue_isSome_iff _ (honce "data" (by decide))]
      exact fun d hd => (hvalues _ hd).2
    · rw [Json.otherMembers?_isSome_iff]
      intro m hm
      obtain ⟨k, hk⟩ := Option.isSome_iff_exists.mp (hvalues m hm).1
      exact ⟨k, hk, .inr (hvalues m hm).2⟩

/-! ### Writing it back -/

section Values

variable {members : List (Option String × Document)} {pairs : List (String × Json)}

theorem held_of_text (hpairs : valuesOf? (maxDepth - 1) members = some pairs) {name : String}
    {s : Option String} (h : readField Decoder.text members name = some s) :
    held pairs name = s.map .text := by
  rw [held, Json.findPair_of_valuesOf? hpairs]
  rw [readField] at h
  cases hfind : findPair (some name) members with
  | none =>
    rw [hfind] at h
    cases h
    rfl
  | some d =>
    rw [hfind] at h
    exact nullable_text_eq (maxDepth - 1) h

theorem held_of_data (hpairs : valuesOf? (maxDepth - 1) members = some pairs) {name : String}
    {j : Option Json} (h : readField (toJson? (maxDepth - 1)) members name = some j) :
    held pairs name = j := by
  rw [held, Json.findPair_of_valuesOf? hpairs]
  rw [readField] at h
  cases hfind : findPair (some name) members with
  | none =>
    rw [hfind] at h
    cases h
    rfl
  | some d =>
    simp only [hfind, nullable_toJson?, Option.map_eq_some_iff] at h
    obtain ⟨v, hv, rfl⟩ := h
    rw [Option.bind_some, hv]
    cases hnull : v.isNull <;> simp [Option.filter, hnull]

/-- The envelope holds each field that is not null, and of the other names the values that count. -/
theorem toJson_of_ofMembers? (hpairs : valuesOf? (maxDepth - 1) members = some pairs) {e : Envelope}
    (he : ofMembers? members = some e) :
    e.extra = putAll [] (pairs.filter fun m => m.1 ∉ fieldNames) ∧
      e.toJson = .object ((fieldNames.filterMap fun n => (held pairs n).map fun v => (n, v)) ++
        e.extra) := by
  obtain ⟨-, -, hkey, htype, hmessage, hdata, others, hothers, hextra⟩ :=
    ofMembers?_eq_some_iff.mp he
  rw [Json.otherMembers?_eq hpairs, Option.some.injEq] at hothers
  subst hothers
  constructor
  · exact hextra
  · rw [toJson, ← held_of_text hpairs hkey, ← held_of_text hpairs htype,
      ← held_of_text hpairs hmessage, ← held_of_data hpairs hdata]
    rfl

/-- The fields that are not null, each by its name, are the members of such names that are not
null. -/
theorem perm_fields (hnodup : ((pairs.filter fun m => m.1 ∈ fieldNames).map Prod.fst).Nodup) :
    (fieldNames.filterMap fun n => (held pairs n).map fun v => (n, v)).Perm
      ((pairs.filter fun m => m.1 ∈ fieldNames).filter fun m => !m.2.isNull) := by
  have hheld : ∀ n ∈ fieldNames, held pairs n =
      findPair n ((pairs.filter fun m => m.1 ∈ fieldNames).filter fun m => !m.2.isNull) := by
    intro n hn
    have hget := Table.get?_filter ⟨_, hnodup⟩ (fun _ j => !j.isNull) n
    have hfind := findPair_filter (fun n => decide (n ∈ fieldNames)) n pairs
    rw [if_pos (by simpa using hn)] at hfind
    rw [held, ← hfind]
    exact hget.symm
  rw [List.filterMap_congr fun n hn => congrArg (Option.map fun v => (n, v)) (hheld n hn)]
  apply perm_of_names nodup_fieldNames
  · exact hnodup.sublist (List.filter_sublist.map Prod.fst)
  · intro m hm
    simpa using (List.mem_filter.mp (List.mem_filter.mp hm).1).2

/-- The fields of an envelope that are not null, with the members of other names, are what the
object holds but its null fields. -/
theorem perm_kept (hpairs : valuesOf? (maxDepth - 1) members = some pairs)
    (honce : ∀ n ∈ fieldNames, occurrences members n ≤ 1) :
    ((fieldNames.filterMap fun n => (held pairs n).map fun v => (n, v)) ++
        putAll [] (pairs.filter fun m => m.1 ∉ fieldNames)).Perm
      ((putAll [] pairs).filter fun m => !leftOut m) := by
  have hnodup := Json.nodup_of_once hpairs honce
  -- A field is not repeated, so its first value is the one that counts.
  have hfields : (putAll [] pairs).filter (fun m => m.1 ∈ fieldNames) =
      pairs.filter fun m => m.1 ∈ fieldNames := by
    rw [filter_putAll (fun n => decide (n ∈ fieldNames))]
    exact putAll_of_nodup hnodup
  have hothers : (putAll [] pairs).filter (fun m => m.1 ∉ fieldNames) =
      putAll [] (pairs.filter fun m => m.1 ∉ fieldNames) :=
    filter_putAll (fun n => decide (n ∉ fieldNames)) [] pairs
  have hsplit := List.filter_append_perm (fun m => decide (m.1 ∈ fieldNames))
    ((putAll [] pairs).filter fun m => !leftOut m)
  have hkept : ((putAll [] pairs).filter fun m => !leftOut m).filter
        (fun m => decide (m.1 ∈ fieldNames)) =
      (pairs.filter fun m => m.1 ∈ fieldNames).filter fun m => !m.2.isNull := by
    rw [← hfields, List.filter_filter, List.filter_filter]
    apply List.filter_congr
    intro m _
    cases hm : decide (m.1 ∈ fieldNames) <;> simp [leftOut, hm]
  have hrest : ((putAll [] pairs).filter fun m => !leftOut m).filter
        (fun m => !decide (m.1 ∈ fieldNames)) =
      putAll [] (pairs.filter fun m => m.1 ∉ fieldNames) := by
    rw [← hothers, List.filter_filter]
    apply List.filter_congr
    intro m _
    by_cases hm : m.1 ∈ fieldNames <;> simp [leftOut, hm]
  rw [hkept, hrest] at hsplit
  exact ((perm_fields hnodup).append_right _).trans hsplit

end Values

/-! ### Text frames -/

/-- A text frame is an envelope just if it has a value and is an object whose fields are what they
should be. Written back, the envelope is the object that the frame is as a value, but for the fields
that are null; the members of other names are kept in their order. -/
theorem read?_keeps (text : String) :
    ((read? text).isSome ↔ ∃ members, Document.read? text = some (.object members) ∧
        (Json.read? text).isSome ∧ IsEnvelope members) ∧
      ∀ e, read? text = some e → ∃ members written,
        Json.read? text = some (.object members) ∧ (members.map Prod.fst).Nodup ∧
          e.toJson = .object written ∧ written.Perm (members.filter fun m => !leftOut m) ∧
          e.extra = members.filter fun m => m.1 ∉ fieldNames := by
  constructor
  · rw [read?]
    constructor
    · intro h
      obtain ⟨e, he⟩ := Option.isSome_iff_exists.mp h
      obtain ⟨d, hd, hdecode⟩ := Option.bind_eq_some_iff.mp he
      cases d with
      | object members =>
        have he : ofMembers? members = some e := hdecode
        obtain ⟨hvalues, hfields⟩ := ofMembers?_isSome_iff.mp (Option.isSome_of_eq_some he)
        refine ⟨members, hd, ?_, hfields⟩
        rw [Json.read?_object hd, Option.isSome_map]
        exact hvalues
      | _ => cases hdecode
    · rintro ⟨members, hd, hvalue, hfields⟩
      rw [Json.read?_object hd, Option.isSome_map] at hvalue
      rw [hd, Option.bind_some]
      exact ofMembers?_isSome_iff.mpr ⟨hvalue, hfields⟩
  · intro e he
    obtain ⟨d, hd, hdecode⟩ := Option.bind_eq_some_iff.mp he
    cases d with
    | object members =>
      have he : ofMembers? members = some e := hdecode
      obtain ⟨hvalues, hfields⟩ := ofMembers?_isSome_iff.mp (Option.isSome_of_eq_some he)
      obtain ⟨pairs, hpairs⟩ := Option.isSome_iff_exists.mp hvalues
      obtain ⟨hextra, htoJson⟩ := toJson_of_ofMembers? hpairs he
      have hkept := perm_kept hpairs hfields.once
      rw [← hextra] at hkept
      have hothers : e.extra = (putAll [] pairs).filter fun m => m.1 ∉ fieldNames := by
        rw [hextra]
        exact (filter_putAll (fun n => decide (n ∉ fieldNames)) [] pairs).symm
      refine ⟨putAll [] pairs, _, ?_, nodup_keys_putAll pairs, htoJson, hkept, hothers⟩
      rw [Json.read?_object hd, hpairs]
      rfl
    | _ => cases hdecode

/-- A value in which a member of another name is repeated, with a field that is null. -/
def greeting : Json :=
  .object [("v", .nat 1), ("type", .null), ("key", .text "greet"),
    ("v", .array [.null, .object []]), ("data", .object [("type", .null)])]

theorem read?_greeting : read? greeting.render =
    some ⟨some "greet", none, none, some (.object [("type", .null)]),
      [("v", .array [.null, .object []])]⟩ := by
  rw [read?, Json.read?_render (by
    simp [greeting, Json.IsWhole, Json.MembersWhole, Json.ItemsWhole, Json.nat, Json.int,
      Json.leastInt, Json.greatestInt])]
  rfl

theorem greeting_kept :
    ∃ e, read? greeting.render = some e ∧ ∃ members written,
      Json.read? greeting.render = some (.object members) ∧ (members.map Prod.fst).Nodup ∧
        e.toJson = .object written ∧ written.Perm (members.filter fun m => !leftOut m) ∧
        e.extra = members.filter fun m => m.1 ∉ fieldNames :=
  ⟨_, read?_greeting, (read?_keeps greeting.render).2 _ read?_greeting⟩

end Envelope

end SessionGateway
