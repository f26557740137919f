import SessionGateway.Proofs.Cache.Instant
import SessionGateway.Proofs.Cache.Races
import SessionGateway.Proofs.Cache.Reading
import SessionGateway.Proofs.Json.Members

/-!
# Readers and pruning agree

A reader decodes a whole entry from the members of an object, while pruning looks up the stamp in
the value of the text. Whatever a field holds, if a reader can decode it then the value has the same
stamp: each member has a value, and the stamp is not repeated. So pruning leaves a field alone as
long as a reader counts it, and what pruning deletes counts for no reader from then on.
-/

namespace SessionGateway

open Json (Document Decoder Fields valuesOf?)
open Json.Document (toJson? maxDepth)
open Json.Fields (occurrences)

/-! ### Decoders of members that have values -/

namespace Json.Decoder

variable {α β : Type}

/-- A decoder that accepts only documents that have values, however deep they may be nested. -/
def Valued (read : Decoder α) : Prop := ∀ d a, read d = some a → ∀ room, (toJson? room d).isSome

theorem valued_text : Valued text := by
  intro d s h room
  cases d with
  | text t =>
    cases h
    rfl
  | _ => cases h

theorem valued_int : Valued int := by
  intro d n h room
  cases d with
  | number k =>
    cases k with
    | none => cases h
    | some k => rfl
  | _ => cases h

theorem valued_int64 : Valued int64 := by
  intro d n h
  obtain ⟨k, hk, -⟩ := Option.bind_eq_some_iff.mp h
  exact valued_int d k hk

theorem Valued.map {read : Decoder α} (h : Valued read) (f : α → β) :
    Valued fun d => (read d).map f := by
  intro d b hd
  obtain ⟨a, ha, -⟩ := Option.map_eq_some_iff.mp hd
  exact h d a ha

theorem Valued.nullable {read : Decoder α} (h : Valued read) : Valued (Decoder.nullable read) := by
  intro d a? hd
  by_cases hnull : d = .null
  · subst hnull
    intro room
    rfl
  · have hread : Decoder.nullable read d = (read d).map some := by
      cases d with
      | null => exact absurd rfl hnull
      | _ => rfl
    rw [hread] at hd
    obtain ⟨a, ha, -⟩ := Option.map_eq_some_iff.mp hd
    exact h d a ha

end Json.Decoder

/-- A field has a value, if it is there. -/
def Json.Fields.HasValue (fs : Fields) (i : Nat) : Prop :=
  ∀ d, fs.get i = some d → ∀ room, (toJson? room d).isSome

section

variable {α : Type} {fs : Fields} {i : Nat} {read : Decoder α} {a : α}

theorem hasValue_of_required (hread : read.Valued) (h : fs.required i read = some a) :
    fs.HasValue i := by
  intro d hd
  rw [Fields.required, hd] at h
  exact hread d a h

theorem hasValue_of_optional (hread : read.Valued) {a? : Option α}
    (h : fs.optional i read = some a?) : fs.HasValue i := by
  intro d hd
  rw [Fields.optional, Fields.withDefault, hd] at h
  exact hread.nullable d a? h

end

theorem UserEntry.hasValue_of_ofFields? {fs : Fields} {e : UserEntry}
    (h : UserEntry.ofFields? fs = some e) : ∀ i < UserEntry.fieldNames.length, fs.HasValue i := by
  simp only [UserEntry.ofFields?, Option.bind_eq_bind, Option.bind_eq_some_iff] at h
  obtain ⟨connection, hconnection, tenantId, htenant, userId, huser, roleId, hrole, credential,
    hcredential, owner, howner, -⟩ := h
  intro i hi
  have hi : i < 6 := hi
  obtain rfl | rfl | rfl | rfl | rfl | rfl : i = 0 ∨ i = 1 ∨ i = 2 ∨ i = 3 ∨ i = 4 ∨ i = 5 := by
    omega
  · exact hasValue_of_required (Decoder.valued_text.map _) hconnection
  · exact hasValue_of_required Decoder.valued_int64 htenant
  · exact hasValue_of_required Decoder.valued_int64 huser
  · exact hasValue_of_optional Decoder.valued_int64 hrole
  · exact hasValue_of_required Decoder.valued_text hcredential
  · exact hasValue_of_required (Decoder.valued_text.map _) howner

theorem GroupEntry.hasValue_of_ofFields? {fs : Fields} {e : GroupEntry}
    (h : GroupEntry.ofFields? fs = some e) :
    ∀ i < GroupEntry.fieldNames.length, fs.HasValue i := by
  simp only [GroupEntry.ofFields?, Option.bind_eq_bind, Option.bind_eq_some_iff] at h
  obtain ⟨connection, hconnection, group, hgroup, owner, howner, -⟩ := h
  intro i hi
  have hi : i < 3 := hi
  obtain rfl | rfl | rfl : i = 0 ∨ i = 1 ∨ i = 2 := by omega
  · exact hasValue_of_required (Decoder.valued_text.map _) hconnection
  · exact hasValue_of_required Decoder.valued_text hgroup
  · exact hasValue_of_required (Decoder.valued_text.map _) howner

/-! ### The stamp of a text that is read -/

namespace Stamped

variable {α : Type} {names : List String} {ofFields? : Fields → Option α}
  {members : List (Option String × Document)} {text : String} {s : Stamped α}

/-- What a stamped entry that is read says of the members of its text. -/
theorem exists_of_read? (hnames : (names ++ [stampKey]).Nodup)
    (h : read? names ofFields? text = some s) :
    ∃ members fs, Document.read? text = some (.object members) ∧
      fs = ⟨false, (names ++ [stampKey]).map fun n => findPair (some n) members⟩ ∧
      (∀ n ∈ names ++ [stampKey], occurrences members n ≤ 1) ∧
      (Json.otherMembers? (names ++ [stampKey]) members).isSome ∧
      ofFields? fs = some s.entry ∧ fs.required names.length Decoder.int64 = some s.expiresAt := by
  rw [read?] at h
  split at h
  · next members hread =>
    simp only [Option.bind_eq_bind, Option.bind_eq_some_iff, Option.pure_def,
      Option.some.injEq] at h
    obtain ⟨fs, hfields, others, hothers, entry, hentry, stamp, hstamp, rfl⟩ := h
    obtain ⟨-, honce, hfs⟩ := (Fields.ofDocument?_object hnames members fs).mp hfields
    exact ⟨members, fs, hread, hfs, honce, Option.isSome_of_eq_some hothers, hentry, hstamp⟩
  · cases h

theorem get_of_getElem? {i : Nat} {n : String} (hn : (names ++ [stampKey])[i]? = some n) :
    Fields.get ⟨false, (names ++ [stampKey]).map fun n => findPair (some n) members⟩ i =
      findPair (some n) members := by
  rw [Fields.get, List.getElem?_map, hn]
  rfl

/-- All members of a text have values if the fields have, and the other members. -/
theorem valuesOf?_isSome_of_fields
    (honce : ∀ n ∈ names ++ [stampKey], occurrences members n ≤ 1)
    (hothers : (Json.otherMembers? (names ++ [stampKey]) members).isSome)
    (hvalues : ∀ i < (names ++ [stampKey]).length, Fields.HasValue
      ⟨false, (names ++ [stampKey]).map fun n => findPair (some n) members⟩ i) :
    (valuesOf? (maxDepth - 1) members).isSome := by
  rw [Json.valuesOf?_isSome_iff]
  rintro ⟨key, d⟩ hmem
  obtain ⟨k, hk, hrest⟩ := Json.otherMembers?_isSome_iff.mp hothers _ hmem
  have hk : key = some k := hk
  subst hk
  constructor
  · rfl
  · rcases hrest with hfield | hother
    · obtain ⟨i, hi⟩ := List.mem_iff_getElem?.mp hfield
      obtain ⟨d', hd'⟩ : ∃ d', findPair (some k) members = some d' := by
        cases hfind : findPair (some k) members with
        | none => exact absurd (List.mem_map_of_mem hmem) ((findPair_eq_none_iff _ _).mp hfind)
        | some d' => exact ⟨d', rfl⟩
      have hsame : d = d' :=
        Fields.eq_of_occurrences (honce k hfield) hmem (Table.mem_of_findPair hd')
      have hlt : i < (names ++ [stampKey]).length := (List.getElem?_eq_some_iff.mp hi).1
      rw [hsame]
      exact hvalues i hlt d' ((get_of_getElem? hi).trans hd') _
    · exact hother

/-- The stamp of an entry that is read is the one that the value of the text has. -/
theorem stampOf?_of_read? (hnames : (names ++ [stampKey]).Nodup)
    (hvalues : ∀ fs e, ofFields? fs = some e → ∀ i < names.length, fs.HasValue i)
    (h : read? names ofFields? text = some s) : stampOf? text = some s.expiresAt := by
  obtain ⟨members, fs, hread, rfl, honce, hothers, hentry, hstamp⟩ := exists_of_read? hnames h
  have hlast : (names ++ [stampKey])[names.length]? = some stampKey := by simp
  have hall : (valuesOf? (maxDepth - 1) members).isSome := by
    apply valuesOf?_isSome_of_fields honce hothers
    intro i hi
    rw [List.length_append, List.length_singleton] at hi
    obtain hlt | rfl : i < names.length ∨ i = names.length := by omega
    · exact hvalues _ _ hentry i hlt
    · exact hasValue_of_required Decoder.valued_int64 hstamp
  obtain ⟨pairs, hpairs⟩ := Option.isSome_iff_exists.mp hall
  obtain ⟨d, hfind, hd⟩ := Option.bind_eq_some_iff.mp hstamp
  rw [get_of_getElem? hlast] at hfind
  obtain ⟨n, hint, hn⟩ := Option.bind_eq_some_iff.mp hd
  obtain rfl : d = .number (some (.int n)) := by
    cases d with
    | number k =>
      cases k with
      | none => cases hint
      | some k =>
        cases k with
        | int k =>
          cases hint
          rfl
        | float bits => cases hint
    | _ => cases hint
  -- The stamp is there once, so the value keeps the member that the reader found.
  have hvalue : findPair stampKey (putAll [] pairs) = some (.number (.int n)) := by
    rw [Json.findPair_putAll_of_once hpairs (honce stampKey (by simp)), hfind]
    rfl
  have hget : (Json.object (putAll [] pairs)).get? stampKey = some (.number (.int n)) := hvalue
  rw [stampOf?, Json.read?_object hread, hpairs]
  simp only [Option.map_some, Option.bind_eq_bind, Option.bind_some, hget, Json.int?]
  exact hn

theorem stampOf?_of_readUser? {s : Stamped UserEntry} (h : readUser? text = some s) :
    stampOf? text = some s.expiresAt :=
  stampOf?_of_read? (by decide) (fun _ _ => UserEntry.hasValue_of_ofFields?) h

theorem stampOf?_of_readGroup? {s : Stamped GroupEntry} (h : readGroup? text = some s) :
    stampOf? text = some s.expiresAt :=
  stampOf?_of_read? (by decide) (fun _ _ => GroupEntry.hasValue_of_ofFields?) h

end Stamped

namespace SessionCache

open Cache (AnswersAt Operation Request)
open Store (Memory)

/-! ### What a reader counts -/

/-- The entry that a reader takes from a text at a time. -/
def counted? {α : Type} (read? : String → Option (Stamped α)) (wall : Int64) (text : String) :
    Option α :=
  (read? text).bind fun s => if wall < s.expiresAt then some s.entry else none

section

variable {α : Type} {read? : String → Option (Stamped α)} {wall later : Int64} {text : String}

theorem exists_of_counted? {a : α} (h : counted? read? wall text = some a) :
    ∃ s, read? text = some s ∧ wall < s.expiresAt ∧ s.entry = a := by
  obtain ⟨s, hs, hlive⟩ := Option.bind_eq_some_iff.mp h
  split at hlive
  · next hlt => exact ⟨s, hs, hlt, Option.some.inj hlive⟩
  · cases hlive

/-- What counts now did so before. -/
theorem counted?_isSome_earlier (h : (counted? read? later text).isSome) (hle : wall ≤ later) :
    (counted? read? wall text).isSome := by
  obtain ⟨a, ha⟩ := Option.isSome_iff_exists.mp h
  obtain ⟨s, hs, hlt, -⟩ := exists_of_counted? ha
  have hearlier : wall < s.expiresAt := by
    rw [Int64.lt_iff_toInt_lt] at hlt ⊢
    rw [Int64.le_iff_toInt_le] at hle
    omega
  rw [counted?, hs, Option.bind_some, if_pos hearlier]
  rfl

/-- A text that a reader counts is not stale, if the stamp that is read is that of the value. -/
theorem isStale_of_counted?
    (hstamp : ∀ text s, read? text = some s → Stamped.stampOf? text = some s.expiresAt)
    (h : (counted? read? wall text).isSome) : isStale wall text = false := by
  obtain ⟨a, ha⟩ := Option.isSome_iff_exists.mp h
  obtain ⟨s, hs, hlt, -⟩ := exists_of_counted? ha
  have hnot : ¬ s.expiresAt ≤ wall := by
    rw [Int64.lt_iff_toInt_lt] at hlt
    rw [Int64.le_iff_toInt_le]
    omega
  rw [isStale, hstamp text s hs]
  exact decide_eq_false hnot

end

/-! ### What the readers return -/

/-- An operation leaves the memory alone; it returns a value if a condition holds, and fails
otherwise. -/
def Returns {α : Type} (m : Memory) (sound : Prop) (a : α) (r : Except CacheError α)
    (m' : Memory) : Prop :=
  m' = m ∧ (sound → r = .ok a) ∧ (¬ sound → ∃ e, r = .error e)

section

variable {α : Type} {read? : String → Option (Stamped α)} {now : Duration} {wall : Int64}
  {m : Memory} {key field : String}

theorem ensures_liveAmong (found : List (String × String)) :
    (liveAmong read? key wall found).Ensures (AnswersAt now wall false) m fun r m' =>
      m' = m ∧ r = .ok (found.filterMap fun e => counted? read? wall e.2) := by
  induction found with
  | nil => exact ⟨rfl, rfl⟩
  | cons e rest ih =>
    obtain ⟨field, text⟩ := e
    rw [liveAmong]
    cases hread : read? text with
    | none =>
      dsimp only
      rw [Cache.ensures_bind]
      rintro _ m' rfl
      refine ih.mono ?_
      rintro r m' ⟨rfl, rfl⟩
      have hnone : counted? read? wall text = none := by rw [counted?, hread, Option.bind_none]
      simp only [List.filterMap_cons, hnone, and_self]
    | some s =>
      dsimp only
      rw [Cache.ensures_bind]
      refine ih.mono ?_
      rintro r m' ⟨rfl, rfl⟩
      have hcounted : counted? read? wall text =
          if wall < s.expiresAt then some s.entry else none := by
        rw [counted?, hread, Option.bind_some]
      constructor
      · rfl
      · simp only [List.filterMap_cons, hcounted]
        by_cases hlive : wall < s.expiresAt
        · rw [if_pos hlive, if_pos hlive]
        · rw [if_neg hlive, if_neg hlive]

/-- A command that the memory refuses fails and leaves the memory alone. -/
theorem ensuresAt_command_refused {k : Store.Command} {e : CacheError}
    (h : Memory.answer now k m = (.error e, m)) :
    (Cache.command k).Ensures (AnswersAt now wall false) m fun r m' => m' = m ∧ r = .error e := by
  rintro x m' (hx | ⟨⟨⟩, -⟩)
  by_cases hk : k.Lists
  · cases k with
    | hashGetAll key =>
      rw [Memory.Carries, h] at hx
      obtain ⟨rfl, ⟨e', he, rfl⟩ | ⟨fields, fields', ⟨⟩, -⟩⟩ := hx
      cases he
      exact ⟨rfl, rfl⟩
    | _ => exact hk.elim
  · obtain ⟨rfl, rfl⟩ := Memory.eq_of_carries hx hk
    rw [h]
    exact ⟨rfl, rfl⟩

theorem hashGetAll_refused (h : ¬ m.IsHash now key) :
    Memory.answer now (.hashGetAll key) m = (.error (.wrongType key), m) := by
  obtain ⟨s, deadline, hs⟩ := Memory.live?_of_not_isHash h
  simp only [Memory.answer, hs]

theorem hashGet_refused (h : ¬ m.IsHash now key) :
    Memory.answer now (.hashGet key field) m = (.error (.wrongType key), m) := by
  obtain ⟨s, deadline, hs⟩ := Memory.live?_of_not_isHash h
  simp only [Memory.answer, hs]

/-- Listing a bucket takes from each of its fields what counts. -/
theorem ensures_liveFields :
    (liveFields read? key).Ensures (AnswersAt now wall false) m fun r m' =>
      ∃ found : List (String × String), found.Perm (m.fieldsAt now key).entries ∧
        Returns m (m.IsHash now key) (found.filterMap fun e => counted? read? wall e.2) r m' := by
  rw [liveFields]
  refine Cache.ensuresAt_now ?_
  rw [Cache.ensures_bind]
  by_cases hhash : m.IsHash now key
  · refine Cache.ensuresAt_hashGetAll hhash ?_
    intro found hperm
    refine (ensures_liveAmong found).mono ?_
    rintro r m' ⟨rfl, rfl⟩
    exact ⟨found, hperm, rfl, fun _ => rfl, fun h => absurd hhash h⟩
  · refine (ensuresAt_command_refused (hashGetAll_refused hhash)).mono ?_
    rintro r m' ⟨rfl, rfl⟩
    exact ⟨_, .refl _, rfl, fun h => absurd h hhash, fun _ => ⟨_, rfl⟩⟩

/-- What counts of a field, if it is there. -/
def countedIn? (read? : String → Option (Stamped α)) (wall : Int64) (fields : Table String String)
    (field : String) : Option α :=
  (fields.get? field).bind (counted? read? wall)

theorem ensures_liveField :
    (liveField read? key field).Ensures (AnswersAt now wall false) m fun r m' =>
      Returns m (m.IsHash now key) (countedIn? read? wall (m.fieldsAt now key) field) r m' := by
  rw [liveField, Cache.ensures_bind]
  by_cases hhash : m.IsHash now key
  · refine Cache.ensuresAt_command (fun e => e) ?_
    rw [Memory.answer_hashGet hhash]
    cases hfield : (m.fieldsAt now key).get? field with
    | none =>
      have hnone : countedIn? read? wall (m.fieldsAt now key) field = none := by
        rw [countedIn?, hfield, Option.bind_none]
      rw [hnone]
      exact ⟨rfl, fun _ => rfl, fun h => absurd hhash h⟩
    | some text =>
      have hin : countedIn? read? wall (m.fieldsAt now key) field = counted? read? wall text := by
        rw [countedIn?, hfield, Option.bind_some]
      rw [hin, counted?]
      dsimp only
      cases hread : read? text with
      | none =>
        dsimp only
        rw [Cache.ensures_bind]
        rintro _ m' rfl
        exact ⟨rfl, fun _ => rfl, fun h => absurd hhash h⟩
      | some s =>
        refine Cache.ensuresAt_now ?_
        exact ⟨rfl, fun _ => rfl, fun h => absurd hhash h⟩
  · refine (ensuresAt_command_refused (hashGet_refused hhash)).mono ?_
    rintro r m' ⟨rfl, rfl⟩
    exact ⟨rfl, fun h => absurd h hhash, fun _ => ⟨_, rfl⟩⟩

/-- Looking up a field across buckets takes from each what counts. -/
theorem ensures_locateIn {bucket : BrokerId → String} (bs : List BrokerId) :
    (locateIn read? bucket field bs).Ensures (AnswersAt now wall false) m fun r m' =>
      Returns m (∀ b ∈ bs, m.IsHash now (bucket b))
        (bs.filterMap fun b => countedIn? read? wall (m.fieldsAt now (bucket b)) field) r m' := by
  induction bs with
  | nil => exact ⟨rfl, fun _ => rfl, fun h => absurd (fun _ hb => nomatch hb) h⟩
  | cons b rest ih =>
    rw [locateIn, Cache.ensures_bind]
    refine ensures_liveField.mono ?_
    rintro r m' ⟨rfl, hok, hfails⟩
    by_cases hhash : m'.IsHash now (bucket b)
    · rw [hok hhash]
      dsimp only
      rw [Cache.ensures_bind]
      refine ih.mono ?_
      rintro r' m'' ⟨rfl, hrest, hrestFails⟩
      by_cases hall : ∀ b ∈ rest, m''.IsHash now (bucket b)
      · have hboth : ∀ b' ∈ b :: rest, m''.IsHash now (bucket b') :=
          List.forall_mem_cons.mpr ⟨hhash, hall⟩
        rw [hrest hall]
        refine ⟨rfl, fun _ => ?_, fun h => absurd hboth h⟩
        rw [List.filterMap_cons]
        cases countedIn? read? wall (m''.fieldsAt now (bucket b)) field with
        | none => rfl
        | some a => rfl
      · obtain ⟨e, rfl⟩ := hrestFails hall
        exact ⟨rfl, fun h => absurd (List.forall_mem_cons.mp h).2 hall, fun _ => ⟨e, rfl⟩⟩
    · obtain ⟨e, rfl⟩ := hfails hhash
      exact ⟨rfl, fun h => absurd (List.forall_mem_cons.mp h).1 hhash, fun _ => ⟨e, rfl⟩⟩

/-- A broker has a heartbeat that is not too old. -/
def IsLiving (c : SessionCache) (now : Duration) (wall : Int64) (m : Memory) (b : BrokerId) :
    Prop :=
  ∃ beat, (m.fieldsAt now c.brokersKey).get? b.text = some beat ∧
    c.isAlive wall (b.text, beat) = true

theorem ensures_brokers (c : SessionCache) :
    c.brokers.Ensures (AnswersAt now wall false) m fun r m' =>
      ∃ bs : List BrokerId, bs.Nodup ∧ (∀ b, b ∈ bs ↔ c.IsLiving now wall m b) ∧
        Returns m (m.IsHash now c.brokersKey) bs r m' := by
  rw [brokers]
  refine Cache.ensuresAt_now ?_
  rw [Cache.ensures_bind]
  by_cases hhash : m.IsHash now c.brokersKey
  · refine Cache.ensuresAt_hashGetAll hhash ?_
    intro found hperm
    let bs := ((found.filter (c.isAlive wall)).map fun b => BrokerId.mk b.1).mergeSort
      fun a b => decide (a.text ≤ b.text)
    have hdistinct : (found.map Prod.fst).Nodup :=
      (hperm.map Prod.fst).nodup_iff.mpr (m.fieldsAt now c.brokersKey).distinct
    refine ⟨bs, ?_, ?_, rfl, fun _ => rfl, fun h => absurd hhash h⟩
    · have hkeys : ((found.filter (c.isAlive wall)).map Prod.fst).Nodup :=
        hdistinct.sublist (List.filter_sublist.map Prod.fst)
      refine (List.mergeSort_perm _ _).nodup_iff.mpr (List.pairwise_map.mpr ?_)
      refine (List.pairwise_map.mp hkeys).imp ?_
      intro x y hxy heq
      exact hxy (congrArg BrokerId.text heq)
    · intro b
      simp only [bs, List.mem_mergeSort, List.mem_map, List.mem_filter, Prod.exists]
      constructor
      · rintro ⟨field, beat, ⟨hentry, hlive⟩, rfl⟩
        exact ⟨beat, (Table.mem_entries_iff _).mp (hperm.mem_iff.mp hentry), hlive⟩
      · rintro ⟨beat, hget, hlive⟩
        exact ⟨b.text, beat, ⟨hperm.mem_iff.mpr ((Table.mem_entries_iff _).mpr hget), hlive⟩, rfl⟩
  · have hnone : m.fieldsAt now c.brokersKey = .empty := by
      obtain ⟨s, deadline, hs⟩ := Memory.live?_of_not_isHash hhash
      simp only [Memory.fieldsAt, hs]
      rfl
    refine (ensuresAt_command_refused (hashGetAll_refused hhash)).mono ?_
    rintro r m' ⟨rfl, rfl⟩
    refine ⟨[], List.nodup_nil, ?_, rfl, fun h => absurd h hhash, fun _ => ⟨_, rfl⟩⟩
    rintro b
    constructor
    · intro hb
      cases hb
    · rintro ⟨beat, hget, -⟩
      rw [hnone, Table.get?_empty] at hget
      cases hget

/-- Looking up a field across the living brokers. -/
theorem ensures_locate (c : SessionCache) (bucket : BrokerId → String) :
    Operation.Ensures (AnswersAt now wall false)
      (do locateIn read? bucket field (← c.brokers)) m fun r m' =>
      ∃ bs : List BrokerId, bs.Nodup ∧ (∀ b, b ∈ bs ↔ c.IsLiving now wall m b) ∧
        Returns m (m.IsHash now c.brokersKey ∧ ∀ b ∈ bs, m.IsHash now (bucket b))
          (bs.filterMap fun b => countedIn? read? wall (m.fieldsAt now (bucket b)) field) r m' := by
  rw [Cache.ensures_bind]
  refine (ensures_brokers c).mono ?_
  rintro r m' ⟨bs, hdistinct, hliving, rfl, hok, hfails⟩
  by_cases hhash : m'.IsHash now c.brokersKey
  · rw [hok hhash]
    refine (ensures_locateIn bs).mono ?_
    rintro r' m'' ⟨rfl, hfound, hrefused⟩
    refine ⟨bs, hdistinct, hliving, rfl, fun h => hfound h.2, fun h => hrefused ?_⟩
    exact fun hall => h ⟨hhash, hall⟩
  · obtain ⟨e, rfl⟩ := hfails hhash
    exact ⟨bs, hdistinct, hliving, rfl, fun h => absurd h.1 hhash, fun _ => ⟨e, rfl⟩⟩

end

/-! ### What pruning leaves -/

section

variable {c : SessionCache} {b : BrokerId} {now : Duration} {wall : Int64} {fails : Bool}
  {m m' : Memory} {key field text : String}

/-- What a pass that read a time asks of the store. -/
inductive Prunes (wall : Int64) : Request → Prop
  | lists (key : String) : Prunes wall (.store (.hashGetAll key))
  | deletes (key field : String) {text : String} (stale : isStale wall text = true) :
    Prunes wall (.store (.hashDeleteIf key field text))

theorem prune_run (c : SessionCache) (b : BrokerId) :
    ∃ rest, (c.prune b).run = .ask .wallClock rest ∧ ∀ wall, (rest wall).Only (Prunes wall) := by
  refine ⟨_, rfl, fun wall => ?_⟩
  refine Cache.only_bind (Cache.only_command (.lists _)) fun found => ?_
  refine Cache.only_bind (only_pruneAmong (fun _ _ => .deletes _ _) found) fun _ => ?_
  refine Cache.only_bind (Cache.only_command (.lists _)) fun found => ?_
  exact Cache.only_bind (only_pruneAmong (fun _ _ => .deletes _ _) found) fun _ => Cache.only_pure _

/-- A field reads the same in two memories, now and later. -/
def ReadsAlike (now : Duration) (key field : String) (m m' : Memory) : Prop :=
  ∀ now', now ≤ now' → (m'.fieldsAt now' key).get? field = (m.fieldsAt now' key).get? field

/-- What a pass asks for leaves a field that holds a text which is not stale. -/
theorem readsAlike_of_prunes {r : Request} {x : r.Answer} (hr : Prunes wall r)
    (hheld : (m.fieldsAt now key).get? field = some text) (hfresh : isStale wall text = false)
    (hx : AnswersAt now wall fails r m x m') : ReadsAlike now key field m m' := by
  intro now' hnow
  cases hr with
  | lists key' =>
    obtain ⟨rfl, -⟩ | ⟨-, rfl, -⟩ := hx
    · rfl
    · rfl
  | @deletes key' field' text' hstale =>
    obtain hcarried | ⟨-, rfl, -⟩ := hx
    · have hm : m' = (m.deleteField now key' field' (· = text')).2 :=
        (congrArg Prod.snd hcarried).symm
      by_cases hkey : key' = key
      · subst hkey
        have hother : ¬ (field = field' ∧
            ((m.fieldsAt now key').get? field').any (· = text') = true) := by
          rintro ⟨rfl, hany⟩
          rw [hheld, Option.any_some, decide_eq_true_eq] at hany
          rw [hany, hstale] at hfresh
          cases hfresh
        rw [hm, Memory.get?_fieldsAt_deleteField (Memory.isHash_of_fieldsAt hheld) hnow,
          if_neg hother]
      · rw [hm, Memory.fieldsAt_congr (Memory.live?_deleteField_ne hkey)]
    · rfl

/-- Pruning leaves a field that holds a text which is not stale. -/
theorem ensures_prune_fresh (hheld : (m.fieldsAt now key).get? field = some text)
    (hfresh : isStale wall text = false) :
    (c.prune b).Ensures (AnswersAt now wall fails) m fun _ m' => ReadsAlike now key field m m' := by
  obtain ⟨rest, hrun, honly⟩ := prune_run c b
  rw [Operation.Ensures, hrun]
  rintro wall' m₀ ⟨rfl, rfl⟩
  have hstep : ∀ r s x s', Prunes wall' r → ReadsAlike now key field m₀ s →
      AnswersAt now wall' fails r s x s' → ReadsAlike now key field m₀ s' := by
    intro r s x s' hr hs hx now' hnow
    have hsame : (s.fieldsAt now key).get? field = some text :=
      (hs now (Duration.le_refl now)).trans hheld
    exact (readsAlike_of_prunes hr hsame hfresh hx now' hnow).trans (hs now' hnow)
  exact ((honly wall').ensures hstep fun _ _ => rfl).mono fun _ _ _ h => h.1

end

/-! ### Agreement -/

/-- The readers of one kind of bucket and the pruning agree on every text of a field. -/
structure Concord {α κ : Type} (c : SessionCache) (bucket : BrokerId → String) (field : κ → String)
    (read? : String → Option (Stamped α)) (list : BrokerId → Operation (List α))
    (lookUp : κ → Operation (List α)) : Prop where
  /-- Listing a bucket returns what counts of each of its fields, and fails just if the bucket is
  not a hash. -/
  listed : ∀ b now wall m, (list b).Ensures (AnswersAt now wall false) m fun r m' =>
    ∃ found : List (String × String), found.Perm (m.fieldsAt now (bucket b)).entries ∧
      Returns m (m.IsHash now (bucket b)) (found.filterMap fun e => counted? read? wall e.2) r m'
  /-- A lookup returns what counts of the field in the bucket of each living broker, and fails just
  if a key that it reads is not a hash. -/
  lookedUp : ∀ k now wall m, (lookUp k).Ensures (AnswersAt now wall false) m fun r m' =>
    ∃ bs : List BrokerId, bs.Nodup ∧ (∀ b, b ∈ bs ↔ c.IsLiving now wall m b) ∧
      Returns m (m.IsHash now c.brokersKey ∧ ∀ b ∈ bs, m.IsHash now (bucket b))
        (bs.filterMap fun b => countedIn? read? wall (m.fieldsAt now (bucket b)) (field k)) r m'
  /-- Pruning leaves a field from which an entry counts. -/
  spared : ∀ b fails now wall m b' name text,
    (m.fieldsAt now (bucket b')).get? name = some text → (counted? read? wall text).isSome →
      (c.prune b).Ensures (AnswersAt now wall fails) m fun _ m' =>
        ReadsAlike now (bucket b') name m m'
  /-- The text of a field that pruning deletes counts neither then nor later. -/
  deleted : ∀ b fails now wall m b' name text,
    (m.fieldsAt now (bucket b')).get? name = some text →
      (c.prune b).Ensures (AnswersAt now wall fails) m fun _ m' =>
        (m'.fieldsAt now (bucket b')).get? name ≠ some text →
          ∀ later, wall ≤ later → counted? read? later text = none

section

variable {α κ : Type} {c : SessionCache} {bucket : BrokerId → String} {field : κ → String}
  {read? : String → Option (Stamped α)} {list : BrokerId → Operation (List α)}
  {lookUp : κ → Operation (List α)}

/-- Readers that read the stamp of the value agree with pruning. -/
theorem concord_of_stamp
    (hstamp : ∀ text s, read? text = some s → Stamped.stampOf? text = some s.expiresAt)
    (hlist : ∀ b, list b = liveFields read? (bucket b))
    (hlookUp : ∀ k, lookUp k = do locateIn read? bucket (field k) (← c.brokers)) :
    c.Concord bucket field read? list lookUp where
  listed b now wall m := by
    rw [hlist]
    exact ensures_liveFields
  lookedUp k now wall m := by
    rw [hlookUp]
    exact ensures_locate c bucket
  spared b fails now wall m b' name text hheld hcounted :=
    ensures_prune_fresh hheld (isStale_of_counted? hstamp hcounted)
  deleted b fails now wall m b' name text hheld := by
    cases hfresh : isStale wall text with
    | false =>
      refine (ensures_prune_fresh hheld hfresh).mono ?_
      intro r m' halike hgone
      exact absurd ((halike now (Duration.le_refl now)).trans hheld) hgone
    | true =>
      refine Program.ensures_iff.mpr ?_
      intro trace r m' _ _ later hlater
      by_contra hcounted
      have hthen : (counted? read? later text).isSome := Option.isSome_iff_ne_none.mpr hcounted
      have hnow := isStale_of_counted? hstamp (counted?_isSome_earlier hthen hlater)
      rw [hnow] at hfresh
      cases hfresh

end

/-- Whatever the fields of the user and group buckets hold, what a reader counts at a time is not
pruned at that time, and what is pruned counts for no reader from that time on. -/
theorem prune_agrees_with_readers (c : SessionCache) :
    c.Concord c.userBucket userField Stamped.readUser? c.users c.locateUser ∧
      c.Concord c.groupBucket id Stamped.readGroup? c.groups c.locateGroup :=
  ⟨concord_of_stamp (fun _ _ => Stamped.stampOf?_of_readUser?) (fun _ => rfl) fun _ => rfl,
    concord_of_stamp (fun _ _ => Stamped.stampOf?_of_readGroup?) (fun _ => rfl) fun _ => rfl⟩

/-- An entry with a member of another name, whose value is nested. -/
def decorated : String :=
  "\x7b\"connectionId\":\"c\",\"group\":\"g\",\"x\":[\x7b\x7d],\"owner\":\"b\",\"expiresAt\":50\x7d"

/-- An entry whose stamp is repeated: no reader decodes it, and as a value it keeps the last. -/
def restamped : String :=
  "\x7b\"connectionId\":\"d\",\"group\":\"h\",\"owner\":\"b\",\"expiresAt\":50,\"expiresAt\":9\x7d"

/-- A group bucket that also holds an empty text. -/
def motley : Memory :=
  ⟨Table.empty.insert (fleeting.groupBucket ⟨"b"⟩)
    ⟨.hash (((Table.empty.insert "g" decorated).insert "h" restamped).insert "i" ""),
      .ofMillis 20⟩⟩

theorem exists_runs_at {α : Type} (op : Operation α) (origin t : Nat) (m : Memory) :
    ∃ trace, op.run.Runs (AnswersAt (.ofMillis t) (Cache.wallAt origin t) false) m trace
      (op.at origin t m).1 (op.at origin t m).2 := by
  apply Program.runs_run (fun m => m)
  intro r m
  cases r with
  | store k => exact .inl Memory.carries_answer
  | wallClock => exact ⟨rfl, rfl⟩
  | log e => rfl

theorem motley_pruned : ∃ trace r m',
    (fleeting.prune ⟨"b"⟩).run.Runs (AnswersAt (.ofMillis 10) 10 false) motley trace r m' ∧
      r = .ok 2 ∧ (m'.fieldsAt (.ofMillis 10) (fleeting.groupBucket ⟨"b"⟩)).get? "g" =
        some decorated ∧
      counted? Stamped.readGroup? 10 decorated = some ⟨⟨"c"⟩, "g", ⟨"b"⟩⟩ ∧
      ∀ later, 10 ≤ later → counted? Stamped.readGroup? later restamped = none := by
  obtain ⟨trace, hrun⟩ := exists_runs_at (fleeting.prune ⟨"b"⟩) 0 10 motley
  have hcounted : counted? Stamped.readGroup? 10 decorated = some ⟨⟨"c"⟩, "g", ⟨"b"⟩⟩ := by
    decide +kernel
  have hgroups := (prune_agrees_with_readers fleeting).2
  have hspared := hrun.of_ensures (hgroups.spared ⟨"b"⟩ false _ _ motley ⟨"b"⟩ "g" decorated
    (by decide +kernel) (Option.isSome_of_eq_some hcounted))
  have hdeleted := hrun.of_ensures (hgroups.deleted ⟨"b"⟩ false _ _ motley ⟨"b"⟩ "h" restamped
    (by decide +kernel))
  refine ⟨trace, _, _, hrun, by decide +kernel, ?_, hcounted, hdeleted (by decide +kernel)⟩
  exact (hspared _ (Duration.le_refl _)).trans (by decide +kernel)

end SessionCache

end SessionGateway
