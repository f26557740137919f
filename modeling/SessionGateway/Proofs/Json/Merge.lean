import SessionGateway.Proofs.Json.Members

/-!
# Merging objects

What is found in an object after another was merged into it: under each key what the source holds
there, unless that is null, and otherwise what the target holds. A value that was read from a text
repeats no key, and a record is read from such a value by its keys alone.
-/

namespace SessionGateway.Json

universe u v

open Document (toJson? ofMembers)
open Fields (occurrences)

/-! ### Objects without repeated keys -/

theorem keys_ofMembers (ms : List (String × Json)) :
    (ofMembers ms).map Prod.fst = (ms.map Prod.fst).map some := by
  induction ms with
  | nil => rfl
  | cons e rest ih =>
    obtain ⟨k, j⟩ := e
    simp only [ofMembers, List.map_cons, ih]

theorem findPair_ofMembers (name : String) (ms : List (String × Json)) :
    findPair (some name) (ofMembers ms) = (findPair name ms).map .ofJson := by
  induction ms with
  | nil => rfl
  | cons e rest ih =>
    obtain ⟨k, j⟩ := e
    by_cases hk : k = name <;> simp [ofMembers, findPair, hk, ih]

/-- A record reads under each field name what an object holds there. -/
theorem fields_of_object {names : List String} (hnames : names.Nodup) {ms : List (String × Json)}
    (hms : (ms.map Prod.fst).Nodup) :
    Fields.ofDocument? names (.ofJson (.object ms)) =
      some ⟨false, names.map fun n => (findPair n ms).map .ofJson⟩ := by
  rw [Document.ofJson, Fields.ofDocument?_object hnames]
  refine ⟨?_, ?_, ?_⟩
  · intro m hm hnone
    have hkey : m.1 ∈ (ms.map Prod.fst).map some := by
      rw [← keys_ofMembers]
      exact List.mem_map_of_mem hm
    rw [hnone] at hkey
    simp at hkey
  · intro n _
    rw [occurrences, keys_ofMembers]
    exact List.nodup_iff_count_le_one.mp (hms.map fun _ _ => Option.some.inj) _
  · simp only [findPair_ofMembers]

/-- An object without repeated keys is read as it is, if its members are. -/
theorem toJson?_object {room : Nat} {ms : List (String × Json)} (hkeys : (ms.map Prod.fst).Nodup)
    (hms : ∀ e ∈ ms, toJson? room (.ofJson e.2) = some e.2) :
    toJson? (room + 1) (.ofJson (.object ms)) = some (.object ms) := by
  have hvalues : ∀ l : List (String × Json),
      (∀ e ∈ l, toJson? room (.ofJson e.2) = some e.2) →
        valuesOf? room (ofMembers l) = some l := by
    intro l
    induction l with
    | nil => intro _; rfl
    | cons e rest ih =>
      intro hl
      rw [List.forall_mem_cons] at hl
      simp [ofMembers, valuesOf?, hl.1, ih hl.2]
  have hput : putAll [] ms = ms := putAll_of_nodup hkeys
  rw [Document.ofJson, toJson?, membersToJson?_eq, hvalues ms hms, Option.map_some, hput,
    Option.map_some]

theorem mem_of_mem_putPair {κ : Type u} {ν : Type v} [DecidableEq κ] {k : κ} {v : ν}
    {l : List (κ × ν)} {e : κ × ν} (h : e ∈ putPair k v l) : e = (k, v) ∨ e ∈ l := by
  induction l with
  | nil =>
    rw [putPair, List.mem_singleton] at h
    exact .inl h
  | cons x rest ih =>
    obtain ⟨k', v'⟩ := x
    rw [putPair] at h
    by_cases hk : k' = k
    · rw [if_pos hk] at h
      exact (List.mem_cons.mp h).imp_right (List.mem_cons_of_mem _)
    · rw [if_neg hk] at h
      rcases List.mem_cons.mp h with rfl | h
      · exact .inr List.mem_cons_self
      · exact (ih h).imp_right (List.mem_cons_of_mem _)

theorem mem_of_mem_putAll {κ : Type u} {ν : Type v} [DecidableEq κ] {l pairs : List (κ × ν)}
    {e : κ × ν} (h : e ∈ putAll l pairs) : e ∈ l ∨ e ∈ pairs := by
  induction pairs generalizing l with
  | nil => exact .inl h
  | cons x rest ih =>
    rcases ih (l := putPair x.1 x.2 l) h with hput | hrest
    · rcases mem_of_mem_putPair hput with rfl | hl
      · exact .inr List.mem_cons_self
      · exact .inl hl
    · exact .inr (List.mem_cons_of_mem _ hrest)

/-- An object that is the value of a document holds values of documents, with no key repeated. -/
theorem members_of_toJson? {room : Nat} {d : Document} {ms : List (String × Json)}
    (h : toJson? room d = some (.object ms)) :
    (ms.map Prod.fst).Nodup ∧ ∀ e ∈ ms, ∃ room' d', toJson? room' d' = some e.2 := by
  cases d with
  | object members =>
    cases room with
    | zero => simp [toJson?] at h
    | succ room =>
      simp only [toJson?, membersToJson?_eq, Option.map_eq_some_iff, Json.object.injEq] at h
      obtain ⟨-, ⟨pairs, hpairs, rfl⟩, rfl⟩ := h
      constructor
      · exact nodup_keys_putAll pairs
      · intro e he
        have hmem := (mem_of_mem_putAll he).resolve_left List.not_mem_nil
        obtain ⟨d, hd⟩ := exists_of_mem_valuesOf? hpairs hmem
        exact ⟨room, d, hd⟩
  | null => simp [toJson?] at h
  | bool b => simp [toJson?] at h
  | number n => simp [toJson?] at h
  | text s => simp [toJson?] at h
  | array items =>
    cases room with
    | zero => simp [toJson?] at h
    | succ room => simp [toJson?] at h

/-! ### Lookups -/

theorem nodup_keys_putPair {k : String} {j : Json} {ms : List (String × Json)}
    (h : (ms.map Prod.fst).Nodup) : ((putPair k j ms).map Prod.fst).Nodup :=
  (Table.insert ⟨ms, h⟩ k j).distinct

/-- What a merged object holds under a key. -/
def merged (there : Option Json) (j : Json) : Json :=
  match there with
  | some there => there.merge j
  | none => j

theorem mergeMembers_cons (target : List (String × Json)) (key : String) (j : Json)
    (rest : List (String × Json)) :
    mergeMembers target ((key, j) :: rest) =
      mergeMembers
        (if j.isNull then target else putPair key (merged (findPair key target) j) target)
        rest := by
  rw [mergeMembers]
  cases findPair key target <;> rfl

theorem nodup_keys_mergeMembers {target : List (String × Json)}
    (h : (target.map Prod.fst).Nodup) (source : List (String × Json)) :
    ((mergeMembers target source).map Prod.fst).Nodup := by
  induction source generalizing target with
  | nil => rwa [mergeMembers]
  | cons e rest ih =>
    obtain ⟨k, j⟩ := e
    rw [mergeMembers_cons]
    apply ih
    cases hnull : j.isNull with
    | true => exact h
    | false => exact nodup_keys_putPair h

/-- What an object holds under a key, if that is not null. -/
def given (ms : List (String × Json)) (key : String) : Option Json :=
  (findPair key ms).filter fun j => !j.isNull

theorem findPair_mergeMembers {target source : List (String × Json)}
    (hsource : (source.map Prod.fst).Nodup) (key : String) :
    findPair key (mergeMembers target source) =
      match given source key with
      | some j => some (merged (findPair key target) j)
      | none => findPair key target := by
  induction source generalizing target with
  | nil => rw [mergeMembers]; rfl
  | cons e rest ih =>
    obtain ⟨k, j⟩ := e
    rw [List.map_cons, List.nodup_cons] at hsource
    rw [mergeMembers_cons, ih hsource.2]
    by_cases hk : k = key
    · subst hk
      have hrest : given rest k = none := by
        rw [given, (findPair_eq_none_iff k rest).mpr hsource.1]
        rfl
      rw [hrest]
      cases hnull : j.isNull <;> simp [given, findPair, hnull, findPair_putPair, Option.filter]
    · have hgiven : given ((k, j) :: rest) key = given rest key := by
        rw [given, given, findPair, if_neg hk]
      rw [hgiven]
      cases hnull : j.isNull <;> simp [findPair_putPair, hk]

/-- A member is left alone by members under other keys. -/
theorem mergeMembers_cons_of_not_mem {key : String} {j : Json} {ms : List (String × Json)}
    (hkey : key ∉ ms.map Prod.fst) (target : List (String × Json)) :
    mergeMembers ((key, j) :: target) ms = (key, j) :: mergeMembers target ms := by
  induction ms generalizing target with
  | nil => rw [mergeMembers, mergeMembers]
  | cons e rest ih =>
    obtain ⟨key', j'⟩ := e
    rw [List.map_cons, List.mem_cons, not_or] at hkey
    rw [mergeMembers_cons, mergeMembers_cons, findPair_cons_ne hkey.1, putPair, if_neg hkey.1]
    cases j'.isNull with
    | true => exact ih hkey.2 target
    | false => exact ih hkey.2 _

/-- A member that takes the place of another under the same key. -/
def Replaces (e e' : String × Json) : Prop :=
  e.1 = e'.1 ∧ e'.2.isNull = false ∧ e.2.merge e'.2 = e'.2

/-- Of an object nothing is left where every member is replaced. -/
theorem merge_of_replaces {target source : List (String × Json)}
    (hsource : (source.map Prod.fst).Nodup) (hreplaces : List.Forall₂ Replaces target source) :
    (object target).merge (.object source) = .object source := by
  rw [merge]
  congr 1
  induction hreplaces with
  | nil => rw [mergeMembers]
  | @cons e e' target source he _ ih =>
    obtain ⟨key, there⟩ := e
    obtain ⟨key', j⟩ := e'
    obtain ⟨rfl, hnull, hmerge⟩ : key = key' ∧ j.isNull = false ∧ there.merge j = j := he
    rw [List.map_cons, List.nodup_cons] at hsource
    have hmerged : merged (some there) j = j := hmerge
    rw [mergeMembers_cons, findPair_cons_self, hmerged, hnull, putPair, if_pos rfl,
      if_neg Bool.false_ne_true, mergeMembers_cons_of_not_mem hsource.1, ih hsource.2]

/-- A value that is no object is replaced. -/
theorem merge_of_not_object {there j : Json} (h : there.members? = none) : there.merge j = j := by
  cases j with
  | object ms =>
    cases there with
    | object _ => cases h
    | _ => rfl
  | _ => simp [merge]

end SessionGateway.Json
