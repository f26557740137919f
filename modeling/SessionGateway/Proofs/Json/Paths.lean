import SessionGateway.Proofs.Json.Merge
import SessionGateway.Proofs.Json.RoundTrip

/-!
# Merging along paths

What a merged value holds at a path of keys at which the source holds no object: the source's value,
unless that is null and an object of the target stands around the path. So a null keeps what the
target holds only as a member beside members of the target; at the root, and inside what takes the
place of something else or of nothing, it stays a null.
-/

namespace SessionGateway.Json

open Document (toJson?)

/-- What a value holds at a path of keys, if it holds anything there. -/
def at? (j : Json) : List String → Option Json
  | [] => some j
  | key :: path => (j.get? key).bind fun v => v.at? path

/-- No object that keys lead to repeats a key. -/
def Keyed (j : Json) : Prop :=
  ∀ path ms, j.at? path = some (.object ms) → (ms.map Prod.fst).Nodup

/-- The path leads to a member of something, and that is an object. -/
def surrounds (j : Json) (path : List String) : Bool :=
  path ≠ [] && ((j.at? path.dropLast).bind members?).isSome

/-- What is left of the value of a source: a null gives way to the target where an object of the
target stands around the path. -/
def kept (target : Json) (path : List String) (j : Json) : Option Json :=
  if j.isNull && target.surrounds path then target.at? path else some j

section Paths

variable {j v target source : Json} {ms ts : List (String × Json)} {key : String}
  {path : List String}

@[simp] theorem get?_object (ms : List (String × Json)) (key : String) :
    (object ms).get? key = findPair key ms := rfl

@[simp] theorem at?_nil (j : Json) : j.at? [] = some j := rfl

@[simp] theorem at?_cons (j : Json) (key : String) (path : List String) :
    j.at? (key :: path) = (j.get? key).bind fun v => v.at? path := rfl

theorem get?_of_not_object (h : j.members? = none) (key : String) : j.get? key = none := by
  rw [get?, h, Option.bind_none]

/-- A value that holds something behind a key is an object with a member under the key. -/
theorem exists_of_at?_cons (h : j.at? (key :: path) = some v) :
    ∃ ms w, j = .object ms ∧ findPair key ms = some w ∧ w.at? path = some v := by
  obtain ⟨w, hget, hat⟩ := Option.bind_eq_some_iff.mp h
  cases j with
  | object ms => exact ⟨ms, w, rfl, hget, hat⟩
  | _ => cases hget

theorem eq_null_of_isNull (h : j.isNull = true) : j = null := by
  cases j with
  | null => rfl
  | _ => cases h

/-- Behind a null there is nothing. -/
theorem eq_nil_of_at?_null (h : null.at? path = some v) : path = [] := by
  cases path with
  | nil => rfl
  | cons key path => cases h

/-! ### Values without repeated keys -/

theorem Keyed.nodup (h : (object ms).Keyed) : (ms.map Prod.fst).Nodup := h [] ms rfl

theorem Keyed.of_findPair (h : (object ms).Keyed) (hfind : findPair key ms = some v) :
    v.Keyed := by
  intro path ms' hat
  apply h (key :: path) ms'
  rw [at?_cons, get?_object, hfind, Option.bind_some, hat]

/-- What the value of a document holds at a path is the value of a document. -/
theorem toJson?_of_at? {room : Nat} {d : Document} (h : toJson? room d = some j)
    (hat : j.at? path = some v) : ∃ room' d', toJson? room' d' = some v := by
  induction path generalizing j room d with
  | nil =>
    obtain rfl : j = v := by simpa using hat
    exact ⟨room, d, h⟩
  | cons key path ih =>
    obtain ⟨ms, w, rfl, hfind, hat⟩ := exists_of_at?_cons hat
    obtain ⟨room', d', hw⟩ := (members_of_toJson? h).2 _ (Table.mem_of_findPair hfind)
    exact ih hw hat

/-- A value that was read from a text repeats no key. -/
theorem keyed_of_read? {text : String} (h : read? text = some j) : j.Keyed := by
  obtain ⟨d, -, hvalue⟩ := Option.bind_eq_some_iff.mp h
  intro path ms hat
  obtain ⟨room, d', hd'⟩ := toJson?_of_at? hvalue hat
  exact (members_of_toJson? hd').1

/-! ### What surrounds a path -/

@[simp] theorem surrounds_nil (j : Json) : j.surrounds [] = false := rfl

@[simp] theorem surrounds_singleton (ts : List (String × Json)) (key : String) :
    (object ts).surrounds [key] = true := rfl

theorem surrounds_of_not_object (h : j.members? = none) (path : List String) :
    j.surrounds path = false := by
  rcases path with _ | ⟨key, _ | ⟨key', path⟩⟩
  · rfl
  · simp [surrounds, h]
  · simp [surrounds, get?_of_not_object h]

/-- An object surrounds a path that goes on behind a key if its member under the key does. -/
theorem surrounds_cons (hne : path ≠ []) (ts : List (String × Json)) (key : String) :
    (object ts).surrounds (key :: path) = (findPair key ts).any fun w => w.surrounds path := by
  rw [surrounds, List.dropLast_cons_of_ne_nil hne, at?_cons, get?_object]
  cases findPair key ts <;> simp [surrounds, hne]

/-! ### What is merged along a path -/

theorem kept_of_not_surrounds (h : target.surrounds path = false) (v : Json) :
    target.kept path v = some v := by
  simp [kept, h]

theorem kept_of_not_null (h : v.isNull = false) (target : Json) (path : List String) :
    target.kept path v = some v := by
  simp [kept, h]

/-- Behind a key it is left to the member of the target under that key, a null right at the key
apart. -/
theorem kept_cons (hleaf : path = [] → v.isNull = false) (ts : List (String × Json))
    (key : String) :
    (object ts).kept (key :: path) v =
      match findPair key ts with
      | some there => there.kept path v
      | none => some v := by
  by_cases hpath : path = []
  · rw [kept_of_not_null (hleaf hpath)]
    cases findPair key ts with
    | none => rfl
    | some there => exact (kept_of_not_null (hleaf hpath) there path).symm
  · cases hfind : findPair key ts <;> simp [kept, surrounds_cons hpath, hfind]

/-- The members of a merged object, one key deep. -/
theorem get?_merge_object (hms : (ms.map Prod.fst).Nodup) (key : String) :
    ((object ts).merge (.object ms)).get? key =
      match given ms key with
      | some j => some (merged (findPair key ts) j)
      | none => findPair key ts := by
  rw [merge]
  exact findPair_mergeMembers hms key

theorem merge_of_leaf (h : source.members? = none) (target : Json) :
    target.merge source = source := by
  cases source with
  | object ms => cases h
  | _ => simp [merge]

/-- Along a path to something of the source that is no object. -/
theorem at?_merge (hsource : source.Keyed) (hat : source.at? path = some v)
    (hv : v.members? = none) : (target.merge source).at? path = target.kept path v := by
  induction path generalizing target source with
  | nil =>
    obtain rfl : source = v := by simpa using hat
    rw [merge_of_leaf hv, kept_of_not_surrounds (surrounds_nil target), at?_nil]
  | cons key path ih =>
    obtain ⟨ms, w, rfl, hfind, hw⟩ := exists_of_at?_cons hat
    cases htarget : target with
    | object ts =>
      rw [at?_cons, get?_merge_object hsource.nodup]
      cases hnull : w.isNull with
      | true =>
        -- Nothing is behind a null, so it is the member at the path, and it is skipped.
        obtain rfl := eq_null_of_isNull hnull
        obtain rfl := eq_nil_of_at?_null hw
        obtain rfl : null = v := by simpa using hw
        simp [given, hfind, hnull, kept, Option.filter]
      | false =>
        have hgiven : given ms key = some w := by simp [given, hfind, hnull, Option.filter]
        have hleaf : path = [] → v.isNull = false := by
          rintro rfl
          obtain rfl : w = v := by simpa using hw
          exact hnull
        rw [hgiven, kept_cons hleaf]
        show (merged (findPair key ts) w).at? path = _
        cases findPair key ts with
        | none => exact hw
        | some there => exact ih (hsource.of_findPair hfind) hw
    | _ =>
      have hplain : target.members? = none := by rw [htarget]; rfl
      rw [← htarget, kept_of_not_surrounds (surrounds_of_not_object hplain _),
        merge_of_not_object hplain, hat]

/-- Where the source holds a null, the merged value holds what the target does if an object of the
target stands around the path, and the null otherwise; so the target is kept just there, and where
it holds a null itself. An array or another scalar of the source takes the place of whatever the
target holds. -/
theorem null_keeps_iff_surrounded (hsource : source.Keyed) (target : Json) (path : List String) :
    (source.at? path = some null →
      (target.merge source).at? path =
          (if target.surrounds path then target.at? path else some null) ∧
        ((target.merge source).at? path = target.at? path ↔
          target.surrounds path = true ∨ target.at? path = some null)) ∧
      ∀ v, source.at? path = some v → v.members? = none → v.isNull = false →
        (target.merge source).at? path = some v := by
  constructor
  · intro hat
    have hmerged : (target.merge source).at? path =
        if target.surrounds path then target.at? path else some null := by
      rw [at?_merge hsource hat rfl, kept]
      rfl
    refine ⟨hmerged, ?_⟩
    rw [hmerged]
    cases target.surrounds path with
    | true => simp
    | false => simp [eq_comm]
  · intro v hat hv hnull
    rw [at?_merge hsource hat hv, kept_of_not_null hnull]

end Paths

/-- Settings with a section, and members merged over them: a null inside that section, one inside a
section that is not there, and an array. -/
def furnished : Json := .object [("cache", .object [("backend", .text "redis")])]

def nullsAbout : Json := .object [
  ("cache", .object [("backend", .null), ("hosts", .array [.null])]),
  ("extra", .object [("colour", .null)])]

theorem nullsAbout_keyed : nullsAbout.Keyed := by
  have hwhole : nullsAbout.IsWhole := by
    simp [nullsAbout, IsWhole, MembersWhole, ItemsWhole]
  have hread : read? nullsAbout.render = some nullsAbout := by
    rw [read?, read?_render hwhole]
    rfl
  exact keyed_of_read? hread

theorem nullsAbout_merged :
    nullsAbout.Keyed ∧
      nullsAbout.at? ["cache", "backend"] = some null ∧
      (furnished.merge nullsAbout).at? ["cache", "backend"] = some (.text "redis") ∧
      nullsAbout.at? ["extra", "colour"] = some null ∧
      (furnished.merge nullsAbout).at? ["extra", "colour"] = some null ∧
      (furnished.merge nullsAbout).at? ["cache", "hosts"] = some (.array [.null]) := by
  have hlaw := null_keeps_iff_surrounded nullsAbout_keyed furnished
  refine ⟨nullsAbout_keyed, rfl, ?_, rfl, ?_, ?_⟩
  · exact ((hlaw ["cache", "backend"]).1 rfl).1
  · exact ((hlaw ["extra", "colour"]).1 rfl).1
  · exact (hlaw ["cache", "hosts"]).2 _ rfl rfl rfl

/-- A null at the root takes the place of the target, and one inside a member that the target lacks
stays. -/
theorem nulls_override_target :
    (null.at? [] = some null ∧ (furnished.merge .null).at? [] ≠ furnished.at? []) ∧
      nullsAbout.at? ["extra", "colour"] = some null ∧
      (furnished.merge nullsAbout).at? ["extra", "colour"] ≠
        furnished.at? ["extra", "colour"] := by
  refine ⟨⟨rfl, ?_⟩, rfl, ?_⟩
  · simp [merge, furnished]
  · have hmerged : (furnished.merge nullsAbout).at? ["extra", "colour"] = some null := rfl
    have htarget : furnished.at? ["extra", "colour"] = none := rfl
    rw [hmerged, htarget]
    simp

end SessionGateway.Json
