import Mathlib.Data.List.Count
import Mathlib.Data.List.Nodup
import SessionGateway.Json.Decode
import SessionGateway.Proofs.Table

/-!
# Members of objects

What is read from the members of an object, by their names. A record finds under each of its field
names the one member of that name, and is refused where a field name is repeated. As a value, an
object keeps of each name the last member. Members may be put aside by their names before or after
the repeated ones are dropped.
-/

namespace SessionGateway

universe u v

/-! ### Pairs put one after another -/

section Pairs

variable {κ : Type u} {ν : Type v} [DecidableEq κ]

@[simp] theorem findPair_cons_self (k : κ) (v : ν) (rest : List (κ × ν)) :
    findPair k ((k, v) :: rest) = some v :=
  if_pos rfl

@[simp] theorem findPair_cons_ne {k k' : κ} (h : k' ≠ k) (v : ν) (rest : List (κ × ν)) :
    findPair k ((k', v) :: rest) = findPair k rest :=
  if_neg h

/-- Puts pairs in turn into a list of pairs. -/
def putAll (l pairs : List (κ × ν)) : List (κ × ν) := pairs.foldl (fun l e => putPair e.1 e.2 l) l

theorem entries_foldl_insert (t : Table κ ν) (pairs : List (κ × ν)) :
    (pairs.foldl (fun t e => t.insert e.1 e.2) t).entries = putAll t.entries pairs := by
  induction pairs generalizing t with
  | nil => rfl
  | cons e rest ih => exact ih (t.insert e.1 e.2)

theorem nodup_keys_putAll (pairs : List (κ × ν)) : ((putAll [] pairs).map Prod.fst).Nodup := by
  have h := entries_foldl_insert (Table.empty : Table κ ν) pairs
  have hempty : (Table.empty : Table κ ν).entries = [] := rfl
  rw [hempty] at h
  rw [← h]
  exact Table.distinct _

theorem filter_putPair (p : κ → Bool) (k : κ) (v : ν) (l : List (κ × ν)) :
    (putPair k v l).filter (fun e => p e.1) =
      if p k then putPair k v (l.filter fun e => p e.1) else l.filter fun e => p e.1 := by
  induction l with
  | nil => cases hp : p k <;> simp [putPair, hp]
  | cons e rest ih =>
    obtain ⟨k', v'⟩ := e
    by_cases hk : k' = k
    · subst hk
      cases hp : p k' <;> simp [putPair, hp]
    · cases hp' : p k' with
      | false => simpa [putPair, hk, hp'] using ih
      | true =>
        cases hp : p k with
        | false => simpa [putPair, hk, hp', hp] using ih
        | true => simpa [putPair, hk, hp', hp] using ih

theorem filter_putAll (p : κ → Bool) (l pairs : List (κ × ν)) :
    (putAll l pairs).filter (fun e => p e.1) =
      putAll (l.filter fun e => p e.1) (pairs.filter fun e => p e.1) := by
  induction pairs generalizing l with
  | nil => rfl
  | cons e rest ih =>
    have hstep := ih (putPair e.1 e.2 l)
    rw [filter_putPair] at hstep
    cases hp : p e.1 with
    | false =>
      rw [hp, if_neg Bool.false_ne_true] at hstep
      rw [List.filter_cons_of_neg (by simpa using hp)]
      exact hstep
    | true =>
      rw [hp, if_pos rfl] at hstep
      rw [List.filter_cons_of_pos (by exact hp)]
      exact hstep

theorem putPair_of_not_mem {k : κ} {v : ν} {l : List (κ × ν)} (h : k ∉ l.map Prod.fst) :
    putPair k v l = l ++ [(k, v)] := by
  induction l with
  | nil => rfl
  | cons e rest ih =>
    obtain ⟨k', v'⟩ := e
    rw [List.map_cons, List.mem_cons, not_or] at h
    rw [putPair, if_neg (Ne.symm h.1), ih h.2]
    rfl

theorem putAll_of_nodup {l pairs : List (κ × ν)} (h : ((l ++ pairs).map Prod.fst).Nodup) :
    putAll l pairs = l ++ pairs := by
  induction pairs generalizing l with
  | nil => exact (List.append_nil l).symm
  | cons e rest ih =>
    have hnew : e.1 ∉ l.map Prod.fst := by
      rw [List.map_append, List.map_cons] at h
      intro hmem
      exact (List.nodup_append.mp h).2.2 e.1 hmem e.1 List.mem_cons_self rfl
    have hsplit : l ++ e :: rest = (l ++ [e]) ++ rest := List.append_cons l e rest
    rw [hsplit] at h
    calc putAll l (e :: rest) = putAll (putPair e.1 e.2 l) rest := rfl
      _ = putAll (l ++ [e]) rest := by rw [putPair_of_not_mem hnew]
      _ = (l ++ [e]) ++ rest := ih h
      _ = l ++ e :: rest := hsplit.symm

/-- Pairs collected by their names are all the pairs, if no name is left out. -/
theorem perm_of_names {names : List κ} (hnames : names.Nodup) {l : List (κ × ν)}
    (hl : (l.map Prod.fst).Nodup) (hsub : ∀ e ∈ l, e.1 ∈ names) :
    (names.filterMap fun n => (findPair n l).map fun v => (n, v)).Perm l := by
  have hcollected : (names.filterMap fun n => (findPair n l).map fun v => (n, v)).Nodup := by
    apply hnames.filterMap
    intro n n' e he he'
    simp only [Option.mem_def, Option.map_eq_some_iff] at he he'
    obtain ⟨v, -, rfl⟩ := he
    obtain ⟨v', -, heq⟩ := he'
    exact (congrArg Prod.fst heq).symm
  have hpairs : l.Nodup := List.Nodup.of_map Prod.fst hl
  rw [List.perm_ext_iff_of_nodup hcollected hpairs]
  rintro ⟨k, v⟩
  simp only [List.mem_filterMap, Option.map_eq_some_iff, Prod.mk.injEq]
  constructor
  · rintro ⟨n, -, v', hfind, rfl, rfl⟩
    exact Table.mem_of_findPair hfind
  · intro hmem
    exact ⟨k, hsub _ hmem, v, Table.findPair_of_mem hl hmem, rfl, rfl⟩

end Pairs

namespace Json

open Document (toJson? membersToJson? maxDepth)

/-! ### Fields of a record -/

namespace Fields

theorem file_map {names : List String} (hnames : names.Nodup) (name : String) (d : Document)
    (f : String → Option Document) :
    file names name d (names.map f) =
      if name ∈ names ∧ (f name).isSome then none
      else some (names.map fun n => if n = name then some d else f n) := by
  induction names with
  | nil => simp [file]
  | cons n names ih =>
    obtain ⟨hn, hnames⟩ := List.nodup_cons.mp hnames
    simp only [List.map_cons, file]
    by_cases hname : n = name
    · subst hname
      have hrest : (names.map fun m => if m = n then some d else f m) = names.map f := by
        apply List.map_congr_left
        intro m hm
        have hne : ¬ m = n := by
          rintro rfl
          exact hn hm
        rw [if_neg hne]
      cases hf : f n <;> simp [hrest]
    · have hne : ¬ name = n := fun e => hname e.symm
      rw [if_neg hname, ih hnames]
      by_cases hfilled : name ∈ names ∧ (f name).isSome
      · simp [hfilled]
      · simp [hfilled, hne, hname]

/-- How often a member of a name is there. -/
def occurrences (members : List (Option String × Document)) (name : String) : Nat :=
  (members.map Prod.fst).count (some name)

/-- Members of one name that is not repeated are one. -/
theorem eq_of_occurrences {members : List (Option String × Document)} {name : String}
    {d d' : Document} (honce : occurrences members name ≤ 1) (h : (some name, d) ∈ members)
    (h' : (some name, d') ∈ members) : d = d' := by
  induction members with
  | nil => cases h
  | cons m rest ih =>
    have hrest : occurrences rest name ≤ occurrences (m :: rest) name :=
      List.count_le_count_cons
    have hnone : m.1 = some name → ∀ x, (some name, x) ∉ rest := by
      intro hm x hx
      have hcount : occurrences (m :: rest) name = occurrences rest name + 1 := by
        rw [occurrences, List.map_cons, hm, List.count_cons_self, occurrences]
      have hpos : 0 < occurrences rest name :=
        List.count_pos_iff.mpr (List.mem_map_of_mem hx)
      omega
    rcases List.mem_cons.mp h with hm | hmem
    · rcases List.mem_cons.mp h' with hm' | hmem'
      · exact congrArg Prod.snd (hm.trans hm'.symm)
      · exact absurd hmem' (hnone (congrArg Prod.fst hm).symm d')
    · rcases List.mem_cons.mp h' with hm' | hmem'
      · exact absurd hmem (hnone (congrArg Prod.fst hm').symm d)
      · exact ih (by omega) hmem hmem'

theorem fileAll_eq_some_iff {names : List String} (hnames : names.Nodup)
    (members : List (Option String × Document)) (f : String → Option Document)
    (found : List (Option Document)) :
    fileAll names members (names.map f) = some found ↔
      (∀ m ∈ members, m.1 ≠ none) ∧
        (∀ n ∈ names, occurrences members n ≤ if (f n).isSome then 0 else 1) ∧
        found = names.map fun n => (f n).or (findPair (some n) members) := by
  induction members generalizing f with
  | nil =>
    rw [fileAll, Option.some.injEq]
    simp only [findPair, Option.or_none, List.not_mem_nil, false_imp_iff, implies_true, true_and]
    constructor
    · rintro rfl
      exact ⟨fun n _ => Nat.zero_le _, rfl⟩
    · rintro ⟨-, rfl⟩
      rfl
  | cons m rest ih =>
    obtain ⟨key, d⟩ := m
    cases key with
    | none => simp [fileAll]
    | some name =>
      have hcount : ∀ n, occurrences ((some name, d) :: rest) n =
          occurrences rest n + if n = name then 1 else 0 := by
        intro n
        rw [occurrences, List.map_cons, List.count_cons, occurrences]
        by_cases hn : n = name
        · simp [hn]
        · have hne : ¬ name = n := fun e => hn e.symm
          simp [hn, hne]
      rw [fileAll, file_map hnames]
      by_cases hfilled : name ∈ names ∧ (f name).isSome
      · obtain ⟨hmem, hsome⟩ := hfilled
        simp only [hmem, hsome, and_self, if_true, Option.bind_none, false_iff, reduceCtorEq]
        rintro ⟨-, honce, -⟩
        have h := honce name hmem
        rw [hcount, if_pos rfl, if_pos hsome] at h
        omega
      · have hfree : ∀ n ∈ names, n = name → f n = none := by
          rintro n hn rfl
          by_contra hf
          exact hfilled ⟨hn, Option.isSome_iff_ne_none.mpr hf⟩
        -- The member that is filed now counts against its own name only.
        have hroom : ∀ n ∈ names,
            (occurrences rest n ≤ (if (if n = name then some d else f n).isSome then 0 else 1) ↔
              occurrences ((some name, d) :: rest) n ≤ if (f n).isSome then 0 else 1) := by
          intro n hn
          rw [hcount]
          by_cases hname : n = name
          · simp [hname, hfree name (hname ▸ hn) rfl]
          · simp [hname]
        have hunder : (names.map fun n =>
              (if n = name then some d else f n).or (findPair (some n) rest)) =
            names.map fun n => (f n).or (findPair (some n) ((some name, d) :: rest)) := by
          apply List.map_congr_left
          intro n hn
          by_cases hname : n = name
          · simp [hname, hfree name (hname ▸ hn) rfl, findPair]
          · have hne : ¬ name = n := fun e => hname e.symm
            simp [hname, hne, findPair]
        rw [if_neg hfilled, Option.bind_some, ih, hunder]
        apply and_congr (by simp)
        exact and_congr (forall₂_congr hroom) Iff.rfl

/-- A record finds the member of each field name, if no field name is repeated. -/
theorem ofDocument?_object {names : List String} (hnames : names.Nodup)
    (members : List (Option String × Document)) (fs : Fields) :
    ofDocument? names (.object members) = some fs ↔
      (∀ m ∈ members, m.1 ≠ none) ∧ (∀ n ∈ names, occurrences members n ≤ 1) ∧
        fs = ⟨false, names.map fun n => findPair (some n) members⟩ := by
  obtain ⟨positional, found⟩ := fs
  simp only [ofDocument?, Option.map_eq_some_iff,
    fileAll_eq_some_iff hnames members fun _ => none]
  constructor
  · rintro ⟨found', ⟨hkeys, honce, rfl⟩, heq⟩
    cases heq
    exact ⟨hkeys, honce, by simp⟩
  · rintro ⟨hkeys, honce, heq⟩
    cases heq
    exact ⟨_, ⟨hkeys, honce, rfl⟩, by simp⟩

end Fields

/-! ### Members as values -/

/-- The members of an object with their values, in order and with repetitions. -/
def valuesOf? (room : Nat) : List (Option String × Document) → Option (List (String × Json))
  | [] => some []
  | (key, d) :: rest => do
    let k ← key
    let j ← toJson? room d
    let others ← valuesOf? room rest
    return (k, j) :: others

theorem valuesOf?_cons_eq_some {room : Nat} {key : Option String} {d : Document}
    {rest : List (Option String × Document)} {pairs : List (String × Json)}
    (h : valuesOf? room ((key, d) :: rest) = some pairs) :
    ∃ k j others, key = some k ∧ toJson? room d = some j ∧ valuesOf? room rest = some others ∧
      pairs = (k, j) :: others := by
  simp only [valuesOf?, Option.bind_eq_bind, Option.bind_eq_some_iff, Option.pure_def,
    Option.some.injEq] at h
  obtain ⟨k, hk, j, hj, others, hrest, heq⟩ := h
  exact ⟨k, j, others, hk, hj, hrest, heq.symm⟩

theorem valuesOf?_isSome_iff {room : Nat} {members : List (Option String × Document)} :
    (valuesOf? room members).isSome ↔
      ∀ m ∈ members, m.1.isSome ∧ (toJson? room m.2).isSome := by
  induction members with
  | nil => simp [valuesOf?]
  | cons m rest ih =>
    obtain ⟨key, d⟩ := m
    rw [List.forall_mem_cons, ← ih, valuesOf?]
    cases key <;> cases toJson? room d <;> cases valuesOf? room rest <;> simp

theorem membersToJson?_eq (room : Nat) (done : List (String × Json))
    (members : List (Option String × Document)) :
    membersToJson? room done members = (valuesOf? room members).map (putAll done) := by
  induction members generalizing done with
  | nil =>
    rw [membersToJson?]
    rfl
  | cons m rest ih =>
    obtain ⟨key, d⟩ := m
    cases key with
    | none => simp [membersToJson?, valuesOf?]
    | some k =>
      cases hd : toJson? room d with
      | none => simp [membersToJson?, valuesOf?, hd]
      | some j =>
        simp only [membersToJson?, valuesOf?, hd, ih]
        cases valuesOf? room rest <;> rfl

theorem map_fst_of_valuesOf? {room : Nat} {members : List (Option String × Document)}
    {pairs : List (String × Json)} (h : valuesOf? room members = some pairs) :
    members.map Prod.fst = (pairs.map Prod.fst).map some := by
  induction members generalizing pairs with
  | nil =>
    cases h
    rfl
  | cons m rest ih =>
    obtain ⟨key, d⟩ := m
    obtain ⟨k, j, others, rfl, -, hrest, rfl⟩ := valuesOf?_cons_eq_some h
    simp [ih hrest]

/-- The value of the first member of a name. -/
theorem findPair_of_valuesOf? {room : Nat} {members : List (Option String × Document)}
    {pairs : List (String × Json)} (h : valuesOf? room members = some pairs) (name : String) :
    findPair name pairs = (findPair (some name) members).bind (toJson? room) := by
  induction members generalizing pairs with
  | nil =>
    cases h
    rfl
  | cons m rest ih =>
    obtain ⟨key, d⟩ := m
    obtain ⟨k, j, others, rfl, hj, hrest, rfl⟩ := valuesOf?_cons_eq_some h
    by_cases hk : k = name
    · simp [findPair, hk, hj]
    · simp [findPair, hk, ih hrest]

/-- The names that are not repeated among members are not repeated among their values. -/
theorem nodup_of_once {room : Nat} {members : List (Option String × Document)}
    {pairs : List (String × Json)} (hpairs : valuesOf? room members = some pairs)
    {names : List String} (honce : ∀ n ∈ names, Fields.occurrences members n ≤ 1) :
    ((pairs.filter fun m => m.1 ∈ names).map Prod.fst).Nodup := by
  have hkeys : (pairs.filter fun m => m.1 ∈ names).map Prod.fst =
      (pairs.map Prod.fst).filter (· ∈ names) := by
    rw [List.filter_map]
    rfl
  rw [hkeys, List.nodup_iff_count_le_one]
  intro name
  by_cases hname : name ∈ names
  · have hcount : Fields.occurrences members name = (pairs.map Prod.fst).count name := by
      rw [Fields.occurrences, map_fst_of_valuesOf? hpairs]
      exact List.count_map_of_injective _ some (fun _ _ => Option.some.inj) _
    rw [List.count_filter (by simpa using hname), ← hcount]
    exact honce name hname
  · have hnot : name ∉ (pairs.map Prod.fst).filter (· ∈ names) := by
      intro hmem
      exact hname (by simpa using (List.mem_filter.mp hmem).2)
    rw [List.count_eq_zero_of_not_mem hnot]
    exact Nat.zero_le _

/-- Under a name that is not repeated an object keeps the value of the one member. -/
theorem findPair_putAll_of_once {room : Nat} {members : List (Option String × Document)}
    {pairs : List (String × Json)} (hpairs : valuesOf? room members = some pairs) {name : String}
    (honce : Fields.occurrences members name ≤ 1) :
    findPair name (putAll [] pairs) = (findPair (some name) members).bind (toJson? room) := by
  have hnodup : ((pairs.filter fun m => m.1 ∈ [name]).map Prod.fst).Nodup := by
    apply nodup_of_once hpairs
    intro n hn
    rwa [List.mem_singleton.mp hn]
  have hkept : (putAll [] pairs).filter (fun m => m.1 ∈ [name]) =
      pairs.filter fun m => m.1 ∈ [name] := by
    rw [filter_putAll (fun n => decide (n ∈ [name]))]
    exact putAll_of_nodup hnodup
  have hput := findPair_filter (fun n => decide (n ∈ [name])) name (putAll [] pairs)
  have hfirst := findPair_filter (fun n => decide (n ∈ [name])) name pairs
  rw [if_pos (by simp)] at hput hfirst
  rw [← hput, hkept, hfirst, findPair_of_valuesOf? hpairs]

/-- The value of a text that is an object. -/
theorem read?_object {text : String} {members : List (Option String × Document)}
    (h : Document.read? text = some (.object members)) :
    read? text = (valuesOf? (maxDepth - 1) members).map fun pairs => .object (putAll [] pairs) := by
  have hvalues := membersToJson?_eq (maxDepth - 1) [] members
  have hobject : toJson? maxDepth (.object members) =
      (membersToJson? (maxDepth - 1) [] members).map .object := by
    simp only [maxDepth, toJson?]
  rw [read?, h, Option.bind_some, hobject, hvalues, Option.map_map]
  rfl

theorem exists_of_mem_valuesOf? {room : Nat} {members : List (Option String × Document)}
    {pairs : List (String × Json)} (h : valuesOf? room members = some pairs) {e : String × Json}
    (he : e ∈ pairs) : ∃ d, toJson? room d = some e.2 := by
  induction members generalizing pairs with
  | nil =>
    cases h
    cases he
  | cons m rest ih =>
    obtain ⟨key, d⟩ := m
    obtain ⟨k, j, others, rfl, hj, hrest, rfl⟩ := valuesOf?_cons_eq_some h
    rcases List.mem_cons.mp he with rfl | he
    · exact ⟨d, hj⟩
    · exact ih hrest he

theorem otherMembers?_isSome_iff {names : List String}
    {members : List (Option String × Document)} :
    (otherMembers? names members).isSome ↔ ∀ m ∈ members, ∃ k, m.1 = some k ∧
      (k ∈ names ∨ (toJson? (maxDepth - 1) m.2).isSome) := by
  induction members with
  | nil => simp [otherMembers?]
  | cons m rest ih =>
    obtain ⟨key, d⟩ := m
    rw [List.forall_mem_cons, ← ih]
    cases key with
    | none => simp [otherMembers?]
    | some k =>
      by_cases hk : k ∈ names
      · simp [otherMembers?, hk]
      · cases hd : toJson? (maxDepth - 1) d <;> cases ho : otherMembers? names rest <;>
          simp [otherMembers?, hk, hd, ho]

theorem otherMembers?_eq {names : List String} {members : List (Option String × Document)}
    {pairs : List (String × Json)} (h : valuesOf? (maxDepth - 1) members = some pairs) :
    otherMembers? names members = some (pairs.filter fun e => e.1 ∉ names) := by
  induction members generalizing pairs with
  | nil =>
    cases h
    rfl
  | cons m rest ih =>
    obtain ⟨key, d⟩ := m
    obtain ⟨k, j, others, rfl, hj, hrest, rfl⟩ := valuesOf?_cons_eq_some h
    by_cases hk : k ∈ names
    · simp [otherMembers?, hk, ih hrest]
    · simp [otherMembers?, hk, hj, ih hrest]

end Json

end SessionGateway
