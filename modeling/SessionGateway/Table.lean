/-!
# Tables

A finite map whose keys keep the order in which they were first put. It is the container of the
directory, the store, the handshake attributes and the metrics, so its order is the order in which
listings are given.
-/

namespace SessionGateway

universe u v

/-- Replaces the value of a key in place, or appends the pair. -/
def putPair {κ : Type u} {ν : Type v} [DecidableEq κ] (k : κ) (v : ν) : List (κ × ν) → List (κ × ν)
  | [] => [(k, v)]
  | (k', v') :: rest => if k' = k then (k, v) :: rest else (k', v') :: putPair k v rest

/-- The value beside the first occurrence of a key. -/
def findPair {κ : Type u} {ν : Type v} [DecidableEq κ] (k : κ) : List (κ × ν) → Option ν
  | [] => none
  | (k', v) :: rest => if k' = k then some v else findPair k rest

section Pairs

variable {κ : Type u} {ν : Type v} [DecidableEq κ]

theorem keys_putPair (k : κ) (v : ν) (l : List (κ × ν)) :
    (putPair k v l).map Prod.fst =
      if k ∈ l.map Prod.fst then l.map Prod.fst else l.map Prod.fst ++ [k] := by
  induction l with
  | nil => simp [putPair]
  | cons p rest ih =>
    obtain ⟨k', v'⟩ := p
    by_cases h : k' = k
    · subst h; simp [putPair]
    · have h' : k ≠ k' := fun e => h e.symm
      simp only [putPair, h, if_false, List.map_cons, ih, List.mem_cons, h', false_or]
      split <;> simp

theorem findPair_putPair (k k' : κ) (v : ν) (l : List (κ × ν)) :
    findPair k' (putPair k v l) = if k = k' then some v else findPair k' l := by
  induction l with
  | nil => simp [putPair, findPair]
  | cons p rest ih =>
    obtain ⟨a, b⟩ := p
    by_cases h : a = k
    · subst h
      by_cases h' : a = k' <;> simp [putPair, findPair, h']
    · by_cases h' : a = k'
      · subst h'
        have : ¬k = a := fun e => h e.symm
        simp [putPair, findPair, h, this]
      · simp [putPair, findPair, h, h', ih]

theorem findPair_filter (p : κ → Bool) (k : κ) (l : List (κ × ν)) :
    findPair k (l.filter fun e => p e.1) = if p k then findPair k l else none := by
  induction l with
  | nil => simp [findPair]
  | cons e rest ih =>
    obtain ⟨a, b⟩ := e
    by_cases ha : p a = true
    · by_cases h : a = k
      · subst h; simp [findPair, ha]
      · simp [findPair, ha, h, ih]
    · by_cases h : a = k
      · subst h; simp [ha, ih]
      · simp [findPair, ha, h, ih]

theorem findPair_eq_none_iff (k : κ) (l : List (κ × ν)) :
    findPair k l = none ↔ k ∉ l.map Prod.fst := by
  induction l with
  | nil => simp [findPair]
  | cons e rest ih =>
    obtain ⟨a, b⟩ := e
    by_cases h : a = k
    · subst h; simp [findPair]
    · have h' : k ≠ a := fun e => h e.symm
      simp [findPair, h, h', ih]

end Pairs

/-- A finite map from keys to values, each key at most once. -/
structure Table (κ : Type u) (ν : Type v) where
  /-- The pairs, in the order in which their keys were first put. -/
  entries : List (κ × ν)
  distinct : (entries.map Prod.fst).Nodup

namespace Table

variable {κ : Type u} {ν : Type v} [DecidableEq κ]

def empty : Table κ ν := ⟨[], by simp⟩

instance : Inhabited (Table κ ν) := ⟨empty⟩
instance : EmptyCollection (Table κ ν) := ⟨empty⟩

def get? (t : Table κ ν) (k : κ) : Option ν := findPair k t.entries

def contains (t : Table κ ν) (k : κ) : Bool := (t.get? k).isSome

/-- Puts a value under a key; a key that is present keeps its place. -/
def insert (t : Table κ ν) (k : κ) (v : ν) : Table κ ν where
  entries := putPair k v t.entries
  distinct := by
    rw [keys_putPair]
    split
    · exact t.distinct
    · next h =>
      rw [List.nodup_append]
      refine ⟨t.distinct, by simp, ?_⟩
      intro a ha b hb
      simp only [List.mem_singleton] at hb
      subst hb
      exact fun e => h (e ▸ ha)

/-- Keeps the pairs that pass a test. -/
def filter (t : Table κ ν) (p : κ → ν → Bool) : Table κ ν where
  entries := t.entries.filter fun e => p e.1 e.2
  distinct := t.distinct.sublist (List.filter_sublist.map Prod.fst)

def erase (t : Table κ ν) (k : κ) : Table κ ν := t.filter fun k' _ => decide (k' ≠ k)

def keys (t : Table κ ν) : List κ := t.entries.map Prod.fst

def values (t : Table κ ν) : List ν := t.entries.map Prod.snd

def size (t : Table κ ν) : Nat := t.entries.length

/-- Changes the value of a key, if it has one. -/
def modify (t : Table κ ν) (k : κ) (f : ν → ν) : Table κ ν :=
  match t.get? k with
  | some v => t.insert k (f v)
  | none => t

/-- A table of the given pairs; of a repeated key the last value counts. -/
def ofList (pairs : List (κ × ν)) : Table κ ν :=
  pairs.foldl (fun t e => t.insert e.1 e.2) empty

@[simp] theorem get?_empty (k : κ) : (empty : Table κ ν).get? k = none := rfl

theorem get?_insert (t : Table κ ν) (k k' : κ) (v : ν) :
    (t.insert k v).get? k' = if k = k' then some v else t.get? k' :=
  findPair_putPair k k' v t.entries

theorem get?_erase (t : Table κ ν) (k k' : κ) :
    (t.erase k).get? k' = if k' = k then none else t.get? k' := by
  have := findPair_filter (fun a => decide (a ≠ k)) k' t.entries
  simp only [decide_eq_true_eq, ne_eq, ite_not] at this
  exact this

theorem get?_eq_none_iff (t : Table κ ν) (k : κ) : t.get? k = none ↔ k ∉ t.keys :=
  findPair_eq_none_iff k t.entries

end Table

end SessionGateway
