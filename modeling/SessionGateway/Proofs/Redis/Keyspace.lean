import Mathlib.Data.Finset.Sort
import Mathlib.Data.String.Basic
import SessionGateway.Proofs.Redis.Server
import SessionGateway.Proofs.Text.Decimal

/-!
# A keyspace

A server in little: keys with what they hold and when they go, and the scripts that it was given.
It carries out the commands that the store sends, and works as a Redis server does.
-/

namespace SessionGateway.Redis

/-- What is under each key with the time at which it goes, and the digests of the known scripts. -/
structure Keyspace where
  slots : String → Option (Content × Nat)
  scripts : List String

namespace Keyspace

def empty : Keyspace := ⟨fun _ => none, []⟩

def live? (s : Keyspace) (now : Nat) (key : String) : Option (Content × Nat) :=
  (s.slots key).filter fun x => now < x.2

def content (s : Keyspace) (now : Nat) (key : String) : Option Content :=
  (s.live? now key).map Prod.fst

def put (s : Keyspace) (key : String) (x : Option (Content × Nat)) : Keyspace :=
  { s with slots := Function.update s.slots key x }

/-- Deletes a field; what is left goes at the same time as before. -/
def deleteField (s : Keyspace) (now : Nat) (key field : String) : Keyspace :=
  s.put key ((s.live? now key).bind fun x => (without field (some x.1)).map (·, x.2))

def wrongType : Reply :=
  .error "WRONGTYPE Operation against a key holding the wrong kind of value"

def syntaxError : Reply := .error "ERR syntax error"

instance : DecidablePred IsHash
  | none | some (.hash _) => isTrue trivial
  | some (.text _) => isFalse id

/-- A reply about a hash; where nothing is held it has no fields. -/
def onHash (v : Option Content) (reply : (Finmap fun _ : String => String) → Reply) : Reply :=
  match v with
  | some (.text _) => wrongType
  | some (.hash fields) => reply fields
  | none => reply ∅

/-- The fields with their values, in the order of their names. -/
def listing (fields : Finmap fun _ : String => String) : List (String × String) :=
  (fields.keys.sort).filterMap fun field => (fields.lookup field).map (field, ·)

def count (p : Prop) [Decidable p] : Reply := .integer (if p then 1 else 0)

/-- Carries out one command. -/
def command (now : Nat) (s : Keyspace) : List String → Outcome × Keyspace
  | ["HGET", key, field] =>
    (some (onHash (s.content now key) fun fields => bulkOf (fields.lookup field)), s)
  | ["HGETALL", key] =>
    (some (onHash (s.content now key) fun fields =>
      .list ((listing fields).flatMap fun e => [.bulk e.1, .bulk e.2])), s)
  | ["HDEL", key, field] =>
    (some (onHash (s.content now key) fun fields => count (fields.lookup field).isSome),
      s.deleteField now key field)
  | ["SET", key, value, "PX", px] =>
    match Text.digits? px.toList with
    | some px => (some (.status "OK"), s.put key (some (.text value, now + px)))
    | none => (some syntaxError, s)
  | ["GET", key] =>
    match s.content now key with
    | some (.hash _) => (some wrongType, s)
    | some (.text text) => (some (.bulk text), s)
    | none => (some .nil, s)
  | ["DEL", key] => (some (count (s.content now key).isSome), s.put key none)
  | ["SCRIPT", "LOAD", script] =>
    if script = deleteIfScript then
      (some (.bulk deleteIfDigest), { s with scripts := deleteIfDigest :: s.scripts })
    else (some syntaxError, s)
  | ["EVALSHA", digest, "1", key, field, expected] =>
    if digest ∈ s.scripts then
      (some (onHash (s.content now key) fun fields => count (fields.lookup field = some expected)),
        if (hashOf (s.content now key)).lookup field = some expected then
          s.deleteField now key field else s)
    else (some (.error ("NOSCRIPT " ++ "No matching script. Please use EVAL.")), s)
  | _ => (some syntaxError, s)

/-- Adds to a hash and starts its time anew. A hash without a time is not served. -/
def transaction (now : Nat) (s : Keyspace) : List (List String) → Outcome × Keyspace
  | [["HSET", key, field, value], ["PEXPIRE", key', px]] =>
    match Text.digits? px.toList with
    | some px =>
      if key' = key ∧ IsHash (s.content now key) then
        (some (.list [count ((hashOf (s.content now key)).lookup field = none), .integer 1]),
          s.put key
            (some (.hash ((hashOf (s.content now key)).insert field value), now + px)))
      else (some (.list [wrongType, .integer 0]), s)
    | none => (some syntaxError, s)
  | _ => (some syntaxError, s)

def server : Server Keyspace where
  answer now
    | .dial _, s => (true, s)
    | .command words, s => s.command now words
    | .transaction commands, s => s.transaction now commands
  content := content
  knows s digest := decide (digest ∈ s.scripts)

/-! ### It works as it should -/

section

variable {s : Keyspace} {now now' : Nat} {key field value expected : String}

theorem leaves_put (x : Option (Content × Nat)) :
    server.Leaves now s (s.put key x) key fun now' =>
      (x.filter fun y => decide (now' < y.2)).map Prod.fst := by
  intro now' _
  funext key'
  by_cases hkey : key' = key
  · subst hkey
    simp only [server, content, live?, put, Function.update_self]
  · simp only [server, content, live?, put, Function.update_of_ne hkey]

theorem onHash_of_isHash {v : Option Content} (h : IsHash v)
    (reply : (Finmap fun _ : String => String) → Reply) : onHash v reply = reply (hashOf v) := by
  cases v with
  | none => rfl
  | some v =>
    cases v with
    | text s => exact h.elim
    | hash fields => rfl

theorem leaves_deleteField : server.Leaves now s (s.deleteField now key field) key fun now' =>
    without field (s.content now' key) := by
  intro now' hnow
  rw [deleteField, leaves_put _ now' hnow]
  congr 1
  simp only [content, live?]
  cases hslot : s.slots key with
  | none => rfl
  | some x =>
    obtain ⟨v, deadline⟩ := x
    by_cases hlive : now < deadline
    · simp only [Option.filter_some, hlive, decide_true, if_true, Option.bind_some]
      by_cases hthen : now' < deadline
      · simp only [hthen, decide_true, if_true, Option.map_some]
        cases without field (some v) with
        | none => rfl
        | some v' => simp [hthen]
      · simp only [hthen, decide_false, Bool.false_eq_true, if_false, Option.map_none]
        cases without field (some v) with
        | none => rfl
        | some v' => simp [without, Nat.le_of_not_lt hthen]
    · have hthen : ¬ now' < deadline := by omega
      simp only [Option.filter_some, hlive, hthen, decide_false, Bool.false_eq_true, if_false,
        Option.bind_none, Option.filter_none, Option.map_none]
      rfl

theorem digits?_toString (n : Nat) : Text.digits? (toString n).toList = some n := by
  have hdigits : (toString n).toList = Nat.toDigits 10 n := Nat.toList_repr
  rw [hdigits, Text.digits?_toDigits]

theorem isListing_listing (fields : Finmap fun _ : String => String) :
    Store.Command.IsListing fields.lookup (listing fields) := by
  constructor
  · rw [listing, List.map_filterMap, List.Nodup, List.pairwise_filterMap]
    refine (Finset.sort_nodup _ _).imp ?_
    intro field field' hne x hx x' hx'
    obtain ⟨e, he, rfl⟩ := Option.map_eq_some_iff.mp hx
    obtain ⟨e', he', rfl⟩ := Option.map_eq_some_iff.mp hx'
    obtain ⟨value, -, rfl⟩ := Option.map_eq_some_iff.mp he
    obtain ⟨value', -, rfl⟩ := Option.map_eq_some_iff.mp he'
    exact hne
  · intro field value
    simp only [listing, List.mem_filterMap, Finset.mem_sort, Finmap.mem_keys,
      Option.map_eq_some_iff,
      Prod.mk.injEq, exists_eq_right_right]
    constructor
    · rintro ⟨-, hlookup⟩
      exact hlookup
    · intro hlookup
      exact ⟨Finmap.mem_of_lookup_eq_some hlookup, hlookup⟩

theorem command_load : s.command now ["SCRIPT", "LOAD", deleteIfScript] =
    (some (.bulk deleteIfDigest), { s with scripts := deleteIfDigest :: s.scripts }) := by
  simp only [command, if_true]

theorem command_set {px : Nat} : s.command now ["SET", key, value, "PX", toString px] =
    (some (.status "OK"), s.put key (some (.text value, now + px))) := by
  simp only [command, digits?_toString]

theorem command_get (h : IsText (s.content now key)) :
    s.command now ["GET", key] = (some (bulkOf (textOf (s.content now key))), s) := by
  simp only [command]
  cases hv : s.content now key with
  | none => rfl
  | some v =>
    rw [hv] at h
    cases v with
    | text text => rfl
    | hash fields => exact h.elim

theorem command_evalsha (field expected : String) (h : IsHash (s.content now key))
    (hknows : deleteIfDigest ∈ s.scripts) :
    s.command now (Server.deleteIfCall key field expected) =
      (some (count ((hashOf (s.content now key)).lookup field = some expected)),
        if (hashOf (s.content now key)).lookup field = some expected then
          s.deleteField now key field else s) := by
  simp only [command, Server.deleteIfCall, if_pos hknows, onHash_of_isHash h]

theorem command_unknown (hknows : deleteIfDigest ∉ s.scripts) :
    s.command now (Server.deleteIfCall key field expected) =
      (some (.error ("NOSCRIPT " ++ "No matching script. Please use EVAL.")), s) := by
  simp only [command, Server.deleteIfCall, if_neg hknows]

theorem transaction_hset {px : Nat} (h : IsHash (s.content now key)) :
    s.transaction now [["HSET", key, field, value], ["PEXPIRE", key, toString px]] =
      (some (.list [count ((hashOf (s.content now key)).lookup field = none), .integer 1]),
        s.put key (some (.hash ((hashOf (s.content now key)).insert field value), now + px))) := by
  simp only [transaction, digits?_toString, h, and_self, if_true]

theorem leaves_put_until (v : Content) (deadline : Nat) :
    server.Leaves now s (s.put key (some (v, deadline))) key fun now' =>
      if now' < deadline then some v else none := by
  intro now' hnow
  rw [leaves_put _ now' hnow]
  congr 1
  by_cases hlive : now' < deadline
  · simp only [Option.filter_some, hlive, decide_true, if_true, Option.map_some]
  · simp only [Option.filter_some, hlive, decide_false, Bool.false_eq_true, if_false,
      Option.map_none]

theorem answer_command (words : List String) :
    server.answer now (.command words) s = s.command now words := rfl

theorem evalsha (hhash : IsHash (s.content now key)) (hknows : deleteIfDigest ∈ s.scripts)
    (field expected : String) : ∃ s',
      if (hashOf (s.content now key)).lookup field = some expected then
        server.answer now (.command (Server.deleteIfCall key field expected)) s =
          (some (.integer 1), s') ∧
          server.Leaves now s s' key fun now' => without field (s.content now' key)
      else
        server.answer now (.command (Server.deleteIfCall key field expected)) s =
          (some (.integer 0), s') ∧ server.Keeps now s s' := by
  have hanswer := command_evalsha field expected hhash hknows
  rw [answer_command, hanswer]
  by_cases hfield : (hashOf (s.content now key)).lookup field = some expected
  · simp only [if_pos hfield, count]
    exact ⟨_, rfl, leaves_deleteField⟩
  · simp only [if_neg hfield, count]
    exact ⟨_, rfl, fun _ _ => rfl⟩

/-- The keyspace works as a Redis server does. -/
theorem obeys : server.Obeys where
  hset now s key field value px hhash _ _ :=
    ⟨_, _, transaction_hset hhash, leaves_put_until _ _⟩
  hget now s key field hhash :=
    ⟨s, Prod.ext (congrArg some (onHash_of_isHash hhash _)) rfl, fun _ _ => rfl⟩
  hgetall now s key hhash :=
    ⟨_, s, isListing_listing _, Prod.ext (congrArg some (onHash_of_isHash hhash _)) rfl,
      fun _ _ => rfl⟩
  hdel now s key field hhash :=
    ⟨_, Prod.ext (congrArg some (onHash_of_isHash hhash _)) rfl, leaves_deleteField⟩
  set now s key value px _ _ := ⟨_, command_set, leaves_put_until _ _⟩
  get now s key htext := ⟨s, command_get htext, fun _ _ => rfl⟩
  del now s key := ⟨_, rfl, leaves_put none⟩
  unknown now s key field expected hknows :=
    ⟨_, s, command_unknown (of_decide_eq_false hknows), fun _ _ => rfl⟩
  load now s := by
    have hknows : deleteIfDigest ∈ deleteIfDigest :: s.scripts := List.mem_cons_self
    exact ⟨_, (answer_command _).trans command_load, decide_eq_true hknows, fun _ _ => rfl⟩
  evalsha now s key field expected hknows hhash :=
    evalsha hhash (of_decide_eq_true hknows) field expected

end

end Keyspace

end SessionGateway.Redis
