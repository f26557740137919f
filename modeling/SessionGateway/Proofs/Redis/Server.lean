import Mathlib.Data.Finmap
import SessionGateway.Redis.Wire
import SessionGateway.Proofs.Json.Members
import SessionGateway.Proofs.Store.Outlook

/-!
# A Redis server as a store

What is relied on of a Redis server: how it carries out and replies to each request of the store,
told by what it holds under its keys from then on. A key is gone from its deadline on, and a hash
with its last field. Over such a server the commands of the store keep to the contract of a store.
-/

namespace SessionGateway.Redis

open Store (Command)

/-! ### What a key holds -/

inductive Content where
  | text (s : String)
  | hash (fields : Finmap fun _ : String => String)

/-- No text is there. -/
def IsHash : Option Content → Prop
  | some (.text _) => False
  | none | some (.hash _) => True

/-- No hash is there. -/
def IsText : Option Content → Prop
  | some (.hash _) => False
  | none | some (.text _) => True

def hashOf : Option Content → Finmap fun _ : String => String
  | some (.hash fields) => fields
  | none | some (.text _) => ∅

def textOf : Option Content → Option String
  | some (.text s) => some s
  | none | some (.hash _) => none

/-- What is left without a field; a hash goes with its last one. -/
def without (field : String) : Option Content → Option Content
  | some (.hash fields) =>
    if fields.erase field = ∅ then none else some (.hash (fields.erase field))
  | none => none
  | some (.text s) => some (.text s)

/-- A text as it is sent, or that there is none. -/
def bulkOf : Option String → Reply
  | some s => .bulk s
  | none => .nil

/-! ### The server -/

/-- A server: how it answers requests at a time in milliseconds since 1970, what it holds under its
keys at any time if it is asked nothing until then, and which scripts it knows by their digests. -/
structure Server (σ : Type) where
  answer : Nat → (r : Request) → σ → r.Answer × σ
  content : σ → Nat → String → Option Content
  knows : σ → String → Bool

/-- The last time that a server can count to. -/
def lastTime : Nat := 9223372036854775807

namespace Server

variable {σ : Type}

/-- Nothing changes from a time on. -/
def Keeps (S : Server σ) (now : Nat) (s s' : σ) : Prop :=
  ∀ now', now ≤ now' → S.content s' now' = S.content s now'

/-- From a time on, one key holds something else. -/
def Leaves (S : Server σ) (now : Nat) (s s' : σ) (key : String) (held : Nat → Option Content) :
    Prop :=
  ∀ now', now ≤ now' → S.content s' now' = Function.update (S.content s now') key (held now')

/-- The words that run the script that compares a field and deletes it. -/
def deleteIfCall (key field expected : String) : List String :=
  ["EVALSHA", deleteIfDigest, "1", key, field, expected]

/-- How a Redis server works. Deadlines have to lie in the range of its clock. -/
structure Obeys (S : Server σ) : Prop where
  /-- A transaction is carried out as one; `HSET` adds to the hash and `PEXPIRE` starts its time. -/
  hset : ∀ now s key field value px, IsHash (S.content s now key) → 1 ≤ px →
    now + px ≤ lastTime → ∃ added s',
      S.answer now (.transaction [["HSET", key, field, value], ["PEXPIRE", key, toString px]]) s =
        (some (.list [.integer added, .integer 1]), s') ∧
      S.Leaves now s s' key fun now' =>
        if now' < now + px then some (.hash ((hashOf (S.content s now key)).insert field value))
        else none
  hget : ∀ now s key field, IsHash (S.content s now key) → ∃ s',
    S.answer now (.command ["HGET", key, field]) s =
      (some (bulkOf ((hashOf (S.content s now key)).lookup field)), s') ∧ S.Keeps now s s'
  /-- The fields come in any order. -/
  hgetall : ∀ now s key, IsHash (S.content s now key) → ∃ l s',
    Command.IsListing (hashOf (S.content s now key)).lookup l ∧
      S.answer now (.command ["HGETALL", key]) s =
        (some (.list (l.flatMap fun e => [.bulk e.1, .bulk e.2])), s') ∧ S.Keeps now s s'
  hdel : ∀ now s key field, IsHash (S.content s now key) → ∃ s',
    S.answer now (.command ["HDEL", key, field]) s =
      (some (.integer (if ((hashOf (S.content s now key)).lookup field).isSome then 1 else 0)),
        s') ∧
      S.Leaves now s s' key fun now' => without field (S.content s now' key)
  /-- Whatever the key held is replaced. -/
  set : ∀ now s key value px, 1 ≤ px → now + px ≤ lastTime → ∃ s',
    S.answer now (.command ["SET", key, value, "PX", toString px]) s =
      (some (.status "OK"), s') ∧
      S.Leaves now s s' key fun now' => if now' < now + px then some (.text value) else none
  get : ∀ now s key, IsText (S.content s now key) → ∃ s',
    S.answer now (.command ["GET", key]) s = (some (bulkOf (textOf (S.content s now key))), s') ∧
      S.Keeps now s s'
  del : ∀ now s key, ∃ s',
    S.answer now (.command ["DEL", key]) s =
      (some (.integer (if (S.content s now key).isSome then 1 else 0)), s') ∧
      S.Leaves now s s' key fun _ => none
  /-- A script that is not known is not run. -/
  unknown : ∀ now s key field expected, S.knows s deleteIfDigest = false → ∃ text s',
    S.answer now (.command (deleteIfCall key field expected)) s =
      (some (.error ("NOSCRIPT " ++ text)), s') ∧ S.Keeps now s s'
  load : ∀ now s, ∃ s',
    S.answer now (.command ["SCRIPT", "LOAD", deleteIfScript]) s =
      (some (.bulk deleteIfDigest), s') ∧
      S.knows s' deleteIfDigest = true ∧ S.Keeps now s s'
  /-- A script runs as one: the field is deleted just if it holds what is expected. -/
  evalsha : ∀ now s key field expected, S.knows s deleteIfDigest = true →
    IsHash (S.content s now key) → ∃ s',
      if (hashOf (S.content s now key)).lookup field = some expected then
        S.answer now (.command (deleteIfCall key field expected)) s =
          (some (.integer 1), s') ∧
          S.Leaves now s s' key fun now' => without field (S.content s now' key)
      else
        S.answer now (.command (deleteIfCall key field expected)) s =
          (some (.integer 0), s') ∧ S.Keeps now s s'

/-! ### Commands of the store -/

section

variable {S : Server σ} {now : Nat} {s s' s'' : σ} {key field value expected : String}

theorem Keeps.trans (h : S.Keeps now s s') (h' : S.Keeps now s' s'') : S.Keeps now s s'' :=
  fun now' hnow => (h' now' hnow).trans (h now' hnow)

theorem read_ok {α : Type} {r : Reply} {value? : Reply → Option α} {a : α}
    (hr : r.isFailure = false) (ha : value? r = some a) :
    Outcome.read (some r) value? = .ok a := by
  simp only [Outcome.read, hr, Bool.false_eq_true, if_false, ha, Option.elim_some]

/-- A reply that can be read as a value is what a command gives back. -/
theorem run_command {α : Type} {words : List String} {reply : Reply} {value? : Reply → Option α}
    {a : α} (hanswer : S.answer now (.command words) s = (some reply, s'))
    (hr : reply.isFailure = false) (ha : value? reply = some a) :
    (send words >>= fun outcome => pure (outcome.read value?) :
      Conversation (Except CacheError α)).run (S.answer now) s = (.ok a, s') := by
  have hread := read_ok hr ha
  simp only [send, Program.request, Program.bind_eq, Program.ask_bind, Program.done_bind,
    Program.pure_eq, Program.run, hanswer, hread]

theorem isFailure_bulkOf (v : Option String) : (bulkOf v).isFailure = false := by
  cases v <;> rfl

theorem optionalText?_bulkOf (v : Option String) : (bulkOf v).optionalText? = some v := by
  cases v <;> rfl

/-- The time to live that is sent for whole milliseconds in range. -/
theorem millisText_ofMillis {n : Nat} (hpos : 1 ≤ n) (hn : n ≤ lastTime) :
    millisText (.ofMillis n) = toString n := by
  have hmax : max 1 (min n (UInt64.size - 1)) = n := by
    have hsize : UInt64.size = 18446744073709551616 := rfl
    rw [lastTime] at hn
    omega
  rw [millisText, Duration.millis_ofMillis, hmax]

theorem anyFailure_pairs (l : List (String × String)) :
    Reply.anyFailure (l.flatMap fun e => [.bulk e.1, .bulk e.2]) = false := by
  induction l with
  | nil => rfl
  | cons e rest ih => simpa [Reply.anyFailure, Reply.isFailure] using ih

theorem pairs?_pairs (l : List (String × String)) :
    Reply.pairs? (l.flatMap fun e => [.bulk e.1, .bulk e.2]) = some l := by
  induction l with
  | nil => rfl
  | cons e rest ih => simp [Reply.pairs?, Reply.text?, ih]

/-- Fields that come in any order are read in that order. -/
theorem fields?_pairs {l : List (String × String)} (hl : (l.map Prod.fst).Nodup) :
    Reply.fields? (.list (l.flatMap fun e => [.bulk e.1, .bulk e.2])) = some l := by
  have hentries : (Table.ofList l).entries = l := by
    rw [Table.ofList, entries_foldl_insert]
    exact putAll_of_nodup hl
  rw [Reply.fields?, pairs?_pairs, Option.map_some, hentries]

/-! #### As the server replies -/

theorem run_hashPut (h : S.Obeys) (field value : String)
    (hhash : IsHash (S.content s now key)) {n : Nat} (hpos : 1 ≤ n) (hn : now + n ≤ lastTime) :
    ∃ s', (perform (.hashPut key field value (.ofMillis n))).run (S.answer now) s = (.ok (), s') ∧
      S.Leaves now s s' key fun now' =>
        if now' < now + n then some (.hash ((hashOf (S.content s now key)).insert field value))
        else none := by
  obtain ⟨added, s', hanswer, hleaves⟩ := h.hset now s key field value n hhash hpos hn
  refine ⟨s', ?_, hleaves⟩
  rw [← millisText_ofMillis hpos (by omega)] at hanswer
  simp only [perform, sendTogether, Program.request, Program.bind_eq, Program.ask_bind,
    Program.done_bind, Program.pure_eq, Program.run, hanswer]
  rfl

theorem run_hashGet (h : S.Obeys) (field : String) (hhash : IsHash (S.content s now key)) : ∃ s',
    (perform (.hashGet key field)).run (S.answer now) s =
      (.ok ((hashOf (S.content s now key)).lookup field), s') ∧ S.Keeps now s s' := by
  obtain ⟨s', hanswer, hkeeps⟩ := h.hget now s key field hhash
  exact ⟨s', run_command hanswer (isFailure_bulkOf _) (optionalText?_bulkOf _), hkeeps⟩

theorem run_hashGetAll (h : S.Obeys) (hhash : IsHash (S.content s now key)) : ∃ l s',
    (perform (.hashGetAll key)).run (S.answer now) s = (.ok l, s') ∧
      Command.IsListing (hashOf (S.content s now key)).lookup l ∧ S.Keeps now s s' := by
  obtain ⟨l, s', hlisting, hanswer, hkeeps⟩ := h.hgetall now s key hhash
  exact ⟨l, s', run_command hanswer (anyFailure_pairs l) (fields?_pairs hlisting.1), hlisting,
    hkeeps⟩

theorem isRemoval?_count (p : Prop) [Decidable p] :
    Reply.isRemoval? (.integer (if p then 1 else 0)) = some (decide p) := by
  by_cases hp : p
  · simp only [if_pos hp, decide_eq_true hp]
    rfl
  · simp only [if_neg hp, decide_eq_false hp]
    rfl

theorem run_hashDelete (h : S.Obeys) (field : String) (hhash : IsHash (S.content s now key)) :
    ∃ s', (perform (.hashDelete key field)).run (S.answer now) s =
      (.ok ((hashOf (S.content s now key)).lookup field).isSome, s') ∧
      S.Leaves now s s' key fun now' => without field (S.content s now' key) := by
  obtain ⟨s', hanswer, hleaves⟩ := h.hdel now s key field hhash
  have hrun := run_command hanswer rfl (isRemoval?_count _)
  rw [Bool.decide_eq_true] at hrun
  exact ⟨s', hrun, hleaves⟩

theorem run_put (h : S.Obeys) (s : σ) (key value : String) {n : Nat} (hpos : 1 ≤ n)
    (hn : now + n ≤ lastTime) : ∃ s',
    (perform (.put key value (.ofMillis n))).run (S.answer now) s = (.ok (), s') ∧
      S.Leaves now s s' key fun now' => if now' < now + n then some (.text value) else none := by
  obtain ⟨s', hanswer, hleaves⟩ := h.set now s key value n hpos hn
  rw [← millisText_ofMillis hpos (by omega)] at hanswer
  exact ⟨s', run_command hanswer rfl rfl, hleaves⟩

theorem run_get (h : S.Obeys) (htext : IsText (S.content s now key)) : ∃ s',
    (perform (.get key)).run (S.answer now) s = (.ok (textOf (S.content s now key)), s') ∧
      S.Keeps now s s' := by
  obtain ⟨s', hanswer, hkeeps⟩ := h.get now s key htext
  exact ⟨s', run_command hanswer (isFailure_bulkOf _) (optionalText?_bulkOf _), hkeeps⟩

theorem run_delete (h : S.Obeys) (now : Nat) (s : σ) (key : String) : ∃ s',
    (perform (.delete key)).run (S.answer now) s = (.ok (S.content s now key).isSome, s') ∧
      S.Leaves now s s' key fun _ => none := by
  obtain ⟨s', hanswer, hleaves⟩ := h.del now s key
  have hrun := run_command hanswer rfl (isRemoval?_count _)
  rw [Bool.decide_eq_true] at hrun
  exact ⟨s', hrun, hleaves⟩

/-! #### The script -/

/-- A field is deleted if it holds what is expected, and what is given back tells whether it was. -/
def DeletesIf (S : Server σ) (now : Nat) (key field expected : String) (s : σ)
    (after : Except CacheError Bool × σ) : Prop :=
  after.1 = .ok (decide ((hashOf (S.content s now key)).lookup field = some expected)) ∧
    if (hashOf (S.content s now key)).lookup field = some expected then
      S.Leaves now s after.2 key fun now' => without field (S.content s now' key)
    else S.Keeps now s after.2

theorem Keeps.deletesIf (h : S.Keeps now s s') {after : Except CacheError Bool × σ}
    (h' : S.DeletesIf now key field expected s' after) :
    S.DeletesIf now key field expected s after := by
  have hsame : S.content s' now = S.content s now := h now (Nat.le_refl now)
  rw [DeletesIf, hsame] at h'
  refine ⟨h'.1, ?_⟩
  by_cases hfield : (hashOf (S.content s now key)).lookup field = some expected
  · rw [if_pos hfield] at h' ⊢
    intro now' hnow
    have hlater := h now' hnow
    rw [h'.2 now' hnow]
    simp only [hlater]
  · rw [if_neg hfield] at h' ⊢
    exact h.trans h'.2

theorem isUnknownScript_error (text : String) :
    (Reply.error ("NOSCRIPT " ++ text)).isUnknownScript = true := by
  have hword : ("NOSCRIPT " ++ text).toList =
      'N' :: 'O' :: 'S' :: 'C' :: 'R' :: 'I' :: 'P' :: 'T' :: ' ' :: text.toList := by
    rw [String.toList_append]
    rfl
  rw [Reply.isUnknownScript, hword]
  rfl

/-- A script that the server knows is run at once. -/
theorem call_of_knows (h : S.Obeys) (field expected : String)
    (hhash : IsHash (S.content s now key)) (hknows : S.knows s deleteIfDigest = true) : ∃ count s',
    S.answer now (.command (deleteIfCall key field expected)) s = (some (.integer count), s') ∧
      S.DeletesIf now key field expected s
        (Outcome.read (some (.integer count)) Reply.isRemoval?, s') := by
  obtain ⟨s', hrun⟩ := h.evalsha now s key field expected hknows hhash
  by_cases hfield : (hashOf (S.content s now key)).lookup field = some expected
  · rw [if_pos hfield] at hrun
    refine ⟨1, s', hrun.1, ?_⟩
    rw [DeletesIf, if_pos hfield, decide_eq_true hfield]
    exact ⟨rfl, hrun.2⟩
  · rw [if_neg hfield] at hrun
    refine ⟨0, s', hrun.1, ?_⟩
    rw [DeletesIf, if_neg hfield, decide_eq_false hfield]
    exact ⟨rfl, hrun.2⟩

/-- The script is run, whether the server knew it or has to be given it first. -/
theorem run_hashDeleteIf (h : S.Obeys) (field expected : String)
    (hhash : IsHash (S.content s now key)) :
    S.DeletesIf now key field expected s
      ((perform (.hashDeleteIf key field expected)).run (S.answer now) s) := by
  cases hknows : S.knows s deleteIfDigest with
  | true =>
    obtain ⟨count, s', hanswer, hdeletes⟩ := call_of_knows h field expected hhash hknows
    rw [deleteIfCall] at hanswer
    simp only [perform, runDeleteIf, send, Program.request, Program.bind_eq, Program.ask_bind,
      Program.done_bind, Program.run, hanswer]
    exact hdeletes
  | false =>
    obtain ⟨text, s₁, hunknown, hkeeps₁⟩ := h.unknown now s key field expected hknows
    obtain ⟨s₂, hload, hknows₂, hkeeps₂⟩ := h.load now s₁
    have hkeeps := hkeeps₁.trans hkeeps₂
    have hhash₂ : IsHash (S.content s₂ now key) := by rwa [hkeeps now (Nat.le_refl now)]
    obtain ⟨count, s', hanswer, hdeletes⟩ := call_of_knows h field expected hhash₂ hknows₂
    rw [deleteIfCall] at hanswer hunknown
    have hbranch : ((some (Reply.error ("NOSCRIPT " ++ text))).map
        Reply.isUnknownScript).getD false = true := isUnknownScript_error text
    simp only [perform, runDeleteIf, send, Program.request, Program.bind_eq, Program.ask_bind,
      Program.done_bind, Program.run, hunknown, hbranch, if_true, hload]
    simp only [Outcome.read, Reply.isFailure, Bool.false_eq_true, if_false, Reply.done?,
      Option.elim_some, Program.run, hanswer]
    exact hkeeps.deletesIf hdeletes

end

/-! ### A server as a backend -/

/-- A server as a backend whose instants are counted from an origin. -/
def backend (S : Server σ) (origin : Nat) : Store.Backend σ where
  answer t k := (perform k).run (S.answer (origin + t))
  outlook s t :=
    ⟨fun key => (hashOf (S.content s (origin + t) key)).lookup,
      fun key => textOf (S.content s (origin + t) key)⟩

/-- From an instant on every key holds the kind of value that it serves for, or nothing. -/
def Fits (S : Server σ) (origin : Nat) (hashes texts : String → Prop) (t : Nat) (s : σ) : Prop :=
  ∀ now, origin + t ≤ now →
    (∀ key, hashes key → IsHash (S.content s now key)) ∧
      ∀ key, texts key → IsText (S.content s now key)

section

variable {S : Server σ} {origin t t' : Nat} {s s' : σ} {key field value : String}
  {held : Nat → Option Content} {hashes texts : String → Prop}

theorem textOf_of_isHash {v : Option Content} (h : IsHash v) : textOf v = none := by
  cases v with
  | none => rfl
  | some v =>
    cases v with
    | text s => exact h.elim
    | hash fields => rfl

theorem hashOf_of_isText {v : Option Content} (h : IsText v) : hashOf v = ∅ := by
  cases v with
  | none => rfl
  | some v =>
    cases v with
    | text s => rfl
    | hash fields => exact h.elim

/-- A hash that goes with its last field shows like one that is empty. -/
theorem hashOf_without {v : Option Content} (h : IsHash v) (field : String) :
    hashOf (without field v) = (hashOf v).erase field := by
  cases v with
  | none => rfl
  | some v =>
    cases v with
    | text s => exact h.elim
    | hash fields =>
      rw [without]
      split
      · next hempty => exact hempty.symm
      · rfl

theorem isHash_without {v : Option Content} (h : IsHash v) (field : String) :
    IsHash (without field v) := by
  cases v with
  | none => trivial
  | some v =>
    cases v with
    | text s => exact h.elim
    | hash fields =>
      rw [without]
      split
      · trivial
      · trivial

theorem lookup_insert_eq (fields : Finmap fun _ : String => String) (field value : String) :
    (fields.insert field value).lookup = Function.update fields.lookup field (some value) := by
  funext field'
  by_cases hfield : field' = field
  · subst hfield
    rw [Finmap.lookup_insert, Function.update_self]
  · rw [Finmap.lookup_insert_of_ne _ hfield, Function.update_of_ne hfield]

theorem lookup_erase_eq (fields : Finmap fun _ : String => String) (field : String) :
    (fields.erase field).lookup = Function.update fields.lookup field none := by
  funext field'
  by_cases hfield : field' = field
  · subst hfield
    rw [Finmap.lookup_erase, Function.update_self]
  · rw [Finmap.lookup_erase_ne hfield, Function.update_of_ne hfield]

theorem lookup_empty_eq : (∅ : Finmap fun _ : String => String).lookup = Store.Picture.blank :=
  funext Finmap.lookup_empty

theorem Keeps.outlook (h : S.Keeps (origin + t) s s') (ht : t ≤ t') :
    (S.backend origin).outlook s' t' = (S.backend origin).outlook s t' := by
  simp only [backend, h (origin + t') (by omega)]

theorem Leaves.outlook (h : S.Leaves (origin + t) s s' key held) (ht : t ≤ t') :
    (S.backend origin).outlook s' t' =
      (((S.backend origin).outlook s t').setFields key (hashOf (held (origin + t'))).lookup).setText
        key (textOf (held (origin + t'))) := by
  have hheld := h (origin + t') (by omega)
  apply Store.Picture.ext
  · simp only [backend, hheld]
    exact Function.comp_update (fun v => (hashOf v).lookup) _ key _
  · simp only [backend, hheld]
    exact Function.comp_update textOf _ key _

theorem Leaves.hash_outlook (h : S.Leaves (origin + t) s s' key held) (ht : t ≤ t')
    (hbefore : IsHash (S.content s (origin + t') key)) (hafter : IsHash (held (origin + t'))) :
    (S.backend origin).outlook s' t' =
      ((S.backend origin).outlook s t').setFields key (hashOf (held (origin + t'))).lookup := by
  have hnone : textOf (held (origin + t')) = textOf (S.content s (origin + t') key) := by
    rw [textOf_of_isHash hbefore, textOf_of_isHash hafter]
  rw [h.outlook ht, hnone]
  exact Store.Picture.ext rfl (Function.update_eq_self key _)

theorem Leaves.text_outlook (h : S.Leaves (origin + t) s s' key held) (ht : t ≤ t')
    (hbefore : IsText (S.content s (origin + t') key)) (hafter : IsText (held (origin + t'))) :
    (S.backend origin).outlook s' t' =
      ((S.backend origin).outlook s t').setText key (textOf (held (origin + t'))) := by
  have hempty : hashOf (held (origin + t')) = hashOf (S.content s (origin + t') key) := by
    rw [hashOf_of_isText hbefore, hashOf_of_isText hafter]
  rw [h.outlook ht, hempty]
  exact Store.Picture.ext (Function.update_eq_self key _) rfl

theorem Fits.later (h : S.Fits origin hashes texts t s) (ht : t ≤ t') :
    S.Fits origin hashes texts t' s :=
  fun now hnow => h now (by omega)

theorem Keeps.fits (h : S.Keeps (origin + t) s s') (hfits : S.Fits origin hashes texts t s) :
    S.Fits origin hashes texts t s' := by
  intro now hnow
  rw [h now hnow]
  exact hfits now hnow

theorem Leaves.fits (h : S.Leaves (origin + t) s s' key held)
    (hfits : S.Fits origin hashes texts t s)
    (hhash : ∀ now, origin + t ≤ now → hashes key → IsHash (held now))
    (htext : ∀ now, origin + t ≤ now → texts key → IsText (held now)) :
    S.Fits origin hashes texts t s' := by
  intro now hnow
  rw [h now hnow]
  constructor
  · intro key' hkey'
    by_cases hkey : key' = key
    · subst hkey
      rw [Function.update_self]
      exact hhash now hnow hkey'
    · rw [Function.update_of_ne hkey]
      exact (hfits now hnow).1 key' hkey'
  · intro key' hkey'
    by_cases hkey : key' = key
    · subst hkey
      rw [Function.update_self]
      exact htext now hnow hkey'
    · rw [Function.update_of_ne hkey]
      exact (hfits now hnow).2 key' hkey'

theorem isHash_if {p : Prop} [Decidable p] (fields : Finmap fun _ : String => String) :
    IsHash (if p then some (.hash fields) else none) := by
  split
  · trivial
  · trivial

theorem isText_if {p : Prop} [Decidable p] (text : String) :
    IsText (if p then some (.text text) else none) := by
  split
  · trivial
  · trivial

/-- What a backend does with one command when it keeps to the contract of a store. -/
structure Serves (S : Server σ) (origin : Nat) (hashes texts : String → Prop) (t : Nat)
    (k : Command) (s : σ) (after : Store.Result k × σ) : Prop where
  replied : k.Replied ((S.backend origin).outlook s t) after.1
  fits : S.Fits origin hashes texts t after.2
  shown : ∀ t', t ≤ t' →
    (S.backend origin).outlook after.2 t' = k.after t ((S.backend origin).outlook s) t'

theorem serves_hashPut (h : S.Obeys) (hapart : ∀ key, hashes key → ¬ texts key) {n : Nat}
    (hpos : 1 ≤ n) (hn : origin + t + n ≤ lastTime) (hfits : S.Fits origin hashes texts t s)
    (hkey : hashes key) :
    S.Serves origin hashes texts t (.hashPut key field value (.ofMillis n)) s
      ((S.backend origin).answer t (.hashPut key field value (.ofMillis n)) s) := by
  have hhash := fun t' (ht : t ≤ t') => (hfits (origin + t') (by omega)).1 key hkey
  obtain ⟨s', hrun, hleaves⟩ := run_hashPut h field value (hhash t (Nat.le_refl t)) hpos hn
  show S.Serves origin hashes texts t _ s ((perform _).run (S.answer (origin + t)) s)
  rw [hrun]
  constructor
  · rfl
  · exact hleaves.fits hfits (fun _ _ _ => isHash_if _)
      fun _ _ htext => absurd htext (hapart key hkey)
  · intro t' ht
    rw [hleaves.hash_outlook ht (hhash t' ht) (isHash_if _)]
    simp only [Command.after, Duration.millis_ofMillis, Nat.add_assoc, Nat.add_lt_add_iff_left]
    congr 1
    split
    · exact lookup_insert_eq _ field value
    · exact lookup_empty_eq

theorem serves_reading {k : Command} {after : Store.Result k × σ} {s' : σ} {r : Store.Result k}
    (hfits : S.Fits origin hashes texts t s) (hk : ∀ V, k.after t V = V)
    (hafter : after = (r, s')) (hreplied : k.Replied ((S.backend origin).outlook s t) r)
    (hkeeps : S.Keeps (origin + t) s s') : S.Serves origin hashes texts t k s after := by
  subst hafter
  constructor
  · exact hreplied
  · exact hkeeps.fits hfits
  · intro t' ht
    rw [hk]
    exact hkeeps.outlook ht

/-! #### Commands that delete a field -/

theorem without_shown
    (hleaves : S.Leaves (origin + t) s s' key fun now => without field (S.content s now key))
    (hhash : ∀ t', t ≤ t' → IsHash (S.content s (origin + t') key)) (ht : t ≤ t') :
    (S.backend origin).outlook s' t' = ((S.backend origin).outlook s t').deleteField key field := by
  rw [hleaves.hash_outlook ht (hhash t' ht) (isHash_without (hhash t' ht) field),
    hashOf_without (hhash t' ht), lookup_erase_eq]
  rfl

theorem without_fits (hapart : ∀ key, hashes key → ¬ texts key)
    (hleaves : S.Leaves (origin + t) s s' key fun now => without field (S.content s now key))
    (hfits : S.Fits origin hashes texts t s) (hkey : hashes key) :
    S.Fits origin hashes texts t s' := by
  refine hleaves.fits hfits ?_ ?_
  · intro now hnow _
    exact isHash_without ((hfits now hnow).1 key hkey) field
  · intro now hnow htext
    exact absurd htext (hapart key hkey)

/-- Over a server that works as it should, every command does what the contract says. -/
theorem serves (h : S.Obeys) (hapart : ∀ key, hashes key → ¬ texts key) {n : Nat} (hpos : 1 ≤ n)
    (hn : origin + t + n ≤ lastTime) (hfits : S.Fits origin hashes texts t s) {k : Command}
    (hk : k.Uses hashes texts (.ofMillis n)) :
    S.Serves origin hashes texts t k s ((S.backend origin).answer t k s) := by
  have hhash : ∀ key, hashes key → ∀ t', t ≤ t' → IsHash (S.content s (origin + t') key) :=
    fun key hkey t' ht => (hfits (origin + t') (by omega)).1 key hkey
  have htext : ∀ key, texts key → ∀ t', t ≤ t' → IsText (S.content s (origin + t') key) :=
    fun key hkey t' ht => (hfits (origin + t') (by omega)).2 key hkey
  cases k with
  | hashPut key field value ttl =>
    obtain ⟨hkey, rfl⟩ := hk
    exact serves_hashPut h hapart hpos hn hfits hkey
  | hashGet key field =>
    obtain ⟨s', hrun, hkeeps⟩ := run_hashGet h field (hhash key hk t (Nat.le_refl t))
    exact serves_reading hfits (fun _ => rfl) hrun rfl hkeeps
  | hashGetAll key =>
    obtain ⟨l, s', hrun, hlisting, hkeeps⟩ := run_hashGetAll h (hhash key hk t (Nat.le_refl t))
    exact serves_reading hfits (fun _ => rfl) hrun ⟨l, rfl, hlisting⟩ hkeeps
  | hashDelete key field =>
    obtain ⟨s', hrun, hleaves⟩ := run_hashDelete h field (hhash key hk t (Nat.le_refl t))
    show S.Serves origin hashes texts t _ s ((perform _).run (S.answer (origin + t)) s)
    rw [hrun]
    exact ⟨rfl, without_fits hapart hleaves hfits hk,
      fun t' ht => without_shown hleaves (hhash key hk) ht⟩
  | hashDeleteIf key field expected =>
    obtain ⟨hreplied, hstate⟩ := run_hashDeleteIf h field expected
      (hhash key hk t (Nat.le_refl t))
    by_cases hfield : (hashOf (S.content s (origin + t) key)).lookup field = some expected
    · rw [if_pos hfield] at hstate
      refine ⟨hreplied, without_fits hapart hstate hfits hk, ?_⟩
      intro t' ht
      refine (without_shown hstate (hhash key hk) ht).trans ?_
      exact (if_pos hfield).symm
    · rw [if_neg hfield] at hstate
      refine ⟨hreplied, hstate.fits hfits, ?_⟩
      intro t' ht
      exact (hstate.outlook ht).trans (if_neg hfield).symm
  | put key value ttl =>
    obtain ⟨hkey, rfl⟩ := hk
    obtain ⟨s', hrun, hleaves⟩ := run_put h s key value hpos hn
    show S.Serves origin hashes texts t _ s ((perform _).run (S.answer (origin + t)) s)
    rw [hrun]
    constructor
    · rfl
    · exact hleaves.fits hfits (fun _ _ hhash => absurd hkey (hapart key hhash))
        fun _ _ _ => isText_if _
    · intro t' ht
      rw [hleaves.text_outlook ht (htext key hkey t' ht) (isText_if _)]
      simp only [Command.after, Duration.millis_ofMillis, Nat.add_assoc, Nat.add_lt_add_iff_left]
      congr 1
      split
      · rfl
      · rfl
  | get key =>
    obtain ⟨s', hrun, hkeeps⟩ := run_get h (htext key hk t (Nat.le_refl t))
    exact serves_reading hfits (fun _ => rfl) hrun rfl hkeeps
  | delete key =>
    obtain ⟨s', hrun, hleaves⟩ := run_delete h (origin + t) s key
    show S.Serves origin hashes texts t _ s ((perform _).run (S.answer (origin + t)) s)
    rw [hrun]
    constructor
    · have hsome : (S.content s (origin + t) key).isSome =
          (textOf (S.content s (origin + t) key)).isSome := by
        have hnow := htext key hk t (Nat.le_refl t)
        cases hv : S.content s (origin + t) key with
        | none => rfl
        | some v =>
          rw [hv] at hnow
          cases v with
          | text s => rfl
          | hash fields => exact hnow.elim
      exact congrArg Except.ok hsome
    · exact hleaves.fits hfits (fun _ _ _ => trivial) fun _ _ _ => trivial
    · intro t' ht
      exact hleaves.text_outlook ht (htext key hk t' ht) trivial
  | purgeExpired => exact ⟨⟨0, rfl⟩, hfits, fun _ _ => rfl⟩

/-- A server that works as it should keeps to the contract of a store, where no key serves for two
kinds of values and all is written for the same time, which its clock can count to. -/
theorem sound_backend (h : S.Obeys) (hapart : ∀ key, hashes key → ¬ texts key) {n : Nat}
    (hpos : 1 ≤ n) :
    (S.backend origin).Sound
      (fun t k => k.Uses hashes texts (.ofMillis n) ∧ origin + t + n ≤ lastTime)
      (S.Fits origin hashes texts) where
  later hfits ht := hfits.later ht
  kept hfits hk := (serves h hapart hpos hk.2 hfits hk.1).fits
  replied hfits hk := (serves h hapart hpos hk.2 hfits hk.1).replied
  shown hfits hk := (serves h hapart hpos hk.2 hfits hk.1).shown

end

end Server

end SessionGateway.Redis
