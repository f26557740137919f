import SessionGateway.Proofs.Cache.Mirror
import SessionGateway.Proofs.Entry

/-!
# Operations at an instant

What operations do to the texts that a reader finds, when they run alone while the clock stands
still and the store does not fail. A node writes over its own places and prunes what is stale there;
keys that it does not touch stay as they are.
-/

namespace SessionGateway

open Store (Memory)

namespace Cache

section

variable {α β : Type} {now : Duration} {wall : Int64} {m : Memory}

theorem ensuresAt_command {k : Store.Command} {Q : Except CacheError k.Answer → Memory → Prop}
    (hk : ¬ k.Lists) (h : Q (Memory.answer now k m).1 (Memory.answer now k m).2) :
    (command k).Ensures (AnswersAt now wall false) m Q := by
  rintro x m' (hx | ⟨⟨⟩, -⟩)
  obtain ⟨rfl, rfl⟩ := Memory.eq_of_carries hx hk
  exact h

theorem ensuresAt_hashGetAll {key : String}
    {Q : Except CacheError (List (String × String)) → Memory → Prop} (hhash : m.IsHash now key)
    (h : ∀ fields, fields.Perm (m.fieldsAt now key).entries → Q (.ok fields) m) :
    (command (.hashGetAll key)).Ensures (AnswersAt now wall false) m Q := by
  rintro x m' (⟨rfl, hx⟩ | ⟨⟨⟩, -⟩)
  rw [Memory.answer_hashGetAll hhash] at hx
  obtain ⟨e, ⟨⟩, -⟩ | ⟨_, fields, ⟨⟩, rfl, hperm⟩ := hx
  exact h fields hperm

theorem ensuresAt_now {f : Int64 → Operation β} {Q : Except CacheError β → Memory → Prop}
    (h : (f wall).Ensures (AnswersAt now wall false) m Q) :
    Operation.Ensures (AnswersAt now wall false) (wallClock >>= f) m Q := by
  rw [ensures_bind]
  rintro _ _ ⟨rfl, rfl⟩
  exact h

end

end Cache

namespace SessionCache

open Cache (AnswersAt Operation)

/-- The text, if any, at every place. -/
abbrev View : Type := Place → Option String

/-- One view over another. -/
def View.over (W V : View) : View := fun p => (W p).or (V p)

/-- A place in a hash that a node writes. -/
def Place.IsOwn (b : BrokerId) : Place → Prop
  | .user b' _ | .group b' _ => b' = b
  | .beat _ => True
  | .connection _ => False

/-- A memory shows a view at an instant. The hashes that a node writes are such, and whatever is
under a key that may not be touched is as in another memory, then and later. -/
structure Shows (c : SessionCache) (b : BrokerId) (now : Duration) (m₀ : Memory)
    (may : String → Prop) (V : View) (m : Memory) : Prop where
  isHash : ∀ p : Place, p.IsOwn b → m.IsHash now (p.key c)
  read : ∀ p : Place, p.read c m now = V p
  spared : ∀ key, ¬ may key → ∀ now', now ≤ now' → m.live? now' key = m₀.live? now' key

section

variable {c : SessionCache} {b : BrokerId} {now : Duration} {wall : Int64} {m₀ m : Memory}
  {may : String → Prop} {V : View} {p : Place} {field text : String}

theorem Place.isSome_field_of_isOwn (h : p.IsOwn b) : p.field?.isSome := by
  cases p with
  | user | group | beat => rfl
  | connection => exact h.elim

namespace Shows

/-- What a command makes of a view shows, if it makes it so under the keys that it changes. -/
theorem answer {k : Store.Command} {V' : View} (h : Shows c b now m₀ may V m)
    (hmay : ∀ key, k.Changes key → may key)
    (htext : ∀ p : Place, p.IsOwn b → ¬ k.PutsText (p.key c))
    (hchanged : ∀ p : Place, k.Changes (p.key c) → p.read c (Memory.answer now k m).2 now = V' p)
    (hsame : ∀ p : Place, ¬ k.Changes (p.key c) → V' p = V p) :
    Shows c b now m₀ may V' (Memory.answer now k m).2 where
  isHash p hp := (h.isHash p hp).answer (Duration.le_refl now) (htext p hp)
  read p := by
    by_cases hk : k.Changes (p.key c)
    · exact hchanged p hk
    · rw [Place.read_of_not_changes (Duration.le_refl now) hk, h.read, hsame p hk]
  spared key hkey now' hnow := by
    rw [Memory.live?_answer_of_not_changes hnow fun hk => hkey (hmay key hk)]
    exact h.spared key hkey now' hnow

theorem get? (h : Shows c b now m₀ may V m) (hf : p.field? = some field) :
    (m.fieldsAt now (p.key c)).get? field = V p := by
  rw [← Place.read_of_field hf, h.read]

theorem hashPut (h : Shows c b now m₀ may V m) (hf : p.field? = some field) (hown : p.IsOwn b)
    (hmay : may (p.key c)) (hlive : now < now + c.ttl) (text : String) :
    (Memory.answer now (.hashPut (p.key c) field text c.ttl) m).1 = .ok () ∧
      Shows c b now m₀ may (Function.update V p (some text))
        (Memory.answer now (.hashPut (p.key c) field text c.ttl) m).2 := by
  have hhash := h.isHash p hown
  refine ⟨congrArg Prod.fst (Memory.answer_hashPut hhash), h.answer ?_ (fun _ _ e => e) ?_ ?_⟩
  · rintro key rfl
    exact hmay
  · intro q hkey
    have hkey : p.key c = q.key c := hkey
    cases hg : q.field? with
    | none => exact absurd hkey (Place.key_ne (Place.isSome_field_of_isOwn hown) hg)
    | some field' =>
      rw [Place.read_hashPut hhash hf (by rw [hg]; rfl) hkey, if_pos hlive, h.read,
        Function.update_apply]
  · intro q hq
    exact Function.update_of_ne (fun e => hq (by rw [e]; exact rfl)) _ _

theorem put (h : Shows c b now m₀ may V m) {id : ConnectionId} (hmay : may (c.connectionKey id))
    (hlive : now < now + c.ttl) (text : String) :
    Shows c b now m₀ may (Function.update V (.connection id) (some text))
      (Memory.answer now (.put (c.connectionKey id) text c.ttl) m).2 := by
  refine h.answer ?_ ?_ ?_ ?_
  · rintro key rfl
    exact hmay
  · intro q hq hkey
    exact Place.key_ne (c := c) (q := .connection id) (Place.isSome_field_of_isOwn hq) rfl hkey.symm
  · intro q hkey
    obtain rfl : q = .connection id := Place.eq_connection_of_key hkey
    rw [Function.update_self]
    exact Memory.textAt_put.trans (if_pos hlive)
  · intro q hq
    exact Function.update_of_ne (fun e => hq (by rw [e]; exact rfl)) _ _

theorem hashDeleteIf (h : Shows c b now m₀ may V m) (hf : p.field? = some field)
    (hown : p.IsOwn b) (hmay : may (p.key c)) (hfound : V p = some text) :
    (Memory.answer now (.hashDeleteIf (p.key c) field text) m).1 = .ok true ∧
      Shows c b now m₀ may (Function.update V p none)
        (Memory.answer now (.hashDeleteIf (p.key c) field text) m).2 := by
  have hhash := h.isHash p hown
  have hread : p.read c m now = some text := (h.read p).trans hfound
  constructor
  · refine (Memory.deleteField_fst hhash).trans ?_
    rw [← Place.read_of_field hf, hread, Option.any_some, decide_eq_true rfl]
  · refine h.answer ?_ (fun _ _ e => e) ?_ ?_
    · rintro key rfl
      exact hmay
    · intro q hkey
      have hkey : p.key c = q.key c := hkey
      cases hg : q.field? with
      | none => exact absurd hkey (Place.key_ne (Place.isSome_field_of_isOwn hown) hg)
      | some field' =>
        refine (Place.read_deleteField (· = text) hhash hf (by rw [hg]; rfl) hkey
          (Duration.le_refl now)).trans ?_
        rw [hread, Option.any_some, decide_eq_true rfl, h.read, Function.update_apply]
        simp only [and_true]
    · intro q hq
      exact Function.update_of_ne (fun e => hq (by rw [e]; exact rfl)) _ _

theorem purge (h : Shows c b now m₀ may V m) :
    Shows c b now m₀ may V (Memory.answer now .purgeExpired m).2 :=
  h.answer (fun _ e => e.elim) (fun _ _ e => e) (fun _ e => e.elim) fun _ _ => rfl

end Shows

/-! ### Writing -/

/-- What publishing a user puts at every place. -/
def userTexts (stamp : Int64) (e : UserEntry) : View := fun p =>
  if p = .connection e.connection then some e.toJson.render
  else if p = .user e.owner (userField e.userId) then some (Stamped.render e.members stamp)
  else none

/-- What publishing a group puts at every place. -/
def groupTexts (stamp : Int64) (e : GroupEntry) : View := fun p =>
  if p = .group e.owner e.group then some (Stamped.render e.members stamp) else none

namespace Shows

theorem ensures_registerBroker (h : Shows c b now m₀ may V m) (hmay : may c.brokersKey)
    (hlive : now < now + c.ttl) :
    (c.registerBroker b).Ensures (AnswersAt now wall false) m fun r m' => r = .ok () ∧
      Shows c b now m₀ may (Function.update V (.beat b) (some (toString wall.toInt))) m' :=
  Cache.ensuresAt_now (Cache.ensuresAt_command (fun e => e)
    (h.hashPut (p := .beat b) rfl trivial hmay hlive (toString wall.toInt)))

theorem ensures_refreshGroup (h : Shows c b now m₀ may V m) (hmay : may (c.groupBucket b))
    (hlive : now < now + c.ttl) {e : GroupEntry} (he : e.owner = b) :
    (c.refreshGroup e).Ensures (AnswersAt now wall false) m fun r m' => r = .ok () ∧
      Shows c b now m₀ may ((groupTexts (c.stampAt wall) e).over V) m' := by
  have hover : (groupTexts (c.stampAt wall) e).over V =
      Function.update V (.group e.owner e.group)
        (some (Stamped.render e.members (c.stampAt wall))) := by
    funext p
    rw [View.over, groupTexts, Function.update_apply]
    split <;> rfl
  rw [hover]
  exact Cache.ensuresAt_now (Cache.ensuresAt_command (fun e => e)
    (h.hashPut (p := .group e.owner e.group) rfl he (by rw [Place.key, he]; exact hmay) hlive _))

theorem ensures_publishUser (h : Shows c b now m₀ may V m) (hlive : now < now + c.ttl)
    {e : UserEntry} (he : e.owner = b) (hmay : may (c.userBucket b))
    (hmay' : may (c.connectionKey e.connection)) :
    (c.publishUser e).Ensures (AnswersAt now wall false) m fun r m' => r = .ok () ∧
      Shows c b now m₀ may ((userTexts (c.stampAt wall) e).over V) m' := by
  have hover : (userTexts (c.stampAt wall) e).over V =
      Function.update (Function.update V (.user e.owner (userField e.userId))
        (some (Stamped.render e.members (c.stampAt wall)))) (.connection e.connection)
          (some e.toJson.render) := by
    funext p
    rw [View.over, userTexts, Function.update_apply, Function.update_apply]
    split
    · rfl
    · split <;> rfl
  have hput := h.hashPut (p := .user e.owner (userField e.userId)) rfl he
    (by rw [Place.key, he]; exact hmay) hlive (Stamped.render e.members (c.stampAt wall))
  rw [publishUser, Cache.ensures_bind, hover]
  refine Cache.ensuresAt_now (Cache.ensuresAt_command (fun e => e) ?_)
  obtain ⟨hok, hshows⟩ := hput
  simp only [Place.key] at hok hshows
  rw [hok]
  exact Cache.ensuresAt_command (fun e => e) ⟨rfl, hshows.put hmay' hlive _⟩

theorem ensures_purge (h : Shows c b now m₀ may V m) :
    purgeStore.Ensures (AnswersAt now wall false) m fun r m' => (∃ n, r = .ok n) ∧
      Shows c b now m₀ may V m' :=
  Cache.ensuresAt_command (fun e => e) ⟨⟨_, rfl⟩, h.purge⟩

end Shows

/-! ### Pruning -/

/-- A view without the stale ones among some fields. -/
def View.without (V : View) (place : String → Place) (wall : Int64)
    (found : List (String × String)) : View := fun p =>
  bif found.any fun e => place e.1 = p && isStale wall e.2 then none else V p

/-- A view without the stale fields in the buckets of a node. -/
def View.pruned (V : View) (b : BrokerId) (wall : Int64) : View
  | .user b' field =>
    if b' = b then (V (.user b' field)).filter fun text => !isStale wall text
    else V (.user b' field)
  | .group b' field =>
    if b' = b then (V (.group b' field)).filter fun text => !isStale wall text
    else V (.group b' field)
  | .beat b' => V (.beat b')
  | .connection id => V (.connection id)

/-- How many fields of a table are stale. -/
def staleCount (wall : Int64) (fields : Table String String) : Nat :=
  fields.entries.countP fun e => isStale wall e.2

section

variable {place : String → Place} {found : List (String × String)}

theorem View.without_cons (e : String × String) :
    V.without place wall (e :: found) =
      View.without (if isStale wall e.2 then Function.update V (place e.1) none else V) place wall
        found := by
  funext p
  simp only [without, List.any_cons]
  cases found.any fun e => place e.1 = p && isStale wall e.2 with
  | true => rw [Bool.or_true, cond_true, cond_true]
  | false =>
    rw [Bool.or_false, cond_false]
    cases isStale wall e.2 with
    | true =>
      rw [Bool.and_true, if_pos rfl, Function.update_apply]
      simp only [Bool.cond_decide, eq_comm]
    | false => rw [Bool.and_false, cond_false, if_neg Bool.false_ne_true]

theorem View.without_of_ne (h : ∀ field, place field ≠ p) : V.without place wall found p = V p := by
  have hany : (found.any fun e => place e.1 = p && isStale wall e.2) = false := by
    simp [h]
  rw [without, hany, cond_false]

theorem View.without_apply (hplace : Function.Injective place)
    (hfound : ∀ field text, (field, text) ∈ found ↔ V (place field) = some text) (field : String) :
    V.without place wall found (place field) =
      (V (place field)).filter fun text => !isStale wall text := by
  have hany : (found.any fun e => place e.1 = place field && isStale wall e.2) =
      (V (place field)).any fun text => isStale wall text := by
    rw [Bool.eq_iff_iff, List.any_eq_true, Option.any_eq_true]
    simp only [Bool.and_eq_true, decide_eq_true_eq, Prod.exists]
    constructor
    · rintro ⟨field', text, hmem, heq, hstale⟩
      obtain rfl := hplace heq
      exact ⟨text, (hfound _ _).mp hmem, hstale⟩
    · rintro ⟨text, htext, hstale⟩
      exact ⟨field, text, (hfound _ _).mpr htext, rfl, hstale⟩
  rw [without, hany]
  cases hV : V (place field) with
  | none => rfl
  | some text =>
    rw [Option.any_some, Option.filter_some]
    cases isStale wall text <;> rfl

namespace Shows

theorem ensures_pruneAmong (h : Shows c b now m₀ may V m) (hplace : Function.Injective place)
    {key : String} (hkey : ∀ field, (place field).key c = key)
    (hfield : ∀ field, (place field).field? = some field) (hown : ∀ field, (place field).IsOwn b)
    (hmay : may key) (hdistinct : (found.map Prod.fst).Nodup)
    (hfound : ∀ e ∈ found, V (place e.1) = some e.2) :
    (pruneAmong key wall found).Ensures (AnswersAt now wall false) m fun r m' =>
      r = .ok (found.countP fun e => isStale wall e.2) ∧
        Shows c b now m₀ may (V.without place wall found) m' := by
  induction found generalizing V m with
  | nil => exact ⟨rfl, h⟩
  | cons e rest ih =>
    obtain ⟨field, text⟩ := e
    rw [List.map_cons, List.nodup_cons] at hdistinct
    obtain ⟨htext, hfound⟩ := List.forall_mem_cons.mp hfound
    have hrest : ∀ (gone : Bool) {V m}, Shows c b now m₀ may V m →
        (∀ e ∈ rest, V (place e.1) = some e.2) →
        Operation.Ensures (AnswersAt now wall false)
          (do
            let others ← pruneAmong key wall rest
            return (if gone then 1 else 0) + others) m fun r m' =>
          r = .ok ((if gone then 1 else 0) + rest.countP fun e => isStale wall e.2) ∧
            Shows c b now m₀ may (V.without place wall rest) m' := by
      intro gone V m h hfound
      rw [Cache.ensures_bind]
      refine (ih h hdistinct.2 hfound).mono ?_
      rintro _ m' ⟨rfl, hshows⟩
      exact ⟨rfl, hshows⟩
    rw [pruneAmong]
    split
    · next hstale =>
      have hdelete := h.hashDeleteIf (hfield field) (hown field) (by rw [hkey]; exact hmay) htext
      rw [hkey] at hdelete
      obtain ⟨hok, hshows⟩ := hdelete
      rw [Cache.ensures_bind]
      refine Cache.ensuresAt_command (fun e => e) ?_
      rw [hok]
      refine (hrest true hshows ?_).mono ?_
      · -- each field was listed once, so those that follow still hold what was read
        intro e he
        rw [Function.update_of_ne]
        · exact hfound e he
        · intro heq
          exact hdistinct.1 (List.mem_map.mpr ⟨e, he, hplace heq⟩)
      · rintro _ m' ⟨rfl, hshows'⟩
        refine ⟨?_, ?_⟩
        · rw [List.countP_cons, if_pos hstale, if_pos rfl, Nat.add_comm]
        · rw [View.without_cons, if_pos hstale]
          exact hshows'
    · next hstale =>
      refine (hrest false h hfound).mono ?_
      rintro _ m' ⟨rfl, hshows'⟩
      refine ⟨?_, ?_⟩
      · rw [List.countP_cons, if_neg hstale, if_neg Bool.false_ne_true, Nat.zero_add, Nat.add_zero]
      · rw [View.without_cons, if_neg hstale]
        exact hshows'

/-- Pruning what was listed of one hash of a node. -/
theorem ensures_pruneHash (h : Shows c b now m₀ may V m) (hplace : Function.Injective place)
    {key : String} (hkey : ∀ field, (place field).key c = key)
    (hfield : ∀ field, (place field).field? = some field) (hown : ∀ field, (place field).IsOwn b)
    (hmay : may key) :
    Operation.Ensures (AnswersAt now wall false)
      (do
        let found ← Cache.command (.hashGetAll key)
        pruneAmong key wall found) m fun r m' =>
      r = .ok (staleCount wall (m.fieldsAt now key)) ∧ ∃ V', Shows c b now m₀ may V' m' ∧
        (∀ field, V' (place field) = (V (place field)).filter fun text => !isStale wall text) ∧
        ∀ p, (∀ field, place field ≠ p) → V' p = V p := by
  have hhash : m.IsHash now key := hkey "" ▸ h.isHash _ (hown "")
  rw [Cache.ensures_bind]
  refine Cache.ensuresAt_hashGetAll hhash fun found hperm => ?_
  have hmem : ∀ field text, (field, text) ∈ found ↔ V (place field) = some text := by
    intro field text
    rw [hperm.mem_iff, Table.mem_entries_iff, ← h.get? (hfield field), hkey]
  have hdistinct : (found.map Prod.fst).Nodup :=
    (hperm.map Prod.fst).nodup_iff.mpr (m.fieldsAt now key).distinct
  refine (h.ensures_pruneAmong hplace hkey hfield hown hmay hdistinct
    fun e he => (hmem e.1 e.2).mp he).mono ?_
  rintro _ m' ⟨rfl, hshows⟩
  exact ⟨by rw [hperm.countP_eq, staleCount], _, hshows, View.without_apply hplace hmem,
    fun p hp => View.without_of_ne hp⟩

theorem ensures_prune (h : Shows c b now m₀ may V m) (hgroups : may (c.groupBucket b))
    (husers : may (c.userBucket b)) :
    (c.prune b).Ensures (AnswersAt now wall false) m fun r m' =>
      r = .ok (staleCount wall (m.fieldsAt now (c.groupBucket b)) +
        staleCount wall (m.fieldsAt now (c.userBucket b))) ∧
      Shows c b now m₀ may (V.pruned b wall) m' := by
  have hplaceGroup : Function.Injective (Place.group b) := fun _ _ e => (Place.group.inj e).2
  have hplaceUser : Function.Injective (Place.user b) := fun _ _ e => (Place.user.inj e).2
  refine Cache.ensuresAt_now ?_
  rw [← bind_assoc, Cache.ensures_bind]
  refine (h.ensures_pruneHash hplaceGroup (fun _ => rfl) (fun _ => rfl) (fun _ => rfl)
    hgroups).mono ?_
  rintro _ m₁ ⟨rfl, V₁, h₁, hgroup, hsame₁⟩
  show Operation.Ensures _ (Cache.command _ >>= _) _ _
  rw [← bind_assoc, Cache.ensures_bind]
  refine (h₁.ensures_pruneHash hplaceUser (fun _ => rfl) (fun _ => rfl) (fun _ => rfl)
    husers).mono ?_
  rintro _ m₂ ⟨rfl, V₂, h₂, huser, hsame₂⟩
  have husers₁ : ∀ b' field, V₁ (.user b' field) = V (.user b' field) :=
    fun b' field => hsame₁ (.user b' field) fun _ => by rintro ⟨⟩
  have hgroups₂ : ∀ b' field, V₂ (.group b' field) = V₁ (.group b' field) :=
    fun b' field => hsame₂ (.group b' field) fun _ => by rintro ⟨⟩
  have hcount : staleCount wall (m₁.fieldsAt now (c.userBucket b)) =
      staleCount wall (m.fieldsAt now (c.userBucket b)) := by
    refine (Table.perm_entries fun field => ?_).countP_eq _
    have hread₁ := h₁.get? (p := .user b field) rfl
    have hread := h.get? (p := .user b field) rfl
    simp only [Place.key] at hread₁ hread
    rw [hread₁, hread, husers₁]
  have hview : V₂ = V.pruned b wall := by
    funext p
    cases p with
    | user b' field =>
      by_cases hb : b' = b
      · rw [hb, huser, husers₁, View.pruned, if_pos rfl]
      · rw [hsame₂ _ fun _ e => hb (Place.user.inj e).1.symm, husers₁, View.pruned, if_neg hb]
    | group b' field =>
      by_cases hb : b' = b
      · rw [hb, hgroups₂, hgroup, View.pruned, if_pos rfl]
      · rw [hgroups₂, hsame₁ _ fun _ e => hb (Place.group.inj e).1.symm, View.pruned, if_neg hb]
    | beat b' =>
      rw [hsame₂ (.beat b') fun _ => by rintro ⟨⟩, hsame₁ (.beat b') fun _ => by rintro ⟨⟩]
      rfl
    | connection id =>
      rw [hsame₂ (.connection id) fun _ => by rintro ⟨⟩,
        hsame₁ (.connection id) fun _ => by rintro ⟨⟩]
      rfl
  rw [← hcount, ← hview]
  exact ⟨rfl, h₂⟩

end Shows

end

end

end SessionCache

end SessionGateway
