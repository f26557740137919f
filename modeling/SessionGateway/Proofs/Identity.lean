import SessionGateway.Identity.Response
import SessionGateway.Proofs.Text.Numeral

/-!
# Principals in responses

Which principal a response body describes does not depend on how the identity service lays it out:
where the object with the user's details stands, under which of its names a member is, whether an id
is an integer or a text, and what else there is. Every body that describes none is refused, with the
first thing that it lacks.
-/

namespace SessionGateway.Identity

/-! ### Ids -/

/-- The ways to give an id: as an integer, or as its decimal text between blanks, where a plus sign
may stand before a number that is not negative. -/
inductive Spelling (n : Int64) : Json → Prop
  | integer : Spelling n (.int n.toInt)
  | text {before after : List Char} {plus : Bool}
      (blankBefore : ∀ c ∈ before, Text.isBlank c = true)
      (blankAfter : ∀ c ∈ after, Text.isBlank c = true) (sign : plus = true → 0 ≤ n.toInt) :
      Spelling n (.text (.ofList (before ++
        ((if plus then ['+'] else []) ++ (toString n.toInt).toList ++ after))))

/-- What can be made use of as an id: an integer of 64 bits, or the text of one. -/
inductive Usable (n : Int64) : Json → Prop
  | integer : Usable n (.int n.toInt)
  | text {s : String} (padded : Text.Padded s.toList n.toInt) : Usable n (.text s)

theorem Spelling.usable {n : Int64} {j : Json} (h : Spelling n j) : Usable n j := by
  cases h with
  | integer => exact .integer
  | text blankBefore blankAfter sign =>
    refine .text ⟨_, _, _, ?_, blankBefore, blankAfter, Text.numeral_toString sign⟩
    rw [String.toList_ofList]

theorem idOf?_eq_some_iff {j : Json} {n : Int64} : idOf? j = some n ↔ Usable n j := by
  constructor
  · intro h
    rw [idOf?.eq_def] at h
    split at h
    · obtain rfl := Text.int64OfInt?_eq_some_iff.mp h
      exact .integer
    · exact .text (Text.int64?_trimChars_eq_some_iff.mp h)
    · cases h
  · intro h
    cases h with
    | integer => exact Text.int64OfInt?_toInt n
    | text padded => exact Text.int64?_trimChars_eq_some_iff.mpr padded

/-! ### Members -/

/-- A member of an object gives an id, in one of some ways. -/
def Gives (ways : Int64 → Json → Prop) (d : Json) (key : String) (n : Int64) : Prop :=
  ∃ j, d.get? key = some j ∧ ways n j

/-- There is no member under a key that can be made use of as an id. -/
def Lacks (d : Json) (key : String) : Prop := ∀ n, ¬ Gives Usable d key n

section

variable {ways : Int64 → Json → Prop} {d body : Json} {key : String} {keys : List String}
  {n : Int64} {p : Principal}

theorem gives_iff : Gives Usable d key n ↔ (d.get? key).bind idOf? = some n := by
  rw [Option.bind_eq_some_iff]
  exact exists_congr fun j => and_congr_right fun _ => idOf?_eq_some_iff.symm

theorem lacks_iff : Lacks d key ↔ (d.get? key).bind idOf? = none := by
  rw [Option.eq_none_iff_forall_ne_some]
  exact forall_congr' fun n => not_congr gives_iff

/-- The first key counts under which there is anything to be made use of. -/
theorem firstId?_cons_eq_some_iff : firstId? d (key :: keys) = some n ↔
    Gives Usable d key n ∨ Lacks d key ∧ firstId? d keys = some n := by
  rw [gives_iff, lacks_iff, firstId?, firstId?, List.findSome?_cons]
  cases (d.get? key).bind idOf? with
  | none => simp
  | some m => simp

theorem firstId?_eq_none_iff : firstId? d keys = none ↔ ∀ key ∈ keys, Lacks d key := by
  rw [firstId?, List.findSome?_eq_none_iff]
  exact forall_congr' fun key => imp_congr_right fun _ => lacks_iff.symm

/-! ### The object with the user's details -/

variable (d) in
/-- An object tells something under the user id's key, whether it can be made use of or not. -/
def MentionsUser : Prop := ∃ j, d.get? "userId" = some j

/-- The object with the user's details: the one under `details`, else the one under `principal`, if
it mentions a user id, and else the body itself. -/
inductive Chosen (body : Json) : Json → Prop
  | details {d : Json} (there : body.get? "details" = some d) (mentions : MentionsUser d) :
      Chosen body d
  | principal {d : Json} (decoy : ∀ d', body.get? "details" = some d' → ¬ MentionsUser d')
      (there : body.get? "principal" = some d) (mentions : MentionsUser d) : Chosen body d
  | body (decoy : ∀ d', body.get? "details" = some d' → ¬ MentionsUser d')
      (decoy' : ∀ d', body.get? "principal" = some d' → ¬ MentionsUser d') : Chosen body body

theorem detailsUnder?_eq_some_iff :
    detailsUnder? body key = some d ↔ body.get? key = some d ∧ MentionsUser d := by
  rw [detailsUnder?, Option.filter_eq_some_iff, Option.isSome_iff_exists]
  rfl

theorem detailsUnder?_eq_none_iff :
    detailsUnder? body key = none ↔ ∀ d, body.get? key = some d → ¬ MentionsUser d := by
  rw [Option.eq_none_iff_forall_ne_some]
  exact forall_congr' fun d => by rw [Ne, detailsUnder?_eq_some_iff, not_and]

theorem chosen_iff : Chosen body d ↔ d = detailsOf body := by
  have hdetails : detailsOf body =
      ((detailsUnder? body "details").or (detailsUnder? body "principal")).getD body := by
    rw [detailsOf, List.findSome?_cons]
    cases detailsUnder? body "details" with
    | some d' => rfl
    | none =>
      rw [List.findSome?_cons]
      cases detailsUnder? body "principal" <;> rfl
  rw [hdetails]
  constructor
  · intro h
    cases h with
    | details there mentions => rw [detailsUnder?_eq_some_iff.mpr ⟨there, mentions⟩]; rfl
    | principal decoy there mentions =>
      rw [detailsUnder?_eq_none_iff.mpr decoy, detailsUnder?_eq_some_iff.mpr ⟨there, mentions⟩]
      rfl
    | body decoy decoy' =>
      rw [detailsUnder?_eq_none_iff.mpr decoy, detailsUnder?_eq_none_iff.mpr decoy']
      rfl
  · rintro rfl
    cases hfirst : detailsUnder? body "details" with
    | some d' =>
      obtain ⟨there, mentions⟩ := detailsUnder?_eq_some_iff.mp hfirst
      exact .details there mentions
    | none =>
      have decoy := detailsUnder?_eq_none_iff.mp hfirst
      cases hsecond : detailsUnder? body "principal" with
      | some d' =>
        obtain ⟨there, mentions⟩ := detailsUnder?_eq_some_iff.mp hsecond
        exact .principal decoy there mentions
      | none => exact .body decoy (detailsUnder?_eq_none_iff.mp hsecond)

/-! ### Principals -/

/-- There is no text under a key. -/
def Wordless (d : Json) (key : String) : Prop := ∀ s, d.get? key ≠ some (.text s)

/-- An object describes a principal, its ids given in one of some ways. A second name of a member
counts where nothing can be made of the first. -/
structure Describes (ways : Int64 → Json → Prop) (d : Json) (p : Principal) : Prop where
  user : Gives ways d "userId" p.userId
  tenant : Gives ways d "tenantId" p.tenantId ∨
    Lacks d "tenantId" ∧ Gives ways d "organizationId" p.tenantId
  role : ∀ r, p.roleId = some r → Gives ways d "roleId" r
  noRole : p.roleId = none → Lacks d "roleId"
  username : ∀ name, p.username = some name → d.get? "username" = some (.text name) ∨
    Wordless d "username" ∧ d.get? "user_name" = some (.text name)
  noUsername : p.username = none → Wordless d "username" ∧ Wordless d "user_name"
  /-- Whoever asked knows the credential. -/
  credential : p.credential = ""

/-- What a body lacks first, as it is reported. -/
inductive Amiss (body : Json) : String → Prop
  | body (h : body.members? = none) : Amiss body "response is not an object"
  | user {d : Json} (object : body.members?.isSome = true) (chosen : Chosen body d)
      (lacks : Lacks d "userId") : Amiss body "missing userId"
  | tenant {d : Json} {n : Int64} (object : body.members?.isSome = true) (chosen : Chosen body d)
      (user : Gives Usable d "userId" n) (lacks : Lacks d "tenantId")
      (lacks' : Lacks d "organizationId") : Amiss body "missing tenantId"

theorem firstId?_one_eq_some_iff : firstId? d [key] = some n ↔ Gives Usable d key n := by
  rw [firstId?_cons_eq_some_iff]
  constructor
  · rintro (h | ⟨-, h⟩)
    · exact h
    · cases h
  · exact .inl

theorem firstId?_one_eq_none_iff : firstId? d [key] = none ↔ Lacks d key := by
  rw [firstId?_eq_none_iff, List.forall_mem_singleton]

/-- The tenant's id, under either of its names. -/
theorem tenantId?_eq_some_iff : firstId? d ["tenantId", "organizationId"] = some n ↔
    Gives Usable d "tenantId" n ∨ Lacks d "tenantId" ∧ Gives Usable d "organizationId" n := by
  rw [firstId?_cons_eq_some_iff, firstId?_one_eq_some_iff]

theorem tenantId?_eq_none_iff : firstId? d ["tenantId", "organizationId"] = none ↔
    Lacks d "tenantId" ∧ Lacks d "organizationId" := by
  rw [firstId?_eq_none_iff, List.forall_mem_cons, List.forall_mem_singleton]

theorem text?_eq_some_iff {s : String} :
    (d.get? key).bind Json.text? = some s ↔ d.get? key = some (.text s) := by
  rw [Option.bind_eq_some_iff]
  constructor
  · rintro ⟨j, hj, hs⟩
    cases j with
    | text s' => rwa [← Option.some.inj hs]
    | null | bool | number | array | object => cases hs
  · exact fun h => ⟨_, h, rfl⟩

theorem text?_eq_none_iff : (d.get? key).bind Json.text? = none ↔ Wordless d key := by
  rw [Option.eq_none_iff_forall_ne_some]
  exact forall_congr' fun s => not_congr text?_eq_some_iff

/-- The user's name, under either of its names. -/
def usernameOf (d : Json) : Option String :=
  ["username", "user_name"].findSome? fun k => (d.get? k).bind Json.text?

theorem usernameOf_eq_some_iff {name : String} : usernameOf d = some name ↔
    d.get? "username" = some (.text name) ∨
      Wordless d "username" ∧ d.get? "user_name" = some (.text name) := by
  rw [usernameOf, List.findSome?_cons]
  cases hfirst : (d.get? "username").bind Json.text? with
  | some first =>
    have hthere := text?_eq_some_iff.mp hfirst
    rw [hthere]
    constructor
    · rintro ⟨⟩
      exact .inl rfl
    · rintro (h | ⟨h, -⟩)
      · cases h
        rfl
      · exact absurd hthere (h first)
  | none =>
    have hnone := text?_eq_none_iff.mp hfirst
    rw [List.findSome?_cons, ← @text?_eq_some_iff d "user_name"]
    constructor
    · intro h
      refine .inr ⟨hnone, ?_⟩
      cases hsecond : (d.get? "user_name").bind Json.text? with
      | some second => rwa [hsecond] at h
      | none => rw [hsecond] at h; cases h
    · rintro (h | ⟨-, h⟩)
      · exact absurd h (hnone name)
      · rw [h]

theorem usernameOf_eq_none_iff :
    usernameOf d = none ↔ Wordless d "username" ∧ Wordless d "user_name" := by
  rw [usernameOf, List.findSome?_eq_none_iff, List.forall_mem_cons, List.forall_mem_singleton,
    text?_eq_none_iff, text?_eq_none_iff]

theorem describes_iff : Describes Usable d p ↔ firstId? d ["userId"] = some p.userId ∧
    firstId? d ["tenantId", "organizationId"] = some p.tenantId ∧
    firstId? d ["roleId"] = p.roleId ∧ usernameOf d = p.username ∧ p.credential = "" := by
  constructor
  · intro h
    refine ⟨firstId?_one_eq_some_iff.mpr h.user, tenantId?_eq_some_iff.mpr h.tenant, ?_, ?_,
      h.credential⟩
    · cases hrole : p.roleId with
      | some r => exact firstId?_one_eq_some_iff.mpr (h.role r hrole)
      | none => exact firstId?_one_eq_none_iff.mpr (h.noRole hrole)
    · cases hname : p.username with
      | some name => exact usernameOf_eq_some_iff.mpr (h.username name hname)
      | none => exact usernameOf_eq_none_iff.mpr (h.noUsername hname)
  · rintro ⟨huser, htenant, hrole, hname, hcredential⟩
    exact {
      user := firstId?_one_eq_some_iff.mp huser
      tenant := tenantId?_eq_some_iff.mp htenant
      role := fun r hr => firstId?_one_eq_some_iff.mp (hrole.trans hr)
      noRole := fun hr => firstId?_one_eq_none_iff.mp (hrole.trans hr)
      username := fun name hn => usernameOf_eq_some_iff.mp (hname.trans hn)
      noUsername := fun hn => usernameOf_eq_none_iff.mp (hname.trans hn)
      credential := hcredential }

theorem Describes.usable (h : Describes Spelling d p) : Describes Usable d p := by
  have hgives : ∀ {key n}, Gives Spelling d key n → Gives Usable d key n := by
    rintro key n ⟨j, hj, hspelling⟩
    exact ⟨j, hj, hspelling.usable⟩
  exact {
    user := hgives h.user
    tenant := h.tenant.imp hgives fun h' => ⟨h'.1, hgives h'.2⟩
    role := fun r hr => hgives (h.role r hr)
    noRole := h.noRole
    username := h.username
    noUsername := h.noUsername
    credential := h.credential }

theorem principalOf_eq_ok_iff :
    principalOf body = .ok p ↔
      body.members?.isSome = true ∧ Describes Usable (detailsOf body) p := by
  rw [principalOf, describes_iff]
  cases body.members? with
  | none => simp
  | some members =>
    dsimp only
    cases firstId? (detailsOf body) ["userId"] with
    | none => simp
    | some userId =>
      cases firstId? (detailsOf body) ["tenantId", "organizationId"] with
      | none => simp
      | some tenantId =>
        constructor
        · intro h
          obtain rfl := Except.ok.inj h
          exact ⟨rfl, rfl, rfl, rfl, rfl, rfl⟩
        · obtain ⟨userId', tenantId', roleId, username, credential⟩ := p
          rintro ⟨-, huser, htenant, hrole, hname, hcredential⟩
          obtain rfl := Option.some.inj huser
          obtain rfl := Option.some.inj htenant
          dsimp only at hrole hname hcredential
          rw [← hrole, ← hname, hcredential]
          rfl

theorem principalOf_eq_error_iff {e : Error} :
    principalOf body = .error e ↔ ∃ reason, e = .noPrincipal reason ∧ Amiss body reason := by
  constructor
  · intro h
    rw [principalOf] at h
    cases hbody : body.members? with
    | none =>
      rw [hbody] at h
      exact ⟨_, (Except.error.inj h).symm, .body hbody⟩
    | some members =>
      have hobject : body.members?.isSome = true := by rw [hbody, Option.isSome_some]
      rw [hbody] at h
      dsimp only at h
      cases huser : firstId? (detailsOf body) ["userId"] with
      | none =>
        rw [huser] at h
        exact ⟨_, (Except.error.inj h).symm,
          .user hobject (chosen_iff.mpr rfl) (firstId?_one_eq_none_iff.mp huser)⟩
      | some userId =>
        rw [huser] at h
        dsimp only at h
        cases htenant : firstId? (detailsOf body) ["tenantId", "organizationId"] with
        | none =>
          obtain ⟨hlacks, hlacks'⟩ := tenantId?_eq_none_iff.mp htenant
          rw [htenant] at h
          exact ⟨_, (Except.error.inj h).symm, .tenant hobject (chosen_iff.mpr rfl)
            (firstId?_one_eq_some_iff.mp huser) hlacks hlacks'⟩
        | some tenantId =>
          rw [htenant] at h
          cases h
  · rintro ⟨reason, rfl, hamiss⟩
    rw [principalOf]
    cases hamiss with
    | body h => rw [h]
    | @user d object chosen lacks =>
      obtain rfl := chosen_iff.mp chosen
      obtain ⟨members, hmembers⟩ := Option.isSome_iff_exists.mp object
      rw [hmembers]
      dsimp only
      rw [firstId?_one_eq_none_iff.mpr lacks]
    | @tenant d n object chosen user lacks lacks' =>
      obtain rfl := chosen_iff.mp chosen
      obtain ⟨members, hmembers⟩ := Option.isSome_iff_exists.mp object
      rw [hmembers]
      dsimp only
      rw [firstId?_one_eq_some_iff.mpr user]
      dsimp only
      rw [tenantId?_eq_none_iff.mpr ⟨lacks, lacks'⟩]

/-- Something is amiss with exactly those bodies that are no objects or whose details give no user
id or no tenant's id to be made use of. -/
theorem exists_amiss_iff : (∃ reason, Amiss body reason) ↔
    body.members? = none ∨ ∃ d, Chosen body d ∧
      (Lacks d "userId" ∨ Lacks d "tenantId" ∧ Lacks d "organizationId") := by
  constructor
  · rintro ⟨reason, h⟩
    cases h with
    | body h => exact .inl h
    | user object chosen lacks => exact .inr ⟨_, chosen, .inl lacks⟩
    | tenant object chosen user lacks lacks' => exact .inr ⟨_, chosen, .inr ⟨lacks, lacks'⟩⟩
  · intro h
    cases hbody : body.members? with
    | none => exact ⟨_, .body hbody⟩
    | some members =>
      have hobject : body.members?.isSome = true := by rw [hbody, Option.isSome_some]
      obtain hnone | ⟨d, chosen, hlacks⟩ := h
      · rw [hbody] at hnone
        cases hnone
      · cases huser : firstId? d ["userId"] with
        | none => exact ⟨_, .user hobject chosen (firstId?_one_eq_none_iff.mp huser)⟩
        | some n =>
          have hgives := firstId?_one_eq_some_iff.mp huser
          obtain ⟨hlacks, hlacks'⟩ := hlacks.resolve_left fun h => h n hgives
          exact ⟨_, .tenant hobject chosen hgives hlacks hlacks'⟩

end

/-- A principal is read from exactly the bodies that describe it, however each part is given, and
every other body is refused for what it lacks first. -/
theorem principalOf_exact (body : Json) :
    (∀ d p, body.members?.isSome = true → Chosen body d → Describes Spelling d p →
      principalOf body = .ok p) ∧
    (∀ p, principalOf body = .ok p ↔
      body.members?.isSome = true ∧ ∃ d, Chosen body d ∧ Describes Usable d p) ∧
    (∀ e, principalOf body = .error e ↔ ∃ reason, e = .noPrincipal reason ∧ Amiss body reason) ∧
    ((∃ e, principalOf body = .error e) ↔ body.members? = none ∨ ∃ d, Chosen body d ∧
      (Lacks d "userId" ∨ Lacks d "tenantId" ∧ Lacks d "organizationId")) := by
  refine ⟨?_, ?_, fun _ => principalOf_eq_error_iff, ?_⟩
  · rintro d p hobject chosen hdescribes
    obtain rfl := chosen_iff.mp chosen
    exact principalOf_eq_ok_iff.mpr ⟨hobject, hdescribes.usable⟩
  · intro p
    rw [principalOf_eq_ok_iff]
    refine and_congr_right fun _ => ?_
    constructor
    · exact fun h => ⟨_, chosen_iff.mpr rfl, h⟩
    · rintro ⟨d, chosen, h⟩
      rwa [← chosen_iff.mp chosen]
  · rw [← exists_amiss_iff]
    constructor
    · rintro ⟨e, he⟩
      obtain ⟨reason, -, hamiss⟩ := principalOf_eq_error_iff.mp he
      exact ⟨reason, hamiss⟩
    · rintro ⟨reason, hamiss⟩
      exact ⟨_, principalOf_eq_error_iff.mpr ⟨reason, rfl, hamiss⟩⟩

/-- An object under `details` is passed over unless it mentions a user id, ids may take up all 64
bits, and the second name of a member counts where the first holds what is no id or no text. -/
theorem principalOf_spelled :
    principalOf (.object [
      ("details", .object [("tenantId", .int 1)]),
      ("principal", .object [
        ("userId", .text "\u2003+9223372036854775807\n"),
        ("tenantId", .text "four"),
        ("organizationId", .text " -9223372036854775808"),
        ("roleId", .int (-7)),
        ("username", .int 5),
        ("user_name", .text "ada")]),
      ("userId", .int 2)]) =
    .ok ⟨Int64.maxValue, Int64.minValue, some (-7), some "ada", ""⟩ := by
  have huser : ∀ c ∈ ['\u2003'], Text.isBlank c = true := List.forall_mem_singleton.mpr rfl
  have hline : ∀ c ∈ ['\n'], Text.isBlank c = true := List.forall_mem_singleton.mpr rfl
  have htenant : ∀ c ∈ [' '], Text.isBlank c = true := List.forall_mem_singleton.mpr rfl
  refine (principalOf_exact _).1 _ _ rfl (.principal ?_ rfl ⟨_, rfl⟩) {
    user := ⟨_, rfl, ?_⟩
    tenant := .inr ⟨?_, _, rfl, ?_⟩
    role := ?_
    noRole := fun h => by cases h
    username := ?_
    noUsername := fun h => by cases h
    credential := rfl }
  · rintro d' ⟨⟩ ⟨j, h⟩
    cases h
  · exact @Spelling.text Int64.maxValue ['\u2003'] ['\n'] true huser hline (by decide)
  · exact lacks_iff.mpr rfl
  · exact @Spelling.text Int64.minValue [' '] [] false htenant (List.forall_mem_nil _)
      (by decide)
  · rintro r ⟨⟩
    exact ⟨_, rfl, .integer⟩
  · rintro name ⟨⟩
    exact .inr ⟨text?_eq_none_iff.mp rfl, rfl⟩

end SessionGateway.Identity
