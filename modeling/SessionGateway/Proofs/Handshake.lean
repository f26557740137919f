import SessionGateway.Handshake
import SessionGateway.Proofs.Text.Trimming

/-!
# What an upgrade request brings along

The attributes of a connection as its request gives them. A credential may stand in three places,
and the first of them in which anything stands decides. If that is an empty text the request brings
no credential, whatever stands in the other places. Beside the credential the parameters of two
names are copied, and nothing else.
-/

namespace SessionGateway

namespace Attributes

theorem get?_insert (a : Attributes) (name key value : String) :
    (a.insert name value).get? key = if name = key then some value else a.get? key :=
  Table.get?_insert a.entries name key value

theorem isGiven_iff {value : Option String} :
    isGiven value = true ↔ ∃ s, value = some s ∧ s ≠ "" := by
  cases value <;> simp [isGiven]

/-- A connection is an end user's just if it has a token that is not empty. -/
theorem classify_eq_endUser_iff {a : Attributes} :
    a.classify = some .endUser ↔ ∃ token, a.token? = some token ∧ token ≠ "" := by
  rw [classify, ← isGiven_iff]
  cases isGiven a.token? with
  | true => simp
  | false => cases isGiven a.secret? && isGiven a.group? <;> simp

end Attributes

namespace Handshake

/-- Where a request may hold a credential. -/
inductive Place where
  | accessToken
  | token
  | authorization
  deriving DecidableEq, Repr

/-- In the order in which they are looked at. -/
def Place.all : List Place := [.accessToken, .token, .authorization]

/-- The value of the first header of a name, whose letters may be of either case. -/
def FirstHeader (h : Handshake) (name value : String) : Prop :=
  ∃ before spelled after, h.headers = before ++ (spelled, value) :: after ∧
    lowerName spelled = name.toList ∧ ∀ x ∈ before, lowerName x.1 ≠ name.toList

/-- The first Authorization header is readable and bears a credential, blanks around it aside. -/
def Bears (h : Handshake) (token : String) : Prop :=
  ∃ value scheme rest, h.FirstHeader "authorization" value ∧ isReadable value = true ∧
    scheme ∈ ["Bearer ", "bearer "] ∧ value.toList = scheme.toList ++ rest ∧
    Text.Trimmed rest token.toList

/-- What stands in a place. -/
def Holds (h : Handshake) : Place → String → Prop
  | .accessToken, token => h.query.get? "access_token" = some token
  | .token, token => h.query.get? "token" = some token
  | .authorization, token => h.Bears token

/-- What stands in the first place that holds something that counts. -/
def First (h : Handshake) (counts : String → Prop) (token : String) : Prop :=
  ∃ before p after, Place.all = before ++ p :: after ∧ h.Holds p token ∧ counts token ∧
    ∀ q ∈ before, ∀ other, h.Holds q other → ¬ counts other

/-- What stands in the first place that holds anything, an empty text included. -/
abbrev Foremost (h : Handshake) (token : String) : Prop := h.First (fun _ => True) token

/-! ### Headers -/

theorem behind?_eq_some_iff {start s : String} {rest : List Char} :
    behind? start s = some rest ↔ s.toList = start.toList ++ rest := by
  rw [behind?]
  constructor
  · intro h
    split at h
    · next hprefix =>
      rw [← Option.some.inj h]
      exact (List.prefix_iff_eq_append.mp (List.isPrefixOf_iff_prefix.mp hprefix)).symm
    · cases h
  · intro h
    rw [h, if_pos (List.isPrefixOf_iff_prefix.mpr (List.prefix_append _ _)), List.drop_left]

theorem header?_eq_some_iff {h : Handshake} {name value : String} :
    h.header? name = some value ↔ h.FirstHeader name value := by
  rw [header?, Option.map_eq_some_iff]
  constructor
  · rintro ⟨⟨spelled, value⟩, hfind, rfl⟩
    obtain ⟨hname, before, after, hheaders, hbefore⟩ := List.find?_eq_some_iff_append.mp hfind
    exact ⟨before, spelled, after, hheaders, of_decide_eq_true hname, by simpa using hbefore⟩
  · rintro ⟨before, spelled, after, hheaders, hname, hbefore⟩
    refine ⟨(spelled, value), List.find?_eq_some_iff_append.mpr ?_, rfl⟩
    exact ⟨decide_eq_true hname, before, after, hheaders, by simpa using hbefore⟩

/-- No text begins in both ways, so it does not matter which is tried first. -/
theorem behind_scheme_iff {value : String} {rest : List Char} :
    (behind? "Bearer " value <|> behind? "bearer " value) = some rest ↔
      ∃ scheme ∈ ["Bearer ", "bearer "], value.toList = scheme.toList ++ rest := by
  rw [Option.orElse_eq_orElse, Option.orElse_eq_or, Option.or_eq_some_iff, behind?_eq_some_iff,
    behind?_eq_some_iff]
  have hnone : value.toList = "bearer ".toList ++ rest → behind? "Bearer " value = none := by
    intro hlower
    rw [Option.eq_none_iff_forall_ne_some]
    intro rest' hupper
    rw [behind?_eq_some_iff, hlower] at hupper
    exact absurd (List.cons.inj hupper).1 (by decide)
  constructor
  · rintro (h | ⟨-, h⟩)
    · exact ⟨_, List.mem_cons_self, h⟩
    · exact ⟨_, List.mem_cons_of_mem _ List.mem_cons_self, h⟩
  · rintro ⟨scheme, hscheme, h⟩
    simp only [List.mem_cons, List.not_mem_nil, or_false] at hscheme
    rcases hscheme with rfl | rfl
    · exact .inl h
    · exact .inr ⟨hnone h, h⟩

theorem bearer?_eq_some_iff {h : Handshake} {token : String} :
    h.bearer? = some token ↔ h.Bears token := by
  have htrim : ∀ rest, String.ofList (Text.trimChars rest) = token ↔
      Text.Trimmed rest token.toList := by
    intro rest
    rw [← Text.trimChars_eq_iff, ← String.toList_inj, String.toList_ofList]
  constructor
  · intro hbearer
    obtain ⟨value, hvalue, hbearer⟩ := Option.bind_eq_some_iff.mp hbearer
    obtain ⟨rest, hrest, htoken⟩ := Option.bind_eq_some_iff.mp hbearer
    obtain ⟨hheader, hreadable⟩ := Option.filter_eq_some_iff.mp hvalue
    obtain ⟨scheme, hscheme, hsplit⟩ := behind_scheme_iff.mp hrest
    exact ⟨value, scheme, rest, header?_eq_some_iff.mp hheader, hreadable, hscheme, hsplit,
      (htrim rest).mp (Option.some.inj htoken)⟩
  · rintro ⟨value, scheme, rest, hheader, hreadable, hscheme, hsplit, htoken⟩
    have hvalue : (h.header? "authorization").filter isReadable = some value :=
      Option.filter_eq_some_iff.mpr ⟨header?_eq_some_iff.mpr hheader, hreadable⟩
    have hrest := behind_scheme_iff.mpr ⟨scheme, hscheme, hsplit⟩
    refine Option.bind_eq_some_iff.mpr ⟨value, hvalue, ?_⟩
    exact Option.bind_eq_some_iff.mpr ⟨rest, hrest, congrArg some ((htrim rest).mpr htoken)⟩

/-! ### Places -/

/-- What stands in a place, if anything does. -/
def held? (h : Handshake) : Place → Option String
  | .accessToken => h.query.get? "access_token"
  | .token => h.query.get? Attributes.tokenKey
  | .authorization => h.bearer?

theorem held?_eq_some_iff {h : Handshake} {p : Place} {token : String} :
    h.held? p = some token ↔ h.Holds p token := by
  cases p with
  | authorization => exact bearer?_eq_some_iff
  | _ => rfl

theorem first_iff {h : Handshake} {counts : String → Prop} [DecidablePred counts]
    {token : String} :
    h.First counts token ↔
      Place.all.findSome? (fun p => (h.held? p).filter counts) = some token := by
  simp only [First, List.findSome?_eq_some_iff, Option.filter_eq_some_iff, held?_eq_some_iff,
    Option.filter_eq_none_iff, decide_eq_true_eq, and_assoc]

theorem foremost_iff {h : Handshake} {token : String} :
    h.Foremost token ↔ Place.all.findSome? h.held? = some token := by
  have hall : ∀ o : Option String, o.filter (fun _ => decide True) = o := by
    intro o
    cases o <;> rfl
  simp only [Foremost, first_iff, hall]

/-- Where anything counts there is a first place of that. -/
theorem Holds.exists_first {h : Handshake} {p : Place} {token : String} {counts : String → Prop}
    [DecidablePred counts] (hholds : h.Holds p token) (hcounts : counts token) :
    ∃ t, h.First counts t := by
  simp only [first_iff]
  rw [← Option.isSome_iff_exists, List.findSome?_isSome_iff]
  refine ⟨p, by cases p <;> decide, ?_⟩
  rw [held?_eq_some_iff.mpr hholds]
  simp [hcounts, Option.filter]

theorem Holds.exists_foremost {h : Handshake} {p : Place} {token : String}
    (hholds : h.Holds p token) : ∃ t, h.Foremost t := hholds.exists_first trivial

theorem First.holds {h : Handshake} {counts : String → Prop} {token : String}
    (hfirst : h.First counts token) : ∃ p, h.Holds p token ∧ counts token := by
  obtain ⟨-, p, -, -, hholds, hcounts, -⟩ := hfirst
  exact ⟨p, hholds, hcounts⟩

theorem First.unique {h : Handshake} {counts : String → Prop} [DecidablePred counts]
    {token other : String} (hfirst : h.First counts token) (hother : h.First counts other) :
    token = other := by
  rw [first_iff] at hfirst hother
  exact Option.some.inj (hfirst.symm.trans hother)

/-- What stands in the first place is the first that counts, if it does. -/
theorem First.of_foremost {h : Handshake} {counts : String → Prop} {token : String}
    (hfirst : h.Foremost token) (hcounts : counts token) : h.First counts token := by
  obtain ⟨before, p, after, hall, hholds, -, hbefore⟩ := hfirst
  refine ⟨before, p, after, hall, hholds, hcounts, ?_⟩
  intro q hq other hother
  exact absurd trivial (hbefore q hq other hother)

theorem credential?_eq (h : Handshake) :
    h.credential? = (Place.all.findSome? h.held?).filter (· ≠ "") := by
  simp only [credential?, Place.all, List.findSome?, held?]
  cases h.query.get? "access_token" <;> cases h.query.get? Attributes.tokenKey <;>
    cases h.bearer? <;> rfl

/-! ### Attributes -/

theorem get?_copy (h : Handshake) (a : Attributes) (name key : String) :
    (h.copy a name).get? key =
      if name = key then (h.query.get? name).or (a.get? key) else a.get? key := by
  rw [copy]
  cases h.query.get? name with
  | none => simp
  | some value => simp [Attributes.get?_insert]

/-- The credential of a request becomes its token and nothing else. -/
theorem get?_attributes (h : Handshake) {key : String} (hkey : key ≠ Attributes.tokenKey) :
    h.attributes.get? key =
      if key = Attributes.secretKey ∨ key = Attributes.groupKey then h.query.get? key
      else none := by
  have hcopied : ∀ a : Attributes, a.get? key = none →
      (h.copy (h.copy a Attributes.secretKey) Attributes.groupKey).get? key =
        if key = Attributes.secretKey ∨ key = Attributes.groupKey then h.query.get? key
        else none := by
    intro a ha
    rw [get?_copy, get?_copy, ha]
    by_cases hsecret : Attributes.secretKey = key
    · subst hsecret
      simp [Attributes.secretKey, Attributes.groupKey]
    · by_cases hgroup : Attributes.groupKey = key
      · subst hgroup
        simp [Attributes.secretKey, Attributes.groupKey]
      · simp [hsecret, hgroup, Ne.symm hsecret, Ne.symm hgroup]
  rw [attributes]
  cases h.credential? with
  | none => exact hcopied _ rfl
  | some token =>
    apply hcopied
    rw [Attributes.get?_insert, if_neg hkey.symm]
    rfl

theorem secret?_attributes (h : Handshake) :
    h.attributes.secret? = h.query.get? Attributes.secretKey :=
  (h.get?_attributes (by decide)).trans (if_pos (.inl rfl))

theorem group?_attributes (h : Handshake) :
    h.attributes.group? = h.query.get? Attributes.groupKey :=
  (h.get?_attributes (by decide)).trans (if_pos (.inr rfl))

theorem token?_attributes (h : Handshake) : h.attributes.token? = h.credential? := by
  rw [attributes, Attributes.token?, get?_copy, get?_copy, if_neg (by decide), if_neg (by decide)]
  cases h.credential? with
  | none => rfl
  | some token => rw [Attributes.get?_insert, if_pos rfl]

theorem token?_eq_some_iff {h : Handshake} {token : String} :
    h.attributes.token? = some token ↔ h.Foremost token ∧ token ≠ "" := by
  rw [token?_attributes, credential?_eq, Option.filter_eq_some_iff, foremost_iff,
    decide_eq_true_eq]

theorem classify_attributes_iff {h : Handshake} :
    h.attributes.classify = some .endUser ↔
      ∃ token, h.Foremost token ∧ token ≠ "" := by
  rw [Attributes.classify_eq_endUser_iff]
  simp only [token?_eq_some_iff, and_assoc, and_self]

/-- A request makes an end user's connection just if what stands in the first of its places is not
empty, and that is then its token. So a credential in any place is honoured, and the first that is
not empty becomes the token, unless an empty text stands before it in the first place that holds
anything. Beside the token the attributes are the parameters `secretKey` and `group`. -/
theorem first_place_decides (h : Handshake) :
    (h.attributes.classify = some .endUser ↔
        ∃ token, h.Foremost token ∧ token ≠ "") ∧
      (∀ token, h.attributes.token? = some token ↔
        h.Foremost token ∧ token ≠ "") ∧
      ((h.attributes.classify = some .endUser ↔ ∃ p token, h.Holds p token ∧ token ≠ "") ↔
        ¬ (h.Foremost "" ∧ ∃ p token, h.Holds p token ∧ token ≠ "")) ∧
      (∀ token, h.First (· ≠ "") token →
        (h.attributes.token? = some token ↔ ¬ h.Foremost "")) ∧
      ∀ name, name ≠ Attributes.tokenKey →
        h.attributes.get? name =
          if name = Attributes.secretKey ∨ name = Attributes.groupKey then h.query.get? name
          else none := by
  have hempty : ∀ token, h.Foremost token → token ≠ "" → ¬ h.Foremost "" :=
    fun token hfirst hne hnone => hne (hfirst.unique hnone)
  refine ⟨classify_attributes_iff, fun token => token?_eq_some_iff, ?_, ?_,
    fun name => h.get?_attributes⟩
  · rw [classify_attributes_iff]
    constructor
    · rintro hiff ⟨hnone, hoffered⟩
      obtain ⟨token, hfirst, hne⟩ := hiff.mpr hoffered
      exact hempty token hfirst hne hnone
    · intro hhidden
      constructor
      · rintro ⟨token, hfirst, hne⟩
        obtain ⟨p, hholds, -⟩ := hfirst.holds
        exact ⟨p, token, hholds, hne⟩
      · rintro ⟨p, token, hholds, hne⟩
        obtain ⟨first, hfirst⟩ := hholds.exists_foremost
        refine ⟨first, hfirst, ?_⟩
        rintro rfl
        exact hhidden ⟨hfirst, p, token, hholds, hne⟩
  · intro token hfilled
    rw [token?_eq_some_iff]
    constructor
    · rintro ⟨hfirst, hne⟩
      exact hempty token hfirst hne
    · intro hnone
      obtain ⟨p, hholds, hne⟩ := hfilled.holds
      obtain ⟨first, hfirst⟩ := hholds.exists_foremost
      have hcounts : first ≠ "" := by
        rintro rfl
        exact hnone hfirst
      obtain rfl := hfilled.unique (First.of_foremost hfirst hcounts)
      exact ⟨hfirst, hcounts⟩

/-- A request with a credential in its header behind a parameter of another name. -/
def borne : Handshake where
  query := .ofList [("colour", "red"), ("group", "g")]
  headers := [("AUTHORIZATION", "bearer  tok ")]

theorem borne_first : borne.First (· ≠ "") "tok" := by
  rw [first_iff]
  rfl

theorem borne_honoured :
    borne.First (· ≠ "") "tok" ∧
      (borne.attributes.token? = some "tok" ↔ ¬ borne.Foremost "") ∧
      "colour" ≠ Attributes.tokenKey ∧ borne.attributes.get? "colour" = none := by
  obtain ⟨-, -, -, hfilled, hnames⟩ := borne.first_place_decides
  have hcolour : "colour" ≠ Attributes.tokenKey := by decide
  exact ⟨borne_first, hfilled "tok" borne_first, hcolour, hnames "colour" hcolour⟩

/-- A request whose parameter `access_token` is empty. -/
def halfFilled : Handshake where
  query := .ofList [("access_token", ""), ("token", "t"), ("secretKey", "s"), ("group", "g")]
  headers := [("Authorization", "Bearer tok")]

/-- An empty parameter hides the credentials behind it: an end user is taken for a group. -/
theorem empty_parameter_hides :
    halfFilled.Holds .token "t" ∧ halfFilled.Holds .authorization "tok" ∧
      halfFilled.attributes.token? = none ∧
      halfFilled.attributes.classify = some .groupSecret := by
  rw [← held?_eq_some_iff, ← held?_eq_some_iff]
  decide

end Handshake

end SessionGateway
