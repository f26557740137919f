import SessionGateway.Proofs.Text.Decimal
import SessionGateway.Proofs.Text.Trimming

/-!
# Texts that read as integers

An integer reads from exactly the texts that consist of at most one sign and at least one digit, and
from the same between blanks once these are trimmed. Leading zeros do not matter.
-/

namespace SessionGateway.Text

/-- The characters of an integer. -/
inductive Numeral : List Char → Int → Prop
  | bare {ds : List Char} (nonempty : ds ≠ []) (digits : ∀ c ∈ ds, c.isDigit = true) :
      Numeral ds (Nat.ofDigitChars 10 ds 0)
  | plus {ds : List Char} (nonempty : ds ≠ []) (digits : ∀ c ∈ ds, c.isDigit = true) :
      Numeral ('+' :: ds) (Nat.ofDigitChars 10 ds 0)
  | minus {ds : List Char} (nonempty : ds ≠ []) (digits : ∀ c ∈ ds, c.isDigit = true) :
      Numeral ('-' :: ds) (-(Nat.ofDigitChars 10 ds 0 : Nat))

/-- The characters of an integer with blanks before and after. -/
def Padded (s : List Char) (n : Int) : Prop :=
  ∃ before core after, s = before ++ (core ++ after) ∧ (∀ c ∈ before, isBlank c = true) ∧
    (∀ c ∈ after, isBlank c = true) ∧ Numeral core n

/-! ### Digits and signs -/

theorem isDigit_of_digit? {c : Char} {d : Nat} (h : digit? c = some d) : c.isDigit = true := by
  rw [digit?] at h
  split at h
  · next hc =>
    simp only [Char.isDigit, Bool.and_eq_true, decide_eq_true_eq]
    exact hc
  · cases h

theorem digitsFrom?_eq_some_iff {s : List Char} {value n : Nat} :
    digitsFrom? value s = some n ↔
      (∀ c ∈ s, c.isDigit = true) ∧ Nat.ofDigitChars 10 s value = n := by
  constructor
  · intro h
    have hdigits : ∀ c ∈ s, c.isDigit = true := by
      induction s generalizing value with
      | nil => exact List.forall_mem_nil _
      | cons c rest ih =>
        obtain ⟨d, hd, hrest⟩ := Option.bind_eq_some_iff.mp h
        exact List.forall_mem_cons.mpr ⟨isDigit_of_digit? hd, ih hrest⟩
    rw [digitsFrom?_of_isDigit hdigits, Option.some.injEq] at h
    exact ⟨hdigits, h⟩
  · rintro ⟨hdigits, rfl⟩
    exact digitsFrom?_of_isDigit hdigits value

theorem digits?_eq_some_iff {s : List Char} {n : Nat} :
    digits? s = some n ↔
      s ≠ [] ∧ (∀ c ∈ s, c.isDigit = true) ∧ Nat.ofDigitChars 10 s 0 = n := by
  cases s with
  | nil => simp [digits?]
  | cons c rest =>
    rw [digits?, digitsFrom?_eq_some_iff]
    · simp
    · exact List.cons_ne_nil c rest

theorem ne_of_isDigit {ds : List Char} (h : ∀ c ∈ ds, c.isDigit = true) {sign : Char}
    (hsign : sign.isDigit = false) (rest : List Char) : ds ≠ sign :: rest := by
  rintro rfl
  have hdigit := h sign List.mem_cons_self
  rw [hsign] at hdigit
  cases hdigit

theorem integer?_minus (ds : List Char) :
    integer? ('-' :: ds) = (digits? ds).map fun n : Nat => -(n : Int) := by
  rw [integer?]
  cases digits? ds <;> rfl

theorem integer?_eq_some_iff {s : List Char} {n : Int} : integer? s = some n ↔ Numeral s n := by
  constructor
  · intro h
    by_cases hminus : ∃ ds, s = '-' :: ds
    · obtain ⟨ds, rfl⟩ := hminus
      rw [integer?_minus] at h
      obtain ⟨m, hm, rfl⟩ := Option.map_eq_some_iff.mp h
      obtain ⟨hne, hdigits, rfl⟩ := digits?_eq_some_iff.mp hm
      exact .minus hne hdigits
    · rw [integer?] at h
      · obtain ⟨m, hm, rfl⟩ := Option.map_eq_some_iff.mp h
        rw [natural?.eq_def] at hm
        split at hm
        · obtain ⟨hne, hdigits, rfl⟩ := digits?_eq_some_iff.mp hm
          exact .plus hne hdigits
        · obtain ⟨hne, hdigits, rfl⟩ := digits?_eq_some_iff.mp hm
          exact .bare hne hdigits
      · exact fun ds hs => hminus ⟨ds, hs⟩
  · intro h
    cases h with
    | bare hne hdigits =>
      have hread := digits?_eq_some_iff.mpr ⟨hne, hdigits, rfl⟩
      rw [integer?, natural?, hread]
      · rfl
      · exact ne_of_isDigit hdigits rfl
      · exact ne_of_isDigit hdigits rfl
    | plus hne hdigits =>
      have hread := digits?_eq_some_iff.mpr ⟨hne, hdigits, rfl⟩
      rw [integer?, natural?, hread]
      · rfl
      · intro rest hsame
        exact absurd (List.cons.inj hsame).1 (by decide)
    | minus hne hdigits =>
      have hread := digits?_eq_some_iff.mpr ⟨hne, hdigits, rfl⟩
      rw [integer?_minus, hread]
      rfl

/-! ### Blanks -/

theorem isBlank_of_isDigit {c : Char} (h : c.isDigit = true) : isBlank c = false := by
  simp only [Char.isDigit, Bool.and_eq_true, decide_eq_true_eq, UInt32.le_iff_toNat_le] at h
  obtain ⟨hlow, hhigh⟩ := h
  have hlow : 48 ≤ c.toNat := hlow
  have hhigh : c.toNat ≤ 57 := hhigh
  simp only [isBlank, Bool.or_eq_false_iff, Bool.and_eq_false_iff, decide_eq_false_iff_not,
    beq_eq_false_iff_ne]
  omega

theorem Numeral.not_blank {s : List Char} {n : Int} (h : Numeral s n) :
    ∀ c ∈ s, isBlank c = false := by
  cases h with
  | bare _ digits => exact fun c hc => isBlank_of_isDigit (digits c hc)
  | plus _ digits =>
    exact List.forall_mem_cons.mpr ⟨rfl, fun c hc => isBlank_of_isDigit (digits c hc)⟩
  | minus _ digits =>
    exact List.forall_mem_cons.mpr ⟨rfl, fun c hc => isBlank_of_isDigit (digits c hc)⟩

/-! ### Integers of 64 bits -/

theorem int64OfInt?_eq_some_iff {m : Int} {n : Int64} : int64OfInt? m = some n ↔ m = n.toInt := by
  constructor
  · intro h
    rw [int64OfInt?] at h
    split at h
    · next hbounds =>
      have hmax := Int64.toInt_maxValue
      rw [← Option.some.inj h, Int64.toInt_ofInt_of_le hbounds.1 (by omega)]
    · cases h
  · rintro rfl
    exact int64OfInt?_toInt n

/-- After trimming, a number of 64 bits reads from exactly its numerals between blanks. -/
theorem int64?_trimChars_eq_some_iff {s : List Char} {n : Int64} :
    int64? (trimChars s) = some n ↔ Padded s n.toInt := by
  rw [int64?, Option.bind_eq_some_iff]
  constructor
  · rintro ⟨m, hm, hn⟩
    obtain rfl := int64OfInt?_eq_some_iff.mp hn
    obtain ⟨before, after, hs, hbefore, hafter, -, -⟩ := trimmed_trimChars s
    exact ⟨before, trimChars s, after, hs, hbefore, hafter, integer?_eq_some_iff.mp hm⟩
  · rintro ⟨before, core, after, hs, hbefore, hafter, hcore⟩
    have htrimmed : Trimmed s core :=
      ⟨before, after, hs, hbefore, hafter,
        fun c hc => hcore.not_blank c (List.mem_of_head? hc),
        fun c hc => hcore.not_blank c (List.mem_of_getLast? hc)⟩
    rw [htrimmed.trimChars_eq]
    exact ⟨n.toInt, integer?_eq_some_iff.mpr hcore, int64OfInt?_toInt n⟩

/-! ### The decimal text of a number -/

/-- The decimal text of a number is a numeral, with a plus sign too unless it is negative. -/
theorem numeral_toString {n : Int} {plus : Bool} (hplus : plus = true → 0 ≤ n) :
    Numeral ((if plus then ['+'] else []) ++ (toString n).toList) n := by
  have hdigits : ∀ m : Nat, ∀ c ∈ Nat.toDigits 10 m, c.isDigit = true :=
    fun _ _ => isDigit_of_mem_digits
  rw [Int.toString_eq_repr, Int.repr_eq_if]
  by_cases hn : 0 ≤ n
  · have hvalue : ((Nat.ofDigitChars 10 (Nat.toDigits 10 n.toNat) 0 : Nat) : Int) = n := by
      rw [Nat.ofDigitChars_ten_toDigits, Int.toNat_of_nonneg hn]
    rw [if_pos hn, Nat.toList_repr]
    cases plus with
    | true =>
      have hplus := Numeral.plus Nat.toDigits_ne_nil (hdigits n.toNat)
      rwa [hvalue] at hplus
    | false =>
      have hbare := Numeral.bare Nat.toDigits_ne_nil (hdigits n.toNat)
      rwa [hvalue] at hbare
  · have hnone : plus = false := Bool.eq_false_iff.mpr fun h => hn (hplus h)
    have hvalue : -((Nat.ofDigitChars 10 (Nat.toDigits 10 (-n).toNat) 0 : Nat) : Int) = n := by
      rw [Nat.ofDigitChars_ten_toDigits]
      omega
    have hsign : ("-" : String).toList = ['-'] := rfl
    have hminus := Numeral.minus Nat.toDigits_ne_nil (hdigits (-n).toNat)
    rw [hvalue] at hminus
    rw [if_neg hn, hnone, String.toList_append, Nat.toList_repr, hsign]
    exact hminus

end SessionGateway.Text
