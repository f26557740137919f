import SessionGateway.Text.Decimal
import Std.Data.String.ToInt

/-!
# Decimal integers read back

The decimal digits of a natural number read as that number, and the text of an integer reads as
that integer. Hence two integers with one text are equal.
-/

namespace SessionGateway.Text

theorem le_nine_of_isDigit {c : Char} (h : c.isDigit = true) : '0' ≤ c ∧ c ≤ '9' := by
  simp only [Char.isDigit, Bool.and_eq_true, decide_eq_true_eq] at h
  exact ⟨h.1, h.2⟩

theorem digit?_of_isDigit {c : Char} (h : c.isDigit = true) :
    digit? c = some (c.toNat - '0'.toNat) := by
  rw [digit?, if_pos (le_nine_of_isDigit h)]

theorem digitsFrom?_of_isDigit {s : List Char} (h : ∀ c ∈ s, c.isDigit = true) (value : Nat) :
    digitsFrom? value s = some (Nat.ofDigitChars 10 s value) := by
  induction s generalizing value with
  | nil => simp [digitsFrom?]
  | cons c rest ih =>
    have hc := digit?_of_isDigit (h c (by simp))
    have hrest : ∀ d ∈ rest, d.isDigit = true := fun d hd => h d (by simp [hd])
    simp only [digitsFrom?, hc, Option.bind_some, ih hrest, Nat.ofDigitChars_cons, Nat.mul_comm]

theorem isDigit_of_mem_digits {n : Nat} {c : Char} (h : c ∈ Nat.toDigits 10 n) :
    c.isDigit = true :=
  Nat.isDigit_of_mem_toDigits (by decide) (by decide) h

theorem digits?_toDigits (n : Nat) : digits? (Nat.toDigits 10 n) = some n := by
  have hs : ∀ c ∈ Nat.toDigits 10 n, c.isDigit = true := fun _ => isDigit_of_mem_digits
  have hread := digitsFrom?_of_isDigit hs 0
  rw [Nat.ofDigitChars_ten_toDigits] at hread
  cases hd : Nat.toDigits 10 n with
  | nil => exact absurd hd Nat.toDigits_ne_nil
  | cons c rest => rw [← hd]; simpa [digits?, hd] using hread

/-- A text that begins with a digit carries no sign. -/
theorem integer?_toDigits (n : Nat) : integer? (Nat.toDigits 10 n) = some (n : Int) := by
  have hread := digits?_toDigits n
  cases hd : Nat.toDigits 10 n with
  | nil => exact absurd hd Nat.toDigits_ne_nil
  | cons c rest =>
    have hc : c.isDigit = true := isDigit_of_mem_digits (n := n) (by simp [hd])
    have hminus : c ≠ '-' := by rintro rfl; simp at hc
    have hplus : c ≠ '+' := by rintro rfl; simp at hc
    rw [hd] at hread
    rw [integer?, natural?, hread]
    · rfl
    · intro rest' h; exact hplus (List.cons.inj h).1
    · intro rest' h; exact hminus (List.cons.inj h).1

theorem integer?_toString (n : Int) : integer? (toString n).toList = some n := by
  rw [Int.toString_eq_repr, Int.repr_eq_if]
  split
  · next h =>
    simp only [Nat.toList_repr, integer?_toDigits, Int.toNat_of_nonneg h]
  · next h =>
    have hsign : ("-" : String).toList = ['-'] := rfl
    simp only [String.toList_append, Nat.toList_repr, hsign, List.singleton_append, integer?,
      digits?_toDigits]
    show some (-(((-n).toNat : Nat) : Int)) = some n
    congr 1
    omega

theorem int64OfInt?_toInt (n : Int64) : int64OfInt? n.toInt = some n := by
  have h := n.minValue_le_toInt
  have h' := n.toInt_le
  rw [int64OfInt?, if_pos ⟨h, h'⟩, Int64.ofInt_toInt]

theorem int64?_toString (n : Int64) : int64? (toString n.toInt).toList = some n := by
  simp only [int64?, integer?_toString, Option.bind_some, int64OfInt?_toInt]

theorem toString_toInt_inj {m n : Int64} : toString m.toInt = toString n.toInt ↔ m = n := by
  constructor
  · intro h
    have hm := int64?_toString m
    rw [h, int64?_toString] at hm
    exact (Option.some.inj hm).symm
  · rintro rfl; rfl

end SessionGateway.Text
