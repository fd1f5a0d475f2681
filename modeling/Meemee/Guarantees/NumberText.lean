import Meemee.Guarantees.AuditText
import Meemee.Source.Numbers

/-!
# A printed numeric is read as itself

PostgreSQL prints the whole part, a point and as many digits as the scale says. Taking that text
apart gives the numeric back.
-/
namespace Meemee.Guarantees.NumberText
open Source Source.Numbers
open Guarantees.AuditText (pad_isDigit pad_length)
open Guarantees.JsonLoading (digits_alone digit_of_digits)

theorem pad_value (width n : Nat) : digitsValue (pad width n) = n % 10 ^ width := by
  induction width generalizing n with
  | zero => simp [pad, digitsValue, Nat.mod_one]
  | succ width ih =>
    have last : ∀ a < 10, (Char.ofNat (48 + a)).toNat - '0'.toNat = a := by decide
    have tens := ih (n / 10)
    unfold digitsValue at tens ⊢
    rw [pad, Nat.ofDigitChars_append, tens, Nat.ofDigitChars_cons, Nat.ofDigitChars_nil, digit,
      last (n % 10) (Nat.mod_lt n (by decide)), Nat.pow_succ, Nat.mul_comm (10 ^ width) 10,
      Nat.mod_mul, Nat.add_comm]

theorem printed_digits (n width : Nat) :
    digitsValue (Nat.toDigits 10 (n / 10 ^ width) ++ pad width n) = n := by
  have padded := pad_value width n
  unfold digitsValue at padded ⊢
  rw [Nat.ofDigitChars_append, Nat.ofDigitChars_ten_toDigits, Nat.ofDigitChars_eq_ofDigitChars_zero,
    padded, pad_length, Nat.mul_comm]
  exact Nat.div_add_mod' n (10 ^ width)

theorem takeWhile_digits {digits : List Char} (all : ∀ c ∈ digits, c.isDigit = true) (c : Char)
    (other : c.isDigit = false) (rest : List Char) :
    (digits ++ c :: rest).takeWhile Char.isDigit = digits ∧
      (digits ++ c :: rest).dropWhile Char.isDigit = c :: rest := by
  have none : ¬ c.isDigit = true := by rw [other]; exact Bool.false_ne_true
  constructor
  · rw [List.takeWhile_append_of_pos all, List.takeWhile_cons_of_neg none, List.append_nil]
  · rw [List.dropWhile_append_of_pos all, List.dropWhile_cons_of_neg none]

theorem signed_digits {text : List Char} {c : Char} {rest : List Char} (begins : text = c :: rest)
    (first : c.isDigit = true) : signed text = (false, text) := by
  have noMinus : c ≠ '-' := by rintro rfl; exact absurd first (by decide)
  have noPlus : c ≠ '+' := by rintro rfl; exact absurd first (by decide)
  rw [begins, signed, if_neg noMinus, if_neg noPlus]

theorem decimal_parts {text : List Char} {negative : Bool} {whole fraction : List Char}
    (sign : signed text = (negative, whole ++ '.' :: fraction))
    (wholeDigits : ∀ c ∈ whole, c.isDigit = true) (digits : ∀ c ∈ fraction, c.isDigit = true) :
    decimal text = ⟨negative, whole, fraction, 0⟩ := by
  obtain ⟨taken, dropped⟩ := takeWhile_digits wholeDigits '.' (by decide) fraction
  obtain ⟨all, none⟩ := digits_alone digits
  simp only [decimal, sign, taken, dropped, pointPart, if_true, all, none, exponentOf]

theorem numeric_parts (negative : Bool) (n scale : Nat) :
    (Decimal.mk negative (Nat.toDigits 10 (n / 10 ^ scale)) (pad scale n) 0).numeric =
      ⟨if negative then -(n : Int) else n, scale⟩ := by
  have shifted : (Decimal.mk negative (Nat.toDigits 10 (n / 10 ^ scale)) (pad scale n) 0).shifted = n := by
    rw [Decimal.shifted, Decimal.digits]
    rw [printed_digits, Int.zero_sub, Int.toNat_neg_natCast, Nat.pow_zero, Nat.mul_one]
  rw [Decimal.numeric, shifted]
  rw [pad_length, Int.sub_zero, Int.toNat_natCast]

theorem numeric_text (n : Numeric) : (decimal n.text).numeric = n := by
  obtain ⟨unscaled, scale⟩ := n
  have digits : ∀ c ∈ Nat.toDigits 10 (unscaled.natAbs / 10 ^ scale), c.isDigit = true :=
    fun _ mem => digit_of_digits mem
  have padded : ∀ c ∈ pad scale unscaled.natAbs, c.isDigit = true := pad_isDigit
  by_cases negative : unscaled < 0
  · have sign : signed (Numeric.text ⟨unscaled, scale⟩) =
        (true, Nat.toDigits 10 (unscaled.natAbs / 10 ^ scale) ++ '.' :: pad scale unscaled.natAbs) := by
      rw [Numeric.text, if_pos negative]
      rfl
    rw [decimal_parts sign digits padded, numeric_parts, if_pos rfl]
    congr
    omega
  · have sign : signed (Numeric.text ⟨unscaled, scale⟩) =
        (false, Nat.toDigits 10 (unscaled.natAbs / 10 ^ scale) ++ '.' :: pad scale unscaled.natAbs) := by
      rw [Numeric.text, if_neg negative]
      cases text : Nat.toDigits 10 (unscaled.natAbs / 10 ^ scale) with
      | nil => exact absurd text Nat.toDigits_ne_nil
      | cons c rest => exact signed_digits rfl (digits c (by rw [text]; exact List.mem_cons_self))
    rw [decimal_parts sign digits padded, numeric_parts, if_neg Bool.false_ne_true]
    congr
    omega

end Meemee.Guarantees.NumberText
