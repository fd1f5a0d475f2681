import Mathlib.Data.List.Basic

/-!
# URL-safe base64

Encoding with padding, and the strict decoding that takes back what it gives.
-/
namespace Library.Base64
open Option

/-- `A` to `Z`, `a` to `z`, `0` to `9`, `-` and `_`. -/
def letter (n : Nat) : Char :=
  Char.ofNat (if n < 26 then n + 65 else if n < 52 then n + 71 else if n < 62 then n - 4
    else if n = 62 then 45 else 95)

def digit (c : Char) : Option Nat :=
  if 65 ≤ c.toNat ∧ c.toNat ≤ 90 then some (c.toNat - 65)
  else if 97 ≤ c.toNat ∧ c.toNat ≤ 122 then some (c.toNat - 71)
  else if 48 ≤ c.toNat ∧ c.toNat ≤ 57 then some (c.toNat + 4)
  else if c.toNat = 45 then some 62
  else if c.toNat = 95 then some 63
  else none

theorem digit_letter : ∀ n < 64, digit (letter n) = some n := by decide +kernel

theorem letter_ne_padding : ∀ n < 64, letter n ≠ '=' := by decide +kernel

/-- Three bytes are four letters; the last group is padded. -/
def encode : List UInt8 → List Char
  | [] => []
  | [a] => [letter (a.toNat / 4), letter (a.toNat % 4 * 16), '=', '=']
  | [a, b] => [letter (a.toNat / 4), letter (a.toNat % 4 * 16 + b.toNat / 16),
      letter (b.toNat % 16 * 4), '=']
  | a :: b :: c :: rest => letter (a.toNat / 4) :: letter (a.toNat % 4 * 16 + b.toNat / 16) ::
      letter (b.toNat % 16 * 4 + c.toNat / 64) :: letter (c.toNat % 64) :: encode rest

def byte (n : Nat) : UInt8 := UInt8.ofNat n

def decode : List Char → Option (List UInt8)
  | [] => some []
  | a :: b :: c :: d :: rest => do
    let a ← digit a
    let b ← digit b
    if c = '=' then return [byte (a * 4 + b / 16)]
    let c ← digit c
    if d = '=' then return [byte (a * 4 + b / 16), byte (b % 16 * 16 + c / 4)]
    let d ← digit d
    let rest ← decode rest
    return byte (a * 4 + b / 16) :: byte (b % 16 * 16 + c / 4) :: byte (c % 4 * 64 + d) :: rest
  | _ => none

theorem byte_toNat {n : Nat} {a : UInt8} (same : n = a.toNat) : byte n = a := by
  rw [same]
  exact UInt8.ofNat_toNat

theorem decode_encode (bytes : List UInt8) : decode (encode bytes) = some bytes := by
  induction bytes using encode.induct with
  | case1 => rfl
  | case2 a =>
    have bound := a.toNat_lt
    have first := digit_letter (a.toNat / 4) (by omega)
    have second := digit_letter (a.toNat % 4 * 16) (by omega)
    simp only [encode, decode, first, second, bind_eq_bind, bind_some, if_true]
    rw [byte_toNat (a := a) (by omega)]
    rfl
  | case3 a b =>
    have bound := a.toNat_lt
    have bound' := b.toNat_lt
    have first := digit_letter (a.toNat / 4) (by omega)
    have second := digit_letter (a.toNat % 4 * 16 + b.toNat / 16) (by omega)
    have third := digit_letter (b.toNat % 16 * 4) (by omega)
    have more := letter_ne_padding (b.toNat % 16 * 4) (by omega)
    simp only [encode, decode, first, second, third, more, bind_eq_bind, bind_some,
      if_true, if_false]
    rw [byte_toNat (a := a) (by omega), byte_toNat (a := b) (by omega)]
    rfl
  | case4 a b c rest ih =>
    have bound := a.toNat_lt
    have bound' := b.toNat_lt
    have bound'' := c.toNat_lt
    have first := digit_letter (a.toNat / 4) (by omega)
    have second := digit_letter (a.toNat % 4 * 16 + b.toNat / 16) (by omega)
    have third := digit_letter (b.toNat % 16 * 4 + c.toNat / 64) (by omega)
    have more := letter_ne_padding (b.toNat % 16 * 4 + c.toNat / 64) (by omega)
    have fourth := digit_letter (c.toNat % 64) (by omega)
    have full := letter_ne_padding (c.toNat % 64) (by omega)
    simp only [encode, decode, first, second, third, more, fourth, full, ih, bind_eq_bind,
      bind_some, if_false]
    rw [byte_toNat (a := a) (by omega), byte_toNat (a := b) (by omega),
      byte_toNat (a := c) (by omega)]
    rfl

end Library.Base64
