import Meemee.Guarantees.AuditText

/-!
# ISO texts in the order of time

The fields of an ISO text have fixed widths, the fraction apart, and what may stand in its place
sorts before a point. So the texts of two UTC datetimes compare as the datetimes do.
-/
namespace Meemee.Guarantees.TimeText
open Source List
open Guarantees.AuditText (pad_length pad_inj)

theorem append_lt {a b : List Char} (lengths : a.length = b.length) (s t : List Char) :
    a ++ s < b ++ t ↔ a < b ∨ a = b ∧ s < t := by
  induction a generalizing b with
  | nil =>
    obtain rfl := length_eq_zero_iff.mp lengths.symm
    simp
  | cons c a ih =>
    cases b with
    | nil => cases lengths
    | cons d b =>
      rw [cons_append, cons_append, cons_lt_cons_iff, cons_lt_cons_iff,
        ih (Nat.succ.inj lengths), List.cons.injEq]
      constructor
      · rintro (first | ⟨rfl, rest | ⟨rfl, later⟩⟩)
        · exact .inl (.inl first)
        · exact .inl (.inr ⟨rfl, rest⟩)
        · exact .inr ⟨⟨rfl, rfl⟩, later⟩
      · rintro ((first | ⟨rfl, rest⟩) | ⟨⟨rfl, rfl⟩, later⟩)
        · exact .inl first
        · exact .inr ⟨rfl, .inl rest⟩
        · exact .inr ⟨rfl, .inr ⟨rfl, later⟩⟩

theorem digit_lt (n m : Nat) : digit n < digit m ↔ n % 10 < m % 10 := by
  have small : ∀ a < 10, ∀ b < 10, Char.ofNat (48 + a) < Char.ofNat (48 + b) ↔ a < b := by decide
  exact small (n % 10) (Nat.mod_lt n (by decide)) (m % 10) (Nat.mod_lt m (by decide))

theorem pad_lt {width n m : Nat} (fits : n < 10 ^ width) (fits' : m < 10 ^ width) :
    pad width n < pad width m ↔ n < m := by
  induction width generalizing n m with
  | zero =>
    simp only [pad, not_lt_nil, false_iff]
    omega
  | succ width ih =>
    have high : n / 10 < 10 ^ width := by omega
    have high' : m / 10 < 10 ^ width := by omega
    have tens : pad width (n / 10) = pad width (m / 10) ↔ n / 10 = m / 10 :=
      ⟨pad_inj high high', fun same => by rw [same]⟩
    rw [pad, pad, append_lt (by rw [pad_length, pad_length]), ih high high', tens,
      cons_lt_cons_iff, digit_lt]
    simp only [not_lt_nil, and_false, or_false]
    omega

theorem pad_append_lt {width n m : Nat} (fits : n < 10 ^ width) (fits' : m < 10 ^ width)
    (s t : List Char) : pad width n ++ s < pad width m ++ t ↔ n < m ∨ n = m ∧ s < t := by
  have same : pad width n = pad width m ↔ n = m := ⟨pad_inj fits fits', fun same => by rw [same]⟩
  rw [append_lt (by rw [pad_length, pad_length]), pad_lt fits fits', same]

theorem pad_cons_lt {width n m : Nat} (c : Char) (fits : n < 10 ^ width) (fits' : m < 10 ^ width)
    (s t : List Char) : c :: (pad width n ++ s) < c :: (pad width m ++ t) ↔ n < m ∨ n = m ∧ s < t := by
  rw [cons_lt_cons_self, pad_append_lt fits fits']

theorem fraction_lt {n m : Nat} (fits : n ≤ 999999) (fits' : m ≤ 999999) (zone : List Char) :
    fraction n ++ '+' :: zone < fraction m ++ '+' :: zone ↔ n < m := by
  have pointLast : ¬ '.' < '+' := by decide
  have plusFirst : '+' < '.' := by decide
  unfold fraction
  split
  next zero =>
    split
    next zero' => simp [zero, zero']
    next filled =>
      simp only [nil_append, cons_append, cons_lt_cons_iff, plusFirst, true_or, true_iff]
      omega
  next =>
    split
    next zero' =>
      simp only [nil_append, cons_append, cons_lt_cons_iff, pointLast, false_or, zero']
      simp
    next =>
      rw [cons_append, cons_append, pad_cons_lt '.' (by omega) (by omega)]
      simp

theorem isoformat_lt {t u : Datetime} : t.isoformat < u.isoformat ↔ t < u := by
  obtain ⟨year, month, day, hour, minute, second, microsecond, valid⟩ := t
  obtain ⟨year', month', day', hour', minute', second', microsecond', valid'⟩ := u
  have text : ∀ a b : List Char, String.ofList a < String.ofList b ↔ a < b := by
    intro a b
    change (String.ofList a).toList < (String.ofList b).toList ↔ a < b
    rw [String.toList_ofList, String.toList_ofList]
  rw [Datetime.isoformat, Datetime.isoformat, text]
  simp only [append_assoc, cons_append]
  rw [pad_append_lt (by omega) (by omega), pad_cons_lt '-' (by omega) (by omega),
    pad_cons_lt '-' (by omega) (by omega), pad_cons_lt 'T' (by omega) (by omega),
    pad_cons_lt ':' (by omega) (by omega), pad_cons_lt ':' (by omega) (by omega),
    fraction_lt (by omega) (by omega), Datetime.lt_iff, Datetime.rank, Datetime.rank]
  dsimp only
  omega

end Meemee.Guarantees.TimeText
