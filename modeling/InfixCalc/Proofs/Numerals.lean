/-
# Numerals that are written and read

A number is read back from its decimal text: `Decimal.value_toDigits` for the digits of a natural
number, and `Decimal.readInt32?_ofInt32` for a signed 32-bit integer.
-/

import InfixCalc.CharClass
import InfixCalc.Decimal

namespace InfixCalc
namespace Decimal

/-- The digits of a number have its value. -/
theorem value_toDigits (n : Nat) : value (Nat.toDigits 10 n) = n := by
  have h : Nat.ofDigitChars 10 (Nat.toDigits 10 n) 0 = n := Nat.ofDigitChars_ten_toDigits
  rw [Nat.ofDigitChars_eq_foldl] at h
  exact h

/-- A number is written in digits. -/
theorem isDigit_of_mem_toDigits {n : Nat} {c : Char} (h : c ∈ Nat.toDigits 10 n) : c.isDigit :=
  Nat.isDigit_of_mem_toDigits (by decide) (by decide) h

/-- The text of a number that is not negative has digits only. -/
theorem toList_ofInt32_of_nonneg {n : Int32} (h : 0 ≤ n.toInt) :
    (ofInt32 n).toList = Nat.toDigits 10 n.toInt.toNat := by
  rw [ofInt32, Int.toString_eq_repr, Int.repr_eq_if, if_pos h, Nat.toList_repr]

/-- The text of a negative number is a minus sign and the digits of its magnitude. -/
theorem toList_ofInt32_of_neg {n : Int32} (h : n.toInt < 0) :
    (ofInt32 n).toList = '-' :: Nat.toDigits 10 (-n.toInt).toNat := by
  rw [ofInt32, Int.toString_eq_repr, Int.repr_eq_if, if_neg (by omega), String.toList_append,
    Nat.toList_repr]
  rfl

/-- The characters of a written number are digits, and a minus sign perhaps. -/
theorem of_mem_ofInt32 {n : Int32} {c : Char} (h : c ∈ (ofInt32 n).toList) :
    c = '-' ∨ c.isDigit := by
  rcases Int.lt_or_le n.toInt 0 with hneg | hnonneg
  · rw [toList_ofInt32_of_neg hneg, List.mem_cons] at h
    exact h.imp_right isDigit_of_mem_toDigits
  · rw [toList_ofInt32_of_nonneg hnonneg] at h
    exact .inr (isDigit_of_mem_toDigits h)

/-- A numeral that is small enough is read, and keeps its value. -/
theorem int32OfDigits?_of_le {digits : List Char} (h : value digits ≤ int32Max) :
    ∃ n, int32OfDigits? false digits = some n ∧ n.toInt = value digits := by
  refine ⟨Int32.ofInt (value digits), ?_, ?_⟩
  · rw [int32OfDigits?, if_neg Bool.false_ne_true, valueWithin?_eq, if_pos h]
    rfl
  · unfold int32Max at h
    exact Int32.toInt_ofInt_of_le (by omega) (by omega)

/-- A numeral that is too large is not read. -/
theorem int32OfDigits?_of_lt {digits : List Char} (h : int32Max < value digits) :
    int32OfDigits? false digits = none := by
  rw [int32OfDigits?, if_neg Bool.false_ne_true, valueWithin?_eq, if_neg (Nat.not_le_of_lt h)]
  rfl

/-- What is read has the value of the numeral. -/
theorem toInt_of_int32OfDigits? {digits : List Char} {n : Int32}
    (h : int32OfDigits? false digits = some n) : n.toInt = value digits := by
  rcases Nat.lt_or_ge int32Max (value digits) with hlt | hle
  · rw [int32OfDigits?_of_lt hlt] at h
    cases h
  · obtain ⟨m, hread, hvalue⟩ := int32OfDigits?_of_le hle
    rw [hread] at h
    cases h
    exact hvalue

/-- Digits are not preceded by a sign. -/
theorem splitSign_of_isDigit {digits : List Char} (h : ∀ c ∈ digits, c.isDigit) :
    splitSign digits = (false, digits) := by
  unfold splitSign
  split
  · exact absurd (h '+' List.mem_cons_self) (by decide)
  · exact absurd (h '-' List.mem_cons_self) (by decide)
  · rfl

/-- What is read of a sign and digits is what the digits are worth. -/
theorem readInt32?_eq {text digits : List Char} {negative : Bool}
    (hsign : splitSign text = (negative, digits)) (hne : digits ≠ [])
    (hdigits : ∀ c ∈ digits, c.isDigit) :
    readInt32? text = int32OfDigits? negative digits := by
  have hall : digits.all Char.isDigit = true := List.all_eq_true.2 hdigits
  have hempty : digits.isEmpty = false := List.isEmpty_eq_false_iff.2 hne
  simp only [readInt32?, hsign, hall, hempty, Bool.not_true, Bool.or_false, Bool.false_eq_true,
    if_false]

/-- A number within the limit is read back from its digits. -/
theorem valueWithin?_toDigits {limit n : Nat} (h : n ≤ limit) :
    valueWithin? limit (Nat.toDigits 10 n) = some n := by
  rw [valueWithin?_eq, value_toDigits, if_pos h]

/-- Every number that fits is read back from its digits. -/
theorem int32OfDigits?_toDigits {n : Nat} (h : n ≤ int32Max) :
    int32OfDigits? false (Nat.toDigits 10 n) = some (Int32.ofInt n) := by
  rw [int32OfDigits?, if_neg Bool.false_ne_true, valueWithin?_toDigits h]
  rfl

/-- With a minus, one number more fits. -/
theorem int32OfDigits?_toDigits_negative {n : Nat} (h : n ≤ int32Max + 1) :
    int32OfDigits? true (Nat.toDigits 10 n) = some (Int32.ofInt (-n)) := by
  rw [int32OfDigits?, if_pos rfl, valueWithin?_toDigits h]
  rfl

/-- **A 32-bit integer is read back** from its decimal text. -/
theorem readInt32?_ofInt32 (n : Int32) : readInt32? (ofInt32 n).toList = some n := by
  have hlt : n.toInt < 2 ^ 31 := Int32.toInt_lt n
  have hle : -2 ^ 31 ≤ n.toInt := Int32.le_toInt n
  rcases Int.lt_or_le n.toInt 0 with hneg | hnonneg
  · have hmagnitude : (-n.toInt).toNat ≤ int32Max + 1 := by unfold int32Max; omega
    have hsign : splitSign ('-' :: Nat.toDigits 10 (-n.toInt).toNat) =
      (true, Nat.toDigits 10 (-n.toInt).toNat) := rfl
    rw [toList_ofInt32_of_neg hneg,
      readInt32?_eq hsign Nat.toDigits_ne_nil fun c => isDigit_of_mem_toDigits,
      int32OfDigits?_toDigits_negative hmagnitude, Int.toNat_of_nonneg (by omega), Int.neg_neg,
      Int32.ofInt_toInt]
  · have hmagnitude : n.toInt.toNat ≤ int32Max := by unfold int32Max; omega
    have hdigits : ∀ c ∈ Nat.toDigits 10 n.toInt.toNat, c.isDigit :=
      fun c => isDigit_of_mem_toDigits
    rw [toList_ofInt32_of_nonneg hnonneg,
      readInt32?_eq (splitSign_of_isDigit hdigits) Nat.toDigits_ne_nil hdigits,
      int32OfDigits?_toDigits hmagnitude, Int.toNat_of_nonneg hnonneg, Int32.ofInt_toInt]

end Decimal
end InfixCalc
