/-
# Decimal numerals

A numeral is a run of ASCII digits, read in base ten; leading zeros do not matter.  Reading
is bounded: `Decimal.valueWithin?` accumulates digit by digit and gives up for good as soon
as the value passes the limit, so a numeral of any length is read in bounded arithmetic.
`Decimal.valueWithin?_eq` says that this is the exact value compared with the limit.

A signed 32-bit integer is written with `-` before a negative magnitude and no `+`;
`Decimal.readInt32?` also accepts a `+` and zeros in front.
-/

namespace InfixCalc
namespace Decimal

/-- The largest 32-bit integer, which is also the largest literal of an expression. -/
def int32Max : Nat := 2147483647

/-- The largest unsigned 64-bit integer. -/
def uint64Max : Nat := 18446744073709551615

/-- The value of a digit. -/
def digitValue (digit : Char) : Nat := digit.toNat - '0'.toNat

/-- A value with one digit more at its end. -/
def withDigit (value : Nat) (digit : Char) : Nat := 10 * value + digitValue digit

/-- The exact value of a numeral. -/
def value (digits : List Char) : Nat := digits.foldl withDigit 0

/-- One digit more, unless the value is already lost or passes the limit now. -/
def boundedWithDigit (limit : Nat) : Option Nat → Char → Option Nat
  | none, _ => none
  | some value, digit =>
    if withDigit value digit ≤ limit then some (withDigit value digit) else none

/-- The value of a numeral, if it is at most `limit`. -/
def valueWithin? (limit : Nat) (digits : List Char) : Option Nat :=
  digits.foldl (boundedWithDigit limit) (some 0)

/-- A value that has passed the limit stays beyond it. -/
theorem foldl_boundedWithDigit_none (limit : Nat) (digits : List Char) :
    digits.foldl (boundedWithDigit limit) none = none := by
  induction digits with
  | nil => rfl
  | cons d ds ih => exact ih

/-- Further digits never make a value smaller. -/
theorem le_foldl_withDigit (digits : List Char) (v : Nat) : v ≤ digits.foldl withDigit v := by
  induction digits generalizing v with
  | nil => exact Nat.le_refl v
  | cons d ds ih =>
    have h := ih (withDigit v d)
    have hv : v ≤ withDigit v d := by unfold withDigit; omega
    exact Nat.le_trans hv h

/-- To stop at the limit gives the whole value, if that is within the limit. -/
theorem foldl_boundedWithDigit_some {limit v : Nat} (digits : List Char) (hv : v ≤ limit) :
    digits.foldl (boundedWithDigit limit) (some v) =
      if digits.foldl withDigit v ≤ limit then some (digits.foldl withDigit v) else none := by
  induction digits generalizing v with
  | nil => simp [hv]
  | cons d ds ih =>
    rw [List.foldl_cons, List.foldl_cons, boundedWithDigit]
    by_cases h : withDigit v d ≤ limit
    · rw [if_pos h, ih h]
    · have hd := le_foldl_withDigit ds (withDigit v d)
      rw [if_neg h, foldl_boundedWithDigit_none, if_neg (by omega)]

/-- **Bounded reading is exact:** it gives the value of the numeral when that is at most the
limit, and nothing otherwise. -/
theorem valueWithin?_eq (limit : Nat) (digits : List Char) :
    valueWithin? limit digits = if value digits ≤ limit then some (value digits) else none :=
  foldl_boundedWithDigit_some digits (Nat.zero_le limit)

/-- More digits make no numeral smaller. -/
theorem value_le_value_append (digits more : List Char) :
    value digits ≤ value (digits ++ more) := by
  rw [value, value, List.foldl_append]
  exact le_foldl_withDigit more _

/-- A single digit fits into 32 bits. -/
theorem value_singleton_le {digit : Char} (h : digit.isDigit) : value [digit] ≤ int32Max := by
  simp only [Char.isDigit, Bool.and_eq_true, decide_eq_true_eq, ge_iff_le,
    UInt32.le_iff_toNat_le] at h
  have h₉ : digit.toNat ≤ 57 := h.2
  simp only [value, List.foldl_cons, List.foldl_nil, withDigit, digitValue, int32Max]
  omega

/-- The 32-bit integer with this sign and magnitude, if there is one. -/
def int32OfDigits? (negative : Bool) (digits : List Char) : Option Int32 :=
  if negative then
    (valueWithin? (int32Max + 1) digits).map fun magnitude => Int32.ofInt (-magnitude)
  else
    (valueWithin? int32Max digits).map fun magnitude => Int32.ofInt magnitude

/-- Splits off a leading sign; `true` stands for `-`. -/
def splitSign : List Char → Bool × List Char
  | '+' :: rest => (false, rest)
  | '-' :: rest => (true, rest)
  | rest => (false, rest)

/-- Reads a 32-bit integer: an optional sign, then one digit or more and nothing else. -/
def readInt32? (text : List Char) : Option Int32 :=
  let (negative, digits) := splitSign text
  if digits.isEmpty || !digits.all Char.isDigit then none else int32OfDigits? negative digits

/-- The decimal text of a 32-bit integer. -/
def ofInt32 (n : Int32) : String := toString n.toInt

end Decimal
end InfixCalc
