/-
# Blank characters

A property of characters is kept as a table: the inclusive ranges of the code points that have
it, in increasing order (`Text.inRanges`).

A character is blank when it has the Unicode property `White_Space`.  Blanks separate
lexemes, surround the two sides of a corpus line, and are drawn as spaces in a diagnostic.

| range | characters |
| --- | --- |
| `U+0009` – `U+000D` | tab, line feed, vertical tab, form feed, carriage return |
| `U+0020`, `U+0085`, `U+00A0` | space, next line, no-break space |
| `U+1680`, `U+2000` – `U+200A` | Ogham space mark, en quad … hair space |
| `U+2028`, `U+2029`, `U+202F` | line and paragraph separator, narrow no-break space |
| `U+205F`, `U+3000` | medium mathematical space, ideographic space |

`Text.trim` takes the blanks off both ends; `Text.trim_eq_nil_iff` says when nothing is left.
-/

namespace InfixCalc
namespace Text

/-- The code point lies in one of the ranges. -/
def inRanges (ranges : List (Nat × Nat)) (code : Nat) : Bool :=
  ranges.any fun range => range.1 ≤ code && code ≤ range.2

/-- The ranges are in increasing order, with a gap between any two. -/
def apart : List (Nat × Nat) → Bool
  | first :: second :: rest =>
    first.1 ≤ first.2 && first.2 + 1 < second.1 && apart (second :: rest)
  | [last] => last.1 ≤ last.2
  | [] => true

/-- How many code points the ranges hold. -/
def countRanges (ranges : List (Nat × Nat)) : Nat :=
  ranges.foldl (fun count range => count + (range.2 + 1 - range.1)) 0

/-- The code points with the property `White_Space`, as inclusive ranges in increasing order. -/
def blankRanges : List (Nat × Nat) :=
  [(0x0009, 0x000D), (0x0020, 0x0020), (0x0085, 0x0085), (0x00A0, 0x00A0), (0x1680, 0x1680),
   (0x2000, 0x200A), (0x2028, 0x2029), (0x202F, 0x202F), (0x205F, 0x205F), (0x3000, 0x3000)]

/-- The character lies in one of the blank ranges. -/
def isBlank (c : Char) : Bool := inRanges blankRanges c.toNat

/-- The text without the blanks at its start. -/
def trimLeft (text : List Char) : List Char := text.dropWhile isBlank

/-- The text without the blanks at its end. -/
def trimRight (text : List Char) : List Char := (trimLeft text.reverse).reverse

/-- The text without the blanks at either end. -/
def trim (text : List Char) : List Char := trimRight (trimLeft text)

/-- There are twenty-five blank characters. -/
example : apart blankRanges ∧ countRanges blankRanges = 25 := by decide

/-- Only of a text of blanks is nothing left. -/
theorem trimLeft_eq_nil_iff {text : List Char} : trimLeft text = [] ↔ ∀ c ∈ text, isBlank c := by
  induction text with
  | nil => simp [trimLeft]
  | cons c text ih =>
    by_cases h : isBlank c <;> simp_all [trimLeft]

/-- **Trimming leaves nothing** exactly of a text of blanks. -/
theorem trim_eq_nil_iff {text : List Char} : trim text = [] ↔ ∀ c ∈ text, isBlank c := by
  rw [trim, trimRight, List.reverse_eq_nil_iff, trimLeft_eq_nil_iff]
  constructor
  · intro h
    rw [← trimLeft_eq_nil_iff]
    cases hd : trimLeft text with
    | nil => rfl
    | cons c rest =>
      have hc : isBlank c = true := h c (by simp [hd])
      have := List.head?_dropWhile_not isBlank text
      simp_all [trimLeft]
  · intro h
    simp [trimLeft_eq_nil_iff.2 h]

end Text
end InfixCalc
