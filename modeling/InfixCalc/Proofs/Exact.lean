/-
# Values over the integers

`Expr.exact` is the value of an expression over the integers, where nothing overflows and division
truncates toward zero.  Addition, subtraction and multiplication may be reduced to 32 bits at any
time; a division may not, unless its operands are 32-bit integers already.  So the value of an
expression is its exact value reduced to 32 bits as soon as the operands of its divisions fit, and
no divisor is zero (`Expr.value_of_dividesExactly`), whatever else overflows.

That is so where nothing is divided, and where all subexpressions fit.
-/

import InfixCalc.Proofs.Divisions
import Mathlib.Algebra.Group.Int.Defs
import Mathlib.Algebra.Group.Nat.Defs

namespace InfixCalc

/-- The integer fits in 32 bits. -/
def FitsInt32 (n : Int) : Prop := -2 ^ 31 ≤ n ∧ n < 2 ^ 31

instance (n : Int) : Decidable (FitsInt32 n) := inferInstanceAs (Decidable (_ ∧ _))

/-- What the operator gives on the integers. -/
def AddOp.exact (a b : Int) : AddOp → Int
  | plus => a + b
  | minus => a - b

/-- What the operator gives on the integers; nothing of interest for a division by zero. -/
def MulOp.exact (a b : Int) : MulOp → Int
  | times => a * b
  | dividedBy => a.tdiv b

mutual

/-- The value of a factor over the integers. -/
def Factor.exact : Factor → Int
  | .literal l => Decimal.value (l.first :: l.more)
  | .group inner => inner.exact

/-- The value of a term over the integers. -/
def Term.exact : Term → Int
  | .factor f => f.exact
  | .more left op right => op.exact left.exact right.exact

/-- The value of an expression over the integers. -/
def Expr.exact : Expr → Int
  | .term t => t.exact
  | .signed sign t => sign.exact 0 t.exact
  | .more left op right => op.exact left.exact right.exact

end

/-- The operator is no division by zero. -/
def MulOp.Defined (b : Int) : MulOp → Prop
  | times => True
  | dividedBy => b ≠ 0

mutual

/-- All subexpressions of a factor have values that fit, and no divisor is zero. -/
def Factor.Fits : Factor → Prop
  | .literal l => FitsInt32 (Factor.literal l).exact
  | .group inner => inner.Fits

/-- All subexpressions of a term have values that fit, and no divisor is zero. -/
def Term.Fits : Term → Prop
  | .factor f => f.Fits
  | .more left op right => left.Fits ∧ right.Fits ∧ op.Defined right.exact ∧
      FitsInt32 (Term.more left op right).exact

/-- All subexpressions of an expression have values that fit, and no divisor is zero. -/
def Expr.Fits : Expr → Prop
  | .term t => t.Fits
  | .signed sign t => t.Fits ∧ FitsInt32 (Expr.signed sign t).exact
  | .more left op right => left.Fits ∧ right.Fits ∧ FitsInt32 (Expr.more left op right).exact

end

/-- If the operator is a division, its operands fit, and the divisor is not zero. -/
def MulOp.DividesExactly (a b : Int) : MulOp → Prop
  | times => True
  | dividedBy => FitsInt32 a ∧ FitsInt32 b ∧ b ≠ 0

mutual

/-- The operands of all divisions in a factor fit, and no divisor is zero. -/
def Factor.DividesExactly : Factor → Prop
  | .literal _ => True
  | .group inner => inner.DividesExactly

/-- The operands of all divisions in a term fit, and no divisor is zero. -/
def Term.DividesExactly : Term → Prop
  | .factor f => f.DividesExactly
  | .more left op right => left.DividesExactly ∧ right.DividesExactly ∧
      op.DividesExactly left.exact right.exact

/-- The operands of all divisions in an expression fit, and no divisor is zero. -/
def Expr.DividesExactly : Expr → Prop
  | .term t => t.DividesExactly
  | .signed _ t => t.DividesExactly
  | .more left _ right => left.DividesExactly ∧ right.DividesExactly

end

/-- What fits is not changed by a reduction to 32 bits. -/
theorem FitsInt32.toInt_ofInt {n : Int} (h : FitsInt32 n) : (Int32.ofInt n).toInt = n :=
  Int32.toInt_ofInt_of_le h.1 h.2

/-- A sum or a difference of words is that of the integers, wrapped. -/
theorem AddOp.value_ofInt (a b : Int) (op : AddOp) :
    op.value (Int32.ofInt a) (Int32.ofInt b) = Int32.ofInt (op.exact a b) := by
  cases op with
  | plus => exact (Int32.ofInt_add a b).symm
  | minus => exact (Int32.ofInt_sub a b).symm

/-- A product, or a quotient that leaves no remainder, is that of the integers, wrapped. -/
theorem MulOp.value_ofInt (index : Nat) {a b : Int} {op : MulOp} (h : op.DividesExactly a b) :
    op.value index (Int32.ofInt a) (Int32.ofInt b) = .ok (Int32.ofInt (op.exact a b)) := by
  cases op with
  | times => exact congrArg Except.ok (Int32.ofInt_mul a b).symm
  | dividedBy =>
    obtain ⟨ha, hb, hne⟩ := h
    have hdivisor : Int32.ofInt b ≠ 0 := by
      intro hzero
      refine hne ?_
      rw [← hb.toInt_ofInt, hzero]
      rfl
    have hquotient : Int32.ofInt a / Int32.ofInt b = Int32.ofInt (a.tdiv b) := by
      rw [← Int32.toInt_inj, Int32.toInt_div, ha.toInt_ofInt, hb.toInt_ofInt, Int32.toInt_ofInt]
    simp only [value, if_neg hdivisor, hquotient, exact]

mutual

/-- **The value of a factor** whose divisions are exact is its exact value, reduced. -/
theorem Factor.value_of_dividesExactly (f : Factor) (h : f.DividesExactly) (index : Nat) :
    f.value index = .ok (Int32.ofInt f.exact) := by
  match f with
  | .literal l => rfl
  | .group inner => exact inner.value_of_dividesExactly h true index

/-- **The value of a term** whose divisions are exact is its exact value, reduced. -/
theorem Term.value_of_dividesExactly (t : Term) (h : t.DividesExactly) (index : Nat) :
    t.value index = .ok (Int32.ofInt t.exact) := by
  match t with
  | .factor f => exact f.value_of_dividesExactly h index
  | .more left op right =>
    obtain ⟨hleft, hright, hop⟩ := h
    simp only [Term.value, left.value_of_dividesExactly hleft, right.value_of_dividesExactly hright]
    exact MulOp.value_ofInt _ hop

/-- **The value of an expression** whose divisions are exact is its exact value, reduced. -/
theorem Expr.value_of_dividesExactly (e : Expr) (h : e.DividesExactly) (inGroup : Bool)
    (index : Nat) : e.value inGroup index = .ok (Int32.ofInt e.exact) := by
  match e with
  | .term t => exact t.value_of_dividesExactly h index
  | .signed sign t =>
    simp only [Expr.value, t.value_of_dividesExactly h]
    exact congrArg Except.ok (sign.value_ofInt 0 t.exact)
  | .more left op right =>
    obtain ⟨hleft, hright⟩ := h
    simp only [Expr.value, left.value_of_dividesExactly hleft, right.value_of_dividesExactly hright]
    exact congrArg Except.ok (op.value_ofInt left.exact right.exact)

end

mutual

/-- Where nothing is divided, all divisions are exact. -/
theorem Factor.dividesExactly_of_not_mem (f : Factor) (h : .operator .div ∉ f.lexemes) :
    f.DividesExactly := by
  match f with
  | .literal l => trivial
  | .group inner =>
    refine inner.dividesExactly_of_not_mem fun hmem => h ?_
    exact List.mem_cons_of_mem _ (List.mem_append_left _ hmem)

/-- Where nothing is divided, all divisions are exact. -/
theorem Term.dividesExactly_of_not_mem (t : Term) (h : .operator .div ∉ t.lexemes) :
    t.DividesExactly := by
  match t with
  | .factor f => exact f.dividesExactly_of_not_mem h
  | .more left op right =>
    simp only [Term.lexemes, List.mem_append, List.mem_cons, not_or] at h
    obtain ⟨hleft, hop, hright⟩ := h
    refine ⟨left.dividesExactly_of_not_mem hleft, right.dividesExactly_of_not_mem hright, ?_⟩
    cases op with
    | times => trivial
    | dividedBy => exact absurd rfl hop

/-- Where nothing is divided, all divisions are exact. -/
theorem Expr.dividesExactly_of_not_mem (e : Expr) (h : .operator .div ∉ e.lexemes) :
    e.DividesExactly := by
  match e with
  | .term t => exact t.dividesExactly_of_not_mem h
  | .signed sign t => exact t.dividesExactly_of_not_mem fun hmem => h (List.mem_cons_of_mem _ hmem)
  | .more left op right =>
    simp only [Expr.lexemes, List.mem_append, List.mem_cons, not_or] at h
    obtain ⟨hleft, -, hright⟩ := h
    exact ⟨left.dividesExactly_of_not_mem hleft, right.dividesExactly_of_not_mem hright⟩

end

mutual

/-- What fits throughout fits as a whole. -/
theorem Factor.Fits.fitsInt32 {f : Factor} (h : f.Fits) : FitsInt32 f.exact := by
  match f with
  | .literal l => exact h
  | .group inner => exact Expr.Fits.fitsInt32 h

/-- What fits throughout fits as a whole. -/
theorem Term.Fits.fitsInt32 {t : Term} (h : t.Fits) : FitsInt32 t.exact := by
  match t with
  | .factor f => exact Factor.Fits.fitsInt32 h
  | .more left op right => exact h.2.2.2

/-- What fits throughout fits as a whole. -/
theorem Expr.Fits.fitsInt32 {e : Expr} (h : e.Fits) : FitsInt32 e.exact := by
  match e with
  | .term t => exact Term.Fits.fitsInt32 h
  | .signed sign t => exact h.2
  | .more left op right => exact h.2.2

end

mutual

/-- Where everything fits, all divisions are exact. -/
theorem Factor.Fits.dividesExactly {f : Factor} (h : f.Fits) : f.DividesExactly := by
  match f with
  | .literal l => trivial
  | .group inner => exact Expr.Fits.dividesExactly h

/-- Where everything fits, all divisions are exact. -/
theorem Term.Fits.dividesExactly {t : Term} (h : t.Fits) : t.DividesExactly := by
  match t with
  | .factor f => exact Factor.Fits.dividesExactly h
  | .more left op right =>
    obtain ⟨hleft, hright, hop, -⟩ := h
    refine ⟨hleft.dividesExactly, hright.dividesExactly, ?_⟩
    cases op with
    | times => trivial
    | dividedBy => exact ⟨hleft.fitsInt32, hright.fitsInt32, hop⟩

/-- Where everything fits, all divisions are exact. -/
theorem Expr.Fits.dividesExactly {e : Expr} (h : e.Fits) : e.DividesExactly := by
  match e with
  | .term t => exact Term.Fits.dividesExactly h
  | .signed sign t => exact h.1.dividesExactly
  | .more left op right => exact ⟨h.1.dividesExactly, h.2.1.dividesExactly⟩

end

/-- A text without a `/` has no division among its lexemes. -/
theorem Lexeme.Spells.operator_not_mem {text : List Char} {lexemes : List Lexeme}
    (h : Spells text lexemes) {op : Operator} (hop : op.symbol ∉ text) :
    .operator op ∉ lexemes := by
  intro hmem
  have hsymbol : op.symbol ∈ lexemes.flatMap chars :=
    List.mem_flatMap.2 ⟨.operator op, hmem, List.mem_singleton_self _⟩
  rw [h.flatMap_chars] at hsymbol
  exact hop (List.mem_filter.1 hsymbol).1

/-- A text whose divisions are exact has its exact value, reduced to 32 bits. -/
theorem Expr.Derives.calculate_eq_exact {text : String} {e : Expr} (h : e.Derives text.toList)
    (hexact : e.DividesExactly) : calculate (some text) = .ok (Int32.ofInt e.exact) := by
  rw [calculate_of_parse h.parse_eq_ok, e.evaluate_tokens, e.value_of_dividesExactly hexact]
  rfl

/-- **Overflow is reduction.**  A text that is parsed and has no `/` has its exact value, reduced to
32 bits, whatever overflows on the way.  A text of which every subexpression fits in 32 bits and
divides by no zero has its exact value. -/
theorem calculate_exact {text : String} {tokens : List Token} (h : parse text = .ok tokens) :
    ∃ e : Expr, e.Derives text.toList ∧
      ('/' ∉ text.toList →
        ∃ v, calculate (some text) = .ok v ∧ v.toInt = e.exact.bmod (2 ^ 32)) ∧
      (e.Fits → ∃ v, calculate (some text) = .ok v ∧ v.toInt = e.exact) := by
  obtain ⟨e, hd, -⟩ := exists_derives_of_parse h
  refine ⟨e, hd, fun hdiv => ⟨Int32.ofInt e.exact, ?_, ?_⟩,
    fun hfits => ⟨Int32.ofInt e.exact, ?_, hfits.fitsInt32.toInt_ofInt⟩⟩
  · exact hd.calculate_eq_exact (e.dividesExactly_of_not_mem (hd.operator_not_mem hdiv))
  · exact Int32.toInt_ofInt
  · exact hd.calculate_eq_exact hfits.dividesExactly

/-- The product overflows, and reduction gives `-5`; the quotient is exact and truncated. -/
theorem calculate_exact_quotient :
    (∃ e : Expr, e.Derives "65536*65536-5".toList ∧ e.exact.bmod (2 ^ 32) = -5) ∧
      ∃ v, calculate (some "(0-7)/2") = .ok v ∧ v.toInt = -3 := by
  constructor
  · have hparse : parse "65536*65536-5" = .ok [.number 65536, .number 65536, .operator .mul,
        .number 5, .operator .sub] := rfl
    have hcalculate : calculate (some "65536*65536-5") = .ok (-5) := rfl
    obtain ⟨e, hd, hproduct, -⟩ := calculate_exact hparse
    obtain ⟨v, hv, hexact⟩ := hproduct (by decide)
    obtain rfl : -5 = v := Except.ok.inj (hcalculate.symm.trans hv)
    exact ⟨e, hd, hexact.symm⟩
  · have hparse : parse "(0-7)/2" = .ok [.number 0, .number 7, .operator .sub, .number 2,
        .operator .div] := rfl
    have hderives : (Expr.term (.more (.factor (.group (.more
        (.term (.factor (.literal ⟨'0', [], by decide⟩))) .minus
        (.factor (.literal ⟨'7', [], by decide⟩))))) .dividedBy
        (.literal ⟨'2', [], by decide⟩))).Derives "(0-7)/2".toList := Lexeme.spells_iff.2 rfl
    obtain ⟨e, hd, -, hfits⟩ := calculate_exact hparse
    obtain rfl := hd.unique hderives
    refine hfits ?_
    simp only [Expr.Fits, Term.Fits, Factor.Fits, MulOp.Defined]
    decide

end InfixCalc
