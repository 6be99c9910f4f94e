/-
# No token is lost

The operators of a text go through the stack of a yard to its output, and no other way.  So at any
time those of the output and those of the stack are the operators that were read, in some order
(`Yard.RunsTo.operators_perm`).  Numbers are put out at once, so they stand in the order of the
text; a sign at the start of a group brings a zero (`Yard.RunsTo.numbers_eq`).  The parentheses on
the stack are those that were opened and not closed (`Yard.RunsTo.openPositions_eq`).

The zero of a sign is paid for by the parenthesis before it, which is no token.  So there are never
more tokens than characters were read (`Conserves.length_le`).
-/

import InfixCalc.Proofs.Nesting
import InfixCalc.Proofs.Numerals
import InfixCalc.Proofs.YardStep

namespace InfixCalc

namespace Token

/-- The operator of a token, if it has one. -/
def operator? : Token → Option Operator
  | number _ => none
  | operator op => some op

/-- The number of a token, if it has one. -/
def number? : Token → Option Int32
  | number value => some value
  | operator _ => none

/-- Of operator tokens, all are operators. -/
theorem filterMap_operator?_operators (ops : List Operator) :
    (ops.map operator).filterMap operator? = ops := by
  rw [List.filterMap_map]
  exact List.filterMap_some

/-- Of operator tokens, none is a number. -/
theorem filterMap_number?_operators (ops : List Operator) :
    (ops.map operator).filterMap number? = [] := by
  rw [List.filterMap_map]
  exact List.filterMap_eq_nil_iff.2 fun _ _ => rfl

/-- A token is an operator or a number. -/
theorem length_filterMap_add (tokens : List Token) :
    (tokens.filterMap operator?).length + (tokens.filterMap number?).length = tokens.length := by
  induction tokens with
  | nil => rfl
  | cons token tokens ih =>
    cases token <;> simp [List.filterMap_cons, operator?, number?] <;> omega

end Token

namespace Waiting

/-- The operator that waits, if one does. -/
def operator? : Waiting → Option Operator
  | operator op => some op
  | openParen _ => none

/-- The position of a parenthesis. -/
def position? : Waiting → Option Nat
  | operator _ => none
  | openParen position => some position

/-- Of waiting operators, all are operators. -/
theorem filterMap_operator?_operators (ops : List Operator) :
    (ops.map operator).filterMap operator? = ops := by
  rw [List.filterMap_map]
  exact List.filterMap_some

/-- Of waiting operators, none is an opened group. -/
theorem filterMap_position?_operators (ops : List Operator) :
    (ops.map operator).filterMap position? = [] := by
  rw [List.filterMap_map]
  exact List.filterMap_eq_nil_iff.2 fun _ _ => rfl

end Waiting

namespace Lexeme

/-- The operator of a lexeme, if it has one. -/
def operator? : Lexeme → Option Operator
  | operator op => some op
  | _ => none

/-- The numbers that a lexeme brings behind another one: its value, if it is a literal, and a zero,
if it is a sign that starts a group. -/
def numbersBehind (previous : Option Lexeme) : Lexeme → List Nat
  | literal first more => [Decimal.value (first :: more)]
  | operator op => if op.isSign ∧ previous = some openParen then [0] else []
  | _ => []

/-- The numbers that lexemes bring behind another one. -/
def numbersFrom (previous : Option Lexeme) : List Lexeme → List Nat
  | [] => []
  | lexeme :: rest => lexeme.numbersBehind previous ++ numbersFrom (some lexeme) rest

/-- The values of the literals, in order, with a zero for each sign right behind a `(`. -/
def numbers (lexemes : List Lexeme) : List Nat := numbersFrom none lexemes

/-- The numbers of lexemes in two parts: those of the second depend on the last lexeme of the
first. -/
theorem numbersFrom_append (previous : Option Lexeme) (first second : List Lexeme) :
    numbersFrom previous (first ++ second) =
      numbersFrom previous first ++ numbersFrom (first.getLast?.or previous) second := by
  induction first generalizing previous with
  | nil => rfl
  | cons lexeme rest ih =>
    have hlast : (lexeme :: rest).getLast?.or previous = rest.getLast?.or (some lexeme) := by
      rw [List.getLast?_cons]
      cases rest.getLast? <;> rfl
    rw [List.cons_append, numbersFrom, ih, numbersFrom, hlast, List.append_assoc]

/-- The numbers after one lexeme more: it adds those that stand behind the lexeme before it. -/
theorem numbers_append_singleton (lexemes : List Lexeme) (last : Lexeme) :
    numbers (lexemes ++ [last]) = numbers lexemes ++ last.numbersBehind lexemes.getLast? := by
  rw [numbers, numbersFrom_append, Option.or_none, numbersFrom, numbersFrom, List.append_nil]
  rfl

/-- A zero comes in the place of the parenthesis before its sign. -/
theorem length_numbersFrom_add_le (previous : Option Lexeme) (lexemes : List Lexeme) :
    (numbersFrom previous lexemes).length + (lexemes.filterMap operator?).length ≤
      lexemes.length + if previous = some openParen then 1 else 0 := by
  induction lexemes generalizing previous with
  | nil => simp [numbersFrom]
  | cons lexeme rest ih =>
    have hrest := ih (some lexeme)
    rw [numbersFrom, List.length_append]
    cases lexeme with
    | operator op =>
      -- the zero of a sign is paid for by the parenthesis before it, which is no token
      have hzero : (numbersBehind previous (operator op)).length ≤
          if previous = some openParen then 1 else 0 := by
        rw [numbersBehind]
        split
        · rename_i h
          rw [if_pos h.2]
          exact Nat.le_refl 1
        · exact Nat.zero_le _
      have hoperators : ((operator op :: rest).filterMap operator?).length =
          (rest.filterMap operator?).length + 1 := rfl
      rw [if_neg (by simp)] at hrest
      rw [hoperators, List.length_cons]
      omega
    | _ =>
      simp [List.filterMap_cons, operator?, numbersBehind] at hrest ⊢
      omega

/-- There are no more numbers and operators than lexemes. -/
theorem length_numbers_add_le (lexemes : List Lexeme) :
    (numbers lexemes).length + (lexemes.filterMap operator?).length ≤ lexemes.length :=
  length_numbersFrom_add_le none lexemes

/-- The operators of the lexemes are those of the characters. -/
theorem Spells.filterMap_operator? {text : List Char} {lexemes : List Lexeme}
    (h : Spells text lexemes) :
    lexemes.filterMap operator? = text.filterMap Operator.ofChar? := by
  have hnone {c : Char} (hc : ∀ op, CharClass.of c ≠ .operator op) : Operator.ofChar? c = none := by
    rw [Option.eq_none_iff_forall_ne_some]
    exact fun op hop => hc op (CharClass.of_eq_operator_iff.2 (Operator.ofChar?_eq_some_iff.1 hop))
  induction h with
  | nil => rfl
  | blank isBlank _ ih =>
    rw [ih, List.filterMap_cons_none (hnone ?_)]
    simp [CharClass.of_eq_separator_iff.2 isBlank]
  | @lexeme lexeme text lexemes wellFormed _ _ ih =>
    rw [List.filterMap_append, ← ih]
    cases lexeme with
    | literal first more =>
      have hdigits : (first :: more).filterMap Operator.ofChar? = [] := by
        refine List.filterMap_eq_nil_iff.2 fun c hc => hnone ?_
        simp [CharClass.of_eq_digit_iff.2 (wellFormed c hc)]
      rw [chars, hdigits]
      rfl
    | operator op => simp [chars, head, operator?]
    | openParen => rfl
    | closeParen => rfl
    | unknown c =>
      have hother : CharClass.of c = .other := wellFormed
      have hc : [c].filterMap Operator.ofChar? = [] :=
        List.filterMap_cons_none (hnone (by simp [hother]))
      rw [show chars (unknown c) = [c] from rfl, hc]
      rfl

/-- There are no more lexemes than characters. -/
theorem Spells.length_le {text : List Char} {lexemes : List Lexeme} (h : Spells text lexemes) :
    lexemes.length ≤ text.length := by
  induction h with
  | nil => exact Nat.le_refl 0
  | blank _ _ ih => exact Nat.le_succ_of_le ih
  | @lexeme lexeme text lexemes _ _ _ ih =>
    have hlength := List.length_pos_iff.2 lexeme.chars_ne_nil
    rw [List.length_append, List.length_cons]
    omega

end Lexeme

namespace Yard

/-- The operators of the output and of the stack. -/
def operators (yard : Yard) : List Operator :=
  yard.output.filterMap Token.operator? ++ yard.stack.filterMap Waiting.operator?

/-- The numbers of the output, in order. -/
def numbers (yard : Yard) : List Int32 := yard.output.reverse.filterMap Token.number?

/-- The positions of the parentheses on the stack, the latest first. -/
def openPositions (yard : Yard) : List Nat := yard.stack.filterMap Waiting.position?

/-- Operators that go from the stack to the output are the same operators. -/
theorem operators_released (released : List Operator) (stack : List Waiting) (output : List Token)
    (before after : Expected) :
    (operators ⟨stack, (released.map Token.operator).reverse ++ output, after⟩).Perm
      (operators ⟨released.map .operator ++ stack, output, before⟩) := by
  simp only [operators, List.filterMap_append, List.filterMap_reverse,
    Token.filterMap_operator?_operators, Waiting.filterMap_operator?_operators]
  have hreverse := (List.reverse_perm released).append_right (output.filterMap Token.operator?)
  rw [← List.append_assoc]
  exact (hreverse.trans List.perm_append_comm).append_right _

/-- An operator that is put on the stack is one more. -/
theorem operators_put (op : Operator) (stack : List Waiting) (output : List Token)
    (before after : Expected) :
    (operators ⟨.operator op :: stack, output, after⟩).Perm
      (operators ⟨stack, output, before⟩ ++ [op]) :=
  List.perm_middle.trans (List.perm_append_singleton _ _).symm

section Step

variable {placed : List Placed} {last : Placed} {yard next : Yard}

/-- A step adds the operator of its lexeme, if that is one. -/
theorem Step.operators_perm (h : Step yard last next) :
    next.operators.Perm (yard.operators ++ last.lexeme.operator?.toList) := by
  cases h with
  | literal => exact .of_eq (List.append_nil _).symm
  | openParen => exact .of_eq (List.append_nil _).symm
  | @closeParen stack output position opened closed =>
    have hreleased := operators_released closed (.openParen opened :: stack) output
    exact (hreleased .operator .operator).trans (.of_eq (List.append_nil _).symm)
  | leadingSign => exact .refl _
  | groupSign => exact operators_put _ _ _ .groupStart _
  | @operator stack output op position released =>
    exact (operators_put op stack _ .operator _).trans
      ((operators_released released stack output _ _).append_right [op])

/-- A step adds the numbers that its lexeme brings. -/
theorem Step.numbers_eq (h : Step yard last next) (hrun : RunsTo placed yard) :
    next.numbers.map Int32.toInt =
      yard.numbers.map Int32.toInt ++
        (last.lexeme.numbersBehind (placed.getLast?.map Placed.lexeme)).map Int.ofNat := by
  have hstart := hrun.expected_eq_groupStart_iff
  cases h with
  | literal _ hread =>
    have hvalue := Decimal.toInt_of_int32OfDigits? hread
    simp [numbers, Lexeme.numbersBehind, Token.number?, hvalue]
  | openParen => simp [numbers, Lexeme.numbersBehind]
  | closeParen closed => simp [numbers, Lexeme.numbersBehind, Token.number?]
  | leadingSign =>
    obtain rfl := hrun.eq_start_iff.1 rfl
    simp [numbers, Lexeme.numbersBehind, Yard.start]
  | groupSign hsign =>
    -- the yard expects the start of a group only behind its parenthesis
    have hlast : placed.getLast?.map Placed.lexeme = some .openParen :=
      (hstart.1 rfl).resolve_left fun h => by cases h
    simp [numbers, Lexeme.numbersBehind, Token.number?, hlast, hsign]
  | operator released =>
    have hlast : placed.getLast?.map Placed.lexeme ≠ some .openParen :=
      fun h => by cases hstart.2 (.inr h)
    simp [numbers, Lexeme.numbersBehind, Token.number?, hlast]

/-- A step opens and closes groups as its lexeme does. -/
theorem Step.openPositions_eq (h : Step yard last next) :
    next.openPositions = Placed.nest yard.openPositions last := by
  cases h with
  | literal => rfl
  | openParen => rfl
  | closeParen closed =>
    simp only [openPositions, Placed.nest, List.filterMap_append,
      Waiting.filterMap_position?_operators]
    rfl
  | leadingSign => rfl
  | groupSign => rfl
  | operator released =>
    simp only [openPositions, Placed.nest, List.filterMap_append,
      Waiting.filterMap_position?_operators]
    rfl

end Step

variable {placed : List Placed} {yard : Yard}

/-- **The operators of the output and of the stack** are those that were read. -/
theorem RunsTo.operators_perm (h : RunsTo placed yard) :
    yard.operators.Perm (placed.filterMap fun p => p.lexeme.operator?) := by
  induction h with
  | start => exact .nil
  | @step placed last yard next before hstep ih =>
    have hlast : [last].filterMap (fun p => p.lexeme.operator?) = last.lexeme.operator?.toList := by
      cases hop : last.lexeme.operator? <;> simp [hop]
    rw [List.filterMap_append, hlast]
    exact hstep.operators_perm.trans (ih.append_right _)

/-- **The numbers of the output** are those that were read, in order. -/
theorem RunsTo.numbers_eq (h : RunsTo placed yard) :
    yard.numbers.map Int32.toInt =
      (Lexeme.numbers (placed.map Placed.lexeme)).map Int.ofNat := by
  induction h with
  | start => rfl
  | step before hstep ih =>
    rw [hstep.numbers_eq before, ih, List.map_append, List.map_singleton,
      Lexeme.numbers_append_singleton, List.map_append, List.getLast?_map]

/-- **The parentheses of the stack** are those that were opened and not closed. -/
theorem RunsTo.openPositions_eq (h : RunsTo placed yard) :
    yard.openPositions = placed.foldl Placed.nest [] := by
  induction h with
  | start => rfl
  | step before hstep ih => rw [hstep.openPositions_eq, ih, List.foldl_append]; rfl

end Yard

/-- The tokens that have been put out, and what waits on a stack, are those of the characters that
were read. -/
structure Conserves (read : List Char) (tokens : List Token) (stack : List Waiting) : Prop where
  /-- An operator that was read has been put out or waits, and there is no other. -/
  operators : (tokens.filterMap Token.operator? ++ stack.filterMap Waiting.operator?).Perm
    (read.filterMap Operator.ofChar?)
  /-- The literals that were read have been put out in order, with a zero for each sign right behind
  a `(`. -/
  numbers : ∃ lexemes, Lexeme.Spells read lexemes ∧
    (tokens.filterMap Token.number?).map Int32.toInt = (Lexeme.numbers lexemes).map Int.ofNat

/-- **There are no more tokens than characters,** counting those that wait. -/
theorem Conserves.length_le {read : List Char} {tokens : List Token} {stack : List Waiting}
    (h : Conserves read tokens stack) :
    tokens.length + (stack.filterMap Waiting.operator?).length ≤ read.length := by
  obtain ⟨lexemes, hspells, hnumbers⟩ := h.numbers
  have hoperators := h.operators.length_eq
  rw [← hspells.filterMap_operator?, List.length_append] at hoperators
  have hvalues := congrArg List.length hnumbers
  rw [List.length_map, List.length_map] at hvalues
  have htokens := Token.length_filterMap_add tokens
  have hlexemes := Lexeme.length_numbers_add_le lexemes
  have hread := hspells.length_le
  omega

/-- In the end the stack goes to the output. -/
theorem Conserves.drain {read : List Char} {tokens : List Token} {drained : List Operator}
    (h : Conserves read tokens (drained.map .operator)) :
    Conserves read (tokens ++ drained.map .operator) [] := by
  constructor
  · have hoperators := h.operators
    rw [Waiting.filterMap_operator?_operators] at hoperators
    rwa [List.filterMap_append, Token.filterMap_operator?_operators, List.filterMap_nil,
      List.append_nil]
  · rw [List.filterMap_append, Token.filterMap_number?_operators, List.append_nil]
    exact h.numbers

namespace Scan

variable {text : List Char} {scan : Scan}

/-- **In every state of a scan** the tokens are those of what was read. -/
theorem Reaches.conserves (h : Reaches text scan) :
    Conserves scan.consumed scan.yard.output.reverse scan.yard.stack := by
  have hspells : Lexeme.Spells scan.consumed ((Lexeme.read scan.consumed).map Placed.lexeme) :=
    Lexeme.spells_iff.2 rfl
  refine ⟨?_, _, hspells, h.runsTo.numbers_eq⟩
  have hperm := h.runsTo.operators_perm
  rw [← hspells.filterMap_operator?, List.filterMap_map]
  exact (((List.reverse_perm _).filterMap _).append_right _).trans hperm

/-- The parentheses on the stack are those of the text that are not closed. -/
theorem Reaches.openPositions_eq (h : Reaches text scan) :
    scan.yard.openPositions = unclosed scan.consumed := by
  rw [h.runsTo.openPositions_eq, Lexeme.read, foldl_nest_readFrom]
  rfl

/-- **No token is lost.**  At any time the operators that were read have been put out or wait on the
stack, and the numbers that were read have been put out in order, with a zero for each sign right
behind a `(`.  The parentheses on the stack are those that are not closed, from right to left, with
their positions in the text.  There are no more tokens than characters were read, counting the
operators that wait; and so the whole text has no more tokens than characters. -/
theorem tokens_conserved (text : List Char) :
    (∀ scan, Reaches text scan →
      scan.consumed = text.take scan.cursor.position ∧ scan.cursor.position ≤ text.length ∧
      Conserves scan.consumed scan.yard.output.reverse scan.yard.stack ∧
      (scan.yard.stack.filterMap Waiting.position? = unclosed scan.consumed ∧
        (unclosed scan.consumed).Pairwise (· > ·) ∧
        ∀ q ∈ unclosed scan.consumed, text[q]? = some '(') ∧
      scan.yard.output.length + (scan.yard.stack.filterMap Waiting.operator?).length ≤
        scan.cursor.position) ∧
    ∀ tokens, postfixOf text = .ok tokens →
      Conserves text tokens [] ∧ tokens.length ≤ text.length := by
  constructor
  · intro scan h
    have htext := h.hasRead.text_eq
    refine ⟨?_, ?_, h.conserves, ⟨h.openPositions_eq, ?_, fun q hq => ?_⟩, ?_⟩
    · rw [← htext]
      exact scan.cursor.consumed_eq_take
    · rw [← htext]
      exact scan.cursor.position_le
    · exact pairwise_unclosedFrom _ .nil fun q hq => by cases hq
    · have hat := getElem?_of_mem_unclosed hq
      obtain ⟨hlt, -⟩ := List.getElem?_eq_some_iff.1 hat
      rw [← htext, Cursor.text_eq, List.getElem?_append_left hlt]
      exact hat
    · have hlength := h.conserves.length_le
      rwa [List.length_reverse, Cursor.length_consumed] at hlength
  · intro tokens htokens
    -- the postfix sequence is what the last scan has put out, with the stack drained behind it
    obtain ⟨last, hlast, ⟨hend, hfinish⟩ | ⟨c, e, -, -, herror⟩⟩ := exists_last text
    · rw [hfinish] at htokens
      obtain ⟨drained, hstack, rfl⟩ := Yard.finish_eq_ok htokens
      have hconserves := hlast.conserves
      rw [hlast.hasRead.consumed_eq hend, hstack] at hconserves
      exact ⟨hconserves.drain, hconserves.drain.length_le⟩
    · rw [herror] at htokens
      cases htokens

/-- The sign in the group brings a zero, and the parenthesis that is closed pays for it. -/
theorem tokens_conserved_zero :
    let scan : Scan := ⟨⟨['(', '+', ')', '4', '-', '(', '*', '3'], []⟩,
      ⟨[.openParen 7, .operator .add],
        [.operator .mul, .operator .sub, .number 4, .number 0, .number 3], .groupStart⟩⟩
    Reaches "3*(-4)+(".toList scan ∧
      Conserves "3*(-4)+(".toList
        [.number 3, .number 0, .number 4, .operator .sub, .operator .mul]
        [.openParen 7, .operator .add] ∧
      unclosed "3*(-4)+(".toList = [7] := by
  intro scan
  have hstart : Reaches "3*(-4)+(".toList (start "3*(-4)+(".toList) := .start
  have hliteral := hstart.turn (c := '3') rfl rfl
  have hproduct := hliteral.turn (c := '*') rfl rfl
  have hgroup := hproduct.turn (c := '(') rfl rfl
  have hsign := hgroup.turn (c := '-') rfl rfl
  have hoperand := hsign.turn (c := '4') rfl rfl
  have hclosed := hoperand.turn (c := ')') rfl rfl
  have hsum := hclosed.turn (c := '+') rfl rfl
  have hreaches : Reaches "3*(-4)+(".toList scan := hsum.turn (c := '(') rfl rfl
  obtain ⟨-, -, hconserves, ⟨hopened, -, -⟩, -⟩ :=
    (tokens_conserved "3*(-4)+(".toList).1 scan hreaches
  exact ⟨hreaches, hconserves, hopened.symm⟩

end Scan
end InfixCalc
