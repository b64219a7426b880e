import Brookesia.JsonUi.Grammar
import Brookesia.JsonUi.StringReferences

/-! # Types of expressions

The parser finds out whether operands fit their operator while it evaluates. The types of the operands tell it before: they are a second
meaning of the grammar (`types`). What the parser accepts has a type, that of its value; and what has a type is accepted, unless it
divides by a number close to zero (`parse_typed`). -/

namespace Brookesia.JsonUi.Typing

open Expressions Numbers Grammar StringReferences
open Filesystem.Path (Bytes text)

inductive ExprType
  | number (unit : ExpressionUnit)
  | string
  | bool
  deriving DecidableEq

variable {D : Doubles} {op : ExpressionTokenType} {left right v : ExpressionScalar D} {tokens ls rs : List (ExpressionToken D)}
  {context : Context} {level : Level} {τ : ExprType}

def typeOf : ExpressionScalar D → ExprType
  | .number value => .number value.unit
  | .string _ => .string
  | .bool _ => .bool

def unaryType (op : ExpressionTokenType) : ExprType → Option ExprType
  | .number unit => if op = .not then none else some (.number unit)
  | .bool => if op = .not then some .bool else none
  | .string => none

/-- A product has at most one unit, and a divisor none. -/
def binaryType (op : ExpressionTokenType) (left right : ExprType) : Option ExprType :=
  match operatorLevel op, left, right with
  | some .or, .bool, .bool | some .and, .bool, .bool | some .comparison, .string, .string => some .bool
  | some .comparison, .bool, .bool => if op = .equal ∨ op = .notEqual then some .bool else none
  | some .comparison, .number l, .number r => if l = r then some .bool else none
  | some .additive, .number l, .number r => if l = r then some (.number l) else none
  | some .multiplicative, .number l, .number r =>
    if r = .none then some (.number l) else if op = .multiply ∧ l = .none then some (.number r) else none
  | _, _, _ => none

def types : Meaning D ExprType where
  operand token := typeOf token.value
  unary op τ τ' := unaryType op τ = some τ'
  binary op left right τ := binaryType op left right = some τ

abbrev HasType : Level → List (ExpressionToken D) → ExprType → Prop := Derives types

def IsZero (v : ExpressionScalar D) : Prop := ∃ value, v = .number value ∧ D.nearZero value.value = true

/-- Somewhere behind a `/` stands what has a value close to zero. -/
def DividesByZero (tokens : List (ExpressionToken D)) : Prop :=
  ∃ before o divisor after v, tokens = before ++ o :: (divisor ++ after) ∧ o.type = .divide ∧ Denotes .unary divisor v ∧ IsZero v

/-! ### Operators -/

theorem toOption_map_eq_some {ε α β : Type} {x : Except ε α} {f : α → β} {b : β} :
    x.toOption.map f = some b ↔ ∃ a, x = .ok a ∧ f a = b := by
  cases x <;> simp [Except.toOption]

theorem typeOf_applyUnary : (applyUnary op v).toOption.map typeOf = unaryType op (typeOf v) := by
  by_cases hnot : op = .not
  · cases v <;> simp [applyUnary, inverted, unaryType, typeOf, hnot, Except.toOption]
  · cases v <;> simp [applyUnary, negated, unaryType, typeOf, hnot, Except.toOption]
    split <;> rfl

theorem typeOf_combine (hop : operatorLevel op ≠ none) (hzero : ¬(op = .divide ∧ IsZero right)) :
    (combine op left right).toOption.map typeOf = binaryType op (typeOf left) (typeOf right) := by
  cases left with
  | number l =>
    cases right with
    | number r =>
      obtain ⟨l, lunit⟩ := l
      obtain ⟨r, runit⟩ := r
      by_cases hdivide : op = .divide
      · subst hdivide
        have hr : D.nearZero r = false := by
          by_contra hr
          exact hzero ⟨rfl, ⟨r, runit⟩, rfl, by simpa using hr⟩
        simp only [combine, operatorLevel, onNumbers, applyMultiplicative, hr]
        cases lunit <;> cases runit <;> rfl
      · cases op <;> first | exact absurd rfl hop | exact absurd rfl hdivide | (cases lunit <;> cases runit <;> rfl)
    | _ => cases op <;> first | exact absurd rfl hop | rfl
  | _ => cases right <;> cases op <;> first | exact absurd rfl hop | rfl

theorem not_isZero_of_combine (h : combine .divide left right = .ok v) : ¬IsZero right := by
  rintro ⟨value, rfl, hzero⟩
  cases left <;> simp [combine, operatorLevel, onNumbers, applyMultiplicative, hzero, Except.map] at h

theorem binaryType_of_combine (hop : operatorLevel op = some level) (h : combine op left right = .ok v) :
    binaryType op (typeOf left) (typeOf right) = some (typeOf v) := by
  have hzero : ¬(op = .divide ∧ IsZero right) := by
    rintro ⟨rfl, hright⟩
    exact not_isZero_of_combine h hright
  rw [← typeOf_combine (by simp [hop]) hzero]
  exact toOption_map_eq_some.mpr ⟨v, h, rfl⟩

/-! ### Expressions -/

/-- What is accepted has the type of its value. -/
theorem hasType_of_denotes (h : Denotes level tokens v) : HasType level tokens (typeOf v) := by
  induction h with
  | operand h => exact .operand h
  | parentheses hstart hclose _ ih => exact .parentheses hstart hclose ih
  | unary ho _ hw ih =>
    refine .unary ho ih ?_
    simp only [types, ← typeOf_applyUnary]
    exact toOption_map_eq_some.mpr ⟨_, hw, rfl⟩
  | comparison ho _ _ hv ihleft ihright => exact .comparison ho ihleft ihright (binaryType_of_combine ho hv)
  | binary hlevel ho _ _ hv ihleft ihright => exact .binary hlevel ho ihleft ihright (binaryType_of_combine ho hv)
  | tighter hlevel _ ih => exact .tighter hlevel ih

theorem DividesByZero.within (h : DividesByZero tokens) (ls rs : List (ExpressionToken D)) : DividesByZero (ls ++ (tokens ++ rs)) := by
  obtain ⟨before, o, divisor, after, v, rfl, ho, hv, hzero⟩ := h
  exact ⟨ls ++ before, o, divisor, after ++ rs, v, by simp, ho, hv, hzero⟩

/-- An operand has a value of the type, or divides by zero. -/
def Evaluates (level : Level) (tokens : List (ExpressionToken D)) (τ : ExprType) : Prop :=
  (∃ v, Denotes level tokens v ∧ typeOf v = τ) ∨ DividesByZero tokens

/-- `a` is the level of the left operand. -/
theorem combine_of_evaluates {a : Level} {o : ExpressionToken D} {l r : ExprType} (ho : operatorLevel o.type = some level)
    (hτ : binaryType o.type l r = some τ) (hleft : Evaluates a ls l) (hright : Evaluates level.below rs r) :
    (∃ left right v, Denotes a ls left ∧ Denotes level.below rs right ∧ combine o.type left right = .ok v ∧ typeOf v = τ) ∨
      DividesByZero (ls ++ o :: rs) := by
  rcases hleft with ⟨left, hleft, rfl⟩ | hzero
  · rcases hright with ⟨right, hright, rfl⟩ | hzero
    · by_cases hzero : o.type = .divide ∧ IsZero right
      · obtain ⟨hdivide, hzero⟩ := hzero
        have hlevel : level.below = .unary := by
          rw [hdivide] at ho
          cases ho
          rfl
        exact .inr ⟨ls, o, rs, [], right, by simp, hdivide, hlevel ▸ hright, hzero⟩
      · rw [← typeOf_combine (by simp [ho]) hzero] at hτ
        obtain ⟨v, hv, hτ⟩ := toOption_map_eq_some.mp hτ
        exact .inl ⟨left, right, v, hleft, hright, hv, hτ⟩
    · exact .inr (by simpa using hzero.within (ls ++ [o]) [])
  · exact .inr (by simpa using hzero.within [] (o :: rs))

theorem HasType.evaluates (h : HasType level tokens τ) : Evaluates level tokens τ := by
  induction h with
  | operand h => exact .inl ⟨_, .operand h, rfl⟩
  | @parentheses start close tokens τ hstart hclose _ ih =>
    rcases ih with ⟨v, hv, hτ⟩ | hzero
    · exact .inl ⟨v, .parentheses hstart hclose hv, hτ⟩
    · exact .inr (hzero.within [start] [close])
  | @unary o tokens τ τ' ho _ hτ' ih =>
    rcases ih with ⟨v, hv, rfl⟩ | hzero
    · have htype : unaryType o.type (typeOf v) = some τ' := hτ'
      rw [← typeOf_applyUnary] at htype
      obtain ⟨w, hw, hτ⟩ := toOption_map_eq_some.mp htype
      exact .inl ⟨w, .unary ho hv hw, hτ⟩
    · exact .inr (by simpa using hzero.within [o] [])
  | comparison ho _ _ hτ ihleft ihright =>
    rcases combine_of_evaluates ho hτ ihleft ihright with ⟨left, right, v, hleft, hright, hv, hτ⟩ | hzero
    · exact .inl ⟨v, .comparison ho hleft hright hv, hτ⟩
    · exact .inr hzero
  | binary hlevel ho _ _ hτ ihleft ihright =>
    rcases combine_of_evaluates ho hτ ihleft ihright with ⟨left, right, v, hleft, hright, hv, hτ⟩ | hzero
    · exact .inl ⟨v, .binary hlevel ho hleft hright hv, hτ⟩
    · exact .inr hzero
  | tighter hlevel _ ih =>
    rcases ih with ⟨v, hv, hτ⟩ | hzero
    · exact .inl ⟨v, .tighter hlevel hv, hτ⟩
    · exact .inr hzero

theorem Reads.unique {st last last' : ParserState D} {tokens' : List (ExpressionToken D)} (h : Reads context st tokens last)
    (hend : last.current.type = .endOfText) (h' : Reads context st tokens' last') (hend' : last'.current.type = .endOfText) :
    tokens = tokens' := by
  induction h generalizing tokens' with
  | nil =>
    cases h' with
    | nil => rfl
    | cons hcurrent => exact absurd hend hcurrent
  | @cons st st' last tokens hcurrent hnext _ ih =>
    cases h' with
    | nil => exact absurd hend' hcurrent
    | cons _ hnext' hrest' =>
      obtain rfl := Except.ok.inj (hnext.symm.trans hnext')
      rw [ih hend hrest']

theorem lexes_unique {tokens' : List (ExpressionToken D)} (h : Lexes context tokens) (h' : Lexes context tokens') : tokens = tokens' := by
  obtain ⟨token, rest, last, hnext, hreads, hend⟩ := h
  obtain ⟨token', rest', last', hnext', hreads', hend'⟩ := h'
  obtain ⟨rfl, rfl⟩ := Prod.mk.inj (Except.ok.inj (hnext.symm.trans hnext'))
  exact Reads.unique hreads hend hreads' hend'

/-- The tokens alone tell whether the parser succeeds, and the type of the value, but for divisions by zero. -/
theorem parse_typed (hlexes : Lexes context tokens) (hzero : ¬DividesByZero tokens) :
    (∃ v : ExpressionScalar D, parse context = .ok v ∧ typeOf v = τ) ↔ HasType .or tokens τ := by
  constructor
  · rintro ⟨v, hparse, rfl⟩
    obtain ⟨tokens', hlexes', hv⟩ := parse_sound hparse
    rw [lexes_unique hlexes hlexes']
    exact hasType_of_denotes hv
  · intro h
    obtain ⟨v, hv, hτ⟩ := h.evaluates.resolve_right hzero
    exact ⟨v, parse_complete hlexes hv, hτ⟩

def negation : List (ExpressionToken rational) := [⟨.not, text "!", .string []⟩, ⟨.bool, text "true", .bool true⟩]

theorem parse_typed_negation : ∃ v : ExpressionScalar rational, parse ⟨text "! true", .object [], {}⟩ = .ok v ∧ typeOf v = .bool := by
  have hlexes : Lexes ⟨text "! true", .object [], {}⟩ negation := by
    refine ⟨_, _, _, rfl, .cons (by decide) rfl (.cons (by decide) rfl .nil), rfl⟩
  have hzero : ¬DividesByZero negation := by
    rintro ⟨before, o, divisor, after, v, heq, ho, -⟩
    have hmem : o ∈ negation := by simp [heq]
    have hnone : ∀ o ∈ negation, o.type ≠ .divide := by simp [negation]
    exact hnone o hmem ho
  refine (parse_typed hlexes hzero).mpr ?_
  have hbool : HasType .unary [(⟨.bool, text "true", .bool true⟩ : ExpressionToken rational)] .bool :=
    .tighter (by decide) (.operand (by simp [IsOperand]))
  have hnot : HasType .unary negation .bool := .unary rfl hbool rfl
  exact .tighter (by decide) (.tighter (by decide) (.tighter (by decide) (.tighter (by decide) (.tighter (by decide) hnot))))

end Brookesia.JsonUi.Typing
