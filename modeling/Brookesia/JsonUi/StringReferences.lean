import Brookesia.JsonUi.Expressions

/-! # References to strings

A string of the environment becomes a number in an expression where it is written as one, and a string literal does not. So the theme and
the language can be compared with literals only if they are not written as numbers. -/

namespace Brookesia.JsonUi.StringReferences

open Filesystem.Path (Bytes text)
open Data.Json List
open AppPackage.Manifest (isSpace isDigit)
open Numbers Expressions

/-- `${env.<name>} == "<literal>"`. -/
def comparison (name literal : Bytes) : Bytes :=
  envPrefix ++ (name ++ 125 :: (text " == " ++ 34 :: (literal ++ [34])))

def comparisonExpression (name literal : Bytes) : Bytes := text "$\x7bexpr(" ++ (comparison name literal ++ text ")\x7d")

/-- The text is written as a number, with or without `dp`, and `double` has the number. -/
def IsNumeric (D : Doubles) (s : Bytes) : Prop :=
  ∃ numeral, strtod (cString (splitUnit (trimExpressionText s)).1) = some (numeral, []) ∧ D.outOfRange numeral = false

variable {D : Doubles} {context : Context} {environment : Environment} {constants : JsonValue} {name literal value s : Bytes}

/-! ### The value of a reference -/

theorem parseExpressionNumericText_ok (h : IsNumeric D s) : ∃ v : ExpressionValue D, parseExpressionNumericText s = .ok v := by
  obtain ⟨numeral, hread, hrange⟩ := h
  have hne : (splitUnit (trimExpressionText s)).1 ≠ [] := by
    intro hemp
    rw [hemp] at hread
    cases hread
  unfold parseExpressionNumericText
  dsimp only
  rw [if_neg hne, hread]
  dsimp only
  rw [hrange]
  exact ⟨_, rfl⟩

theorem parseExpressionNumericText_error (h : ¬IsNumeric D s) : ∃ e, (parseExpressionNumericText s : Except Bytes (ExpressionValue D)) = .error e := by
  unfold parseExpressionNumericText
  dsimp only
  split
  · exact ⟨_, rfl⟩
  · split
    · next numeral hread =>
      have hrange : D.outOfRange numeral = true := by
        by_contra hnot
        exact h ⟨numeral, hread, Bool.eq_false_iff.mpr hnot⟩
      rw [hrange]
      exact ⟨_, rfl⟩
    · exact ⟨_, rfl⟩

theorem expressionValueFromJson_numeric (h : IsNumeric D (cString value)) (reference : Bytes) :
    ∃ v : ExpressionValue D, expressionValueFromJson (.string value) reference = .ok (.number v) := by
  obtain ⟨v, hv⟩ := parseExpressionNumericText_ok h
  refine ⟨v, ?_⟩
  unfold expressionValueFromJson
  dsimp only
  rw [hv]

theorem expressionValueFromJson_string (h : ¬IsNumeric D (cString value)) (reference : Bytes) :
    (expressionValueFromJson (.string value) reference : Except Bytes (ExpressionScalar D)) = .ok (.string (cString value)) := by
  obtain ⟨e, he⟩ := parseExpressionNumericText_error h
  unfold expressionValueFromJson
  dsimp only
  rw [he]

/-! ### The tokens of the comparison -/

theorem takeWhile_brace (hname : 125 ∉ name) (rest : Bytes) :
    (name ++ 125 :: rest).takeWhile (· ≠ 125) = name ∧ (name ++ 125 :: rest).dropWhile (· ≠ 125) = 125 :: rest := by
  induction name with
  | nil => exact ⟨rfl, rfl⟩
  | cons c name ih =>
    obtain ⟨hc, hname⟩ := ne_and_not_mem_of_not_mem_cons hname
    have hkept : decide (c ≠ 125) = true := decide_eq_true hc.symm
    obtain ⟨htake, hdrop⟩ := ih hname
    refine ⟨?_, ?_⟩
    · rw [cons_append, takeWhile_cons, if_pos hkept, htake]
    · rw [cons_append, dropWhile_cons, if_pos hkept, hdrop]

theorem next_reference (hname : 125 ∉ name) (hne : name ≠ []) (rest : Bytes) :
    (next context (envPrefix ++ (name ++ 125 :: rest)) : Lexed D) =
      referenceToken envPrefix name rest (text "Failed to resolve expression environment reference: ")
        (environmentReferenceValue D context.environment name) := by
  obtain ⟨htake, hdrop⟩ := takeWhile_brace hname rest
  have hscan : scanReference envPrefix (envPrefix ++ (name ++ 125 :: rest)) = .ok (name, rest) := by
    unfold scanReference
    rw [drop_left]
    dsimp only
    rw [htake, hdrop]
    exact if_neg hne
  have hnext : (next context (envPrefix ++ (name ++ 125 :: rest)) : Lexed D) =
      parseReference context (envPrefix ++ (name ++ 125 :: rest)) := rfl
  have henv : envPrefix.isPrefixOf (envPrefix ++ (name ++ 125 :: rest)) = true := rfl
  have hconstant : constantPrefix.isPrefixOf (envPrefix ++ (name ++ 125 :: rest)) = false := rfl
  rw [hnext]
  unfold parseReference
  rw [hconstant, henv, hscan]
  rfl

theorem scanString_append (hquote : 34 ∉ literal) (hbs : 92 ∉ literal) (before : Bytes) :
    scanString before (literal ++ [34]) = some (before ++ literal, []) := by
  induction literal generalizing before with
  | nil =>
    rw [append_nil]
    rfl
  | cons c literal ih =>
    obtain ⟨hne, hrest⟩ := ne_and_not_mem_of_not_mem_cons hquote
    obtain ⟨hne', hrest'⟩ := ne_and_not_mem_of_not_mem_cons hbs
    have hnext := ih hrest hrest' (before ++ [c])
    rw [append_assoc, singleton_append] at hnext
    cases literal with
    | nil =>
      show (if c = 92 then _ else if c = 34 then _ else scanString (before ++ [c]) [34]) = _
      rw [if_neg hne'.symm, if_neg hne.symm]
      exact hnext
    | cons d literal =>
      show (if c = 92 then _ else if c = 34 then _ else scanString (before ++ [c]) (d :: (literal ++ [34]))) = _
      rw [if_neg hne'.symm, if_neg hne.symm]
      exact hnext

theorem next_literal (hquote : 34 ∉ literal) (hbs : 92 ∉ literal) :
    (next context (32 :: 34 :: (literal ++ [34])) : Lexed D) = .ok (⟨.string, literal, .string literal⟩, []) := by
  have hnext : (next context (32 :: 34 :: (literal ++ [34])) : Lexed D) = parseString (34 :: (literal ++ [34])) := rfl
  rw [hnext]
  unfold parseString
  rw [drop_one, tail_cons, scanString_append hquote hbs, nil_append]

theorem next_equal (literal : Bytes) : (next context (text " == " ++ 34 :: literal) : Lexed D) =
    .ok ({ type := .equal, text := text "==" }, 32 :: 34 :: literal) := rfl

theorem next_end : (next context [] : Lexed D) = .ok ({ type := .endOfText, text := [] }, []) := rfl

/-! ### The comparison -/

def arithmetic : List ExpressionTokenType := [.plus, .minus, .multiply, .divide]

variable {st after : ParserState D}

theorem parsePrimary_operand (htype : st.current.type ∈ [.number, .constant, .string, .bool]) (hadv : advance context st = .ok after) (fuel : ℕ) :
    parsePrimary context (fuel + 1) st = .ok (st.current.value, after) := by
  rw [parsePrimary, if_pos htype, hadv]
  rfl

theorem parseUnary_operand (htype : st.current.type ∈ [.number, .constant, .string, .bool]) (hadv : advance context st = .ok after) (fuel : ℕ) :
    parseUnary context (fuel + 2) st = .ok (st.current.value, after) := by
  have hnot : st.current.type ≠ .not := by
    intro h
    rw [h] at htype
    simp at htype
  have hsign : ¬(st.current.type = .plus ∨ st.current.type = .minus) := by
    rintro (h | h) <;>
    · rw [h] at htype
      simp at htype
  rw [parseUnary, if_neg hnot, if_neg hsign]
  exact parsePrimary_operand htype hadv fuel

theorem parseMultiplicative_operand (htype : st.current.type ∈ [.number, .constant, .string, .bool]) (hadv : advance context st = .ok after)
    (hstop : after.current.type ∉ arithmetic) (fuel : ℕ) :
    parseMultiplicative context (fuel + 3) st = .ok (st.current.value, after) := by
  have hrest : ¬(after.current.type = .multiply ∨ after.current.type = .divide) := by
    rintro (h | h) <;> exact hstop (by rw [h]; simp [arithmetic])
  rw [parseMultiplicative, parseUnary_operand htype hadv fuel]
  show parseMultiplicativeRest context (fuel + 2) st.current.value after = _
  rw [parseMultiplicativeRest, if_neg hrest]

theorem parseAdditive_operand (htype : st.current.type ∈ [.number, .constant, .string, .bool]) (hadv : advance context st = .ok after)
    (hstop : after.current.type ∉ arithmetic) (fuel : ℕ) :
    parseAdditive context (fuel + 4) st = .ok (st.current.value, after) := by
  have hrest : ¬(after.current.type = .plus ∨ after.current.type = .minus) := by
    rintro (h | h) <;> exact hstop (by rw [h]; simp [arithmetic])
  rw [parseAdditive, parseMultiplicative_operand htype hadv hstop fuel]
  show parseAdditiveRest context (fuel + 3) st.current.value after = _
  rw [parseAdditiveRest, if_neg hrest]

theorem parseOr_equal {atEqual right last : ParserState D} (htype : st.current.type ∈ [.number, .constant, .string, .bool])
    (hadv : advance context st = .ok atEqual) (hequal : atEqual.current.type = .equal) (hadv' : advance context atEqual = .ok right)
    (htype' : right.current.type ∈ [.number, .constant, .string, .bool]) (hadv'' : advance context right = .ok last)
    (hlast : last.current.type = .endOfText) (fuel : ℕ) :
    parseOr context (fuel + 7) st =
      (compareScalars st.current.value right.current.value .equal).map fun result => (.bool result, last) := by
  have hleft : parseAdditive context (fuel + 4) st = .ok (st.current.value, atEqual) :=
    parseAdditive_operand htype hadv (by rw [hequal]; simp [arithmetic]) fuel
  have hright : parseAdditive context (fuel + 4) right = .ok (right.current.value, last) :=
    parseAdditive_operand htype' hadv'' (by rw [hlast]; simp [arithmetic]) fuel
  have hcomparison : parseComparison context (fuel + 5) st =
      (compareScalars st.current.value right.current.value .equal).map fun result => (.bool result, last) := by
    have hkind : isComparison atEqual.current.type = true := by
      rw [hequal]
      rfl
    rw [parseComparison, hleft]
    show (if isComparison atEqual.current.type = true then _ else _) = _
    rw [if_pos hkind, hadv']
    show (parseAdditive context (fuel + 4) right >>= _) = _
    rw [hright, hequal]
    show (compareScalars st.current.value right.current.value .equal >>= _) = _
    cases compareScalars st.current.value right.current.value .equal <;> rfl
  have hand : last.current.type ≠ .and := by
    rw [hlast]
    exact ExpressionTokenType.noConfusion
  have hor : last.current.type ≠ .or := by
    rw [hlast]
    exact ExpressionTokenType.noConfusion
  rw [parseOr, parseAnd, hcomparison]
  cases compareScalars st.current.value right.current.value .equal with
  | error e => rfl
  | ok result =>
    show (parseAndRest context (fuel + 5) (.bool result) last >>= _) = _
    rw [parseAndRest, if_neg hand]
    show parseOrRest context (fuel + 6) (.bool result) last = _
    rw [parseOrRest, if_neg hor]
    rfl

theorem parse_comparison {scalar : ExpressionScalar D} (hname : 125 ∉ name) (hne : name ≠ []) (hquote : 34 ∉ literal) (hbs : 92 ∉ literal)
    (hval : environmentReferenceValue D environment name = some (.string value))
    (hscalar : expressionValueFromJson (.string value) (envPrefix ++ name ++ text "\x7d") = .ok scalar) :
    parse (D := D) ⟨comparison name literal, constants, environment⟩ = (compareScalars scalar (.string literal) .equal).map .bool := by
  have hfst : (next ⟨comparison name literal, constants, environment⟩ (comparison name literal) : Lexed D) =
      .ok (⟨.constant, envPrefix ++ name ++ text "\x7d", scalar⟩, text " == " ++ 34 :: (literal ++ [34])) := by
    have href : (next ⟨comparison name literal, constants, environment⟩ (comparison name literal) : Lexed D) = _ :=
      next_reference hname hne (text " == " ++ 34 :: (literal ++ [34]))
    refine href.trans ?_
    dsimp only
    unfold referenceToken
    rw [hval]
    dsimp only
    rw [hscalar]
  have hadv (token : ExpressionToken D) (rest : Bytes) {token' : ExpressionToken D} {rest' : Bytes}
      (h : next ⟨comparison name literal, constants, environment⟩ rest = .ok (token', rest')) :
      advance ⟨comparison name literal, constants, environment⟩ ⟨token, rest⟩ = .ok ⟨token', rest'⟩ := by
    unfold advance
    dsimp only
    rw [h]
    rfl
  have hres := parseOr_equal (mem_of_elem_eq_true rfl) (hadv ⟨.constant, envPrefix ++ name ++ text "\x7d", scalar⟩ _ (next_equal _)) rfl
    (hadv _ _ (next_literal hquote hbs)) (mem_of_elem_eq_true rfl) (hadv _ _ next_end) rfl
  obtain ⟨fuel, hfuel⟩ : ∃ fuel, 8 * ((comparison name literal).length + 2) = fuel + 7 := ⟨8 * (comparison name literal).length + 9, by omega⟩
  unfold parse
  dsimp only
  rw [hfst]
  show (parseOr _ _ _ >>= _) = _
  rw [hfuel, hres fuel]
  cases compareScalars scalar (.string literal) .equal <;> rfl

theorem comparisonExpression_inside (name literal : Bytes) :
    ((comparisonExpression name literal).drop 7).take ((comparisonExpression name literal).length - 9) = comparison name literal := by
  have hlen : (comparisonExpression name literal).length - 9 = (comparison name literal).length := by
    rw [comparisonExpression, length_append, length_append]
    show 7 + ((comparison name literal).length + 2) - 9 = _
    omega
  rw [hlen]
  exact take_left

theorem evaluateExpressionString_numeric (hname : 125 ∉ name) (hne : name ≠ []) (hquote : 34 ∉ literal) (hbs : 92 ∉ literal)
    (hval : environmentReferenceValue D environment name = some (.string value)) (hnum : IsNumeric D (cString value)) :
    (evaluateExpressionString (comparisonExpression name literal) constants environment : Except Bytes (ExpressionJson D)) =
      .error (text "Failed to evaluate expression '" ++ comparisonExpression name literal ++ text "': " ++
        text "Expression comparison operands must have matching types") := by
  obtain ⟨v, hv⟩ := expressionValueFromJson_numeric hnum (envPrefix ++ name ++ text "\x7d")
  unfold evaluateExpressionString
  rw [comparisonExpression_inside, parse_comparison hname hne hquote hbs hval hv]
  rfl

theorem evaluateExpressionString_string (hname : 125 ∉ name) (hne : name ≠ []) (hquote : 34 ∉ literal) (hbs : 92 ∉ literal)
    (hval : environmentReferenceValue D environment name = some (.string value)) (hnum : ¬IsNumeric D (cString value)) :
    (evaluateExpressionString (comparisonExpression name literal) constants environment : Except Bytes (ExpressionJson D)) =
      .ok (.bool (decide (cString value = literal))) := by
  have hv := expressionValueFromJson_string hnum (envPrefix ++ name ++ text "\x7d")
  unfold evaluateExpressionString
  rw [comparisonExpression_inside, parse_comparison hname hne hquote hbs hval hv]
  rfl

/-! ### The theme and the language -/

/-- The string is no number, and the comparison does not depend on what follows a zero in it. -/
def StaysString (D : Doubles) (value literal : Bytes) : Prop :=
  ¬IsNumeric D (cString value) ∧ (0 ∉ value ∨ literal ≠ value ∧ literal ≠ cString value)

theorem cString_eq_self (h : 0 ∉ value) : cString value = value := by
  refine takeWhile_eq_self_iff.mpr fun c hc => decide_eq_true ?_
  rintro rfl
  exact h hc

theorem zero_notMem_cString (value : Bytes) : 0 ∉ cString value := by
  intro h
  have hne := mem_takeWhile_imp h
  simp at hne

theorem cString_comparison_iff :
    decide (cString value = literal) = decide (value = literal) ↔ 0 ∉ value ∨ literal ≠ value ∧ literal ≠ cString value := by
  by_cases hzero : 0 ∈ value
  · have hcut : cString value ≠ value := by
      intro h
      exact zero_notMem_cString value (h.symm ▸ hzero)
    rw [decide_eq_decide]
    constructor
    · intro h
      have hval : value ≠ literal := fun heq => hcut ((h.mpr heq).trans heq.symm)
      exact Or.inr ⟨hval.symm, fun heq => hval (h.mp heq.symm)⟩
    · rintro (h | ⟨hval, hcstring⟩)
      · exact absurd hzero h
      · exact ⟨fun h => absurd h.symm hcstring, fun h => absurd h.symm hval⟩
  · rw [cString_eq_self hzero]
    exact ⟨fun _ => Or.inl hzero, fun _ => rfl⟩

theorem evaluateExpressionString_eq_iff (hname : 125 ∉ name) (hne : name ≠ []) (hquote : 34 ∉ literal) (hbs : 92 ∉ literal)
    (hval : environmentReferenceValue D environment name = some (.string value)) :
    (evaluateExpressionString (comparisonExpression name literal) constants environment : Except Bytes (ExpressionJson D)) =
      .ok (.bool (decide (value = literal))) ↔ StaysString D value literal := by
  by_cases hnum : IsNumeric D (cString value)
  · rw [evaluateExpressionString_numeric hname hne hquote hbs hval hnum]
    exact ⟨fun h => Except.noConfusion rfl rfl (heq_of_eq h), fun h => absurd hnum h.1⟩
  · rw [evaluateExpressionString_string hname hne hquote hbs hval hnum]
    have hjson : (Except.ok (.bool (decide (cString value = literal))) : Except Bytes (ExpressionJson D)) = .ok (.bool (decide (value = literal))) ↔
        decide (cString value = literal) = decide (value = literal) := by
      rw [Except.ok.injEq, ExpressionJson.bool.injEq]
    rw [hjson, cString_comparison_iff]
    exact ⟨fun h => ⟨hnum, h⟩, And.right⟩

/-- A literal without quotes and backslashes is compared with the theme or the language as a string. -/
theorem evaluateExpressionString_stays_string_iff (D : Doubles) (constants : JsonValue) (environment : Environment) (s : Bytes)
    (hquote : 34 ∉ s) (hbackslash : 92 ∉ s) :
    ((evaluateExpressionString (comparisonExpression (text "theme") s) constants environment : Except Bytes (ExpressionJson D)) =
        .ok (.bool (decide (environment.themeId = s))) ↔ StaysString D environment.themeId s) ∧
      ((evaluateExpressionString (comparisonExpression (text "language") s) constants environment : Except Bytes (ExpressionJson D)) =
        .ok (.bool (decide (environment.language = s))) ↔ StaysString D environment.language s) := by
  refine ⟨?_, ?_⟩
  · exact evaluateExpressionString_eq_iff (by decide) (by decide) hquote hbackslash rfl
  · exact evaluateExpressionString_eq_iff (by decide) (by decide) hquote hbackslash rfl

/-- The number as it is written, zero where it is infinite or none. -/
def numeralValue (numeral : Numeral) : ℚ :=
  let value : ℚ :=
    match numeral.magnitude with
    | .decimal mantissa exponent => mantissa * 10 ^ exponent
    | .hexadecimal mantissa exponent => mantissa * 2 ^ exponent
    | .infinity => 0
    | .nan => 0
  if numeral.negative then -value else value

/-- Numbers as they are written, in the range of a `double`. -/
def rational : Doubles where
  Double := ℚ
  ofRat := id
  ofNumeral := numeralValue
  outOfRange numeral := 2 ^ 1024 ≤ |numeralValue numeral| || (numeralValue numeral ≠ 0 && |numeralValue numeral| < 1 / 2 ^ 1022)
  add := (· + ·)
  sub := (· - ·)
  mul := (· * ·)
  div := (· / ·)
  neg := (- ·)
  eq a b := a == b
  lt a b := a < b
  le a b := a ≤ b
  nearZero a := |a| < 1 / 1000000
  round a := if 0 ≤ a then (⌊a + 1 / 2⌋ : ℚ) else (⌈a - 1 / 2⌉ : ℚ)
  toInt64 a := a.num / a.den
  print a := text (toString a)

theorem evaluateExpressionString_stays_string_dark : (34 ∉ text "dark" ∧ 92 ∉ text "dark") ∧
      (evaluateExpressionString (comparisonExpression (text "theme") (text "dark")) (.object []) { themeId := text "dark" } :
        Except Bytes (ExpressionJson rational)) = .ok (.bool true) := by
  have hread : strtod (cString (splitUnit (trimExpressionText (cString (text "dark")))).1) = none := by decide +kernel
  have hnum : ¬IsNumeric rational (cString (text "dark")) := by
    rintro ⟨numeral, h, -⟩
    rw [hread] at h
    cases h
  have hquote : 34 ∉ text "dark" := by decide
  have hbs : 92 ∉ text "dark" := by decide
  have hres := (evaluateExpressionString_stays_string_iff rational (.object []) { themeId := text "dark" } (text "dark") hquote hbs).1.mpr
    ⟨hnum, Or.inl (by decide)⟩
  exact ⟨⟨hquote, hbs⟩, hres⟩

/-- The theme `1` cannot be compared with `"1"`. -/
theorem evaluateExpressionString_one :
    ¬∀ (D : Doubles) (constants : JsonValue) (environment : Environment) (s : Bytes), 34 ∉ s → 92 ∉ s →
      (evaluateExpressionString (comparisonExpression (text "theme") s) constants environment : Except Bytes (ExpressionJson D)) =
          .ok (.bool (decide (environment.themeId = s))) ∧
        (evaluateExpressionString (comparisonExpression (text "language") s) constants environment : Except Bytes (ExpressionJson D)) =
          .ok (.bool (decide (environment.language = s))) := by
  intro hall
  have hquote : 34 ∉ text "1" := by decide
  have hbs : 92 ∉ text "1" := by decide
  have hnum : IsNumeric rational (cString (text "1")) := ⟨⟨false, .decimal 1 0⟩, by decide +kernel, by decide +kernel⟩
  have hclaimed := (hall rational (.object []) { themeId := text "1" } (text "1") hquote hbs).1
  rw [evaluateExpressionString_numeric (by decide) (by decide) hquote hbs rfl hnum] at hclaimed
  exact Except.noConfusion rfl rfl (heq_of_eq hclaimed)

end Brookesia.JsonUi.StringReferences
