import Brookesia.Data.Json
import Brookesia.JsonUi.Numbers

/-! # Expressions

`ExpressionLexer` and `ConstantExpressionParser`, which evaluate `${expr(...)}` while they read it. The rest of the text stands for the
position of the lexer. The parser has fuel, eight times as much as the text is long. -/

namespace Brookesia.JsonUi.Expressions

open Filesystem.Path (Bytes text)
open Data.Json
open AppPackage.Manifest (isSpace isDigit)
open Numbers

inductive ExpressionUnit
  | none
  | dp
  deriving DecidableEq

structure ExpressionValue (D : Doubles) where
  value : D.Double
  unit : ExpressionUnit

inductive ExpressionScalar (D : Doubles)
  | number (value : ExpressionValue D)
  | string (value : Bytes)
  | bool (value : Bool)

inductive ExpressionTokenType
  | number
  | constant
  | string
  | bool
  | plus
  | minus
  | multiply
  | divide
  | leftParen
  | rightParen
  | and
  | or
  | not
  | equal
  | notEqual
  | greater
  | less
  | greaterEqual
  | lessEqual
  | endOfText
  deriving DecidableEq

structure ExpressionToken (D : Doubles) where
  type : ExpressionTokenType
  text : Bytes
  value : ExpressionScalar D := .string []

/-- The sizes are `int32_t`, the other two `float`. -/
structure Environment where
  widthPx : ℤ := 320
  heightPx : ℤ := 480
  density : ℚ := 1
  fontScale : ℚ := 1
  language : Bytes := text "en"
  themeId : Bytes := text "default"

/-- What an expression is replaced by. -/
inductive ExpressionJson (D : Doubles)
  | int (value : ℤ)
  | double (value : D.Double)
  | string (value : Bytes)
  | bool (value : Bool)

/-! ### Values -/

/-- `c_str`, which ends at a zero. -/
def cString (s : Bytes) : Bytes := s.takeWhile (· ≠ 0)

def trimExpressionText (s : Bytes) : Bytes := ((s.dropWhile isSpace).reverse.dropWhile isSpace).reverse

variable {D : Doubles}

/-- The text without `dp` at its end, and whether it was there. -/
def splitUnit (s : Bytes) : Bytes × ExpressionUnit :=
  if (text "dp").isSuffixOf s then (s.take (s.length - 2), .dp) else (s, .none)

def parseExpressionNumericText (s : Bytes) : Except Bytes (ExpressionValue D) :=
  let (trimmed, unit) := splitUnit (trimExpressionText s)
  if trimmed = [] then .error (text "Expression numeric value is empty")
  else
    match strtod (cString trimmed) with
    | some (numeral, []) =>
      if D.outOfRange numeral then .error (text "Expression numeric value must be a number or dp value: " ++ s)
      else .ok ⟨D.ofNumeral numeral, unit⟩
    | _ => .error (text "Expression numeric value must be a number or dp value: " ++ s)

def trimZeros (s : Bytes) : Bytes :=
  if 46 ∈ s then
    let s := (s.reverse.dropWhile (· = 48)).reverse
    if s.getLast? = some 46 then s.dropLast else s
  else s

def formatExpressionNumber (value : D.Double) : Bytes := trimZeros (D.print (if D.nearZero value then D.ofRat 0 else value))

def nonzeroDensity (environment : Environment) : ℚ := if |environment.density| < 1 / 1000000 then 1 else environment.density

def dpValue (D : Doubles) (environment : Environment) (px : ℤ) : JsonValue :=
  .string (formatExpressionNumber (D.div (D.ofRat px) (D.ofRat (nonzeroDensity environment))) ++ text "dp")

def environmentReferenceValue (D : Doubles) (environment : Environment) (path : Bytes) : Option JsonValue :=
  if path = text "widthPx" then some (.int environment.widthPx)
  else if path = text "heightPx" then some (.int environment.heightPx)
  else if path = text "widthDp" then some (dpValue D environment environment.widthPx)
  else if path = text "heightDp" then some (dpValue D environment environment.heightPx)
  else if path = text "density" then some (.double environment.density)
  else if path = text "fontScale" then some (.double environment.fontScale)
  else if path = text "language" then some (.string environment.language)
  else if path = text "theme" then some (.string environment.themeId)
  else none

def resolveSegments : JsonValue → List Bytes → Option JsonValue
  | value, [] => some value
  | .object members, segment :: segments => (find members segment).bind fun value => resolveSegments value segments
  | _, _ :: _ => none

def resolveConstant (constants : JsonValue) (path : Bytes) : Option JsonValue := resolveSegments constants (path.splitOn 46)

def expressionValueFromJson (value : JsonValue) (reference : Bytes) : Except Bytes (ExpressionScalar D) :=
  match value with
  | .int n => .ok (.number ⟨D.ofRat n, .none⟩)
  | .double q => .ok (.number ⟨D.ofRat q, .none⟩)
  | .bool b => .ok (.bool b)
  | .string s =>
    match parseExpressionNumericText (cString s) with
    | .ok numeric => .ok (.number numeric)
    | .error _ => .ok (.string (cString s))
  | _ => .error (text "Expression reference '" ++ reference ++ text "' must resolve to a number, boolean, or string")

def expressionValueToJson : ExpressionScalar D → ExpressionJson D
  | .string s => .string s
  | .bool b => .bool b
  | .number ⟨value, .dp⟩ => .string (formatExpressionNumber value ++ text "dp")
  | .number ⟨value, .none⟩ =>
    if D.nearZero (D.sub value (D.round value)) then .int (D.toInt64 (D.round value)) else .double value

/-! ### The lexer -/

/-- What an expression is evaluated in. -/
structure Context where
  expression : Bytes
  constants : JsonValue
  environment : Environment

def operators : List (Bytes × ExpressionTokenType) :=
  [(text "&&", .and), (text "||", .or), (text "==", .equal), (text "!=", .notEqual), (text ">=", .greaterEqual), (text "<=", .lessEqual),
    (text "+", .plus), (text "-", .minus), (text "*", .multiply), (text "/", .divide), (text "(", .leftParen), (text ")", .rightParen),
    (text "!", .not), (text ">", .greater), (text "<", .less)]

abbrev Lexed (D : Doubles) := Except Bytes (ExpressionToken D × Bytes)

def isIdentifier (c : UInt8) : Bool := isAlpha c || isDigit c || c = 95

def parseIdentifier (rest : Bytes) : Lexed D :=
  let name := rest.takeWhile isIdentifier
  let rest := rest.dropWhile isIdentifier
  if name = text "true" then .ok (⟨.bool, name, .bool true⟩, rest)
  else if name = text "false" then .ok (⟨.bool, name, .bool false⟩, rest)
  else .error (text "Unsupported identifier in expression: " ++ name ++
    text "; use '$\x7benv.<field>\x7d' or '$\x7bconstant.<path>\x7d' references")

/-- The characters up to the closing quote, a backslash before one of them left out. -/
def scanString (value : Bytes) : Bytes → Option (Bytes × Bytes)
  | [] => none
  | [c] => if c = 34 then some (value, []) else none
  | c :: next :: rest =>
    if c = 92 then scanString (value ++ [next]) rest
    else if c = 34 then some (value, next :: rest)
    else scanString (value ++ [c]) (next :: rest)

def parseString (rest : Bytes) : Lexed D :=
  match scanString [] (rest.drop 1) with
  | some (value, rest) => .ok (⟨.string, value, .string value⟩, rest)
  | none => .error (text "Unterminated string literal in expression")

def scanNumber (s : Bytes) : Bytes × Bytes :=
  match s.dropWhile isDigit with
  | 46 :: rest => (s.takeWhile isDigit ++ 46 :: rest.takeWhile isDigit, rest.dropWhile isDigit)
  | rest => (s.takeWhile isDigit, rest)

def parseNumber (rest : Bytes) : Lexed D :=
  let (digits, rest) := scanNumber rest
  let (number, rest) := if (text "dp").isPrefixOf rest then (digits ++ text "dp", rest.drop 2) else (digits, rest)
  match parseExpressionNumericText number with
  | .error e => .error e
  | .ok value => .ok (⟨.number, number, .number value⟩, rest)

/-- The path of a reference with the prefix, and what follows it. -/
def scanReference (start rest : Bytes) : Except Bytes (Bytes × Bytes) :=
  let path := (rest.drop start.length).takeWhile (· ≠ 125)
  match (rest.drop start.length).dropWhile (· ≠ 125) with
  | [] => .error (text "Unterminated reference in expression")
  | _ :: rest => if path = [] then .error (text "Expression reference path must not be empty") else .ok (path, rest)

def referenceToken (start path rest : Bytes) (unresolved : Bytes) (resolved : Option JsonValue) : Lexed D :=
  let reference := start ++ path ++ text "\x7d"
  match resolved with
  | none => .error (unresolved ++ reference)
  | some value =>
    match expressionValueFromJson value reference with
    | .error e => .error e
    | .ok scalar => .ok (⟨.constant, reference, scalar⟩, rest)

def constantPrefix : Bytes := text "$\x7bconstant."

def envPrefix : Bytes := text "$\x7benv."

def position (context : Context) (rest : Bytes) : Bytes := text (toString (context.expression.length - rest.length))

def parseReference (context : Context) (rest : Bytes) : Lexed D :=
  if constantPrefix.isPrefixOf rest then
    match scanReference constantPrefix rest with
    | .error e => .error e
    | .ok (path, rest) => referenceToken constantPrefix path rest (text "Failed to resolve expression constant reference: ")
        (resolveConstant context.constants path)
  else if envPrefix.isPrefixOf rest then
    match scanReference envPrefix rest with
    | .error e => .error e
    | .ok (path, rest) => referenceToken envPrefix path rest (text "Failed to resolve expression environment reference: ")
        (environmentReferenceValue D context.environment path)
  else .error (text "Expression references must use '$\x7bconstant.<path>\x7d' or '$\x7benv.<field>\x7d' at position " ++ position context rest)

/-- The token that starts with the character, which is no space. -/
def nextToken (context : Context) (ch : UInt8) (rest : Bytes) : Lexed D :=
  match operators.find? (·.1.isPrefixOf (ch :: rest)) with
  | some (operator, type) => .ok ({ type := type, text := operator }, (ch :: rest).drop operator.length)
  | none =>
    if ch = 34 then parseString (ch :: rest)
    else if isAlpha ch || ch = 95 then parseIdentifier (ch :: rest)
    else if ch = 36 then parseReference context (ch :: rest)
    else if isDigit ch || ch = 46 then parseNumber (ch :: rest)
    else .error (text "Unexpected character in expression at position " ++ position context (ch :: rest) ++ text ": " ++ [ch])

def next (context : Context) (rest : Bytes) : Lexed D :=
  match rest.dropWhile isSpace with
  | [] => .ok ({ type := .endOfText, text := [] }, [])
  | ch :: rest => nextToken context ch rest

/-! ### The parser -/

/-- The token that is current, and the text behind it. -/
structure ParserState (D : Doubles) where
  current : ExpressionToken D
  rest : Bytes

abbrev Parsed (D : Doubles) := Except Bytes (ExpressionScalar D × ParserState D)

def advance (context : Context) (st : ParserState D) : Except Bytes (ParserState D) :=
  (next context st.rest).map fun (token, rest) => ⟨token, rest⟩

def compareValues {α : Type} (eq lt le : α → α → Bool) (left right : α) : ExpressionTokenType → Except Bytes Bool
  | .equal => .ok (eq left right)
  | .notEqual => .ok (!eq left right)
  | .greater => .ok (lt right left)
  | .less => .ok (lt left right)
  | .greaterEqual => .ok (le right left)
  | .lessEqual => .ok (le left right)
  | _ => .error (text "Unsupported expression comparison operator")

def compareNumbers (left right : ExpressionValue D) (op : ExpressionTokenType) : Except Bytes Bool :=
  if left.unit ≠ right.unit then .error (text "Expression numeric comparison requires matching units")
  else compareValues D.eq D.lt D.le left.value right.value op

def compareScalars : ExpressionScalar D → ExpressionScalar D → ExpressionTokenType → Except Bytes Bool
  | .number left, .number right, op => compareNumbers left right op
  | .string left, .string right, op => compareValues (fun a b => decide (a = b)) (fun a b => decide (a < b)) (fun a b => decide (a ≤ b))
      left right op
  | .bool left, .bool right, .equal => .ok (left == right)
  | .bool left, .bool right, .notEqual => .ok (left != right)
  | .bool _, .bool _, _ => .error (text "Expression boolean comparison only supports '==' and '!='")
  | _, _, _ => .error (text "Expression comparison operands must have matching types")

def isComparison (type : ExpressionTokenType) : Bool :=
  [.equal, .notEqual, .greater, .less, .greaterEqual, .lessEqual].contains type

def applyAdditive (left right : ExpressionValue D) (op : ExpressionTokenType) : Except Bytes (ExpressionValue D) :=
  if left.unit ≠ right.unit then .error (text "Expression '+' and '-' require matching units")
  else .ok { left with value := if op = .plus then D.add left.value right.value else D.sub left.value right.value }

def applyMultiplicative (left right : ExpressionValue D) (op : ExpressionTokenType) : Except Bytes (ExpressionValue D) :=
  if op = .divide && D.nearZero right.value then .error (text "Expression division by zero")
  else if op = .multiply then
    if left.unit ≠ .none ∧ right.unit ≠ .none then .error (text "Expression '*' does not allow both operands to have units")
    else .ok ⟨D.mul left.value right.value, if left.unit ≠ .none then left.unit else right.unit⟩
  else if right.unit ≠ .none then .error (text "Expression '/' divisor must be unitless")
  else .ok ⟨D.div left.value right.value, left.unit⟩

/-- A binary operation on operands of the kind that it needs. -/
def onBools (error : Bytes) (f : Bool → Bool → Bool) : ExpressionScalar D → ExpressionScalar D → Except Bytes (ExpressionScalar D)
  | .bool left, .bool right => .ok (.bool (f left right))
  | _, _ => .error error

def onNumbers (error : Bytes) (f : ExpressionValue D → ExpressionValue D → Except Bytes (ExpressionValue D)) :
    ExpressionScalar D → ExpressionScalar D → Except Bytes (ExpressionScalar D)
  | .number left, .number right => (f left right).map .number
  | _, _ => .error error

def negated (negative : Bool) : ExpressionScalar D → Except Bytes (ExpressionScalar D)
  | .number value => .ok (.number (if negative then { value with value := D.neg value.value } else value))
  | _ => .error (text "Expression unary '+' and '-' operands must be numeric")

def inverted : ExpressionScalar D → Except Bytes (ExpressionScalar D)
  | .bool value => .ok (.bool !value)
  | _ => .error (text "Expression '!' operand must be boolean")

def outOfFuel : Bytes := text "Expression is too deep"

mutual

def parseOr (context : Context) : ℕ → ParserState D → Parsed D
  | 0, _ => .error outOfFuel
  | fuel + 1, st => do
    let (left, st) ← parseAnd context fuel st
    parseOrRest context fuel left st

def parseOrRest (context : Context) : ℕ → ExpressionScalar D → ParserState D → Parsed D
  | 0, _, _ => .error outOfFuel
  | fuel + 1, left, st =>
    if st.current.type = .or then do
      let st ← advance context st
      let (right, st) ← parseAnd context fuel st
      let left ← onBools (text "Expression '||' operands must be boolean") (· || ·) left right
      parseOrRest context fuel left st
    else .ok (left, st)

def parseAnd (context : Context) : ℕ → ParserState D → Parsed D
  | 0, _ => .error outOfFuel
  | fuel + 1, st => do
    let (left, st) ← parseComparison context fuel st
    parseAndRest context fuel left st

def parseAndRest (context : Context) : ℕ → ExpressionScalar D → ParserState D → Parsed D
  | 0, _, _ => .error outOfFuel
  | fuel + 1, left, st =>
    if st.current.type = .and then do
      let st ← advance context st
      let (right, st) ← parseComparison context fuel st
      let left ← onBools (text "Expression '&&' operands must be boolean") (· && ·) left right
      parseAndRest context fuel left st
    else .ok (left, st)

def parseComparison (context : Context) : ℕ → ParserState D → Parsed D
  | 0, _ => .error outOfFuel
  | fuel + 1, st => do
    let (left, st) ← parseAdditive context fuel st
    if isComparison st.current.type then do
      let op := st.current.type
      let st ← advance context st
      let (right, st) ← parseAdditive context fuel st
      let result ← compareScalars left right op
      .ok (.bool result, st)
    else .ok (left, st)

def parseAdditive (context : Context) : ℕ → ParserState D → Parsed D
  | 0, _ => .error outOfFuel
  | fuel + 1, st => do
    let (left, st) ← parseMultiplicative context fuel st
    parseAdditiveRest context fuel left st

def parseAdditiveRest (context : Context) : ℕ → ExpressionScalar D → ParserState D → Parsed D
  | 0, _, _ => .error outOfFuel
  | fuel + 1, left, st =>
    if st.current.type = .plus ∨ st.current.type = .minus then do
      let op := st.current.type
      let st ← advance context st
      let (right, st) ← parseMultiplicative context fuel st
      let left ← onNumbers (text "Expression '+' and '-' operands must be numeric") (applyAdditive · · op) left right
      parseAdditiveRest context fuel left st
    else .ok (left, st)

def parseMultiplicative (context : Context) : ℕ → ParserState D → Parsed D
  | 0, _ => .error outOfFuel
  | fuel + 1, st => do
    let (left, st) ← parseUnary context fuel st
    parseMultiplicativeRest context fuel left st

def parseMultiplicativeRest (context : Context) : ℕ → ExpressionScalar D → ParserState D → Parsed D
  | 0, _, _ => .error outOfFuel
  | fuel + 1, left, st =>
    if st.current.type = .multiply ∨ st.current.type = .divide then do
      let op := st.current.type
      let st ← advance context st
      let (right, st) ← parseUnary context fuel st
      let left ← onNumbers (text "Expression '*' and '/' operands must be numeric") (applyMultiplicative · · op) left right
      parseMultiplicativeRest context fuel left st
    else .ok (left, st)

def parseUnary (context : Context) : ℕ → ParserState D → Parsed D
  | 0, _ => .error outOfFuel
  | fuel + 1, st =>
    if st.current.type = .not then do
      let st ← advance context st
      let (value, st) ← parseUnary context fuel st
      let value ← inverted value
      .ok (value, st)
    else if st.current.type = .plus ∨ st.current.type = .minus then do
      let negative := decide (st.current.type = .minus)
      let st ← advance context st
      let (value, st) ← parseUnary context fuel st
      let value ← negated negative value
      .ok (value, st)
    else parsePrimary context fuel st

def parsePrimary (context : Context) : ℕ → ParserState D → Parsed D
  | 0, _ => .error outOfFuel
  | fuel + 1, st =>
    if st.current.type ∈ [.number, .constant, .string, .bool] then do
      let value := st.current.value
      let st ← advance context st
      .ok (value, st)
    else if st.current.type = .leftParen then do
      let st ← advance context st
      let (value, st) ← parseAdditive context fuel st
      if st.current.type = .rightParen then do
        let st ← advance context st
        .ok (value, st)
      else .error (text "Missing ')' in expression")
    else .error (text "Expected number, reference, or '(' in expression")

end

def parse (context : Context) : Except Bytes (ExpressionScalar D) := do
  let (token, rest) ← next context context.expression
  let (value, st) ← parseOr context (8 * (context.expression.length + 2)) ⟨token, rest⟩
  if st.current.type = .endOfText then .ok value
  else .error (text "Unexpected token at end of expression: " ++ st.current.text)

/-- Without the seven characters before the expression and the two behind it. -/
def evaluateExpressionString (expr : Bytes) (constants : JsonValue) (environment : Environment) : Except Bytes (ExpressionJson D) :=
  match parse (D := D) ⟨(expr.drop 7).take (expr.length - 9), constants, environment⟩ with
  | .error e => .error (text "Failed to evaluate expression '" ++ expr ++ text "': " ++ e)
  | .ok value => .ok (expressionValueToJson value)

end Brookesia.JsonUi.Expressions
