import Brookesia.Data.Results
import Brookesia.JsonUi.Expressions

/-! # The grammar of expressions

`ConstantExpressionParser` evaluates an expression while it reads it, with a loop for the operators of a level that follow one another.
Here every level has left-recursive rules, and what they derive has a value (`Denotes`). The parser succeeds exactly on the texts whose
tokens are derived, with this value (`parse_eq_ok_iff`): no text is too deep for its fuel. -/

namespace Brookesia.JsonUi.Grammar

open Filesystem.Path (Bytes text)
open AppPackage.Manifest (isSpace isDigit)
open Data.Results Numbers Expressions

/-- From the loosest to the tightest. -/
inductive Level
  | or
  | and
  | comparison
  | additive
  | multiplicative
  | unary
  | primary
  deriving DecidableEq

def Level.below : Level → Level
  | .or => .and
  | .and => .comparison
  | .comparison => .additive
  | .additive => .multiplicative
  | .multiplicative => .unary
  | .unary | .primary => .primary

def Level.height : Level → ℕ
  | .or => 7
  | .and => 6
  | .comparison => 5
  | .additive => 4
  | .multiplicative => 3
  | .unary => 2
  | .primary => 1

/-- The levels whose operators may follow one another, from the left to the right. -/
def Level.repeats : Level → Bool
  | .or | .and | .additive | .multiplicative => true
  | .comparison | .unary | .primary => false

/-- The level of a binary operator. -/
def operatorLevel : ExpressionTokenType → Option Level
  | .or => some .or
  | .and => some .and
  | .equal | .notEqual | .greater | .less | .greaterEqual | .lessEqual => some .comparison
  | .plus | .minus => some .additive
  | .multiply | .divide => some .multiplicative
  | _ => none

variable {D : Doubles} {context : Context} {level : Level}

/-- A binary operator, on the values of its operands. -/
def combine (op : ExpressionTokenType) (left right : ExpressionScalar D) : Except Bytes (ExpressionScalar D) :=
  match operatorLevel op with
  | some .or => onBools (text "Expression '||' operands must be boolean") (· || ·) left right
  | some .and => onBools (text "Expression '&&' operands must be boolean") (· && ·) left right
  | some .additive => onNumbers (text "Expression '+' and '-' operands must be numeric") (applyAdditive · · op) left right
  | some .multiplicative => onNumbers (text "Expression '*' and '/' operands must be numeric") (applyMultiplicative · · op) left right
  | _ => (compareScalars left right op).map .bool

def applyUnary (op : ExpressionTokenType) (value : ExpressionScalar D) : Except Bytes (ExpressionScalar D) :=
  if op = .not then inverted value else negated (decide (op = .minus)) value

def isUnary (op : ExpressionTokenType) : Bool := [.not, .plus, .minus].contains op

def IsOperand (token : ExpressionToken D) : Prop := token.type ∈ [.number, .constant, .string, .bool]

/-- What operands and operators mean in `α`, where they mean something. -/
structure Meaning (D : Doubles) (α : Type) where
  operand : ExpressionToken D → α
  unary : ExpressionTokenType → α → α → Prop
  binary : ExpressionTokenType → α → α → α → Prop

variable {α : Type} {M : Meaning D α}

/-- What the rules of a level derive, with its meaning. -/
inductive Derives (M : Meaning D α) : Level → List (ExpressionToken D) → α → Prop
  | operand {token} (h : IsOperand token) : Derives M .primary [token] (M.operand token)
  | parentheses {start close tokens v} (hstart : start.type = .leftParen) (hclose : close.type = .rightParen)
      (h : Derives M .additive tokens v) : Derives M .primary (start :: (tokens ++ [close])) v
  | unary {o tokens v w} (ho : isUnary o.type = true) (h : Derives M .unary tokens v) (hw : M.unary o.type v w) :
      Derives M .unary (o :: tokens) w
  | comparison {o ls rs left right v} (ho : operatorLevel o.type = some .comparison) (hleft : Derives M .additive ls left)
      (hright : Derives M .additive rs right) (hv : M.binary o.type left right v) : Derives M .comparison (ls ++ o :: rs) v
  | binary {level o ls rs left right v} (hlevel : level.repeats = true) (ho : operatorLevel o.type = some level)
      (hleft : Derives M level ls left) (hright : Derives M level.below rs right) (hv : M.binary o.type left right v) :
      Derives M level (ls ++ o :: rs) v
  | tighter {level tokens v} (hlevel : level ≠ .primary) (h : Derives M level.below tokens v) : Derives M level tokens v

/-- The operators of a level behind its first operand, which is on the left. -/
inductive Chain (M : Meaning D α) (level : Level) : α → List (ExpressionToken D) → α → Prop
  | nil {v} : Chain M level v [] v
  | cons {left o rs right w tokens v} (ho : operatorLevel o.type = some level) (hright : Derives M level.below rs right)
      (hw : M.binary o.type left right w) (hrest : Chain M level w tokens v) : Chain M level left (o :: (rs ++ tokens)) v

def values : Meaning D (ExpressionScalar D) where
  operand token := token.value
  unary op v w := applyUnary op v = .ok w
  binary op left right v := combine op left right = .ok v

abbrev Denotes : Level → List (ExpressionToken D) → ExpressionScalar D → Prop := Derives values

/-- The tokens from the current one on, up to the one that is current at the end. -/
inductive Reads (context : Context) : ParserState D → List (ExpressionToken D) → ParserState D → Prop
  | nil {st} : Reads context st [] st
  | cons {st st' last tokens} (hcurrent : st.current.type ≠ .endOfText) (h : advance context st = .ok st')
      (hrest : Reads context st' tokens last) : Reads context st (st.current :: tokens) last

/-- The expression consists of these tokens. -/
def Lexes (context : Context) (tokens : List (ExpressionToken D)) : Prop :=
  ∃ token rest last, next context context.expression = .ok (token, rest) ∧ Reads context ⟨token, rest⟩ tokens last ∧
    last.current.type = .endOfText

def parseLevel (context : Context) : Level → ℕ → ParserState D → Parsed D
  | .or => parseOr context
  | .and => parseAnd context
  | .comparison => parseComparison context
  | .additive => parseAdditive context
  | .multiplicative => parseMultiplicative context
  | .unary => parseUnary context
  | .primary => parsePrimary context

/-- The loops. -/
def parseRest (context : Context) : Level → ℕ → ExpressionScalar D → ParserState D → Parsed D
  | .or => parseOrRest context
  | .and => parseAndRest context
  | .additive => parseAdditiveRest context
  | _ => parseMultiplicativeRest context

/-! ### The functions of the parser -/

variable {st mid last : ParserState D} {tokens ls rs : List (ExpressionToken D)} {v : ExpressionScalar D} {fuel : ℕ}

theorem parseLevel_succ (hlevel : level.repeats = true) : parseLevel context level (fuel + 1) st =
    (parseLevel context level.below fuel st >>= fun (left, st) => parseRest context level fuel left st) := by
  cases level with
  | or => exact parseOr.eq_2 ..
  | and => exact parseAnd.eq_2 ..
  | additive => exact parseAdditive.eq_2 ..
  | multiplicative => exact parseMultiplicative.eq_2 ..
  | _ => cases hlevel

theorem parseRest_succ {left} (hlevel : level.repeats = true) : parseRest context level (fuel + 1) left st =
    if operatorLevel st.current.type = some level then
      advance context st >>= fun st' => parseLevel context level.below fuel st' >>= fun (right, st'') =>
        combine st.current.type left right >>= fun left => parseRest context level fuel left st''
    else .ok (left, st) := by
  cases level with
  | or =>
    show parseOrRest context (fuel + 1) left st = _
    rw [parseOrRest]
    cases st.current.type <;> rfl
  | and =>
    show parseAndRest context (fuel + 1) left st = _
    rw [parseAndRest]
    cases st.current.type <;> rfl
  | additive =>
    show parseAdditiveRest context (fuel + 1) left st = _
    rw [parseAdditiveRest]
    cases st.current.type <;> rfl
  | multiplicative =>
    show parseMultiplicativeRest context (fuel + 1) left st = _
    rw [parseMultiplicativeRest]
    cases st.current.type <;> rfl
  | _ => cases hlevel

theorem isComparison_eq (op : ExpressionTokenType) : isComparison op = decide (operatorLevel op = some .comparison) := by
  cases op <;> rfl

theorem parseComparison_succ : parseComparison context (fuel + 1) st =
    (parseAdditive context fuel st >>= fun (left, st) =>
      if operatorLevel st.current.type = some .comparison then
        advance context st >>= fun st' => parseAdditive context fuel st' >>= fun (right, st'') =>
          combine st.current.type left right >>= fun v => .ok (v, st'')
      else .ok (left, st)) := by
  rw [parseComparison]
  congr 1
  funext ⟨left, st⟩
  by_cases ho : operatorLevel st.current.type = some .comparison
  · simp only [isComparison_eq, ho, decide_true, if_true, combine]
    congr 1
    funext st'
    congr 1
    funext ⟨right, st''⟩
    dsimp only
    cases compareScalars left right st.current.type <;> rfl
  · simp only [isComparison_eq, ho, decide_false, Bool.false_eq_true, if_false]

theorem parseUnary_succ : parseUnary context (fuel + 1) st =
    if isUnary st.current.type then
      advance context st >>= fun st' => parseUnary context fuel st' >>= fun (v, st'') =>
        applyUnary st.current.type v >>= fun w => .ok (w, st'')
    else parsePrimary context fuel st := by
  rw [parseUnary]
  cases st.current.type <;> rfl

theorem parseLevel_zero : parseLevel context level 0 st = .error outOfFuel := by
  cases level <;> rfl

theorem parseRest_zero {left} : parseRest context level 0 left st = .error outOfFuel := by
  cases level <;> rfl

/-! ### Reading -/

theorem Reads.append (h : Reads context st ls mid) (hrest : Reads context mid rs last) : Reads context st (ls ++ rs) last := by
  induction h with
  | nil => exact hrest
  | cons hcurrent hnext _ ih => exact .cons hcurrent hnext (ih hrest)

theorem Reads.of_append : ∀ {ls} {st : ParserState D}, Reads context st (ls ++ rs) last →
    ∃ mid, Reads context st ls mid ∧ Reads context mid rs last
  | [], st, h => ⟨st, .nil, h⟩
  | _ :: _, _, .cons hcurrent hnext hrest =>
    have ⟨mid, hls, hrs⟩ := of_append hrest
    ⟨mid, .cons hcurrent hnext hls, hrs⟩

theorem Reads.single (hcurrent : st.current.type ≠ .endOfText) (h : advance context st = .ok mid) :
    Reads context st [st.current] mid :=
  .cons hcurrent h .nil

/-! ### What the parser accepts has this value -/

section

variable {v : α}

theorem Chain.derives {left} (hlevel : level.repeats = true) (hleft : Derives M level ls left) (h : Chain M level left tokens v) :
    Derives M level (ls ++ tokens) v := by
  induction h generalizing ls with
  | nil => simpa using hleft
  | cons ho hright hw _ ih =>
    have := ih (.binary hlevel ho hleft hright hw)
    simpa using this

theorem Chain.snoc {o left right w} (ho : operatorLevel o.type = some level) (hright : Derives M level.below rs right)
    (hw : M.binary o.type v right w) (h : Chain M level left tokens v) : Chain M level left (tokens ++ o :: rs) w := by
  induction h with
  | nil => simpa using Chain.cons ho hright hw .nil
  | cons ho' hright' hw' _ ih => simpa using Chain.cons ho' hright' hw' (ih hw)

theorem Derives.chain (h : Derives M level tokens v) (hlevel : level.repeats = true) :
    ∃ ls left rs, tokens = ls ++ rs ∧ Derives M level.below ls left ∧ Chain M level left rs v := by
  induction h with
  | @binary level o ls rs left right v _ ho hleft hright hv ih _ =>
    obtain ⟨first, w, rest, rfl, hfirst, hchain⟩ := ih hlevel
    exact ⟨first, w, rest ++ o :: rs, by simp, hfirst, hchain.snoc ho hright hv⟩
  | tighter _ h => exact ⟨_, _, [], by simp, h, .nil⟩
  | _ => cases hlevel

theorem Derives.pos (h : Derives M level tokens v) : 0 < tokens.length := by
  induction h with
  | tighter _ _ ih => exact ih
  | _ => simp

end

theorem Level.ne_primary (hlevel : level.repeats = true) : level ≠ .primary := by
  rintro rfl
  cases hlevel

theorem ne_endOfText (ho : operatorLevel st.current.type = some level) : st.current.type ≠ .endOfText := by
  intro hend
  rw [hend] at ho
  cases ho

def SoundAt (context : Context) (fuel : ℕ) : Prop :=
  ∀ (level : Level) (st : ParserState D) v last, parseLevel context level fuel st = .ok (v, last) →
    ∃ tokens, Reads context st tokens last ∧ Denotes level tokens v

theorem parseRest_sound (hlevel : level.repeats = true) : ∀ {fuel} {left : ExpressionScalar D} {st},
    (∀ k < fuel, SoundAt (D := D) context k) → parseRest context level fuel left st = .ok (v, last) →
    ∃ tokens, Reads context st tokens last ∧ Chain values level left tokens v := by
  intro fuel
  induction fuel with
  | zero =>
    intro left st _ h
    rw [parseRest_zero] at h
    cases h
  | succ fuel ih =>
    intro left st hsound h
    rw [parseRest_succ hlevel] at h
    split_ifs at h with ho
    · obtain ⟨st', hnext, h⟩ := bind_eq_ok.mp h
      obtain ⟨⟨right, st''⟩, hright, h⟩ := bind_eq_ok.mp h
      obtain ⟨w, hw, h⟩ := bind_eq_ok.mp h
      obtain ⟨rs, hreads, hdenotes⟩ := hsound fuel (by omega) _ _ _ _ hright
      obtain ⟨tokens, hrest, hchain⟩ := ih (fun k hk => hsound k (by omega)) h
      exact ⟨_, .cons (ne_endOfText ho) hnext (hreads.append hrest), .cons ho hdenotes hw hchain⟩
    · cases h
      exact ⟨[], .nil, .nil⟩

section

variable (hsound : SoundAt (D := D) context fuel)
include hsound

theorem parseComparison_sound (h : parseComparison context (fuel + 1) st = .ok (v, last)) :
    ∃ tokens, Reads context st tokens last ∧ Denotes .comparison tokens v := by
  rw [parseComparison_succ] at h
  obtain ⟨⟨left, mid⟩, hleft, h⟩ := bind_eq_ok.mp h
  obtain ⟨ls, hreads, hls⟩ := hsound .additive _ _ _ hleft
  dsimp only at h
  split_ifs at h with ho
  · obtain ⟨st', hnext, h⟩ := bind_eq_ok.mp h
    obtain ⟨⟨right, st''⟩, hright, h⟩ := bind_eq_ok.mp h
    obtain ⟨w, hw, h⟩ := bind_eq_ok.mp h
    obtain ⟨rs, hrest, hrs⟩ := hsound .additive _ _ _ hright
    cases h
    exact ⟨_, hreads.append (.cons (ne_endOfText ho) hnext hrest), .comparison ho hls hrs hw⟩
  · cases h
    exact ⟨ls, hreads, .tighter (by decide) hls⟩

theorem parseUnary_sound (h : parseUnary context (fuel + 1) st = .ok (v, last)) :
    ∃ tokens, Reads context st tokens last ∧ Denotes .unary tokens v := by
  rw [parseUnary_succ] at h
  split_ifs at h with ho
  · obtain ⟨st', hnext, h⟩ := bind_eq_ok.mp h
    obtain ⟨⟨w, st''⟩, hw, h⟩ := bind_eq_ok.mp h
    obtain ⟨u, hu, h⟩ := bind_eq_ok.mp h
    obtain ⟨tokens, hreads, htokens⟩ := hsound .unary _ _ _ hw
    cases h
    have hcurrent : st.current.type ≠ .endOfText := by
      intro hend
      rw [hend] at ho
      cases ho
    exact ⟨_, .cons hcurrent hnext hreads, .unary ho htokens hu⟩
  · obtain ⟨tokens, hreads, htokens⟩ := hsound .primary _ _ _ h
    exact ⟨tokens, hreads, .tighter (by decide) htokens⟩

theorem parsePrimary_sound (h : parsePrimary context (fuel + 1) st = .ok (v, last)) :
    ∃ tokens, Reads context st tokens last ∧ Denotes .primary tokens v := by
  rw [parsePrimary] at h
  split_ifs at h with hoperand hstart
  · obtain ⟨st', hnext, h⟩ := bind_eq_ok.mp h
    cases h
    have hcurrent : st.current.type ≠ .endOfText := by
      intro hend
      simp [hend] at hoperand
    exact ⟨_, .single hcurrent hnext, .operand hoperand⟩
  · obtain ⟨st', hnext, h⟩ := bind_eq_ok.mp h
    obtain ⟨⟨w, st''⟩, hw, h⟩ := bind_eq_ok.mp h
    obtain ⟨tokens, hreads, htokens⟩ := hsound .additive _ _ _ hw
    dsimp only at h
    split_ifs at h with hclose
    obtain ⟨end_, hlast, h⟩ := bind_eq_ok.mp h
    cases h
    have hreads := hreads.append (.single (by simp [hclose]) hlast)
    exact ⟨_, .cons (by simp [hstart]) hnext hreads, .parentheses hstart hclose htokens⟩

end

theorem soundAt (fuel : ℕ) : SoundAt (D := D) context fuel := by
  induction fuel using Nat.strong_induction_on with
  | _ fuel ih =>
    intro level st v last h
    cases fuel with
    | zero =>
      rw [parseLevel_zero] at h
      cases h
    | succ fuel =>
      have hsound := ih fuel (by omega)
      by_cases hlevel : level.repeats = true
      · rw [parseLevel_succ hlevel] at h
        obtain ⟨⟨left, mid⟩, hleft, h⟩ := bind_eq_ok.mp h
        obtain ⟨ls, hreads, hls⟩ := hsound _ _ _ _ hleft
        obtain ⟨rs, hrest, hchain⟩ := parseRest_sound hlevel (fun k hk => ih k (by omega)) h
        exact ⟨ls ++ rs, hreads.append hrest, hchain.derives hlevel (.tighter (Level.ne_primary hlevel) hls)⟩
      · cases level with
        | comparison => exact parseComparison_sound hsound h
        | unary => exact parseUnary_sound hsound h
        | primary => exact parsePrimary_sound hsound h
        | _ => exact absurd rfl hlevel

/-! ### What has a value is accepted -/

/-- An operator that may stand behind a level. -/
def Stops (level : Level) (type : ExpressionTokenType) : Prop :=
  ∀ l, operatorLevel type = some l → level.height < l.height

theorem Level.height_below (h : level ≠ .primary) : level.below.height + 1 = level.height := by
  cases level with
  | primary => cases h rfl
  | _ => rfl

theorem Derives.not_isUnary {w} (h : Derives M .primary tokens w) (hreads : Reads context st tokens last) : isUnary st.current.type = false := by
  cases h with
  | operand hoperand =>
    cases hreads
    rw [IsOperand] at hoperand
    cases htype : st.current.type <;> simp [htype] at hoperand ⊢ <;> rfl
  | parentheses hstart =>
    cases hreads
    simp [isUnary, hstart]
  | binary hlevel => cases hlevel
  | tighter hlevel => cases hlevel rfl

theorem Stops.below {type} (h : Stops level type) (hlevel : level ≠ .primary) : Stops level.below type := by
  intro l hl
  have := h l hl
  have := Level.height_below hlevel
  omega

theorem Stops.operator {o : ExpressionTokenType} (ho : operatorLevel o = some level) (hlevel : level ≠ .primary) : Stops level.below o := by
  intro l hl
  have heq : level = l := by simpa [ho] using hl
  have := Level.height_below hlevel
  rw [← heq]
  omega

theorem Chain.stops {left w} (hlevel : level ≠ .primary) (h : Chain M level left tokens w) (hreads : Reads context mid tokens last)
    (hlast : Stops level last.current.type) : Stops level.below mid.current.type := by
  cases h with
  | nil =>
    cases hreads
    exact hlast.below hlevel
  | cons ho =>
    cases hreads
    exact .operator ho hlevel

/-- Eight calls a token are enough. -/
def CompleteAt (context : Context) (fuel : ℕ) : Prop :=
  ∀ (level : Level) (st : ParserState D) tokens last v, Denotes level tokens v → Reads context st tokens last →
    Stops level last.current.type → 8 * tokens.length + level.height ≤ fuel + 8 → parseLevel context level fuel st = .ok (v, last)

theorem parseRest_complete (hlevel : level.repeats = true) {left} (h : Chain values level left tokens v)
    (hreads : Reads context st tokens last) (hlast : Stops level last.current.type)
    (hcomplete : ∀ k < fuel, CompleteAt (D := D) context k) (hfuel : 8 * tokens.length + 1 ≤ fuel) :
    parseRest context level fuel left st = .ok (v, last) := by
  induction h generalizing fuel st with
  | nil =>
    cases hreads
    obtain ⟨fuel, rfl⟩ : ∃ k, fuel = k + 1 := ⟨fuel - 1, by omega⟩
    rw [parseRest_succ hlevel, if_neg]
    intro ho
    exact absurd (hlast level ho) (lt_irrefl _)
  | @cons left o rs right w tokens v ho hright hw hrest ih =>
    simp only [List.length_cons, List.length_append] at hfuel
    obtain ⟨fuel, rfl⟩ : ∃ k, fuel = k + 1 := ⟨fuel - 1, by omega⟩
    cases hreads with
    | @cons _ st' _ _ hcurrent hnext hreads =>
    obtain ⟨mid, hrs, htokens⟩ := hreads.of_append
    have hstops := hrest.stops (Level.ne_primary hlevel) htokens hlast
    have hheight := Level.height_below (Level.ne_primary hlevel)
    have hle : level.height ≤ 7 := by cases level <;> decide
    have hoperand := hcomplete fuel (by omega) _ _ _ _ _ hright hrs hstops (by omega)
    have hloop : parseRest context level fuel w mid = .ok (v, last) := ih htokens (fun k hk => hcomplete k (by omega)) (by omega)
    simp only [values] at hw
    rw [parseRest_succ hlevel, if_pos ho]
    simp only [bind, Except.bind, hnext, hoperand, hw, hloop]

section

variable (hcomplete : CompleteAt (D := D) context fuel)
include hcomplete

theorem parsePrimary_complete (h : Denotes .primary tokens v) (hreads : Reads context st tokens last)
    (hfuel : 8 * tokens.length + 1 ≤ fuel + 1 + 8) : parsePrimary context (fuel + 1) st = .ok (v, last) := by
  rw [parsePrimary]
  cases h with
  | operand hoperand =>
    cases hreads with
    | cons hcurrent hnext hreads =>
    cases hreads
    rw [IsOperand] at hoperand
    rw [if_pos hoperand]
    simp only [bind, Except.bind, hnext, values]
  | @parentheses start close tokens v hstart hclose htokens =>
    cases hreads with
    | cons hcurrent hnext hreads =>
    obtain ⟨mid, hinner, hend⟩ := hreads.of_append
    cases hend with
    | cons _ hlast hend =>
    cases hend
    have hstops : Stops .additive mid.current.type := by
      intro l hl
      rw [hclose] at hl
      cases hl
    simp only [List.length_cons, List.length_append] at hfuel
    have hvalue : parseAdditive context fuel _ = _ :=
      hcomplete .additive _ _ _ _ htokens hinner hstops (by simp only [Level.height]; omega)
    simp [bind, Except.bind, hstart, hnext, hvalue, hclose, hlast]
  | binary hlevel => cases hlevel
  | tighter hlevel => cases hlevel rfl

theorem parseUnary_complete (h : Denotes .unary tokens v) (hreads : Reads context st tokens last)
    (hlast : Stops .unary last.current.type) (hfuel : 8 * tokens.length + 2 ≤ fuel + 1 + 8) :
    parseUnary context (fuel + 1) st = .ok (v, last) := by
  rw [parseUnary_succ]
  cases h with
  | unary ho htokens hw =>
    cases hreads with
    | cons hcurrent hnext hreads =>
    simp only [List.length_cons] at hfuel
    have hvalue : parseUnary context fuel _ = _ := hcomplete .unary _ _ _ _ htokens hreads hlast (by simp only [Level.height]; omega)
    simp only [values] at hw
    simp only [ho, if_true, bind, Except.bind, hnext, hvalue, hw]
  | tighter _ hprimary =>
    have hvalue : parsePrimary context fuel st = _ :=
      hcomplete .primary _ _ _ _ hprimary hreads (hlast.below (by decide)) (by simp only [Level.height]; omega)
    simp only [hprimary.not_isUnary hreads, Bool.false_eq_true, if_false, hvalue]
  | binary hlevel => cases hlevel

theorem parseComparison_complete (h : Denotes .comparison tokens v) (hreads : Reads context st tokens last)
    (hlast : Stops .comparison last.current.type) (hfuel : 8 * tokens.length + 5 ≤ fuel + 1 + 8) :
    parseComparison context (fuel + 1) st = .ok (v, last) := by
  rw [parseComparison_succ]
  cases h with
  | @comparison o ls rs left right v ho hls hrs hv =>
    obtain ⟨mid, hleft, hright⟩ := hreads.of_append
    cases hright with
    | cons hcurrent hnext hright =>
    simp only [List.length_append, List.length_cons] at hfuel
    simp only [values] at hv
    have hleftValue : parseAdditive context fuel _ = _ :=
      hcomplete .additive _ _ _ _ hls hleft (.operator ho (by decide)) (by simp only [Level.height]; omega)
    have hrightValue : parseAdditive context fuel _ = _ :=
      hcomplete .additive _ _ _ _ hrs hright (hlast.below (by decide)) (by simp only [Level.height]; omega)
    simp only [bind, Except.bind, hleftValue, ho, if_true, hnext, hrightValue, hv]
  | tighter _ hadditive =>
    have hvalue : parseAdditive context fuel _ = _ :=
      hcomplete .additive _ _ _ _ hadditive hreads (hlast.below (by decide)) (by simp only [Level.height]; omega)
    have hcurrent : operatorLevel last.current.type ≠ some .comparison := fun ho => absurd (hlast _ ho) (lt_irrefl _)
    simp only [bind, Except.bind, hvalue, if_neg hcurrent]
  | binary hlevel => cases hlevel

end

theorem completeAt (fuel : ℕ) : CompleteAt (D := D) context fuel := by
  induction fuel using Nat.strong_induction_on with
  | _ fuel ih =>
    intro level st tokens last v h hreads hlast hfuel
    have hpos := h.pos
    have hheight : 0 < level.height := by cases level <;> decide
    obtain ⟨fuel, rfl⟩ : ∃ k, fuel = k + 1 := ⟨fuel - 1, by omega⟩
    have hcomplete := ih fuel (by omega)
    by_cases hlevel : level.repeats = true
    · obtain ⟨ls, left, rs, rfl, hls, hchain⟩ := h.chain hlevel
      obtain ⟨mid, hleft, hright⟩ := hreads.of_append
      have hne := Level.ne_primary hlevel
      have hbelow := Level.height_below hne
      have hloose : 3 ≤ level.height := by
        cases level with
        | or | and | additive | multiplicative => decide
        | _ => cases hlevel
      have hpos := hls.pos
      simp only [List.length_append] at hfuel
      have hvalue := hcomplete _ _ _ _ _ hls hleft (hchain.stops hne hright hlast) (by omega)
      have hloop : parseRest context level fuel left mid = .ok (v, last) :=
        parseRest_complete hlevel hchain hright hlast (fun k hk => ih k (by omega)) (by omega)
      rw [parseLevel_succ hlevel]
      simp only [bind, Except.bind, hvalue, hloop]
    · cases level with
      | comparison => exact parseComparison_complete hcomplete h hreads hlast hfuel
      | unary => exact parseUnary_complete hcomplete h hreads hlast hfuel
      | primary => exact parsePrimary_complete hcomplete h hreads hfuel
      | _ => exact absurd rfl hlevel

/-! ### The fuel -/

theorem length_dropWhile_lt {p : UInt8 → Bool} {c : UInt8} {cs : Bytes} (h : p c = true) :
    ((c :: cs).dropWhile p).length ≤ cs.length := by
  rw [List.dropWhile_cons_of_pos h]
  exact List.length_dropWhile_le p cs

theorem scanString_shorter : ∀ {s value value' rest : Bytes}, scanString value s = some (value', rest) → rest.length ≤ s.length
  | [], value, _, _, h => by cases h
  | [c], value, _, _, h => by
    rw [scanString] at h
    split_ifs at h
    cases h
    simp
  | c :: next :: s, value, value', rest, h => by
    rw [scanString] at h
    split_ifs at h
    · have := scanString_shorter h
      simp only [List.length_cons]
      omega
    · cases h
      simp
    · have := scanString_shorter h
      simp only [List.length_cons] at this ⊢
      omega

theorem scanReference_shorter {start s path rest : Bytes} (h : scanReference start s = .ok (path, rest)) : rest.length < s.length := by
  simp only [scanReference] at h
  have hdrop := List.length_dropWhile_le (fun c : UInt8 => decide (c ≠ 125)) (s.drop start.length)
  cases hs : (s.drop start.length).dropWhile (fun c => decide (c ≠ 125)) with
  | nil =>
    rw [hs] at h
    cases h
  | cons c rest' =>
    rw [hs] at h hdrop
    simp only at h
    split_ifs at h
    cases h
    simp only [List.length_cons, List.length_drop] at hdrop
    omega

theorem referenceToken_shorter {start s path rest unresolved : Bytes} {resolved} {result : ExpressionToken D × Bytes}
    (hscan : scanReference start s = .ok (path, rest)) (h : referenceToken start path rest unresolved resolved = .ok result) :
    result.2.length < s.length := by
  have hrest : result.2 = rest := by
    simp only [referenceToken] at h
    split at h
    · cases h
    · split at h <;> cases h
      rfl
  rw [hrest]
  exact scanReference_shorter hscan

theorem parseReference_shorter {s rest : Bytes} {token : ExpressionToken D} (h : parseReference context s = .ok (token, rest)) :
    rest.length < s.length := by
  rw [parseReference] at h
  split_ifs at h
  · cases hscan : scanReference constantPrefix s with
    | error e => simp [hscan] at h
    | ok scanned =>
      rw [hscan] at h
      exact referenceToken_shorter hscan h
  · cases hscan : scanReference envPrefix s with
    | error e => simp [hscan] at h
    | ok scanned =>
      rw [hscan] at h
      exact referenceToken_shorter hscan h

theorem scanNumber_shorter {c : UInt8} {cs : Bytes} (h : isDigit c = true ∨ c = 46) : (scanNumber (c :: cs)).2.length ≤ cs.length := by
  have hle : ((c :: cs).dropWhile isDigit).length ≤ cs.length ∨ c = 46 ∧ (c :: cs).dropWhile isDigit = c :: cs := by
    rcases h with h | rfl
    · exact .inl (length_dropWhile_lt h)
    · exact .inr ⟨rfl, List.dropWhile_cons_of_neg (by decide)⟩
  rw [scanNumber]
  split
  · next rest hrest =>
    have hdrop := List.length_dropWhile_le isDigit rest
    rcases hle with hle | ⟨rfl, heq⟩
    · rw [hrest, List.length_cons] at hle
      simp only
      omega
    · rw [hrest, List.cons.injEq] at heq
      simpa [heq.2] using hdrop
  · next rest hne =>
    rcases hle with hle | ⟨rfl, heq⟩
    · exact hle
    · exact absurd heq (hne cs)

theorem parseNumber_shorter {c : UInt8} {cs rest : Bytes} {token : ExpressionToken D} (hc : isDigit c = true ∨ c = 46)
    (h : parseNumber (c :: cs) = .ok (token, rest)) : rest.length ≤ cs.length := by
  have hscan : (scanNumber (c :: cs)).2.length ≤ cs.length := scanNumber_shorter hc
  simp only [parseNumber] at h
  split at h
  · cases h
  · cases h
    split_ifs
    · simp only [List.length_drop]
      omega
    · exact hscan

theorem nextToken_shorter {c : UInt8} {cs rest : Bytes} {token : ExpressionToken D} (h : nextToken context c cs = .ok (token, rest)) :
    rest.length ≤ cs.length := by
  rw [nextToken] at h
  cases hfind : operators.find? (·.1.isPrefixOf (c :: cs)) with
  | some operator =>
    rw [hfind] at h
    cases h
    have hpos : ∀ o ∈ operators, 0 < o.1.length := by decide
    have := hpos _ (List.mem_of_find?_eq_some hfind)
    simp only [List.length_drop, List.length_cons]
    omega
  | none =>
    rw [hfind] at h
    simp only at h
    split_ifs at h with hstring hname hreference hnumber
    · simp only [parseString, List.drop_one, List.tail_cons] at h
      split at h
      · next hscan =>
        cases h
        exact scanString_shorter hscan
      · cases h
    · have hc : isIdentifier c = true := by
        simp only [Bool.or_eq_true, decide_eq_true_eq] at hname
        rcases hname with hname | hname <;> simp [isIdentifier, hname]
      have hdrop : ((c :: cs).dropWhile isIdentifier).length ≤ cs.length := length_dropWhile_lt hc
      simp only [parseIdentifier] at h
      split_ifs at h <;> cases h <;> exact hdrop
    · have := parseReference_shorter h
      rw [List.length_cons] at this
      omega
    · exact parseNumber_shorter (by simpa using hnumber) h

theorem next_shorter {s rest : Bytes} {token : ExpressionToken D} (h : next context s = .ok (token, rest))
    (htoken : token.type ≠ .endOfText) : rest.length < s.length := by
  have hdrop := List.length_dropWhile_le isSpace s
  rw [next] at h
  split at h
  · cases h
    exact absurd rfl htoken
  · next c cs hs =>
    have := nextToken_shorter h
    rw [hs, List.length_cons] at hdrop
    omega

theorem Reads.length_le (h : Reads context st tokens last) : tokens.length ≤ st.rest.length + 1 := by
  induction h with
  | nil => simp
  | @cons st st' last tokens hcurrent hnext hrest ih =>
    rw [List.length_cons]
    cases hrest with
    | nil => simp
    | cons hcurrent' =>
      have : st'.rest.length < st.rest.length := by
        cases hlexed : next (D := D) context st.rest with
        | error e => simp [advance, hlexed, Except.map] at hnext
        | ok result =>
          simp only [advance, hlexed, Except.map, Except.ok.injEq] at hnext
          subst hnext
          exact next_shorter hlexed hcurrent'
      omega

theorem parseOr_sound (h : parseOr context fuel st = .ok (v, last)) : ∃ tokens, Reads context st tokens last ∧ Denotes .or tokens v :=
  soundAt fuel .or _ _ _ h

theorem parseOr_complete (h : Denotes .or tokens v) (hreads : Reads context st tokens last) (hlast : Stops .or last.current.type)
    (hfuel : 8 * tokens.length ≤ fuel + 1) : parseOr context fuel st = .ok (v, last) :=
  completeAt fuel .or _ _ _ _ h hreads hlast (by simp only [Level.height]; omega)

theorem parse_sound (h : parse context = .ok v) : ∃ tokens, Lexes context tokens ∧ Denotes .or tokens v := by
  rw [parse] at h
  obtain ⟨⟨token, rest⟩, hnext, h⟩ := bind_eq_ok.mp h
  obtain ⟨⟨w, last⟩, hparse, h⟩ := bind_eq_ok.mp h
  dsimp only at h
  split_ifs at h with hend
  cases h
  obtain ⟨tokens, hreads, hdenotes⟩ := parseOr_sound hparse
  exact ⟨tokens, ⟨token, rest, last, hnext, hreads, hend⟩, hdenotes⟩

theorem parse_complete (hlexes : Lexes context tokens) (hdenotes : Denotes .or tokens v) : parse context = .ok v := by
  obtain ⟨token, rest, last, hnext, hreads, hend⟩ := hlexes
  have hlength : tokens.length ≤ context.expression.length + 1 := by
    cases hreads with
    | nil => simp
    | cons hcurrent hadvance hrest =>
      have hfirst := next_shorter hnext hcurrent
      have hall := (Reads.cons hcurrent hadvance hrest).length_le
      simp only [List.length_cons] at hall hfirst ⊢
      omega
  have hstops : Stops .or last.current.type := by
    intro l hl
    rw [hend] at hl
    cases hl
  have hfuel : 8 * tokens.length ≤ 8 * (context.expression.length + 2) + 1 := by omega
  have hparse := parseOr_complete hdenotes hreads hstops hfuel
  rw [parse]
  simp only [bind, Except.bind, hnext, hparse, hend, if_true]

/-- No text is too deep for the fuel: the parser accepts what the grammar derives, with its value, and nothing else. -/
theorem parse_eq_ok_iff : parse context = .ok v ↔ ∃ tokens, Lexes context tokens ∧ Denotes .or tokens v :=
  ⟨parse_sound, fun ⟨_, hlexes, hdenotes⟩ => parse_complete hlexes hdenotes⟩

end Brookesia.JsonUi.Grammar
