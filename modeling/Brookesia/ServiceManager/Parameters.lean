import Brookesia.Data.SortedMap
import Brookesia.ServiceManager.SyncCalls
import Brookesia.Transition.Keyed

/-! # Parameters of functions

`FunctionRegistry::call` checks the parameters of a call by name and adds the defaults; a call with values alone gives them names first.
The handler of the function returns or throws, and a call says with what it was called. -/

namespace Brookesia.ServiceManager.Parameters

open Data Sync Transition List Option

inductive FunctionValueType
  | boolean | number | string | object | array | rawBuffer
  deriving DecidableEq

def FunctionValueType.text : FunctionValueType → String
  | .boolean => "Boolean"
  | .number => "Number"
  | .string => "String"
  | .object => "Object"
  | .array => "Array"
  | .rawBuffer => "RawBuffer"

/-- With the members of objects and arrays, as `boost::json` prints them. -/
inductive FunctionValue
  | boolean (b : Bool)
  | number (x : ℚ)
  | string (s : String)
  | object (members : List (String × String))
  | array (items : List String)
  | rawBuffer (bytes : List UInt8)

def getFunctionValueType : FunctionValue → FunctionValueType
  | .boolean _ => .boolean
  | .number _ => .number
  | .string _ => .string
  | .object _ => .object
  | .array _ => .array
  | .rawBuffer _ => .rawBuffer

abbrev FunctionParameterMap : Type := SortedMap String FunctionValue

structure FunctionParameterSchema where
  name : String
  type : FunctionValueType := .string
  defaultValue : Option FunctionValue := none

def FunctionParameterSchema.isRequired (p : FunctionParameterSchema) : Bool := !p.defaultValue.isSome

def FunctionParameterSchema.isCompatibleValue (p : FunctionParameterSchema) (v : FunctionValue) : Bool :=
  getFunctionValueType v = p.type

structure FunctionSchema where
  name : String
  parameters : List FunctionParameterSchema
  returnValue : Option FunctionValueType := none

abbrev FunctionHandler : Type := FunctionParameterMap → Outcome FunctionValue

/-! ### The registry -/

/-- The first pass: what is given is checked, and the defaults are filled in. -/
def fillParameters : List FunctionParameterSchema → FunctionParameterMap → Except String FunctionParameterMap
  | [], parameters => .ok parameters
  | p :: ps, parameters =>
    match parameters.find? p.name with
    | none =>
      if p.isRequired then .error ("Missing required parameter: `" ++ (p.name ++ "`"))
      else
        match p.defaultValue with
        | none => .error ("Optional parameter `" ++ (p.name ++ "` has no default value"))
        | some value => fillParameters ps (parameters.insert (p.name, value))
    | some value =>
      if p.isCompatibleValue value then fillParameters ps parameters
      else .error ("Invalid type for parameter `" ++ (p.name ++ ("`: expected `" ++ (p.type.text ++
        ("`, but got `" ++ ((getFunctionValueType value).text ++ "`"))))))

def validateParameters (schema : FunctionSchema) (parameters : FunctionParameterMap) : Except String FunctionParameterMap :=
  match fillParameters schema.parameters parameters with
  | .error e => .error e
  | .ok parameters =>
    match parameters.entries.find? fun argument => !schema.parameters.any (·.name = argument.1) with
    | some argument => .error ("Unknown parameter: `" ++ (argument.1 ++ "`"))
    | none => .ok parameters

def validateReturnValue (schema : FunctionSchema) (result : FunctionResult FunctionValue) : Option String :=
  if !result.success then none
  else
    match schema.returnValue, result.data with
    | none, none => none
    | none, some _ => some ("Function `" ++ (schema.name ++ "` returned data but schema declares no return value"))
    | some type, none =>
      some ("Function `" ++ (schema.name ++ ("` returned no data but schema declares return type `" ++ (type.text ++ "`"))))
    | some type, some data =>
      if getFunctionValueType data = type then none
      else some ("Function `" ++ (schema.name ++ ("` returned invalid data type: expected `" ++ (type.text ++
        ("`, but got `" ++ ((getFunctionValueType data).text ++ "`"))))))

def failure (e : String) : Outcome FunctionValue := .returns { success := false, errorMessage := e }

/-- `FunctionRegistry::call` of a function that is registered. -/
def call (schema : FunctionSchema) (handler : FunctionHandler) (parameters : FunctionParameterMap) :
    Option FunctionParameterMap × Outcome FunctionValue :=
  match validateParameters schema parameters with
  | .error e => (none, failure e)
  | .ok arguments =>
    (some arguments,
      match handler arguments with
      | .throws what => .throws what
      | .returns result =>
        match validateReturnValue schema result with
        | some e => failure e
        | none => .returns result)

/-- The conversion of `call_function_sync` and `call_function_async`, up to `std::min` of the two lengths. -/
def parametersMap (schema : FunctionSchema) (values : List FunctionValue) : FunctionParameterMap :=
  (schema.parameters.zip values).foldl (fun parameters e => parameters.insert (e.1.name, e.2)) .empty

/-- Either of them, where `byName` is its overload that takes a map. -/
def callWithValues {R : Type} (byName : FunctionParameterMap → R) (schema : FunctionSchema) (values : List FunctionValue) : R :=
  byName (parametersMap schema values)

/-! ### What a call should do -/

variable {schema : FunctionSchema} {handler : FunctionHandler} {values : List FunctionValue} {m args : FunctionParameterMap}
  {ps : List FunctionParameterSchema}

/-- The map gives the i-th parameter the i-th value. -/
structure Gives (schema : FunctionSchema) (values : List FunctionValue) (m : FunctionParameterMap) : Prop where
  given : ∀ e ∈ schema.parameters.zip values, m.find? e.1.name = some e.2
  others : ∀ name v, m.find? name = some v → ∃ e ∈ schema.parameters.zip values, e.1.name = name

structure Accepts (schema : FunctionSchema) (m : FunctionParameterMap) : Prop where
  required : ∀ p ∈ schema.parameters, p.isRequired = true → m.find? p.name ≠ none
  compatible : ∀ p ∈ schema.parameters, ∀ v ∈ m.find? p.name, p.isCompatibleValue v = true
  known : ∀ name v, m.find? name = some v → ∃ p ∈ schema.parameters, p.name = name

def argument (schema : FunctionSchema) (m : FunctionParameterMap) (name : String) : Option FunctionValue :=
  (schema.parameters.find? (·.name = name)).bind fun p => (m.find? name).or p.defaultValue

structure Agrees (schema : FunctionSchema) (handler : FunctionHandler) (values : List FunctionValue) : Prop where
  same : values.length ≤ schema.parameters.length → ∀ m, Gives schema values m → ∀ {R : Type} (byName : FunctionParameterMap → R),
    callWithValues byName schema values = byName m
  surplus : schema.parameters.length < values.length → (callWithValues (call schema handler) schema values).1 = none
  invoked : ∀ m args, (call schema handler m).1 = some args ↔ Accepts schema m ∧ ∀ name, args.find? name = argument schema m name

/-! ### Values alone -/

theorem find?_foldl {f : String → Option FunctionValue} {es : List (FunctionParameterSchema × FunctionValue)}
    (h : ∀ e ∈ es, f e.1.name = some e.2) (m : FunctionParameterMap) (name : String) :
    (es.foldl (fun parameters e => parameters.insert (e.1.name, e.2)) m).find? name =
      if ∃ e ∈ es, e.1.name = name then f name else m.find? name := by
  induction es generalizing m with
  | nil => simp
  | cons e es ih =>
    obtain ⟨hhead, htail⟩ := forall_mem_cons.mp h
    rw [foldl_cons, ih htail, SortedMap.find?_insert]
    have hcons : (∃ e' ∈ e :: es, e'.1.name = name) ↔ e.1.name = name ∨ ∃ e' ∈ es, e'.1.name = name := by simp
    simp only [hcons]
    by_cases hes : ∃ e ∈ es, e.1.name = name
    · rw [if_pos hes, if_pos (.inr hes)]
    · rw [if_neg hes]
      by_cases hname : e.1.name = name
      · rw [if_pos hname.symm, if_pos (.inl hname), ← hname, hhead]
      · rw [if_neg (Ne.symm hname), if_neg fun hor => hor.elim hname hes]

theorem Gives.eq (h : Gives schema values m) : parametersMap schema values = m := by
  refine SortedMap.ext_find? fun name => ?_
  unfold parametersMap
  rw [find?_foldl h.given]
  split_ifs with hex
  · rfl
  · refine (eq_none_iff_forall_ne_some.mpr fun v hv => hex (h.others name v hv)).symm

def Distinct (schema : FunctionSchema) : Prop := (schema.parameters.map FunctionParameterSchema.name).Nodup

theorem gives_parametersMap (hdist : Distinct schema) (hlen : schema.parameters.length ≤ values.length) :
    Gives schema values (parametersMap schema values) := by
  have hnd : ((schema.parameters.zip values).map fun e => e.1.name).Nodup := by
    have hnms := congrArg (List.map FunctionParameterSchema.name) (map_fst_zip hlen)
    rw [List.map_map] at hnms
    exact hnms ▸ hdist
  have hgiven : ∀ e ∈ schema.parameters.zip values,
      ((schema.parameters.zip values).find? (fun e' => e'.1.name == e.1.name)).map Prod.snd = some e.2 := fun e he => by
    have hfind := find?_key hnd he rfl
    exact congrArg (Option.map Prod.snd) hfind
  have hfind := find?_foldl (f := fun name => ((schema.parameters.zip values).find? (fun e' => e'.1.name == name)).map Prod.snd)
    hgiven .empty
  refine ⟨fun e he => ?_, fun name v hv => ?_⟩
  · exact (hfind e.1.name).trans ((if_pos ⟨e, he, rfl⟩).trans (hgiven e he))
  · by_contra hnone
    rw [parametersMap, hfind, if_neg hnone] at hv
    cases hv

/-! ### The two passes -/

def Complete (ps : List FunctionParameterSchema) (m : FunctionParameterMap) : Prop :=
  ∀ p ∈ ps, (p.isRequired = true → m.find? p.name ≠ none) ∧ ∀ v ∈ m.find? p.name, p.isCompatibleValue v = true

theorem complete_insert {name : String} {v : FunctionValue} (h : name ∉ ps.map FunctionParameterSchema.name) :
    Complete ps (m.insert (name, v)) ↔ Complete ps m := by
  refine forall₂_congr fun p hp => ?_
  have hne : p.name ≠ name := fun heq => h (heq ▸ List.mem_map_of_mem hp)
  rw [SortedMap.find?_insert, if_neg hne]

theorem fillParameters_ok_iff (hnd : (ps.map FunctionParameterSchema.name).Nodup) : fillParameters ps m = .ok args ↔
    Complete ps m ∧ ∀ name, args.find? name = (m.find? name).or ((ps.find? (·.name = name)).bind (·.defaultValue)) := by
  induction ps generalizing m with
  | nil =>
    simp only [fillParameters, Complete, not_mem_nil, false_imp_iff, implies_true, true_and, List.find?_nil, bind_none,
      or_none, Except.ok.injEq]
    exact ⟨fun h name => h ▸ rfl, fun h => SortedMap.ext_find? fun name => (h name).symm⟩
  | cons p ps ih =>
    obtain ⟨hnew, hnd⟩ := nodup_cons.mp hnd
    have hoth : ∀ {name}, p.name ≠ name → (p :: ps).find? (·.name = name) = ps.find? (·.name = name) := fun hne =>
      List.find?_cons_of_neg (by simpa using hne)
    unfold fillParameters
    cases hfind : m.find? p.name with
    | some v =>
      have hsame : ∀ name, (m.find? name).or (((p :: ps).find? (·.name = name)).bind (·.defaultValue)) =
          (m.find? name).or ((ps.find? (·.name = name)).bind (·.defaultValue)) := by
        intro name
        by_cases hname : p.name = name
        · rw [← hname, hfind, some_or, some_or]
        · rw [hoth hname]
      simp only [hsame]
      split_ifs with hcompat
      · rw [ih hnd]
        refine and_congr_left fun _ => ⟨fun h => forall_mem_cons.mpr ⟨⟨fun _ => ?_, fun w hw => ?_⟩, h⟩, ?_⟩
        · exact hfind ▸ some_ne_none v
        · cases hfind.symm.trans hw
          exact hcompat
        · exact fun h => (forall_mem_cons.mp h).2
      · exact iff_of_false (fun h => by cases h) fun h => hcompat ((h.1 p mem_cons_self).2 v hfind)
    | none =>
      dsimp only
      cases hdef : p.defaultValue with
      | none =>
        have hreq : p.isRequired = true := by rw [FunctionParameterSchema.isRequired, hdef]; rfl
        rw [if_pos hreq]
        exact iff_of_false (fun h => by cases h) fun h => (h.1 p mem_cons_self).1 hreq hfind
      | some d =>
        have hreq : ¬p.isRequired = true := by rw [FunctionParameterSchema.isRequired, hdef]; exact Bool.false_ne_true
        rw [if_neg hreq]
        dsimp only
        rw [ih hnd, complete_insert hnew]
        refine and_congr ⟨fun h => forall_mem_cons.mpr ⟨⟨fun hr => absurd hr hreq, fun v hv => ?_⟩, h⟩, ?_⟩
          (forall_congr' fun name => ?_)
        · cases hfind.symm.trans hv
        · exact fun h => (forall_mem_cons.mp h).2
        · rw [SortedMap.find?_insert]
          by_cases hname : p.name = name
          · have hhead : (p :: ps).find? (·.name = p.name) = some p := List.find?_cons_of_pos (decide_eq_true rfl)
            rw [if_pos hname.symm, ← hname, hfind, hhead, bind_some, hdef, some_or, none_or]
          · rw [if_neg (Ne.symm hname), hoth hname]

theorem argument_eq (hknown : ∀ name v, m.find? name = some v → ∃ p ∈ schema.parameters, p.name = name) (name : String) :
    argument schema m name = (m.find? name).or ((schema.parameters.find? (·.name = name)).bind (·.defaultValue)) := by
  unfold argument
  cases hfind : schema.parameters.find? (·.name = name) with
  | some p => rfl
  | none =>
    cases hm : m.find? name with
    | none => rfl
    | some v =>
      obtain ⟨p, hp, hname⟩ := hknown name v hm
      exact absurd (decide_eq_true hname) (List.find?_eq_none.mp hfind p hp)

theorem validateParameters_ok_iff (hdist : Distinct schema) : validateParameters schema m = .ok args ↔
    Accepts schema m ∧ ∀ name, args.find? name = argument schema m name := by
  unfold validateParameters
  cases hfill : fillParameters schema.parameters m with
  | error e =>
    refine iff_of_false (fun h => by cases h) ?_
    rintro ⟨⟨hreq, hcompat, hknown⟩, hargs⟩
    have hok : fillParameters schema.parameters m = .ok args := (fillParameters_ok_iff hdist).mpr
      ⟨fun p hp => ⟨hreq p hp, hcompat p hp⟩, fun name => (hargs name).trans (argument_eq hknown name)⟩
    cases hfill.symm.trans hok
  | ok filled =>
    obtain ⟨hcomplete, hfilled⟩ := (fillParameters_ok_iff hdist).mp hfill
    dsimp only
    cases hunknown : filled.entries.find? fun argument => !schema.parameters.any (·.name = argument.1) with
    | some a =>
      refine iff_of_false (fun h => by cases h) ?_
      rintro ⟨⟨-, -, hknown⟩, -⟩
      have hnot : ¬∃ p ∈ schema.parameters, p.name = a.1 := by simpa using List.find?_some hunknown
      have hfnd := SortedMap.find?_eq_some.mpr (mem_of_find?_eq_some hunknown)
      rw [hfilled, ← argument_eq hknown] at hfnd
      obtain ⟨p, hp, -⟩ := bind_eq_some_iff.mp hfnd
      exact hnot ⟨p, mem_of_find?_eq_some hp, by simpa using List.find?_some hp⟩
    | none =>
      have hknown : ∀ name v, m.find? name = some v → ∃ p ∈ schema.parameters, p.name = name := by
        intro name v hv
        have hfnd := hfilled name
        rw [hv, some_or] at hfnd
        simpa using List.find?_eq_none.mp hunknown _ (SortedMap.find?_eq_some.mp hfnd)
      have hargs : ∀ name, filled.find? name = argument schema m name := fun name =>
        (hfilled name).trans (argument_eq hknown name).symm
      constructor
      · intro h
        cases h
        exact ⟨⟨fun p hp => (hcomplete p hp).1, fun p hp => (hcomplete p hp).2, hknown⟩, hargs⟩
      · exact fun h => congrArg Except.ok (SortedMap.ext_find? fun name => (hargs name).trans (h.2 name).symm)

theorem call_invoked_iff : (call schema handler m).1 = some args ↔ validateParameters schema m = .ok args := by
  unfold call
  cases validateParameters schema m with
  | error e => exact iff_of_false (some_ne_none args).symm fun h => by cases h
  | ok filled => exact ⟨fun h => congrArg Except.ok (some.inj h), fun h => congrArg some (Except.ok.inj h)⟩

/-- What is left over has no name, so that only a wrong type is noticed. -/
theorem surplus_iff (hdist : Distinct schema) (hlen : schema.parameters.length ≤ values.length) :
    (callWithValues (call schema handler) schema values).1 = none ↔
      ∃ e ∈ schema.parameters.zip values, e.1.isCompatibleValue e.2 = false := by
  have hgives := gives_parametersMap hdist hlen
  unfold callWithValues
  generalize parametersMap schema values = m at hgives
  constructor
  · intro hnone
    by_contra hall
    have hval : ∀ p ∈ schema.parameters, ∃ v, m.find? p.name = some v ∧ p.isCompatibleValue v = true := by
      intro p hp
      rw [← map_fst_zip hlen] at hp
      obtain ⟨e, he, rfl⟩ := List.mem_map.mp hp
      exact ⟨e.2, hgives.given e he, Bool.not_eq_false _ |>.mp fun hcompat => hall ⟨e, he, hcompat⟩⟩
    have hknown : ∀ name v, m.find? name = some v → ∃ p ∈ schema.parameters, p.name = name := by
      intro name v hv
      obtain ⟨e, he, hname⟩ := hgives.others name v hv
      exact ⟨e.1, (of_mem_zip he).1, hname⟩
    have hok : validateParameters schema m = .ok m := by
      refine (validateParameters_ok_iff hdist).mpr ⟨⟨fun p hp _ => ?_, fun p hp v hv => ?_, hknown⟩, fun name => ?_⟩
      · obtain ⟨v, hv, -⟩ := hval p hp
        exact hv ▸ some_ne_none v
      · obtain ⟨v', hv', hcompat⟩ := hval p hp
        cases hv'.symm.trans hv
        exact hcompat
      · rw [argument_eq hknown]
        cases hfind : schema.parameters.find? (·.name = name) with
        | none => exact or_none.symm
        | some p =>
          obtain ⟨v, hv, -⟩ := hval p (mem_of_find?_eq_some hfind)
          have hname : p.name = name := by simpa using List.find?_some hfind
          rw [← hname, hv, some_or]
    rw [call_invoked_iff.mpr hok] at hnone
    cases hnone
  · rintro ⟨e, he, hcompat⟩
    refine eq_none_iff_forall_ne_some.mpr fun args hargs => ?_
    obtain ⟨haccs, -⟩ := (validateParameters_ok_iff hdist).mp (call_invoked_iff.mp hargs)
    have htrue := haccs.compatible e.1 (of_mem_zip he).1 e.2 (hgives.given e he)
    cases htrue.symm.trans hcompat

/-- **The spellings of a call agree** unless there are more values than parameters, and the types of these are right. -/
theorem spellings_agree_iff (hdist : Distinct schema) (handler : FunctionHandler) (values : List FunctionValue) :
    Agrees schema handler values ↔
      values.length ≤ schema.parameters.length ∨ ∃ e ∈ schema.parameters.zip values, e.1.isCompatibleValue e.2 = false := by
  constructor
  · intro h
    rcases Nat.lt_or_ge schema.parameters.length values.length with hlen | hlen
    · exact .inr ((surplus_iff hdist hlen.le).mp (h.surplus hlen))
    · exact .inl hlen
  · intro h
    refine ⟨fun _ m hm R byName => congrArg byName hm.eq, fun hlen => ?_, fun m args => ?_⟩
    · exact (surplus_iff hdist hlen.le).mpr (h.resolve_left (Nat.not_le.mpr hlen))
    · exact call_invoked_iff.trans (validateParameters_ok_iff hdist)

/-! ### A value too many -/

def setVolume : FunctionSchema where
  name := "SetVolume"
  parameters := [{ name := "Volume", type := .number }]

def returnsNothing : FunctionHandler := fun _ => .returns { success := true }

theorem distinct_setVolume : Distinct setVolume := nodup_singleton _

theorem spellings_agree_iff_setVolume : Distinct setVolume ∧ Agrees setVolume returnsNothing [.number 5] :=
  ⟨distinct_setVolume, (spellings_agree_iff distinct_setVolume _ _).mpr (.inl le_rfl)⟩

theorem surplus_not_rejected : ¬ ∀ schema, Distinct schema → ∀ handler values, Agrees schema handler values := by
  intro h
  have hnone := (h setVolume distinct_setVolume returnsNothing [.number 5, .boolean true]).surplus (by decide)
  rw [surplus_iff distinct_setVolume (by decide)] at hnone
  exact absurd hnone (by decide)

end Brookesia.ServiceManager.Parameters
