import StreamHub.Streamflow.Bag

/-!
# Conditions and switches

The typed evaluation of rules `{field, op, value}` against the run bag.  What a rule
compares is read from the bag, so evaluating one returns nothing where resolving its
value does not return.
-/

namespace StreamHub.Streamflow

open Library Text OrderedMap Yamljs

/-- `toNum`: a finite number, or a text that is one. -/
def toNum (js : Js) : Value → Option ℚ
  | .num (.finite q) => some q
  | .str s =>
    if js.trimSpace s = [] then none
    else
      match js.stringToNumber s with
      | .finite q => some q
      | _ => none
  | _ => none

/-- `strictEq` of primitive values.  Objects and arrays are compared by identity
there; `looseEq` finds the same object equal by its text anyway. -/
def strictEq : Value → Value → Bool
  | .null, .null => true
  | .undefined, .undefined => true
  | .bool a, .bool b => a == b
  | .str a, .str b => a == b
  | .num a, .num b => a == b && a != .nan
  | _, _ => false

def isBool : Value → Bool
  | .bool _ => true
  | _ => false

def looseEq (js : Js) (a b : Value) : Bool :=
  if strictEq a b then true
  else
    match toNum js a, toNum js b with
    | some x, some y => x == y
    | _, _ =>
      if isBool a || isBool b then a.toText js == b.toText js
      else if a.isNullish || b.isNullish then false
      else a.toText js == b.toText js

/-- The operators of a rule. -/
inductive Op
  | exists_
  | notExists
  | truthy
  | falsy
  | eq
  | ne
  | gt
  | gte
  | lt
  | lte
  | contains
  | notContains
  | matches_
  deriving DecidableEq

/-- The names of the operators. -/
def opNames : List (Str × Op) :=
  [(str "exists", .exists_), (str "not_exists", .notExists), (str "truthy", .truthy),
    (str "falsy", .falsy), (str "eq", .eq), (str "ne", .ne), (str "gt", .gt), (str "gte", .gte),
    (str "lt", .lt), (str "lte", .lte), (str "contains", .contains),
    (str "not_contains", .notContains), (str "matches", .matches_)]

/-- `numCompare` -/
def numCompare (js : Js) (holds : ℚ → ℚ → Bool) (a b : Value) : Bool :=
  match toNum js a, toNum js b with
  | some x, some y => holds x y
  | _, _ => false

/-- The text of a value, empty for a nullish one. -/
def textOr (js : Js) (v : Value) : Str := if v.isNullish then [] else v.toText js

def containsOp (js : Js) (h : Heap) (actual : Val) (expected : Value) : Bool :=
  match actual with
  | .arr items => items.any fun x => looseEq js x.shallow expected
  | .str a => Text.contains a (textOr js expected)
  | .ref r => ((h.object r).lookup (expected.toText js)).isSome
  | _ => false

def matchesOp (js : Js) (actual pattern : Value) : Bool :=
  let p := textOr js pattern
  if p = [] ∨ 512 < (Runes.runes p).length then false else js.regexTest p (textOr js actual)

/-- A rule with its operator read and its value resolved. -/
def applyOp (js : Js) (h : Heap) (op : Option Op) (actual : Val) (expected : Value) : Bool :=
  match op with
  | none => false
  | some .exists_ => !actual.isNullish
  | some .notExists => actual.isNullish
  | some .truthy => actual.shallow.truthy
  | some .falsy => !actual.shallow.truthy
  | some .eq => looseEq js actual.shallow expected
  | some .ne => !looseEq js actual.shallow expected
  | some .gt => numCompare js (fun x y => decide (y < x)) actual.shallow expected
  | some .gte => numCompare js (fun x y => decide (y ≤ x)) actual.shallow expected
  | some .lt => numCompare js (fun x y => decide (x < y)) actual.shallow expected
  | some .lte => numCompare js (fun x y => decide (x ≤ y)) actual.shallow expected
  | some .contains => containsOp js h actual expected
  | some .notContains => !containsOp js h actual expected
  | some .matches_ => matchesOp js actual.shallow expected

/-- `evalRule`; the objects made for its value are not kept. -/
def evalRule (js : Js) (owner : ℕ) (h : Heap) (bag : Val) (rule : List (Str × Value)) :
    Option Bool :=
  let actual := getPath js h bag ((get rule (str "field")).toText js)
  match resolveValue js owner bag (get rule (str "value")) h with
  | none => none
  | some (expected, _) =>
    let op := ((get rule (str "op")).text?).bind fun name => opNames.lookup name
    some (applyOp js h op actual expected.shallow)

/-- The results of all rules. -/
def evalRules (js : Js) (owner : ℕ) (h : Heap) (bag : Val) : List Value → Option (List Bool)
  | [] => some []
  | rule :: rest =>
    match evalRule js owner h bag (asObject rule), evalRules js owner h bag rest with
    | some b, some bs => some (b :: bs)
    | _, _ => none

def evalCondition (js : Js) (owner : ℕ) (h : Heap) (bag : Val) (cfg : List (Str × Value)) :
    Option Bool :=
  let rules := (get cfg (str "rules")).items
  if rules.isEmpty then some true
  else
    match evalRules js owner h bag rules with
    | none => none
    | some results =>
      if (get cfg (str "match")).text? = some (str "any") then some (results.any fun r => r)
      else some (results.all fun r => r)

/-- A port name, `default` for an empty one. -/
def portOrDefault (js : Js) (port : Str) : Str :=
  if js.trimSpace port = [] then str "default" else js.trimSpace port

/-- The loop over the cases of a switch. -/
def switchCases (js : Js) (owner : ℕ) (h : Heap) (bag actual : Val) :
    List Value → Option (Option Str)
  | [] => some none
  | raw :: rest =>
    let c := asObject raw
    match resolveValue js owner bag (get c (str "value")) h with
    | none => none
    | some (v, _) =>
      if looseEq js actual.shallow v.shallow then
        let port := get c (str "port")
        some (some (portOrDefault js
          (if port.isNullish then ((get c (str "value")).coalesce (.str [])).toText js
          else port.toText js)))
      else switchCases js owner h bag actual rest

def evalSwitch (js : Js) (owner : ℕ) (h : Heap) (bag : Val) (cfg : List (Str × Value)) :
    Option Str :=
  let actual := getPath js h bag ((get cfg (str "field")).toText js)
  match switchCases js owner h bag actual (get cfg (str "cases")).items with
  | none => none
  | some (some port) => some port
  | some none =>
    let d := get cfg (str "default")
    some (portOrDefault js (if d.isNullish then str "default" else d.toText js))

end StreamHub.Streamflow
