import StreamHub.Library.OrderedMap
import StreamHub.Library.Runes

/-!
# JavaScript values

The value model of the streamflow code: what a parsed JSON document is made of,
with `undefined` for a missing member.  An object keeps its members in the order
they were set; `keys` is the order in which JavaScript goes through them.  The
coercions (`toString`, `Number`, spread) follow JavaScript.

The conversions between numbers and texts are parameters (`Js`), like the
functions of `Go`.  Dates do not come out of JSON and are not modelled.
-/

namespace StreamHub.Yamljs

open Library Text OrderedMap Runes
open List hiding contains

/-- A `float64`; the two zeros are one number. -/
inductive Num
  | finite (q : ℚ)
  | infinite (negative : Bool)
  | nan
  deriving DecidableEq

/-- Library functions left open, with those about numbers and patterns. -/
structure Js extends Go where
  /-- `JSNumberString` -/
  numberString : Num → Str
  /-- `StringToNumber` -/
  stringToNumber : Str → Num
  /-- `regexp2.Compile` with `ECMAScript` and `MatchString`; false on an error -/
  regexTest : Str → Str → Bool

/-- A value; an object with its members in the order of their insertion. -/
inductive Value
  | undefined
  | null
  | bool (b : Bool)
  | num (n : Num)
  | str (s : Str)
  | arr (items : List Value)
  | obj (members : List (Str × Value))

/-! ## Members -/

section Members

variable {β : Type}

/-- A canonical array index, below 2^32 - 1. -/
def arrayIndex (k : Str) : Option ℕ :=
  if k = [] ∨ 10 < k.length ∨ (1 < k.length ∧ k.head? = some 0x30) then none
  else if k.all isDigit = false then none
  else if 2 ^ 32 - 2 < digitsValue k then none
  else some (digitsValue k)

/-- `Map.Keys`: array indices in increasing order, then the order of insertion. -/
def keys (m : List (Str × β)) : List Str :=
  let names := m.map Prod.fst
  (names.filter fun k => (arrayIndex k).isSome).insertionSort
      (fun a b => (arrayIndex a).getD 0 ≤ (arrayIndex b).getD 0) ++
    names.filter fun k => (arrayIndex k).isNone

lemma mem_keys {m : List (Str × β)} {k : Str} : k ∈ keys m ↔ k ∈ m.map Prod.fst := by
  simp only [keys, mem_append, mem_insertionSort, mem_filter]
  cases arrayIndex k with
  | none => simp
  | some n => simp

/-- The object made by setting the members in the order of their keys. -/
def rebuild (missing : β) (m : List (Str × β)) : List (Str × β) :=
  build (lookupOr missing m) (keys m)

lemma mem_of_mem_rebuild {missing : β} {m : List (Str × β)} {entry : Str × β}
    (h : entry ∈ rebuild missing m) : entry ∈ m := by
  obtain ⟨hkey, hvalue⟩ := mem_build.mp h
  obtain ⟨v, hv⟩ := Option.isSome_iff_exists.mp (mem_map_fst.mp (mem_keys.mp hkey))
  rw [lookupOr, hv] at hvalue
  have hentry : entry = (entry.1, v) := Prod.ext rfl hvalue
  rw [hentry]
  exact mem_of_lookup hv

/-- The keys of a map that was built in the order of keys. -/
lemma keys_build {γ : Type} (f : Str → β) (m : List (Str × γ)) :
    keys (build f (keys m)) = (build f (keys m)).map Prod.fst := by
  obtain ⟨indices, others, hsplit, hindices, hothers⟩ :=
    sublist_append_iff.mp (sublist_build f (keys m))
  have hall : ∀ k ∈ indices, (arrayIndex k).isSome = true := by
    intro k hk
    have hmem := (mem_insertionSort _).mp (hindices.subset hk)
    exact (mem_filter.mp hmem).2
  have hnone : ∀ k ∈ others, (arrayIndex k).isNone = true := fun k hk =>
    (mem_filter.mp (hothers.subset hk)).2
  have hsorted : indices.Pairwise fun a b => (arrayIndex a).getD 0 ≤ (arrayIndex b).getD 0 := by
    refine Pairwise.sublist hindices ?_
    exact pairwise_insertionSort _ _
  have hsome : (indices ++ others).filter (fun k => (arrayIndex k).isSome) = indices := by
    rw [filter_append, filter_eq_self.mpr hall, filter_eq_nil_iff.mpr, append_nil]
    intro k hk
    simpa using hnone k hk
  have hrest : (indices ++ others).filter (fun k => (arrayIndex k).isNone) = others := by
    rw [filter_append, filter_eq_self.mpr hnone, filter_eq_nil_iff.mpr, nil_append]
    intro k hk
    simpa using Option.isSome_iff_ne_none.mp (hall k hk)
  rw [keys, hsplit]
  rw [hsome, hrest, hsorted.insertionSort_eq]

end Members

/-! ## Reading -/

/-- `Map.Get` -/
def get (m : List (Str × Value)) (k : Str) : Value := lookupOr .undefined m k

namespace Value

def isUndefined : Value → Bool
  | .undefined => true
  | _ => false

def isNullish : Value → Bool
  | .undefined => true
  | .null => true
  | _ => false

/-- `Coalesce` -/
def coalesce (a b : Value) : Value := if a.isNullish then b else a

/-- The string of a string value. -/
def text? : Value → Option Str
  | .str s => some s
  | _ => none

/-- The elements of an array value, none for any other. -/
def items : Value → List Value
  | .arr items => items
  | _ => []

/-- `Truthy` -/
def truthy : Value → Bool
  | .undefined => false
  | .null => false
  | .bool b => b
  | .num n => n != .finite 0 && n != .nan
  | .str s => s != []
  | .arr _ => true
  | .obj _ => true

/-- `jsString` of anything but an array -/
def scalarText (js : Js) : Value → Str
  | .null => Text.str "null"
  | .undefined => Text.str "undefined"
  | .bool true => Text.str "true"
  | .bool false => Text.str "false"
  | .num n => js.numberString n
  | .str s => s
  | .obj _ => Text.str "[object Object]"
  | .arr _ => []

/-- An element in the text of its array; nothing for a nested array, which is an
error of `keyString`. -/
def elementText (js : Js) : Value → Option Str
  | .arr _ => none
  | .null => some []
  | .undefined => some []
  | v => some (scalarText js v)

/-- `ToString` -/
def toText (js : Js) : Value → Str
  | .arr items =>
    match items.mapM (elementText js) with
    | none => []
    | some parts => join parts (Text.str ",")
  | v => scalarText js v

end Value

/-! ## Texts -/

/-- `utf16.Encode`, each unit as `utf16.Decode` turns it back to a text: one of a
pair is U+FFFD. -/
def utf16Units (s : Str) : List Str :=
  (runes s).flatMap fun r => if r.length = 4 then [replacement, replacement] else [r]

/-- `jsx.UTF16Len` -/
def utf16Len (s : Str) : ℕ := (utf16Units s).length

/-- `Spread`: the members of an object, an array or a string. -/
def spread : Value → List (Str × Value)
  | .obj m => m
  | .arr items => (items.zipIdx).map fun (v, i) => (natText i, v)
  | .str s => ((utf16Units s).zipIdx).map fun (u, i) => (natText i, .str u)
  | _ => []

/-! ## JSON texts -/

def hexLower (n : UInt8) : UInt8 := if n < 10 then 0x30 + n else 0x57 + n

/-- One rune in a JSON string. -/
def quoteRune (r : Str) : Str :=
  match r with
  | [0x22] => str "\\\""
  | [0x5c] => str "\\\\"
  | [0x08] => str "\\b"
  | [0x0c] => str "\\f"
  | [0x0a] => str "\\n"
  | [0x0d] => str "\\r"
  | [0x09] => str "\\t"
  | [c] => if c < 0x20 then str "\\u00" ++ [hexLower (c >>> 4), hexLower (c &&& 15)] else [c]
  | _ => r

/-- `writeJSONString` -/
def quoteJSON (s : Str) : Str := str "\"" ++ (runes s).flatMap quoteRune ++ str "\""

def bracketOpen : Str := [0x7b]

def bracketClose : Str := [0x7d]

mutual

/-- `writeJSON` -/
def writeJSON (js : Js) : Value → Str
  | .null => str "null"
  | .undefined => str "null"
  | .bool true => str "true"
  | .bool false => str "false"
  | .num (.finite q) => js.numberString (.finite q)
  | .num _ => str "null"
  | .str s => quoteJSON s
  | .arr items => str "[" ++ join (writeItems js items) (str ",") ++ str "]"
  | .obj m =>
    bracketOpen ++
      join ((keys m).filterMap fun k => ((writeMembers js m).lookup k).join) (str ",") ++
      bracketClose

def writeItems (js : Js) : List Value → List Str
  | [] => []
  | v :: rest => writeJSON js v :: writeItems js rest

/-- Each member with its text; one that is undefined has none. -/
def writeMembers (js : Js) : List (Str × Value) → List (Str × Option Str)
  | [] => []
  | (k, v) :: rest =>
    (k, if v.isUndefined then none else some (quoteJSON k ++ str ":" ++ writeJSON js v)) ::
      writeMembers js rest

end

namespace Js

/-- Whole numbers in decimal. -/
def plainNumber : Num → Str
  | .finite q => itoa ⌊q⌋
  | .infinite true => str "-Infinity"
  | .infinite false => str "Infinity"
  | .nan => str "NaN"

def plain : Js where
  toGo := Go.plain
  numberString := plainNumber
  stringToNumber s :=
    match decimal s with
    | none => .nan
    | some n => .finite n
  regexTest pattern s := contains s pattern

end Js

end StreamHub.Yamljs
