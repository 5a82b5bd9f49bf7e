import StreamHub.Streamflow.Graph
import StreamHub.Streamflow.Template

/-!
# Secrets in configs and results

`expandConfig` puts the plaintexts of the secrets a config refers to into a copy of it
and says which were used; `redactSecretValues` takes texts out of a value again.  Both
copy a value with its strings changed (`mapStrings`).
-/

namespace StreamHub.Streamflow

open Library Text OrderedMap Yamljs

mutual

/-- A copy of a value with its strings changed; the members of an object are set in
the order of its keys. -/
def mapStrings (f : Str → Str) : Value → Value
  | .str s => .str (f s)
  | .arr items => .arr (mapStringsItems f items)
  | .obj m => .obj (rebuild .undefined (mapStringsMembers f m))
  | .undefined => .undefined
  | .null => .null
  | .bool b => .bool b
  | .num n => .num n

def mapStringsItems (f : Str → Str) : List Value → List Value
  | [] => []
  | v :: rest => mapStrings f v :: mapStringsItems f rest

def mapStringsMembers (f : Str → Str) : List (Str × Value) → List (Str × Value)
  | [] => []
  | (k, v) :: rest => (k, mapStrings f v) :: mapStringsMembers f rest

end

mutual

/-- The strings of a value at any depth, in the order a copy goes through them. -/
def texts : Value → List Str
  | .str s => [s]
  | .arr items => textsItems items
  | .obj m => (keys m).flatMap (lookupOr [] (textsMembers m))
  | .undefined => []
  | .null => []
  | .bool _ => []
  | .num _ => []

def textsItems : List Value → List Str
  | [] => []
  | v :: rest => texts v ++ textsItems rest

def textsMembers : List (Str × Value) → List (Str × List Str)
  | [] => []
  | (k, v) :: rest => (k, texts v) :: textsMembers rest

end

/-! ## Expanding -/

/-- A text with its references replaced. -/
def expandText (resolve : Str → Str) (s : Str) : Str :=
  if contains s opening then
    (replaceMatches secretAt (fun name => some (resolve name)) s).getD s
  else s

/-- The names a text refers to. -/
def secretNames (s : Str) : List Str := if contains s opening then groups secretAt s else []

/-- `expandConfig`: the copy, and the plaintexts used, each once. -/
def expandConfig (resolve : Str → Str) (config : List (Str × Value)) :
    List (Str × Value) × List Str :=
  (asObject (mapStrings (expandText resolve) (.obj config)),
    ((((texts (.obj config)).flatMap secretNames).map resolve).filter (· ≠ [])).eraseDups)

/-! ## Redacting -/

def redactedText : Str := str "[redacted]"

/-- Every needle replaced, one after another. -/
def scrubText (needles : List Str) (s : Str) : Str :=
  needles.foldl (fun s needle => replaceAll s needle redactedText) s

/-- `redactSecretValues`: needles of at least four UTF-16 units. -/
def redactSecretValues (v : Value) (needles : List Str) : Value :=
  let found := needles.filter fun n => 4 ≤ utf16Len n
  if found = [] then v else mapStrings (scrubText found) v

end StreamHub.Streamflow
