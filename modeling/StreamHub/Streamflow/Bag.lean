import StreamHub.Library.Acyclic
import StreamHub.Streamflow.Graph
import StreamHub.Streamflow.Template

/-!
# The run bag

The values of a run share objects: a template returns what the bag holds, and
`setPath` writes into it.  So an object is a reference into a heap here, and two
values that hold the same reference are two views of one object.  Arrays are never
written to and stay values.

A reference is named by the run that made the object and a number; run 0 is what the
event brought.  `snapshot` reads a value out of the heap, as the serializer does; it
returns nothing where the serializer would not return, on a value that contains
itself.
-/

namespace StreamHub.Streamflow

open Library Text OrderedMap Yamljs

/-- The run that made an object, and the how manieth it is. -/
structure Ref where
  owner : ℕ
  index : ℕ
  deriving DecidableEq

/-- A value of a run. -/
inductive Val
  | undefined
  | null
  | bool (b : Bool)
  | num (n : Yamljs.Num)
  | str (s : Str)
  | arr (items : List Val)
  | ref (r : Ref)

namespace Val

def isNullish : Val → Bool
  | .undefined => true
  | .null => true
  | _ => false

mutual

/-- The value with the contents of its objects left out: the coercions do not look
into an object. -/
def shallow : Val → Value
  | .undefined => .undefined
  | .null => .null
  | .bool b => .bool b
  | .num n => .num n
  | .str s => .str s
  | .arr items => .arr (shallowItems items)
  | .ref _ => .obj []

def shallowItems : List Val → List Value
  | [] => []
  | v :: rest => shallow v :: shallowItems rest

end

mutual

/-- The objects a value refers to directly. -/
def refs : Val → List Ref
  | .undefined => []
  | .null => []
  | .bool _ => []
  | .num _ => []
  | .str _ => []
  | .arr items => refsItems items
  | .ref r => [r]

def refsItems : List Val → List Ref
  | [] => []
  | v :: rest => refs v ++ refsItems rest

end

end Val

/-- The objects, each with its members. -/
structure Heap where
  objects : List (Ref × List (Str × Val))
  /-- the objects the run has made -/
  next : ℕ

namespace Heap

/-- The references in use. -/
def domain (h : Heap) : List Ref := h.objects.map Prod.fst

def object (h : Heap) (r : Ref) : List (Str × Val) := lookupOr [] h.objects r

/-- `Map.Get` -/
def member (h : Heap) (r : Ref) (k : Str) : Val := lookupOr .undefined (h.object r) k

/-- `Map.Set` -/
def setMember (h : Heap) (r : Ref) (k : Str) (v : Val) : Heap :=
  { h with objects := set r (set k v (h.object r)) h.objects }

/-- A new object of a run. -/
def alloc (h : Heap) (owner : ℕ) (m : List (Str × Val)) : Ref × Heap :=
  (⟨owner, h.next⟩, { objects := set ⟨owner, h.next⟩ m h.objects, next := h.next + 1 })

end Heap

/-! ## Reading a value out -/

mutual

def snapshotVal (read : Ref → Option Value) : Val → Option Value
  | .undefined => some .undefined
  | .null => some .null
  | .bool b => some (.bool b)
  | .num n => some (.num n)
  | .str s => some (.str s)
  | .arr items =>
    match snapshotItems read items with
    | none => none
    | some items => some (.arr items)
  | .ref r => read r

def snapshotItems (read : Ref → Option Value) : List Val → Option (List Value)
  | [] => some []
  | v :: rest =>
    match snapshotVal read v, snapshotItems read rest with
    | some v, some rest => some (v :: rest)
    | _, _ => none

end

def snapshotMembers (read : Ref → Option Value) :
    List (Str × Val) → Option (List (Str × Value))
  | [] => some []
  | (k, v) :: rest =>
    match snapshotVal read v, snapshotMembers read rest with
    | some v, some rest => some ((k, v) :: rest)
    | _, _ => none

/-- An object read out, at most `depth` objects deep. -/
def Heap.read (h : Heap) : ℕ → Ref → Option Value
  | 0, _ => none
  | depth + 1, r =>
    match snapshotMembers (h.read depth) (h.object r) with
    | none => none
    | some m => some (.obj m)

/-- A value read out; a value that does not contain itself is no deeper than there are
objects. -/
def Heap.snapshot (h : Heap) (v : Val) : Option Value :=
  snapshotVal (h.read (h.objects.length + 1)) v

mutual

/-- A JSON value put into the heap. -/
def load (owner : ℕ) : Value → Heap → Val × Heap
  | .undefined, h => (.undefined, h)
  | .null, h => (.null, h)
  | .bool b, h => (.bool b, h)
  | .num n, h => (.num n, h)
  | .str s, h => (.str s, h)
  | .arr items, h => (.arr (loadItems owner items h).1, (loadItems owner items h).2)
  | .obj m, h =>
    (.ref ((loadMembers owner m h).2.alloc owner (loadMembers owner m h).1).1,
      ((loadMembers owner m h).2.alloc owner (loadMembers owner m h).1).2)

def loadItems (owner : ℕ) : List Value → Heap → List Val × Heap
  | [], h => ([], h)
  | v :: rest, h =>
    ((load owner v h).1 :: (loadItems owner rest (load owner v h).2).1,
      (loadItems owner rest (load owner v h).2).2)

def loadMembers (owner : ℕ) : List (Str × Value) → Heap → List (Str × Val) × Heap
  | [], h => ([], h)
  | (k, v) :: rest, h =>
    ((k, (load owner v h).1) :: (loadMembers owner rest (load owner v h).2).1,
      (loadMembers owner rest (load owner v h).2).2)

end

/-- The payload of an event as its runs see it: `asObject` of it, in a heap with
nothing else. -/
def loadPayload (payload : Value) : Ref × Heap :=
  let loaded := loadMembers 0 (asObject payload) ⟨[], 0⟩
  loaded.2.alloc 0 loaded.1

/-! ## Paths -/

def forbiddenKeys : List Str := [str "__proto__", str "prototype", str "constructor"]

def splitPath (js : Js) (path : Str) : List Str :=
  ((split 0x2e path).map js.trimSpace).filter (· ≠ [])

/-- An element by the number its index is read as. -/
def elementAt (js : Js) (items : List Val) (seg : Str) : Val :=
  match js.stringToNumber seg with
  | .finite q =>
    if q.den = 1 ∧ 0 ≤ q.num ∧ q.num < items.length then
      (items[q.num.toNat]?).getD .undefined
    else .undefined
  | _ => .undefined

/-- The loop of `getPath`. -/
def getSegs (js : Js) (h : Heap) : Val → List Str → Val
  | cur, [] => cur
  | cur, seg :: rest =>
    if seg ∈ forbiddenKeys then .undefined
    else
      match cur with
      | .arr items => getSegs js h (elementAt js items seg) rest
      | .ref r => getSegs js h (h.member r seg) rest
      | _ => .undefined

def getPath (js : Js) (h : Heap) (bag : Val) (path : Str) : Val :=
  getSegs js h bag (splitPath js path)

/-- A member of an object about to be set (kept for the proofs, not in the source). -/
structure Write where
  heap : Heap
  target : Ref
  value : Val

/-- The loop of `setPath`: the object the last segment is set in, behind the objects
made on the way. -/
def locate (owner : ℕ) : Heap → Ref → Str → List Str → List Write → Heap × Ref × Str × List Write
  | h, cur, seg, [], writes => (h, cur, seg, writes)
  | h, cur, seg, seg' :: rest, writes =>
    match h.member cur seg with
    | .ref next => locate owner h next seg' rest writes
    | _ =>
      locate owner ((h.alloc owner []).2.setMember cur seg (.ref (h.alloc owner []).1))
        (h.alloc owner []).1 seg' rest
        (writes ++ [⟨(h.alloc owner []).2, cur, .ref (h.alloc owner []).1⟩])

def setPath (js : Js) (owner : ℕ) (h : Heap) (root : Ref) (path : Str) (v : Val) :
    Heap × List Write :=
  match splitPath js path with
  | [] => (h, [])
  | seg :: rest =>
    if (seg :: rest).any (· ∈ forbiddenKeys) then (h, [])
    else
      let (h, target, key, writes) := locate owner h root seg rest []
      (h.setMember target key v, writes ++ [⟨h, target, v⟩])

/-! ## Templates -/

/-- `stringifyValue`; nothing if the serializer does not return. -/
def stringifyValue (js : Js) (h : Heap) (v : Val) : Option Str :=
  match v with
  | .null => some []
  | .undefined => some []
  | .str s => some s
  | .num n => some (js.numberString n)
  | .bool b => some ((Value.bool b).toText js)
  | _ => (h.snapshot v).map (writeJSON js)

/-- A string of a config, with its templates resolved. -/
def resolveText (js : Js) (h : Heap) (bag : Val) (s : Str) : Option Val :=
  match fullTemplate s with
  | some path => some (getPath js h bag path)
  | none =>
    if contains s opening then
      (replaceMatches templateAt (fun path => stringifyValue js h (getPath js h bag path)) s).map
        .str
    else some (.str s)

mutual

/-- `resolveValue`: arrays and objects are copied, the values of templates are not. -/
def resolveValue (js : Js) (owner : ℕ) (bag : Val) : Value → Heap → Option (Val × Heap)
  | .str s, h =>
    match resolveText js h bag s with
    | none => none
    | some v => some (v, h)
  | .arr items, h =>
    match resolveItems js owner bag items h with
    | none => none
    | some (items, h) => some (.arr items, h)
  | .obj m, h =>
    match resolveMembers js owner bag m h with
    | none => none
    | some (m, h) =>
      some (.ref (h.alloc owner (rebuild .undefined m)).1,
        (h.alloc owner (rebuild .undefined m)).2)
  | .undefined, h => some (.undefined, h)
  | .null, h => some (.null, h)
  | .bool b, h => some (.bool b, h)
  | .num n, h => some (.num n, h)

def resolveItems (js : Js) (owner : ℕ) (bag : Val) :
    List Value → Heap → Option (List Val × Heap)
  | [], h => some ([], h)
  | v :: rest, h =>
    match resolveValue js owner bag v h with
    | none => none
    | some (v, h) =>
      match resolveItems js owner bag rest h with
      | none => none
      | some (rest, h) => some (v :: rest, h)

def resolveMembers (js : Js) (owner : ℕ) (bag : Val) :
    List (Str × Value) → Heap → Option (List (Str × Val) × Heap)
  | [], h => some ([], h)
  | (k, v) :: rest, h =>
    if k ∈ forbiddenKeys then resolveMembers js owner bag rest h
    else
      match resolveValue js owner bag v h with
      | none => none
      | some (v, h) =>
        match resolveMembers js owner bag rest h with
        | none => none
        | some (rest, h) => some ((k, v) :: rest, h)

end

end StreamHub.Streamflow
