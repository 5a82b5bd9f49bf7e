import StreamHub.Library.Text

/-!
# JSON values and records

JSON values as a program holds them after parsing, and the mapping between
values and records: a record type is given by the list of its fields, each with
its name, its codec and whether an empty value is left out.  Reading is strict
(an unknown member is an error), finds a field by its name in any case, and reads
into the value that is there already.
-/

namespace StreamHub.Library

open Text

/-- A JSON value; the members of an object in increasing order of their keys. -/
inductive Json
  | null
  | bool (b : Bool)
  | num (q : ℚ)
  | str (s : Str)
  | arr (items : List Json)
  | obj (members : List (Str × Json))

namespace Json

/-- The members of an object; any other value has none. -/
def members : Json → List (Str × Json)
  | .obj m => m
  | _ => []

def isNull : Json → Bool
  | .null => true
  | _ => false

/-- Set the member `k`. -/
def setMember (k : Str) (v : Json) : List (Str × Json) → List (Str × Json)
  | [] => [(k, v)]
  | (k', v') :: rest =>
    if k = k' then (k, v) :: rest
    else if k < k' then (k, v) :: (k', v') :: rest
    else (k', v') :: setMember k v rest

def deleteMember (k : Str) (m : List (Str × Json)) : List (Str × Json) :=
  m.filter fun kv => kv.1 ≠ k

mutual

/-- Every number replaced. -/
def mapNum (f : ℚ → ℚ) : Json → Json
  | .null => .null
  | .bool b => .bool b
  | .num q => .num (f q)
  | .str s => .str s
  | .arr items => .arr (mapNumItems f items)
  | .obj m => .obj (mapNumMembers f m)

def mapNumItems (f : ℚ → ℚ) : List Json → List Json
  | [] => []
  | j :: rest => mapNum f j :: mapNumItems f rest

def mapNumMembers (f : ℚ → ℚ) : List (Str × Json) → List (Str × Json)
  | [] => []
  | (k, v) :: rest => (k, mapNum f v) :: mapNumMembers f rest

end

/-! ## Codecs -/

/-- Why a value is not read. -/
inductive DecodeError
  | unknownField (key : Str)
  | wrongType (path : List Str)
  deriving DecidableEq

/-- The error of a member, with its name put before the path. -/
def DecodeError.inside (name : Str) : DecodeError → DecodeError
  | .unknownField key => .unknownField key
  | .wrongType path => .wrongType (name :: path)

/-- How values of a type are written and read. -/
structure Codec (α : Type) where
  zero : α
  isEmpty : α → Bool
  write : α → Json
  read : α → Json → Except DecodeError α

namespace Codec

def text : Codec Str where
  zero := []
  isEmpty := (· == [])
  write := .str
  read
    | _, .str s => .ok s
    | old, .null => .ok old
    | _, _ => .error (.wrongType [])

def boolean : Codec Bool where
  zero := false
  isEmpty := (· == false)
  write := .bool
  read
    | _, .bool b => .ok b
    | old, .null => .ok old
    | _, _ => .error (.wrongType [])

/-- Integers of 64 bits. -/
def integer : Codec Int where
  zero := 0
  isEmpty := (· == 0)
  write := fun i => .num i
  read
    | _, .num q =>
      if q.den = 1 ∧ -2 ^ 63 ≤ q.num ∧ q.num < 2 ^ 63 then .ok q.num else .error (.wrongType [])
    | old, .null => .ok old
    | _, _ => .error (.wrongType [])

def number : Codec ℚ where
  zero := 0
  isEmpty := (· == 0)
  write := .num
  read
    | _, .num q => .ok q
    | old, .null => .ok old
    | _, _ => .error (.wrongType [])

variable {α σ : Type}

/-- A value that may be absent. -/
def pointer (c : Codec α) : Codec (Option α) where
  zero := none
  isEmpty := Option.isNone
  write := fun v => v.elim .null c.write
  read
    | _, .null => .ok none
    | old, j => (c.read (old.getD c.zero) j).map some

/-- Items are read into those that are there. -/
def readItems (c : Codec α) : List α → List Json → Except DecodeError (List α)
  | _, [] => .ok []
  | old, j :: rest => do
      let a ← c.read (old.headD c.zero) j
      let items ← readItems c old.tail rest
      return a :: items

def list (c : Codec α) : Codec (List α) where
  zero := []
  isEmpty := List.isEmpty
  write := fun l => .arr (l.map c.write)
  read
    | old, .arr items => readItems c old items
    | _, .null => .ok []
    | _, _ => .error (.wrongType [])

end Codec

/-! ## Records -/

/-- A field of a record: what is written of it, and what reading it does. -/
structure Field (σ : Type) where
  name : Str
  write : σ → Option Json
  read : σ → Json → Except DecodeError σ

variable {α σ : Type}

/-- A field that is always written. -/
def field (name : String) (c : Codec α) (get : σ → α) (set : σ → α → σ) : Field σ where
  name := Text.str name
  write := fun s => some (c.write (get s))
  read := fun s j => (c.read (get s) j).map (set s)

/-- A field that is left out when it is empty. -/
def omitEmpty (name : String) (c : Codec α) (get : σ → α) (set : σ → α → σ) : Field σ :=
  { field name c get set with
    write := fun s => if c.isEmpty (get s) then none else some (c.write (get s)) }

/-- A key without its case.  The two letters outside of ASCII that fold to ASCII
letters are the Kelvin sign and the long s. -/
def foldName : Str → Str
  | 0xe2 :: 0x84 :: 0xaa :: s => 0x6b :: foldName s
  | 0xc5 :: 0xbf :: s => 0x73 :: foldName s
  | b :: s => (if isUpper b then b + 0x20 else b) :: foldName s
  | [] => []

/-- The field a member is read into. -/
def findField (fields : List (Field σ)) (key : Str) : Option (Field σ) :=
  (fields.find? fun f => f.name == key).or
    (fields.find? fun f => foldName f.name == foldName key)

/-- Read the members of an object one by one. -/
def readMembers (fields : List (Field σ)) : σ → List (Str × Json) → Except DecodeError σ
  | s, [] => .ok s
  | s, (key, v) :: rest =>
    match findField fields key with
    | none => .error (.unknownField key)
    | some f =>
      match f.read s v with
      | .error e => .error (e.inside f.name)
      | .ok s => readMembers fields s rest

/-- The members that are written. -/
def writeMembers (fields : List (Field σ)) (s : σ) : List (Str × Json) :=
  fields.foldl (fun m f => (f.write s).elim m fun v => setMember f.name v m) []

def Codec.record (zero : σ) (fields : List (Field σ)) : Codec σ where
  zero := zero
  isEmpty := fun _ => false
  write := fun s => .obj (writeMembers fields s)
  read
    | s, .obj m => readMembers fields s m
    | s, .null => .ok s
    | _, _ => .error (.wrongType [])

end Json

end StreamHub.Library
