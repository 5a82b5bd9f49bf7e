import StreamHub.Library.Text

/-!
# What the programs take from Go's standard library

Functions with large tables or grammars behind them are parameters: a result
that mentions `Go` holds for whatever they compute.  `Go.plain` is a small
instance for URLs and addresses in plain ASCII.
-/

namespace StreamHub.Library

open Text

/-- The parts of a parsed URL the programs read. -/
structure URL where
  scheme : Str
  host : Str
  path : Str
  deriving DecidableEq

/-- An address of `net.IP`. -/
abbrev IP := List UInt8

/-- Library functions left open. -/
structure Go where
  /-- `strings.ToLower` of a string with a byte above 0x7f -/
  lowerUnicode : Str → Str
  /-- `strings.TrimSpace` of such a string -/
  trimSpaceUnicode : Str → Str
  /-- the `%q` verb -/
  quote : Str → Str
  /-- `url.Parse`; an error as the text inside of the `url.Error` -/
  parseURL : Str → Except Str URL
  /-- `net.SplitHostPort` -/
  splitHostPort : Str → Except Str (Str × Str)
  /-- `net.ParseIP`, in its 16-byte form -/
  parseIP : Str → Option IP

def isASCII (s : Str) : Bool := s.all (· < 0x80)

def lowerByte (b : UInt8) : UInt8 := if isUpper b then b + 0x20 else b

def isSpace (b : UInt8) : Bool := b == 0x20 || (0x09 ≤ b && b ≤ 0x0d)

namespace Go

/-- `strings.ToLower` -/
def toLower (go : Go) (s : Str) : Str := if isASCII s then s.map lowerByte else go.lowerUnicode s

/-- `strings.TrimSpace` -/
def trimSpace (go : Go) (s : Str) : Str :=
  if isASCII s then (s.dropWhile isSpace).rdropWhile isSpace else go.trimSpaceUnicode s

end Go

/-- `IP.IsMulticast`: 224.0.0.0/4, or ff00::/8 -/
def isMulticast (ip : IP) : Bool :=
  match ip.take 12 == [0, 0, 0, 0, 0, 0, 0, 0, 0, 0, 0xff, 0xff], ip.drop 12 with
  | true, first :: _ => first &&& 0xf0 == 0xe0
  | _, _ => ip.head? == some 0xff

/-! ## Escaping of query strings -/

def isHex (b : UInt8) : Bool := isDigit b || (0x61 ≤ b && b ≤ 0x66) || (0x41 ≤ b && b ≤ 0x46)

lemma isHex_iff {b : UInt8} : isHex b = true ↔
    (0x30 ≤ b.toNat ∧ b.toNat ≤ 0x39) ∨ (0x61 ≤ b.toNat ∧ b.toNat ≤ 0x66) ∨
      (0x41 ≤ b.toNat ∧ b.toNat ≤ 0x46) := by
  simp [isHex, isDigit, UInt8.le_iff_toNat_le, or_assoc]

def unhex (b : UInt8) : UInt8 :=
  if isDigit b then b - 0x30 else if 0x61 ≤ b then b - 0x57 else b - 0x37

/-- `url.QueryUnescape` -/
def queryUnescape : Str → Option Str
  | [] => some []
  | 0x25 :: a :: b :: s =>
    if isHex a && isHex b then
      match queryUnescape s with
      | none => none
      | some rest => some ((unhex a * 16 + unhex b) :: rest)
    else none
  | 0x25 :: _ => none
  | c :: s =>
    match queryUnescape s with
    | none => none
    | some rest => some ((if c = 0x2b then 0x20 else c) :: rest)

def hexDigit (n : UInt8) : UInt8 := if n < 10 then 0x30 + n else 0x37 + n

/-- `url.QueryEscape` -/
def queryEscape (s : Str) : Str :=
  s.flatMap fun b =>
    if isAlnum b || b == 0x2d || b == 0x5f || b == 0x2e || b == 0x7e then [b]
    else if b == 0x20 then [0x2b]
    else [0x25, hexDigit (b >>> 4), hexDigit (b &&& 15)]

/-- `url.Values.Encode` of a map with one value for each key -/
def encodeValues (values : List (Str × Str)) : Str :=
  join ((values.mergeSort fun a b => decide (a.1 ≤ b.1)).map fun kv =>
    queryEscape kv.1 ++ str "=" ++ queryEscape kv.2) (str "&")

/-- `path.Base` -/
def pathBase (path : Str) : Str :=
  if path = [] then str "."
  else
    let stripped := trimRight 0x2f path
    let last :=
      match cutLast 0x2f stripped with
      | none => stripped
      | some (_, after) => after
    if last = [] then str "/" else last

/-! ## Runes -/

def isCont (b : UInt8) : Bool := 0x80 ≤ b && b ≤ 0xbf

/-- The bytes of the first rune; one for a byte that begins none. -/
def runeLen : Str → Nat
  | a :: b :: c :: d :: _ =>
    if 0xc2 ≤ a && a ≤ 0xdf && isCont b then 2
    else if threeByte a b && isCont c then 3
    else if fourByte a b && isCont c && isCont d then 4
    else 1
  | [a, b, c] =>
    if 0xc2 ≤ a && a ≤ 0xdf && isCont b then 2
    else if threeByte a b && isCont c then 3
    else 1
  | [a, b] => if 0xc2 ≤ a && a ≤ 0xdf && isCont b then 2 else 1
  | _ => 1
where
  /-- the first two bytes of a rune of three -/
  threeByte (a b : UInt8) : Bool :=
    (a == 0xe0 && 0xa0 ≤ b && b ≤ 0xbf) || (a == 0xed && 0x80 ≤ b && b ≤ 0x9f) ||
      (0xe1 ≤ a && a ≤ 0xef && a != 0xed && isCont b)
  /-- the first two bytes of a rune of four -/
  fourByte (a b : UInt8) : Bool :=
    (a == 0xf0 && 0x90 ≤ b && b ≤ 0xbf) || (a == 0xf4 && 0x80 ≤ b && b ≤ 0x8f) ||
      (0xf1 ≤ a && a ≤ 0xf3 && isCont b)

/-- At most `fuel` runes. -/
def runesUpTo : Nat → Str → Nat
  | 0, _ => 0
  | _, [] => 0
  | fuel + 1, s => 1 + runesUpTo fuel (s.drop (runeLen s))

/-- The length of `[]rune(s)` -/
def runeCount (s : Str) : Nat := runesUpTo s.length s

/-! ## A small instance -/

namespace Go

/-- The text before the first byte `b`. -/
def before (b : UInt8) (s : Str) : Str := s.takeWhile (· != b)

/-- `scheme://user@host/path?query#fragment` without escapes. -/
def plainURL (raw : Str) : Except Str URL :=
  match cut (str "://") raw with
  | none => .error (str "missing protocol scheme")
  | some (scheme, rest) =>
    let rest := before 0x3f (before 0x23 rest)
    let authority := before 0x2f rest
    let host :=
      match cutLast 0x40 authority with
      | none => authority
      | some (_, host) => host
    .ok { scheme := scheme, host := host, path := rest.drop authority.length }

/-- `host:port` -/
def plainHostPort (hostport : Str) : Except Str (Str × Str) :=
  match cutLast 0x3a hostport with
  | none => .error (str "missing port in address")
  | some (host, port) =>
    if host.contains 0x3a then .error (str "too many colons in address") else .ok (host, port)

/-- Dotted decimal. -/
def plainIP (s : Str) : Option IP :=
  match (split 0x2e s).map atoi with
  | [some a, some b, some c, some d] =>
    if [a, b, c, d].all fun n => 0 ≤ n ∧ n < 256 then
      some ([0, 0, 0, 0, 0, 0, 0, 0, 0, 0, 0xff, 0xff] ++
        [a, b, c, d].map fun n => UInt8.ofNat n.toNat)
    else none
  | _ => none

def plain : Go where
  lowerUnicode := id
  trimSpaceUnicode := id
  quote := fun s => str "\"" ++ s ++ str "\""
  parseURL := plainURL
  splitHostPort := plainHostPort
  parseIP := plainIP

end Go

end StreamHub.Library
