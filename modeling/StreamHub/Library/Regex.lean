import StreamHub.Library.Text

/-!
# Regular expressions over bytes

Full matches, decided with derivatives.
-/

namespace StreamHub.Library

open Text

inductive Regex
  | none
  | empty
  | chars (p : UInt8 → Bool)
  | seq (r t : Regex)
  | alt (r t : Regex)
  | star (r : Regex)

namespace Regex

/-- Accepts the empty string. -/
def nullable : Regex → Bool
  | none => false
  | empty => true
  | chars _ => false
  | seq r t => r.nullable && t.nullable
  | alt r t => r.nullable || t.nullable
  | star _ => true

/-- What is left to match after one byte. -/
def deriv (b : UInt8) : Regex → Regex
  | none => none
  | empty => none
  | chars p => if p b then empty else none
  | seq r t => if r.nullable then alt (seq (deriv b r) t) (deriv b t) else seq (deriv b r) t
  | alt r t => alt (deriv b r) (deriv b t)
  | star r => seq (deriv b r) (star r)

/-- Does the whole string match? -/
def accepts (r : Regex) (s : Str) : Bool := (s.foldl (fun r b => deriv b r) r).nullable

/-! ## Building blocks -/

def byte (b : UInt8) : Regex := .chars (· == b)

def lit (s : String) : Regex := (str s).foldr (fun b r => seq (byte b) r) empty

def plus (r : Regex) : Regex := seq r (star r)

def opt (r : Regex) : Regex := alt r empty

/-- At most `n` times. -/
def upTo (r : Regex) : Nat → Regex
  | 0 => empty
  | n + 1 => opt (seq r (upTo r n))

/-- One of the bytes of `s`. -/
def oneOf (s : String) (b : UInt8) : Bool := (str s).contains b

end Regex

end StreamHub.Library
