import StreamHub.Library.PathClean
import StreamHub.Library.Runes

/-!
# Literals of IP addresses

The texts that stand for an address, with the address each stands for: IPv4 addresses as
the URL standard of the WHATWG reads them (one to four numbers in base 10, 16 or 8, the
last one filling the remaining bytes) and IPv6 addresses in the forms of RFC 4291, with a
zone.  A literal is its syntax; `text` writes it and `value` is the number it stands for.

An IPv6 address of `::ffff:0:0/96` stands for the IPv4 address in its low 32 bits
(`V6.address`), which is what a connection to it reaches.
-/

namespace StreamHub.Library.Ip

open Text Runes List

/-! ## Numerals -/

/-- The value of a digit, in any base up to 16. -/
def digit (b : UInt8) : ℕ := (unhex b).toNat

/-- The value of digits. -/
def numeral (base : ℕ) (s : Str) : ℕ := s.foldl (fun n b => n * base + digit b) 0

variable {b : UInt8}

lemma isHex_of_isDigit (h : isDigit b = true) : isHex b = true :=
  isHex_iff.mpr (.inl (isDigit_iff.mp h))

lemma digit_eq (h : isHex b = true) : digit b = if b.toNat ≤ 0x39 then b.toNat - 0x30
      else if 0x61 ≤ b.toNat then b.toNat - 0x57 else b.toNat - 0x37 := by
  have hb := isHex_iff.mp h
  have hdigit : isDigit b = true ↔ b.toNat ≤ 0x39 := by
    rw [isDigit_iff]
    omega
  have hlower : (0x61 : UInt8) ≤ b ↔ 0x61 ≤ b.toNat := UInt8.le_iff_toNat_le
  unfold digit unhex
  by_cases h1 : b.toNat ≤ 0x39
  · rw [if_pos (hdigit.mpr h1), if_pos h1]
    exact UInt8.toNat_sub_of_le b 0x30 (UInt8.le_iff_toNat_le.mpr (by simp; omega))
  rw [if_neg (hdigit.not.mpr h1), if_neg h1]
  by_cases h2 : 0x61 ≤ b.toNat
  · rw [if_pos (hlower.mpr h2), if_pos h2]
    exact UInt8.toNat_sub_of_le b 0x57 (UInt8.le_iff_toNat_le.mpr (by simp; omega))
  · rw [if_neg (hlower.not.mpr h2), if_neg h2]
    exact UInt8.toNat_sub_of_le b 0x37 (UInt8.le_iff_toNat_le.mpr (by simp; omega))

lemma digit_lt_sixteen (h : isHex b = true) : digit b < 16 := by
  have hb := isHex_iff.mp h
  rw [digit_eq h]
  split
  · omega
  · split <;> omega

lemma digit_lt_ten (h : isDigit b = true) : digit b < 10 := by
  have hb := isDigit_iff.mp h
  rw [digit_eq (isHex_of_isDigit h), if_pos hb.2]
  omega

lemma isHex_lowerByte (h : isHex b = true) : isHex (lowerByte b) = true := by
  have hb := isHex_iff.mp h
  rw [isHex_iff, toNat_lowerByte]
  split <;> omega

lemma digit_lowerByte (h : isHex b = true) : digit (lowerByte b) = digit b := by
  rw [digit_eq (isHex_lowerByte h), digit_eq h, toNat_lowerByte]
  by_cases hupper : 0x41 ≤ b.toNat ∧ b.toNat ≤ 0x5a
  · rw [if_pos hupper, if_neg (by omega), if_pos (by omega), if_neg (by omega), if_neg (by omega)]
    omega
  · rw [if_neg hupper]

lemma lowerByte_of_isDigit (h : isDigit b = true) : lowerByte b = b := by
  have hb := isDigit_iff.mp h
  rw [← UInt8.toNat_inj, toNat_lowerByte, if_neg (by omega)]

lemma map_lowerByte_of_isDigit {s : Str} (h : ∀ b ∈ s, isDigit b = true) : s.map lowerByte = s := by
  rw [map_congr_left fun b hb => lowerByte_of_isDigit (h b hb)]
  exact map_id' s

lemma numeral_append_singleton (base : ℕ) (s : Str) (b : UInt8) :
    numeral base (s ++ [b]) = numeral base s * base + digit b := by
  rw [numeral, foldl_append]
  rfl

lemma numeral_lt {base : ℕ} {s : Str} (h : ∀ b ∈ s, digit b < base) :
    numeral base s < base ^ s.length := by
  induction s using reverseRecOn with
  | nil => exact Nat.one_pos
  | append_singleton s b ih =>
    have hs := ih fun c hc => h c (mem_append_left [b] hc)
    have hb := h b (mem_append_right s mem_cons_self)
    rw [numeral_append_singleton, length_append, length_singleton]
    calc numeral base s * base + digit b
        < numeral base s * base + base := Nat.add_lt_add_left hb _
      _ = (numeral base s + 1) * base := (Nat.succ_mul _ _).symm
      _ ≤ base ^ s.length * base := Nat.mul_le_mul_right _ hs

lemma numeral_lower {base : ℕ} {s : Str} (h : ∀ b ∈ s, isHex b = true) :
    numeral base (s.map lowerByte) = numeral base s := by
  induction s using reverseRecOn with
  | nil => rfl
  | append_singleton s b ih =>
    have hb := h b (mem_append_right s mem_cons_self)
    rw [map_append, map_singleton, numeral_append_singleton, numeral_append_singleton,
      digit_lowerByte hb, ih fun c hc => h c (mem_append_left [b] hc)]

/-! ## IPv6 -/

def colon : UInt8 := 0x3a

def period : UInt8 := 0x2e

def percent : UInt8 := 0x25

/-- One of the four numbers of a dotted tail. -/
structure Octet where
  text : Str
  digits : ∀ b ∈ text, isDigit b = true
  ne_nil : text ≠ []
  short : text.length ≤ 3
  small : numeral 10 text ≤ 255

/-- `d.d.d.d` -/
structure Quad where
  a : Octet
  b : Octet
  c : Octet
  d : Octet

namespace Quad

def octets (q : Quad) : List Octet := [q.a, q.b, q.c, q.d]

def text (q : Quad) : Str := join (q.octets.map Octet.text) [period]

/-- The number the octets write in base 256. -/
def value (q : Quad) : ℕ := q.octets.foldl (fun v o => v * 256 + numeral 10 o.text) 0

/-- The two groups a dotted tail stands for. -/
def groups (q : Quad) : List ℕ := [q.value / 65536, q.value % 65536]

end Quad

private lemma natText_octet : ∀ n < 256, (natText n).all isDigit = true ∧
    natText n ≠ [] ∧ (natText n).length ≤ 3 ∧ numeral 10 (natText n) = n := by decide +kernel

/-- A byte in decimal. -/
def Octet.ofNat (n : ℕ) (h : n < 256) : Octet where
  text := natText n
  digits := all_eq_true.mp (natText_octet n h).1
  ne_nil := (natText_octet n h).2.1
  short := (natText_octet n h).2.2.1
  small := by
    rw [(natText_octet n h).2.2.2]
    omega

lemma Octet.numeral_ofNat (n : ℕ) (h : n < 256) : numeral 10 (Octet.ofNat n h).text = n :=
  (natText_octet n h).2.2.2

/-- Four bytes, from the top. -/
def Quad.ofNat (n : ℕ) : Quad where
  a := .ofNat (n / 2 ^ 24 % 256) (Nat.mod_lt _ (by omega))
  b := .ofNat (n / 2 ^ 16 % 256) (Nat.mod_lt _ (by omega))
  c := .ofNat (n / 2 ^ 8 % 256) (Nat.mod_lt _ (by omega))
  d := .ofNat (n % 256) (Nat.mod_lt _ (by omega))

lemma Quad.value_ofNat {n : ℕ} (h : n < 2 ^ 32) : (Quad.ofNat n).value = n := by
  simp only [Quad.value, Quad.octets, Quad.ofNat, foldl_cons, foldl_nil, Octet.numeral_ofNat]
  omega

/-- One to four hexadecimal digits. -/
structure Group where
  text : Str
  hex : ∀ b ∈ text, isHex b = true
  ne_nil : text ≠ []
  short : text.length ≤ 4

namespace Group

def value (g : Group) : ℕ := numeral 16 g.text

/-- The group in lower case. -/
def lower (g : Group) : Group where
  text := g.text.map lowerByte
  hex := by
    intro b hb
    obtain ⟨c, hc, rfl⟩ := mem_map.mp hb
    exact isHex_lowerByte (g.hex c hc)
  ne_nil := by
    rw [ne_eq, map_eq_nil_iff]
    exact g.ne_nil
  short := by
    rw [length_map]
    exact g.short

@[simp] lemma value_lower (g : Group) : g.lower.value = g.value := numeral_lower g.hex

lemma value_lt (g : Group) : g.value < 65536 :=
  calc g.value < 16 ^ g.text.length := numeral_lt fun b hb => digit_lt_sixteen (g.hex b hb)
    _ ≤ 16 ^ 4 := Nat.pow_le_pow_right (by omega) g.short

end Group

/-- The number of groups a tail stands for. -/
def tailLength (tail : Option Quad) : ℕ := if tail.isSome then 2 else 0

/-- The pieces between colons that a tail is. -/
def tailTexts (tail : Option Quad) : List Str := (tail.map Quad.text).toList

/-- The groups a tail stands for. -/
def tailGroups (tail : Option Quad) : List ℕ := (tail.map Quad.groups).getD []

/-- The forms of RFC 4291. -/
inductive V6
  /-- all groups written out -/
  | full (groups : List Group) (tail : Option Quad) (h : groups.length + tailLength tail = 8)
  /-- `::` for one or more groups of zeros -/
  | compressed (left right : List Group) (tail : Option Quad)
      (h : left.length + right.length + tailLength tail ≤ 7)

namespace V6

def text : V6 → Str
  | .full groups tail _ => join (groups.map Group.text ++ tailTexts tail) [colon]
  | .compressed left right tail _ =>
    join (left.map Group.text) [colon] ++ colon :: colon ::
      join (right.map Group.text ++ tailTexts tail) [colon]

/-- The eight groups. -/
def groups : V6 → List ℕ
  | .full groups tail _ => groups.map Group.value ++ tailGroups tail
  | .compressed left right tail _ =>
    left.map Group.value ++
      replicate (8 - (left.length + right.length + tailLength tail)) 0 ++
      (right.map Group.value ++ tailGroups tail)

/-- The number that groups write in base 65536. -/
def ofGroups (gs : List ℕ) : ℕ := gs.foldl (fun v g => v * 65536 + g) 0

def value (l : V6) : ℕ := ofGroups l.groups

end V6

/-! ## Addresses -/

inductive Address
  | v4 (n : ℕ)
  | v6 (n : ℕ)
  deriving DecidableEq

/-- Loopback, RFC 1918, link-local, unique-local or unspecified. -/
def Address.Internal : Address → Prop
  | .v4 n =>
    n / 2 ^ 24 = 127 ∨ n / 2 ^ 24 = 10 ∨ n / 2 ^ 20 = 172 * 16 + 1 ∨ n / 2 ^ 16 = 192 * 256 + 168 ∨
      n / 2 ^ 16 = 169 * 256 + 254 ∨ n = 0
  | .v6 n => n = 1 ∨ n / 2 ^ 121 = 0xfc / 2 ∨ n / 2 ^ 118 = 0xfe80 / 64 ∨ n = 0

instance : DecidablePred Address.Internal
  | .v4 _ => inferInstanceAs (Decidable (_ ∨ _))
  | .v6 _ => inferInstanceAs (Decidable (_ ∨ _))

/-- An address of `::ffff:0:0/96` -/
def Mapped (n : ℕ) : Prop := n / 2 ^ 32 = 0xffff

instance (n : ℕ) : Decidable (Mapped n) := inferInstanceAs (Decidable (_ = _))

/-- The address that is connected to. -/
def V6.address (l : V6) : Address :=
  if Mapped l.value then .v4 (l.value % 2 ^ 32) else .v6 l.value

/-! ## IPv4 -/

/-- A number of an IPv4 literal. -/
inductive Part
  | dec (digits : Str) (h : ∀ b ∈ digits, isDigit b = true) (hne : digits ≠ [])
      (hzero : digits.head? = some 0x30 → digits.length = 1)
  | hex (upper : Bool) (digits : Str) (h : ∀ b ∈ digits, isHex b = true)
  | oct (digits : Str) (h : ∀ b ∈ digits, isDigit b = true ∧ digit b < 8) (hne : digits ≠ [])

namespace Part

def text : Part → Str
  | .dec digits _ _ _ => digits
  | .hex upper digits _ => 0x30 :: (if upper then 0x58 else 0x78) :: digits
  | .oct digits _ _ => 0x30 :: digits

def value : Part → ℕ
  | .dec digits _ _ _ => numeral 10 digits
  | .hex _ digits _ => numeral 16 digits
  | .oct digits _ _ => numeral 8 digits

/-- The number in lower case. -/
def lower : Part → Part
  | .hex _ digits h => .hex false (digits.map lowerByte) (by
      intro b hb
      obtain ⟨c, hc, rfl⟩ := mem_map.mp hb
      exact isHex_lowerByte (h c hc))
  | p => p

end Part

/-- One to four numbers with periods between them, and perhaps one behind. -/
structure V4 where
  parts : List Part
  last : Part
  dot : Bool
  few : parts.length ≤ 3
  small : ∀ p ∈ parts, p.value ≤ 255
  fits : last.value < 256 ^ (4 - parts.length)

namespace V4

def texts (l : V4) : List Str := (l.parts ++ [l.last]).map Part.text

def text (l : V4) : Str := join l.texts [period] ++ if l.dot then [period] else []

/-- The parts are bytes from the top, the last one is the rest. -/
def value (l : V4) : ℕ :=
  l.parts.foldl (fun v p => v * 256 + p.value) 0 * 256 ^ (4 - l.parts.length) + l.last.value

end V4

/-- A literal as it stands in a URL. -/
inductive Literal
  | v4 (l : V4)
  | v6 (l : V6) (zone : Option Str)

namespace Literal

def zoneText : Option Str → Str
  | none => []
  | some zone => percent :: zone

def text : Literal → Str
  | .v4 l => l.text
  | .v6 l zone => l.text ++ zoneText zone

def address : Literal → Address
  | .v4 l => .v4 l.value
  | .v6 l _ => l.address

end Literal

variable (q : Quad) (o : Octet) (g : Group) (l : V6) (p : Part)

lemma Quad.value_lt : q.value < 2 ^ 32 := by
  have ha := q.a.small
  have hb := q.b.small
  have hc := q.c.small
  have hd := q.d.small
  simp only [Quad.value, Quad.octets, foldl_cons, foldl_nil]
  omega

/-! ## The bytes of a literal -/

/-- The bytes that literals are made of. -/
def IsPlain (b : UInt8) : Prop := isHex b = true ∨ b = 0x58 ∨ b = 0x78 ∨ b = colon ∨ b = period

lemma IsPlain.toNat (h : IsPlain b) :
    (0x2e ≤ b.toNat ∧ b.toNat ≤ 0x3a) ∨ (0x41 ≤ b.toNat ∧ b.toNat ≤ 0x78) := by
  obtain h | rfl | rfl | rfl | rfl := h
  · have hb := isHex_iff.mp h
    omega
  all_goals decide

lemma IsPlain.lt (h : IsPlain b) : b < 0x80 := by
  have hb := h.toNat
  rw [UInt8.lt_iff_toNat_lt]
  change _ < 128
  omega

lemma IsPlain.not_space (h : IsPlain b) : isSpace b = false := by
  have hb := h.toNat
  rw [← Bool.not_eq_true]
  intro hspace
  simp only [isSpace, Bool.or_eq_true, Bool.and_eq_true, beq_iff_eq, decide_eq_true_eq,
    UInt8.le_iff_toNat_le, ← UInt8.toNat_inj] at hspace
  simp at hspace
  omega

lemma IsPlain.ne_percent (h : IsPlain b) : b ≠ percent := by
  have hb := h.toNat
  rw [ne_eq, ← UInt8.toNat_inj]
  change ¬ _ = 37
  omega

lemma isASCII_of_plain {s : Str} (h : ∀ b ∈ s, IsPlain b) : isASCII s = true :=
  all_eq_true.mpr fun b hb => decide_eq_true (h b hb).lt

lemma Octet.plain : ∀ b ∈ o.text, IsPlain b := fun b hb => .inl (isHex_of_isDigit (o.digits b hb))

lemma Octet.period_notMem : period ∉ o.text := fun h => absurd (o.digits period h) (by decide)

lemma Octet.colon_notMem : colon ∉ o.text := fun h => absurd (o.digits colon h) (by decide)

lemma Quad.plain : ∀ b ∈ q.text, IsPlain b := by
  intro b hb
  obtain rfl | ⟨piece, hpiece, hb⟩ := mem_join hb
  · exact .inr (.inr (.inr (.inr rfl)))
  obtain ⟨o, -, rfl⟩ := mem_map.mp hpiece
  exact o.plain b hb

lemma Quad.colon_notMem : colon ∉ q.text := by
  intro h
  obtain h | ⟨piece, hpiece, h⟩ := mem_join h
  · exact absurd h (by decide)
  obtain ⟨o, -, rfl⟩ := mem_map.mp hpiece
  exact o.colon_notMem h

lemma Group.plain : ∀ b ∈ g.text, IsPlain b := fun b hb => .inl (g.hex b hb)

lemma Group.colon_notMem : colon ∉ g.text := fun h => absurd (g.hex colon h) (by decide)

lemma Group.period_notMem : period ∉ g.text := fun h => absurd (g.hex period h) (by decide)

lemma plain_join_groups (gs : List Group) (tail : Option Quad) :
    ∀ b ∈ join (gs.map Group.text ++ tailTexts tail) [colon], IsPlain b := by
  intro b hb
  obtain rfl | ⟨piece, hmem, hbyte⟩ := mem_join hb
  · exact .inr (.inr (.inr (.inl rfl)))
  obtain hpiece | hpiece := mem_append.mp hmem
  · obtain ⟨g, -, rfl⟩ := mem_map.mp hpiece
    exact g.plain b hbyte
  cases tail with
  | none => cases hpiece
  | some q =>
    obtain rfl := mem_singleton.mp hpiece
    exact q.plain b hbyte

lemma V6.plain : ∀ b ∈ l.text, IsPlain b := by
  have hcolon : IsPlain colon := .inr (.inr (.inr (.inl rfl)))
  cases l with
  | full groups tail h => exact plain_join_groups groups tail
  | compressed left right tail h =>
    intro b hb
    have hleft := plain_join_groups left none
    rw [tailTexts, Option.map_none, Option.toList_none, append_nil] at hleft
    rw [V6.text, mem_append, mem_cons, mem_cons] at hb
    obtain hb | rfl | rfl | hb := hb
    · exact hleft b hb
    · exact hcolon
    · exact hcolon
    · exact plain_join_groups right tail b hb

lemma Part.plain : ∀ b ∈ p.text, IsPlain b := by
  have hzero : IsPlain 0x30 := .inl (by decide)
  intro b hb
  cases p with
  | dec digits h hne hlead => exact .inl (isHex_of_isDigit (h b hb))
  | hex upper digits h =>
    rw [Part.text, mem_cons, mem_cons] at hb
    obtain rfl | hx | hb := hb
    · exact hzero
    · cases upper with
      | true => exact .inr (.inl hx)
      | false => exact .inr (.inr (.inl hx))
    · exact .inl (h b hb)
  | oct digits h hne =>
    obtain rfl | hb := mem_cons.mp hb
    · exact hzero
    · exact .inl (isHex_of_isDigit (h b hb).1)

lemma Part.text_ne_nil : p.text ≠ [] := by
  cases p with
  | dec digits h hne hlead => exact hne
  | hex upper digits h | oct digits h hne => exact cons_ne_nil _ _

lemma Part.period_notMem : period ∉ p.text := by
  intro hmem
  cases p with
  | dec digits h hne hlead => exact absurd (h period hmem) (by decide)
  | hex upper digits h =>
    rw [Part.text, mem_cons, mem_cons] at hmem
    obtain hzero | hx | hmem := hmem
    · exact absurd hzero (by decide)
    · cases upper <;> exact absurd hx (by decide)
    · exact absurd (h period hmem) (by decide)
  | oct digits h hne =>
    obtain hzero | hmem := mem_cons.mp hmem
    · exact absurd hzero (by decide)
    · exact absurd (h period hmem).1 (by decide)

lemma V4.plain (l : V4) : ∀ b ∈ l.text, IsPlain b := by
  have hperiod : IsPlain period := .inr (.inr (.inr (.inr rfl)))
  intro b hb
  obtain hb | hb := mem_append.mp hb
  · obtain rfl | ⟨piece, hpiece, hb⟩ := mem_join hb
    · exact hperiod
    · obtain ⟨p, -, rfl⟩ := mem_map.mp hpiece
      exact p.plain b hb
  split at hb
  · rw [mem_singleton.mp hb]
    exact hperiod
  · cases hb

/-! ## Lower case -/

lemma Octet.map_lowerByte_text : o.text.map lowerByte = o.text :=
  map_lowerByte_of_isDigit o.digits

lemma Quad.map_lowerByte_text : q.text.map lowerByte = q.text := by
  have hoctets : (q.octets.map Octet.text).map (map lowerByte) = q.octets.map Octet.text := by
    rw [map_map]
    exact map_congr_left fun o _ => o.map_lowerByte_text
  rw [Quad.text, map_join, hoctets]
  rfl

/-- The literal in lower case. -/
def V6.lower : V6 → V6
  | .full groups tail h => .full (groups.map Group.lower) tail (by rwa [length_map])
  | .compressed left right tail h =>
    .compressed (left.map Group.lower) (right.map Group.lower) tail
      (by rwa [length_map, length_map])

lemma map_lowerByte_groups (gs : List Group) (tail : Option Quad) :
    (gs.map Group.text ++ tailTexts tail).map (map lowerByte) =
      (gs.map Group.lower).map Group.text ++ tailTexts tail := by
  rw [map_append, map_map, map_map]
  refine congrArg₂ _ rfl ?_
  cases tail with
  | none => rfl
  | some q => exact congrArg (fun t => [t]) q.map_lowerByte_text

lemma V6.text_lower : l.lower.text = l.text.map lowerByte := by
  cases l with
  | full groups tail h =>
    rw [V6.text, map_join, map_lowerByte_groups]
    rfl
  | compressed left right tail h =>
    have hleft := map_lowerByte_groups left none
    rw [tailTexts, Option.map_none, Option.toList_none, append_nil, append_nil] at hleft
    rw [V6.text, map_append, map_cons, map_cons, map_join, map_join, map_lowerByte_groups, hleft]
    rfl

lemma V6.groups_lower : l.lower.groups = l.groups := by
  have hgroups : ∀ gs : List Group, (gs.map Group.lower).map Group.value = gs.map Group.value := by
    intro gs
    rw [map_map]
    exact map_congr_left fun g _ => g.value_lower
  cases l with
  | full groups tail h => rw [V6.lower, V6.groups, V6.groups, hgroups]
  | compressed left right tail h =>
    rw [V6.lower, V6.groups, V6.groups, hgroups, hgroups, length_map, length_map]

lemma V6.value_lower : l.lower.value = l.value := by rw [V6.value, V6.groups_lower, V6.value]

lemma Part.text_lower : p.lower.text = p.text.map lowerByte := by
  cases p with
  | dec digits h hne hlead => exact (map_lowerByte_of_isDigit h).symm
  | hex upper digits h =>
    cases upper with
    | true => rfl
    | false => rfl
  | oct digits h hne =>
    have hdigits := map_lowerByte_of_isDigit fun b hb => (h b hb).1
    change 0x30 :: digits = lowerByte 0x30 :: digits.map lowerByte
    rw [hdigits]
    rfl

lemma Part.value_lower : p.lower.value = p.value := by
  cases p with
  | dec digits h hne hlead => rfl
  | hex upper digits h => exact numeral_lower h
  | oct digits h hne => rfl

/-- The literal in lower case. -/
def V4.lower (l : V4) : V4 where
  parts := l.parts.map Part.lower
  last := l.last.lower
  dot := l.dot
  few := by
    rw [length_map]
    exact l.few
  small := by
    intro lowered hlowered
    obtain ⟨p, hp, rfl⟩ := mem_map.mp hlowered
    rw [p.value_lower]
    exact l.small p hp
  fits := by
    rw [length_map, l.last.value_lower]
    exact l.fits

lemma V4.text_lower (l : V4) : l.lower.text = l.text.map lowerByte := by
  have htexts : l.lower.texts = l.texts.map (map lowerByte) := by
    simp only [V4.texts, V4.lower, map_append, map_map, map_singleton, Part.text_lower]
    refine congrArg (· ++ _) (map_congr_left fun p _ => p.text_lower)
  rw [V4.text, V4.text, map_append, map_join, htexts]
  refine congrArg₂ _ rfl ?_
  change (if l.dot then [period] else []) = _
  cases l.dot <;> rfl

lemma V4.value_lower (l : V4) : l.lower.value = l.value := by
  have hparts : l.lower.parts.foldl (fun v p => v * 256 + p.value) 0 =
      l.parts.foldl (fun v p => v * 256 + p.value) 0 := by
    rw [V4.lower, foldl_map]
    simp only [Part.value_lower]
  rw [V4.value, V4.value, hparts]
  change _ * 256 ^ (4 - (l.parts.map Part.lower).length) + l.last.lower.value = _
  rw [length_map, l.last.value_lower]

end StreamHub.Library.Ip
