import StreamHub.Library.Bytes

/-!
# Table-driven CRC with a 32-bit register

The register shifts left, most significant bit first, with no reflection and
no final xor.  `crcTable poly i` is the register after dividing the byte `i`
in its top position; `crcStep` consumes one message byte with one table
lookup.

The register is the one of bit-by-bit division (`crc_eq_division`).  Division
is linear, so a message followed by its own checksum leaves the zero register
(`crc_append_registerBytes`); with an odd generator it never takes a non-zero
register to zero, so a burst of at most 32 damaged bits always shows
(`division_ne_zero_of_burst`).
-/

namespace StreamHub.Library.Crc

open Bytes List

/-- One bit of polynomial division. -/
def divideBit (poly c : BitVec 32) : BitVec 32 :=
  if c &&& 0x80000000 ≠ 0 then (c <<< 1) ^^^ poly else c <<< 1

/-- `count` bits of polynomial division. -/
def divideBits (poly : BitVec 32) : Nat → BitVec 32 → BitVec 32
  | 0, c => c
  | count + 1, c => divideBits poly count (divideBit poly c)

/-- The table entry of a byte: eight divisions of the byte in top position. -/
def crcTable (poly : BitVec 32) (i : UInt8) : BitVec 32 :=
  divideBits poly 8 (i.toBitVec.setWidth 32 <<< 24)

/-- The byte at bit position `shift` of the register. -/
def registerByte (c : BitVec 32) (shift : Nat) : UInt8 :=
  UInt8.ofBitVec ((c >>> shift).setWidth 8)

/-- One message byte. -/
def crcStep (poly c : BitVec 32) (x : UInt8) : BitVec 32 :=
  (c <<< 8) ^^^ crcTable poly (registerByte c 24 ^^^ x)

/-- The register after a message, from the initial value `init`. -/
def crc (poly init : BitVec 32) (message : List UInt8) : BitVec 32 :=
  message.foldl (crcStep poly) init

/-- The four bytes of a register, most significant first. -/
def registerBytes (c : BitVec 32) : List UInt8 :=
  [registerByte c 24, registerByte c 16, registerByte c 8, registerByte c 0]

@[simp] lemma registerBytes_length (c : BitVec 32) : (registerBytes c).length = 4 := rfl

/-- The bits of a byte, most significant first. -/
def byteBits (x : UInt8) : List Bool := (range 8).map x.toBitVec.getMsbD

/-- The bits of a message in the order they are sent. -/
def bitsOf (message : List UInt8) : List Bool := message.flatMap byteBits

/-- A message bit in the top position of the register. -/
def topBit (bit : Bool) : BitVec 32 := if bit then BitVec.twoPow 32 31 else 0#32

/-- One message bit: it meets the top bit of the register, which is divided. -/
def divideIn (poly c : BitVec 32) (bit : Bool) : BitVec 32 := divideBit poly (c ^^^ topBit bit)

/-- Bit-by-bit division of a message, from the initial value `init`. -/
def division (poly init : BitVec 32) (bits : List Bool) : BitVec 32 :=
  bits.foldl (divideIn poly) init

/-- At most 32 bits, the first one in the top position. -/
def place : List Bool → BitVec 32
  | [] => 0
  | bit :: bits => topBit bit ^^^ (place bits >>> 1)

/-- Some bit is set, and the set bits lie within 32 consecutive positions. -/
structure Burst (bits : List Bool) : Prop where
  damaged : true ∈ bits
  within : ∃ first, ∀ i, bits[i]? = some true → first ≤ i ∧ i < first + 32

variable (poly : BitVec 32)

/-! ## Division is linear -/

lemma divideBits_zero (count : Nat) : divideBits poly count 0 = 0 := by
  induction count with
  | zero => rfl
  | succ count ih => simpa [divideBits, divideBit] using ih

lemma divideBit_eq (c : BitVec 32) :
    divideBit poly c = (c <<< 1) ^^^ if c.msb then poly else 0#32 := by
  have htop : c &&& 0x80000000 = if c.getLsbD 31 then BitVec.twoPow 32 31 else 0 :=
    BitVec.and_twoPow c 31
  have hmsb : c.msb = c.getLsbD 31 := BitVec.msb_eq_getLsbD_last c
  rw [divideBit, htop, hmsb]
  cases c.getLsbD 31 with
  | false => simp
  | true => simp

lemma divideBit_xor (a b : BitVec 32) :
    divideBit poly (a ^^^ b) = divideBit poly a ^^^ divideBit poly b := by
  simp only [divideBit_eq, BitVec.msb_xor, BitVec.shiftLeft_xor_distrib]
  cases a.msb <;> cases b.msb <;> simp <;> grind

lemma divideBits_xor (count : Nat) (a b : BitVec 32) :
    divideBits poly count (a ^^^ b) = divideBits poly count a ^^^ divideBits poly count b := by
  induction count generalizing a b with
  | zero => rfl
  | succ count ih => rw [divideBits, divideBit_xor, ih, divideBits, divideBits]

/-- A register with a clear top part only shifts. -/
lemma divideBits_of_clear (count : Nat) (c : BitVec 32)
    (hclear : ∀ i < count, c.getMsbD i = false) : divideBits poly count c = c <<< count := by
  induction count generalizing c with
  | zero => simp [divideBits]
  | succ count ih =>
    have hmsb : c.msb = false := hclear 0 (by omega)
    have hshift : divideBit poly c = c <<< 1 := by simp [divideBit_eq, hmsb]
    rw [divideBits, hshift, ih, ← BitVec.shiftLeft_add, Nat.add_comm]
    intro i hi
    rw [BitVec.getMsbD_shiftLeft]
    exact hclear (i + 1) (by omega)

/-- A message byte is eight divisions of the register it is added to. -/
lemma crcStep_eq (c : BitVec 32) (x : UInt8) :
    crcStep poly c x = divideBits poly 8 (c ^^^ x.toBitVec.setWidth 32 <<< 24) := by
  have hclear : ∀ i < 8, (c <<< 8 >>> 8).getMsbD i = false := by
    intro i hi
    simp [BitVec.getMsbD_ushiftRight, hi]
  have hlow : c <<< 8 >>> 8 <<< 8 = c <<< 8 := by
    apply BitVec.eq_of_getMsbD_eq
    intro i hi
    by_cases h : i + 8 < 32
    · simp [h]
    · simp [h, BitVec.getMsbD_of_ge c (i + 8) (by omega)]
  have hsplit : c ^^^ x.toBitVec.setWidth 32 <<< 24 =
      c <<< 8 >>> 8 ^^^ (registerByte c 24 ^^^ x).toBitVec.setWidth 32 <<< 24 := by
    apply BitVec.eq_of_getMsbD_eq
    intro i hi
    simp only [registerByte, UInt8.toBitVec_xor, BitVec.getMsbD_xor,
      BitVec.getMsbD_shiftLeft, BitVec.getMsbD_ushiftRight, BitVec.getMsbD_setWidth]
    by_cases h : i < 8
    · have htop : i + 24 < 32 := by omega
      simp [h, htop]
    · have htop : ¬ i + 24 < 32 := by omega
      have hback : i - 8 + 8 = i := by omega
      simp [h, htop, hi, hback]
  rw [hsplit, divideBits_xor, divideBits_of_clear poly 8 _ hclear, hlow]
  rfl

lemma crcStep_xor (a b : BitVec 32) (x y : UInt8) :
    crcStep poly (a ^^^ b) (x ^^^ y) = crcStep poly a x ^^^ crcStep poly b y := by
  rw [crcStep_eq, crcStep_eq, crcStep_eq, ← divideBits_xor, UInt8.toBitVec_xor,
    BitVec.setWidth_xor, BitVec.shiftLeft_xor_distrib]
  generalize x.toBitVec.setWidth 32 <<< 24 = u
  generalize y.toBitVec.setWidth 32 <<< 24 = v
  have hregroup : a ^^^ b ^^^ (u ^^^ v) = a ^^^ u ^^^ (b ^^^ v) := by ac_rfl
  rw [hregroup]

lemma crc_xor (a b : BitVec 32) (message error : List UInt8)
    (hlength : message.length = error.length) :
    crc poly (a ^^^ b) (zipWith (· ^^^ ·) message error) =
      crc poly a message ^^^ crc poly b error := by
  induction message generalizing a b error with
  | nil =>
    cases error with
    | nil => rfl
    | cons y error => cases hlength
  | cons x message ih =>
    cases error with
    | nil => cases hlength
    | cons y error =>
      change crc poly (crcStep poly (a ^^^ b) (x ^^^ y)) _ = _
      rw [crcStep_xor]
      exact ih _ _ error (Nat.succ.inj hlength)

/-! ## Bit by bit -/

lemma getMsbD_topBit (bit : Bool) (i : Nat) : (topBit bit).getMsbD i = (bit && decide (i = 0)) := by
  cases bit with
  | false => simp [topBit]
  | true => simp [topBit, BitVec.getMsbD_twoPow]

lemma getMsbD_place (bits : List Bool) (i : Nat) (hi : i < 32) :
    (place bits).getMsbD i = bits.getD i false := by
  induction bits generalizing i with
  | nil => simp [place]
  | cons bit bits ih =>
    rw [place, BitVec.getMsbD_xor, getMsbD_topBit bit i]
    cases i with
    | zero => simp
    | succ i => simp [hi, ih i (by omega)]

/-- At most 32 message bits are as many divisions of the register they are
added to. -/
lemma division_eq (c : BitVec 32) (bits : List Bool) (hlength : bits.length ≤ 32) :
    division poly c bits = divideBits poly bits.length (c ^^^ place bits) := by
  induction bits generalizing c with
  | nil => simp [division, divideBits, place]
  | cons bit bits ih =>
    -- the last bit placed is not yet at the bottom of the register
    have hback : divideBit poly (place bits >>> 1) = place bits := by
      rw [divideBit_eq]
      apply BitVec.eq_of_getMsbD_eq
      intro i hi
      by_cases hlast : i + 1 < 32
      · simp [BitVec.getMsbD_ushiftRight, hlast]
      have hempty : (place bits).getMsbD i = false := by
        rw [getMsbD_place bits i hi, getD_eq_default _ _ (by grind)]
      simp [BitVec.getMsbD_ushiftRight, hempty]
    change division poly (divideIn poly c bit) bits = _
    rw [ih _ (Nat.le_of_succ_le hlength), divideIn, place, ← BitVec.xor_assoc]
    change _ = divideBits poly bits.length (divideBit poly _)
    rw [divideBit_xor poly (c ^^^ topBit bit), hback]

lemma place_byteBits (x : UInt8) : place (byteBits x) = x.toBitVec.setWidth 32 <<< 24 := by
  apply BitVec.eq_of_getMsbD_eq
  intro i hi
  rw [getMsbD_place _ i hi, BitVec.getMsbD_shiftLeft]
  by_cases h : i < 8
  · simp [byteBits, h]
  · simp [byteBits, h, BitVec.getMsbD_of_ge x.toBitVec i (by omega)]

lemma crc_eq_division (init : BitVec 32) (message : List UInt8) :
    crc poly init message = division poly init (bitsOf message) := by
  induction message generalizing init with
  | nil => rfl
  | cons x message ih =>
    have hbyte : crcStep poly init x = division poly init (byteBits x) := by
      rw [crcStep_eq, division_eq poly init (byteBits x) (by simp [byteBits]), place_byteBits]
      rfl
    change crc poly (crcStep poly init x) message =
      (byteBits x ++ bitsOf message).foldl (divideIn poly) init
    rw [ih, hbyte]
    rfl

lemma place_registerBytes (c : BitVec 32) : place (bitsOf (registerBytes c)) = c := by
  have hbits : bitsOf (registerBytes c) = (range 32).map c.getMsbD := by
    simp [bitsOf, registerBytes, byteBits, registerByte, range_succ,
      BitVec.getMsbD_ushiftRight, BitVec.getMsbD_setWidth]
  apply BitVec.eq_of_getMsbD_eq
  intro i hi
  rw [getMsbD_place _ i hi, hbits]
  simp [hi]

lemma crc_append_registerBytes (init : BitVec 32) (message : List UInt8) :
    crc poly init (message ++ registerBytes (crc poly init message)) = 0 := by
  rw [crc, foldl_append]
  change crc poly (crc poly init message) (registerBytes (crc poly init message)) = 0
  rw [crc_eq_division, division_eq poly _ _ (by simp [bitsOf, byteBits, registerBytes]),
    place_registerBytes, BitVec.xor_self]
  exact divideBits_zero poly _

/-- Clear bits only divide the register. -/
lemma division_of_clear (c : BitVec 32) (bits : List Bool) (hclear : true ∉ bits) :
    division poly c bits = divideBits poly bits.length c := by
  induction bits generalizing c with
  | nil => rfl
  | cons bit bits ih =>
    cases bit with
    | true => exact absurd mem_cons_self hclear
    | false =>
      have hbits : true ∉ bits := fun h => hclear (mem_cons_of_mem _ h)
      change division poly (divideIn poly c false) bits = _
      rw [ih _ hbits, divideIn, topBit, if_neg (by decide), BitVec.xor_zero]
      rfl

/-! ## Bursts -/

section Odd

variable {poly} (hodd : poly.getLsbD 0 = true)
include hodd

lemma divideBits_ne_zero (count : Nat) (c : BitVec 32) (hc : c ≠ 0) :
    divideBits poly count c ≠ 0 := by
  induction count generalizing c with
  | zero => exact hc
  | succ count ih =>
    apply ih
    intro hzero
    apply hc
    rw [divideBit_eq] at hzero
    cases hmsb : c.msb with
    | true =>
      -- the lowest bit of the generator stays
      have hlow := congrArg (BitVec.getLsbD · 0) hzero
      simp [hmsb] at hlow
      simp [hlow] at hodd
    | false =>
      rw [hmsb, if_neg (by decide)] at hzero
      apply BitVec.eq_of_getMsbD_eq
      intro i hi
      cases i with
      | zero => exact hmsb
      | succ i =>
        have hbit := congrArg (BitVec.getMsbD · i) hzero
        simpa using hbit

/-- A burst leaves a non-zero register: the clear bits before it leave zero, its
own 32 bits are divisions of a non-zero register, and so are those behind. -/
lemma division_ne_zero_of_burst (bits : List Bool) (hburst : Burst bits) :
    division poly 0#32 bits ≠ 0#32 := by
  obtain ⟨hdamaged, first, hwithin⟩ := hburst
  obtain ⟨i, hbit⟩ := mem_iff_getElem?.mp hdamaged
  obtain ⟨hfirst, hlast⟩ := hwithin i hbit
  have hfront : true ∉ bits.take first := by
    intro hset
    obtain ⟨j, hj⟩ := mem_iff_getElem?.mp hset
    rw [getElem?_take] at hj
    split at hj
    · have := (hwithin j hj).1
      omega
    · cases hj
  have hback : true ∉ (bits.drop first).drop 32 := by
    intro hset
    obtain ⟨j, hj⟩ := mem_iff_getElem?.mp hset
    rw [getElem?_drop, getElem?_drop] at hj
    have := (hwithin _ hj).2
    omega
  have hmid : place ((bits.drop first).take 32) ≠ 0#32 := by
    intro hzero
    have hplaced := getMsbD_place ((bits.drop first).take 32) (i - first) (by omega)
    rw [hzero, getD_eq_getElem?_getD, getElem?_take_of_lt (by omega),
      getElem?_drop, Nat.add_sub_cancel' hfirst, hbit] at hplaced
    simp at hplaced
  have hsplit : bits = bits.take first ++
      ((bits.drop first).take 32 ++ (bits.drop first).drop 32) := by
    rw [take_append_drop, take_append_drop]
  rw [hsplit, division, foldl_append, foldl_append]
  change division poly (division poly (division poly 0#32 _) _) _ ≠ 0#32
  rw [division_of_clear poly _ _ hback, division_of_clear poly _ _ hfront,
    show divideBits poly _ 0#32 = 0#32 from divideBits_zero poly _,
    division_eq poly _ _ (length_take_le _ _), BitVec.zero_xor]
  exact divideBits_ne_zero hodd _ _ (divideBits_ne_zero hodd _ _ hmid)

end Odd

end StreamHub.Library.Crc
