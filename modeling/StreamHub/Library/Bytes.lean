import Mathlib.Data.List.GetD
import Mathlib.Tactic

/-!
# Big-endian fields of a byte string

Fixed-width fields of a wire format are written most significant byte first
and read back by shifting.  `beBytes width value` is the list
`byte(value >> 8*(width-1)), ..., byte(value)`; `beNat` is the value of such a
list.  The one law the codecs need is `beNat_beBytes`: reading `width` bytes
back gives the value modulo `2 ^ (8 * width)`.

A byte that holds several fields is written with masks and bars and read with
masks and shifts: `or_and_mask`, `or_lowNibble_shiftRight` and `and_low_toNat`.
-/

namespace StreamHub.Library.Bytes

/-- The low eight bits of a number: Go's `byte(n)`. -/
def byteOf (n : Nat) : UInt8 := UInt8.ofNat n

@[simp] lemma byteOf_toNat (n : Nat) : (byteOf n).toNat = n % 256 := by
  simp [byteOf, UInt8.toNat_ofNat']

/-- The `width` low bytes of `value`, most significant first. -/
def beBytes : Nat → Nat → List UInt8
  | 0, _ => []
  | width + 1, value => byteOf (value >>> (8 * width)) :: beBytes width value

/-- The number written by a list of bytes, most significant first. -/
def beNat (bytes : List UInt8) : Nat := bytes.foldl (fun acc b => acc * 256 + b.toNat) 0

/-- Two bytes read as one big-endian number: `int(hi)<<8 | int(lo)`. -/
def be16 (hi lo : UInt8) : Nat := hi.toNat * 256 + lo.toNat

@[simp] lemma beBytes_length (width value : Nat) : (beBytes width value).length = width := by
  induction width with
  | zero => rfl
  | succ width ih => simp [beBytes, ih]

lemma foldl_beNat (bytes : List UInt8) (acc : Nat) :
    bytes.foldl (fun acc b => acc * 256 + b.toNat) acc =
      acc * 256 ^ bytes.length + beNat bytes := by
  induction bytes generalizing acc with
  | nil => simp [beNat]
  | cons b rest ih =>
    simp only [beNat, List.foldl_cons, List.length_cons]
    rw [ih (acc * 256 + b.toNat), ih (0 * 256 + b.toNat)]
    ring

@[simp] lemma beNat_nil : beNat [] = 0 := rfl

lemma beNat_cons (b : UInt8) (rest : List UInt8) :
    beNat (b :: rest) = b.toNat * 256 ^ rest.length + beNat rest := by
  have h := foldl_beNat rest (0 * 256 + b.toNat)
  simpa [beNat] using h

lemma beNat_beBytes (width value : Nat) :
    beNat (beBytes width value) = value % 2 ^ (8 * width) := by
  induction width with
  | zero => simp [beBytes, Nat.mod_one]
  | succ width ih =>
    rw [beBytes, beNat_cons, ih, byteOf_toNat, beBytes_length]
    rw [Nat.shiftRight_eq_div_pow]
    have hpow : (256 : Nat) ^ width = 2 ^ (8 * width) := by
      rw [pow_mul]
      norm_num
    have hsucc : 2 ^ (8 * (width + 1)) = 2 ^ (8 * width) * 256 := by
      rw [Nat.mul_add, pow_add]
      norm_num
    rw [hpow, hsucc, Nat.mod_mul]
    ring

lemma or_and_mask (x : UInt8) {a b m c d : UInt8} (ha : a &&& m = c) (hb : b &&& m = d) :
    ((x &&& a) ||| b) &&& m = (x &&& c) ||| d := by
  rw [← ha, ← hb]
  apply UInt8.toBitVec_inj.mp
  simp only [UInt8.toBitVec_and, UInt8.toBitVec_or]
  rw [BitVec.and_or_distrib_right, BitVec.and_assoc]

lemma or_lowNibble_shiftRight (a x : UInt8) : (a ||| (x &&& 0x0F)) >>> 4 = a >>> 4 := by
  have hbits : (0x0F : UInt8) >>> 4 = 0 := by decide
  rw [UInt8.shiftRight_or, UInt8.shiftRight_and, hbits, UInt8.and_zero, UInt8.or_zero]

lemma and_low_toNat (b : UInt8) {m : UInt8} {n : Nat} (hm : m.toNat = 2 ^ n - 1) :
    (b &&& m).toNat = b.toNat % 2 ^ n := by
  rw [UInt8.toNat_and, hm, Nat.and_two_pow_sub_one_eq_mod]

lemma lowNibble_toNat (b : UInt8) : (b &&& 0x0F).toNat = b.toNat % 16 :=
  and_low_toNat b (n := 4) rfl

/-- Bits written to the low nibble are read back, whatever the high nibble. -/
lemma lowNibble_merge (a x : UInt8) : ((a &&& 0xF0) ||| (x &&& 0x0F)) &&& 0x0F = x &&& 0x0F := by
  apply UInt8.toBitVec_inj.mp
  simp only [UInt8.toBitVec_and, UInt8.toBitVec_or]
  rw [BitVec.and_or_distrib_right, BitVec.and_assoc, BitVec.and_assoc]
  simp

/-- A twelve-bit length in the low nibble of one byte and the whole of the
next one is read back. -/
lemma be16_lengthField (a : UInt8) {n : Nat} (hn : n < 4096) :
    be16 (((a &&& (0xF0 : UInt8)) ||| (byteOf (n >>> 8) &&& (0x0F : UInt8))) &&&
      (0x0F : UInt8)) (byteOf n) = n := by
  rw [lowNibble_merge, be16, lowNibble_toNat, byteOf_toNat, byteOf_toNat, Nat.shiftRight_eq_div_pow]
  omega

end StreamHub.Library.Bytes
