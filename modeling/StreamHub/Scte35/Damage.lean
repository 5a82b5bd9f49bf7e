import StreamHub.Scte35.TransportStream

/-!
# Damaged sections

A valid section is damaged by an error pattern that is added to its bytes.
`crc32` finds every burst of at most 32 bits; `parsePAT` and `parsePMT` check
the bytes they are given, but `parse` checks as many as the damaged header
declares.
-/

namespace StreamHub.Scte35

open Library Crc

/-- The bytes that arrive for `sec` under the error pattern `error`. -/
def damage (sec error : List UInt8) : List UInt8 := List.zipWith (· ^^^ ·) sec error

/-- Refused before any field behind the header is read. -/
def Refused (result : Info × Option ParseError) : Prop :=
  ∃ err ∈ [ParseError.short, .tableID, .crc], result = ({}, some err)

lemma crc32_damage {sec error : List UInt8} (hlength : sec.length = error.length)
    (hcrc : crc32 sec = 0) (hburst : Burst (bitsOf error)) : crc32 (damage sec error) ≠ 0 := by
  have hsplit := crc_xor 0x04C11DB7 0xFFFFFFFF 0#32 sec error hlength
  rw [BitVec.xor_zero] at hsplit
  rw [crc32, damage, hsplit, crc_eq_division _ 0#32, show crc _ _ sec = 0#32 from hcrc,
    BitVec.zero_xor]
  exact division_ne_zero_of_burst (by decide) _ hburst

lemma parse_damage {sec error : List UInt8} (tail : List UInt8)
    (hcrc : crc32 (damage sec error) ≠ 0)
    (hsize : WellSized (damage sec error)) : Refused (parse (damage sec error ++ tail)) := by
  have hthree := hsize.three_le
  have hdeclared : declaredLength (damage sec error ++ tail) = (damage sec error).length := by
    rw [declaredLength_append hthree]
    exact hsize.symm
  unfold parse
  split
  · exact ⟨.short, by simp, rfl⟩
  split
  · exact ⟨.tableID, by simp, rfl⟩
  split
  · exact ⟨.short, by simp, rfl⟩
  rw [hdeclared, List.take_left]
  exact ⟨.crc, by simp, if_pos hcrc⟩

/-- A splice_null section of 28 bytes, stuffing behind its descriptor loop. -/
def paddedNull : List UInt8 :=
  [0xFC, 0x30, 0x19, 0x00, 0x00, 0x00, 0x00, 0x00, 0x00, 0x00, 0xFF, 0xF0, 0x00, 0x00,
    0x00, 0x00, 0x7A, 0x4F, 0xBF, 0xFF, 0x00, 0x00, 0x00, 0x00, 0x82, 0x52, 0xEF, 0x95]

/-- One wrong bit in byte `k` of such a section. -/
def bitError (k : Nat) : List UInt8 :=
  List.replicate k 0x00 ++ [0x08] ++ List.replicate (27 - k) 0x00

lemma burst_bitError (k : Nat) (hk : k ∈ [2, 13]) : Burst (bitsOf (bitError k)) := by
  have hset : ∀ k ∈ [2, 13], true ∈ bitsOf (bitError k) ∧
      (bitsOf (bitError k)).length = 224 ∧
      ∀ i < 224, (bitsOf (bitError k))[i]? = some true → 8 * k ≤ i ∧ i < 8 * k + 32 := by
    decide +kernel
  obtain ⟨hdamaged, hlength, hall⟩ := hset k hk
  refine ⟨hdamaged, 8 * k, fun i hi => ?_⟩
  obtain ⟨hin, -⟩ := List.getElem?_eq_some_iff.mp hi
  exact hall i (hlength ▸ hin) hi

/-- What the checksum does: an appended one divides to zero, the table computes
bit-by-bit division, and a burst is found by every reader of the section whose
checked bytes are the damaged ones. -/
theorem crc32_detects (sec error tail : List UInt8) :
    crc32 (appendCRC sec) = 0 ∧
      crc32 sec = division 0x04C11DB7 0xFFFFFFFF (bitsOf sec) ∧
      (sec.length = error.length → crc32 sec = 0 → Burst (bitsOf error) →
        crc32 (damage sec error) ≠ 0 ∧ parsePAT (damage sec error) = none ∧
          parsePMT (damage sec error) = none ∧
          (WellSized (damage sec error) → Refused (parse (damage sec error ++ tail)))) := by
  refine ⟨crc32_appendCRC sec, crc_eq_division _ _ sec, ?_⟩
  intro hlength hcrc hburst
  have hdamaged := crc32_damage hlength hcrc hburst
  refine ⟨hdamaged, ?_, ?_, parse_damage tail hdamaged⟩
  · rw [parsePAT, if_pos (Or.inr (Or.inr hdamaged))]
  · rw [parsePMT, if_pos (Or.inr (Or.inr hdamaged))]

/-- The command type of a splice_null is damaged. -/
theorem crc32_detects_command :
    paddedNull.length = (bitError 13).length ∧ crc32 paddedNull = 0 ∧
      WellSized (damage paddedNull (bitError 13)) ∧
      Refused (parse (damage paddedNull (bitError 13) ++ [0xFF])) := by
  have hcrc : crc32 paddedNull = 0 := by decide +kernel
  have hsize : WellSized (damage paddedNull (bitError 13)) := by
    change _ = _
    decide
  obtain ⟨-, -, hdetects⟩ := crc32_detects paddedNull (bitError 13) [0xFF]
  exact ⟨rfl, hcrc, hsize, (hdetects rfl hcrc (burst_bitError 13 (by decide))).2.2.2 hsize⟩

/-- One wrong bit in section_length: the header declares 20 bytes, and the
stuffing is the checksum of those. -/
theorem shortened_section_accepted :
    paddedNull.length = (bitError 2).length ∧ crc32 paddedNull = 0 ∧
      (parse paddedNull).2 = none ∧ Burst (bitsOf (bitError 2)) ∧
      (parse (damage paddedNull (bitError 2))).2 = none :=
  ⟨rfl, by decide +kernel, by decide +kernel, burst_bitError 2 (by decide), by decide +kernel⟩

end StreamHub.Scte35
