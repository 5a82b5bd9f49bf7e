import StreamHub.Scte35.TransportStream

/-!
# What the packets of a section carry

Header fields and payload of the packets `packetize` writes, and the abstract
reading of a packet sequence: `carriedSections` cuts it at payload_unit_start,
drops the pointer_field and keeps the declared length of each unit.
`carriedSections_packetizeAll` says that the packets of a list of sections
carry exactly this list; `packetizeAll_counters` that their continuity counters
count on.
-/

namespace StreamHub.Scte35

open Library.Bytes Library.Blocks List

/-! ## Continuity counters -/

/-- The continuity counter of a packet. -/
def pktCC (p : Packet) : UInt8 := p.byte 3 &&& 0x0F

/-- The counter of the `n`-th packet of a PID that starts at zero. -/
def counterAt (n : Nat) : UInt8 := byteOf (n % 16)

lemma counterAt_lowNibble (n : Nat) : counterAt n &&& 0x0F = counterAt n := by
  have h : ∀ k : Fin 16, byteOf k.val &&& 0x0F = byteOf k.val := by decide
  exact h ⟨n % 16, Nat.mod_lt _ (by decide)⟩

lemma nextCC_counterAt (n : Nat) : nextCC (counterAt n) = counterAt (n + 1) := by
  have h : ∀ k : Fin 16, nextCC (byteOf k.val) = byteOf ((k.val + 1) % 16) := by decide
  have hn : nextCC (byteOf (n % 16)) = byteOf ((n % 16 + 1) % 16) :=
    h ⟨n % 16, Nat.mod_lt _ (by decide)⟩
  rw [counterAt, hn, Nat.mod_add_mod, counterAt]

lemma lowNibble_eq_counterAt (cc : UInt8) : cc &&& 0x0F = counterAt cc.toNat := by
  apply UInt8.toNat_inj.mp
  rw [lowNibble_toNat, counterAt, byteOf_toNat]
  omega

lemma nextCC_eq_counterAt (cc : UInt8) : nextCC cc = counterAt (cc.toNat + 1) := by
  apply UInt8.toNat_inj.mp
  rw [nextCC, counterAt, byteOf_toNat, lowNibble_toNat, UInt8.toNat_add]
  have hone : (1 : UInt8).toNat = 1 := rfl
  omega

/-! ## One packet -/

variable {pid : Nat}

lemma be16_pid (hpid : pid < 8192) : be16 (byteOf (pid >>> 8) &&& 0x1F) (byteOf pid) = pid := by
  rw [be16, and_low_toNat _ (n := 5) rfl, byteOf_toNat, byteOf_toNat, Nat.shiftRight_eq_div_pow]
  omega

lemma payloadOffset_payloadOnly {p : Packet} (hafc : p.byte 3 >>> 4 &&& 0x03 = 1) :
    payloadOffset p = some 4 := by
  have hpayload : ¬ (1 : UInt8) &&& 0x01 = 0 := by decide
  have hadaptation : ¬ (1 : UInt8) &&& 0x02 ≠ 0 := by decide
  simp only [payloadOffset, hafc, if_neg hpayload, if_neg hadaptation]
  rfl

/-- The payload of a packet; empty when it has none. -/
def payload (p : Packet) : List UInt8 := p.bytes.drop ((payloadOffset p).getD packetSize)

section BlockPacket

variable {pid : Nat} {first : Bool} {cc : UInt8} {block : List UInt8}

lemma blockPacket_pktPID (hpid : pid < 8192) :
    pktPID (blockPacket pid first cc block) = pid := by
  have hflag : (if first then (0x40 : UInt8) else 0) &&& 0x1F = 0 := by cases first <;> rfl
  have hfield : (0x1F : UInt8) &&& 0x1F = 0x1F := by decide
  change be16 (((byteOf (pid >>> 8) &&& 0x1F) ||| (if first then 0x40 else 0)) &&& 0x1F)
    (byteOf pid) = pid
  rw [or_and_mask _ hfield hflag, UInt8.or_zero, be16_pid hpid]

lemma blockPacket_pktPUSI : pktPUSI (blockPacket pid first cc block) = first := by
  have hfield : (0x1F : UInt8) &&& 0x40 = 0 := by decide
  change decide (((byteOf (pid >>> 8) &&& 0x1F) ||| (if first then 0x40 else 0)) &&& 0x40 ≠ 0) =
    first
  rw [or_and_mask _ hfield rfl, UInt8.and_zero]
  cases first <;> rfl

lemma blockPacket_usable : usable (blockPacket pid first cc block) = true := by
  have hflag : (if first then (0x40 : UInt8) else 0) &&& 0x80 = 0 := by cases first <;> rfl
  have hfield : (0x1F : UInt8) &&& 0x80 = 0 := by decide
  have herror : ((byteOf (pid >>> 8) &&& 0x1F) ||| (if first then 0x40 else 0)) &&& 0x80 = 0 := by
    rw [or_and_mask _ hfield hflag, UInt8.and_zero, UInt8.or_zero]
  exact decide_eq_true ⟨rfl, herror⟩

lemma blockPacket_pktCC : pktCC (blockPacket pid first cc block) = cc &&& 0x0F := by
  have hfield : (0x0F : UInt8) &&& 0x0F = 0x0F := by decide
  have hflags : (0x10 : UInt8) &&& 0x0F = 0 := by decide
  change ((0x10 : UInt8) ||| (cc &&& 0x0F)) &&& 0x0F = cc &&& 0x0F
  rw [UInt8.or_comm, or_and_mask _ hfield hflags, UInt8.or_zero]

lemma blockPacket_payloadOffset : payloadOffset (blockPacket pid first cc block) = some 4 := by
  apply payloadOffset_payloadOnly
  change ((0x10 : UInt8) ||| (cc &&& 0x0F)) >>> 4 &&& 0x03 = 1
  rw [or_lowNibble_shiftRight]
  rfl

lemma blockPacket_payload (hblock : block.length ≤ packetSize - 4) :
    payload (blockPacket pid first cc block) =
      block ++ replicate (packetSize - 4 - block.length) 0xFF := by
  have hheader : (packetHeader pid first cc).length = 4 := rfl
  have hsize : packetSize = 188 := rfl
  have hlength : (packetHeader pid first cc ++ block).length ≤ packetSize := by
    rw [length_append]
    omega
  rw [payload, blockPacket_payloadOffset, Option.getD_some, blockPacket,
    Packet.pad_bytes hlength, append_assoc, drop_left' hheader,
    length_append, hheader, Nat.sub_sub]

end BlockPacket

/-! ## The packets of one section -/

lemma packetizeBlocks_length (pid : Nat) (first : Bool) (cc : UInt8)
    (blocks : List (List UInt8)) :
    (packetizeBlocks pid first cc blocks).1.length = blocks.length := by
  induction blocks generalizing first cc with
  | nil => rfl
  | cons block rest ih => simp [packetizeBlocks, ih]

variable {blocks : List (List UInt8)}

lemma forall_packetizeBlocks {P : Packet → Prop}
    (hP : ∀ first cc block, P (blockPacket pid first cc block)) {first : Bool} {cc : UInt8} :
    ∀ p ∈ (packetizeBlocks pid first cc blocks).1, P p := by
  induction blocks generalizing first cc with
  | nil => simp [packetizeBlocks]
  | cons block rest ih =>
    exact forall_mem_cons.mpr ⟨hP first cc block, ih⟩

/-- Only the first packet of a section has payload_unit_start. -/
lemma packetizeBlocks_false_pktPUSI {cc : UInt8} :
    ∀ p ∈ (packetizeBlocks pid false cc blocks).1, pktPUSI p = false := by
  induction blocks generalizing cc with
  | nil => simp [packetizeBlocks]
  | cons block rest ih =>
    exact forall_mem_cons.mpr ⟨blockPacket_pktPUSI, ih⟩

/-- The payloads of filled blocks: the blocks and stuffing at the very end. -/
lemma packetizeBlocks_payload (pid : Nat) (first : Bool) (cc : UInt8)
    (hfilled : Filled (packetSize - 4) blocks) :
    ∃ k, (packetizeBlocks pid first cc blocks).1.flatMap payload =
      blocks.flatten ++ replicate k 0xFF := by
  induction blocks generalizing first cc with
  | nil => exact ⟨0, rfl⟩
  | cons block rest ih =>
    obtain ⟨k, hk⟩ := ih false (nextCC cc) hfilled.tail
    have hhead : payload (blockPacket pid first cc block) =
        block ++ replicate (packetSize - 4 - block.length) 0xFF :=
      blockPacket_payload hfilled.head_length
    cases rest with
    | nil => exact ⟨_, by simpa [packetizeBlocks] using hhead⟩
    | cons next rest =>
      -- a block that is not the last one fills its packet
      rw [hfilled.1, Nat.sub_self, replicate_zero] at hhead
      refine ⟨k, ?_⟩
      rw [packetizeBlocks, flatMap_cons, hhead, hk]
      simp

/-- The counters of the packets count on from `counterAt n`. -/
lemma packetizeBlocks_counters (pid : Nat) (first : Bool) (n : Nat) (blocks : List (List UInt8)) :
    (packetizeBlocks pid first (counterAt n) blocks).1.map pktCC =
        (range' n blocks.length).map counterAt ∧
      (packetizeBlocks pid first (counterAt n) blocks).2 =
        counterAt (n + blocks.length) := by
  induction blocks generalizing first n with
  | nil => exact ⟨rfl, rfl⟩
  | cons block rest ih =>
    obtain ⟨hcounters, hlast⟩ := ih false (n + 1)
    have hhead : pktCC (blockPacket pid first (counterAt n) block) = counterAt n := by
      rw [blockPacket_pktCC, counterAt_lowNibble]
    rw [packetizeBlocks, nextCC_counterAt]
    constructor
    · rw [map_cons, hhead, hcounters, length_cons, range'_succ, map_cons]
    · rw [hlast, length_cons, Nat.add_assoc, Nat.add_comm 1]

/-! ## The packets of a list of sections -/

/-- The packets of sections sent one after the other, with a continuing
counter. -/
def packetizeAll (pid : Nat) : UInt8 → List (List UInt8) → List Packet × UInt8
  | cc, [] => ([], cc)
  | cc, sec :: rest =>
    let head := sectionPackets sec pid cc
    let tail := packetizeAll pid head.2 rest
    (head.1 ++ tail.1, tail.2)

/-- The section in a payload unit: behind the pointer_field, as long as it
declares to be. -/
def sectionInUnit (unit : List UInt8) : List UInt8 :=
  let b := unit.drop (1 + (unit.getD 0 0).toNat)
  b.take (declaredLength b)

/-- The sections a packet sequence of one PID carries. -/
def carriedSections (ps : List Packet) : List (List UInt8) :=
  (units pktPUSI payload ps).2.map sectionInUnit

lemma sectionInUnit_stuffed {sec : List UInt8} (hsec : WellSized sec)
    (tail : List UInt8) : sectionInUnit (0x00 :: sec ++ tail) = sec := by
  have hb : (0x00 :: sec ++ tail).drop
      (1 + ((0x00 :: sec ++ tail).getD 0 0).toNat) = sec ++ tail := rfl
  have hdeclared : declaredLength (sec ++ tail) = sec.length := by
    rw [declaredLength_append hsec.three_le]
    exact hsec.symm
  simp only [sectionInUnit, hb, hdeclared]
  exact take_left' rfl

/-- One payload unit: the packets of a section, whatever packets of later
sections follow. -/
lemma units_sectionPackets (sec : List UInt8) (pid : Nat) (cc : UInt8) (rest : List Packet) :
    ∃ k, units pktPUSI payload ((sectionPackets sec pid cc).1 ++ rest) =
      ([], (0x00 :: sec ++ replicate k 0xFF ++ (units pktPUSI payload rest).1) ::
        (units pktPUSI payload rest).2) := by
  have hfilled := filled_allBlocks (by decide : 0 < packetSize - 4) (0x00 :: sec)
  have hflatten := allBlocks_flatten (by decide : 0 < packetSize - 4) (0x00 :: sec)
  obtain ⟨k, hpayload⟩ := packetizeBlocks_payload pid true cc hfilled
  rw [hflatten] at hpayload
  refine ⟨k, ?_⟩
  rw [sectionPackets]
  cases hblocks : allBlocks (packetSize - 4) (0x00 :: sec) with
  | nil => simp [hblocks] at hflatten
  | cons block blocks =>
    rw [hblocks] at hpayload
    rw [packetizeBlocks] at hpayload ⊢
    rw [units_group payload blockPacket_pktPUSI packetizeBlocks_false_pktPUSI, hpayload]

lemma carriedSections_packetizeAll (pid : Nat) (cc : UInt8) {secs : List (List UInt8)}
    (hsecs : ∀ sec ∈ secs, WellSized sec) :
    (units pktPUSI payload (packetizeAll pid cc secs).1).1 = [] ∧
      carriedSections (packetizeAll pid cc secs).1 = secs := by
  induction secs generalizing cc with
  | nil => exact ⟨rfl, rfl⟩
  | cons sec rest ih =>
    have hrest : ∀ s ∈ rest, WellSized s := fun s hs => hsecs s (mem_cons_of_mem _ hs)
    obtain ⟨hfront, hcarried⟩ := ih (sectionPackets sec pid cc).2 hrest
    obtain ⟨k, hunits⟩ := units_sectionPackets sec pid cc
      (packetizeAll pid (sectionPackets sec pid cc).2 rest).1
    rw [packetizeAll, carriedSections, hunits, hfront, append_nil]
    refine ⟨rfl, ?_⟩
    rw [map_cons, sectionInUnit_stuffed (hsecs sec (by simp))]
    exact congrArg (sec :: ·) hcarried

lemma forall_packetizeAll {P : Packet → Prop}
    (hP : ∀ first cc block, P (blockPacket pid first cc block)) (cc : UInt8) (secs : List (List UInt8)) : ∀ p ∈ (packetizeAll pid cc secs).1, P p := by
  induction secs generalizing cc with
  | nil => simp [packetizeAll]
  | cons sec rest ih =>
    refine forall_mem_append.mpr ⟨?_, ih _⟩
    exact forall_packetizeBlocks hP

/-- The counters of all packets count on from `counterAt n`. -/
lemma packetizeAll_counters (pid n : Nat) (secs : List (List UInt8)) :
    (packetizeAll pid (counterAt n) secs).1.map pktCC =
        (range' n (packetizeAll pid (counterAt n) secs).1.length).map counterAt ∧
      (packetizeAll pid (counterAt n) secs).2 =
        counterAt (n + (packetizeAll pid (counterAt n) secs).1.length) := by
  induction secs generalizing n with
  | nil => exact ⟨rfl, rfl⟩
  | cons sec rest ih =>
    obtain ⟨hcounters, hlast⟩ := packetizeBlocks_counters pid true n
      (allBlocks (packetSize - 4) (0x00 :: sec))
    have hlength := packetizeBlocks_length pid true (counterAt n)
      (allBlocks (packetSize - 4) (0x00 :: sec))
    rw [← hlength] at hcounters hlast
    rw [packetizeAll, sectionPackets, hlast]
    obtain ⟨hrest, hend⟩ := ih (n + (packetizeBlocks pid true (counterAt n)
      (allBlocks (packetSize - 4) (0x00 :: sec))).1.length)
    constructor
    · rw [map_append, hcounters, hrest, length_append, ← map_append, range'_append_1]
    · rw [hend, length_append, Nat.add_assoc]

lemma packetizeAll_append (pid : Nat) (cc : UInt8) (secs more : List (List UInt8)) :
    packetizeAll pid cc (secs ++ more) =
      ((packetizeAll pid cc secs).1 ++
          (packetizeAll pid (packetizeAll pid cc secs).2 more).1,
        (packetizeAll pid (packetizeAll pid cc secs).2 more).2) := by
  induction secs generalizing cc with
  | nil => rfl
  | cons sec rest ih => simp [packetizeAll, ih]

end StreamHub.Scte35
