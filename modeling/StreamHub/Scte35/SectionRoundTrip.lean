import StreamHub.Scte35.Section

/-!
# Parse undoes Encode

Each reader operation has one lemma: on a buffer that starts with an encoded
field it returns the field and leaves the bytes behind it.  `parse_buildSection`
then reduces `Parse` of a built section, whatever bytes follow it, to the
decoding of its command and descriptor loop.

`decodedCue` is the section an encoded cue denotes, with durations reduced to
their field widths (33 bits in break_duration, 40 bits in a
segmentation_descriptor).  `parse_encode` shows that `Parse` returns exactly
it; below those widths nothing is lost, which is the round trip of
`cue_roundTrip`.
-/

namespace StreamHub.Scte35

open Library.Bytes Library.Crc List Reader

/-! ## Reader lemmas -/

namespace Reader

lemma take_append {n : Nat} {v : List UInt8} (hv : v.length = n) (rest : List UInt8) :
    take n { rest := v ++ rest } = (some v, { rest := rest }) := by
  subst hv
  simp [take]

@[simp] lemma u8_cons (b : UInt8) (rest : List UInt8) :
    u8 { rest := b :: rest } = (b, { rest := rest }) := by simp [u8, take]

@[simp] lemma u16_beBytes (v : Nat) (rest : List UInt8) :
    u16 { rest := beBytes 2 v ++ rest } = (v % 2 ^ 16, { rest := rest }) := by
  simp only [u16, take_append (beBytes_length 2 v), beNat_beBytes]

@[simp] lemma u32_beBytes (v : Nat) (rest : List UInt8) :
    u32 { rest := beBytes 4 v ++ rest } = (v % 2 ^ 32, { rest := rest }) := by
  simp only [u32, take_append (beBytes_length 4 v), beNat_beBytes]

lemma u33_flagByte {first : UInt8} {v : Nat} (hfirst : (first &&& 1).toNat = v / 2 ^ 32)
    (rest : List UInt8) : u33 { rest := first :: beBytes 4 v ++ rest } =
      ((first, v), { rest := rest }) := by
  have hlen : (first :: beBytes 4 v).length = 5 := by simp
  rw [u33, take_append hlen]
  simp only [getD_cons_zero, drop_one, tail_cons, hfirst, beNat_beBytes]
  rw [Nat.mul_comm, Nat.div_add_mod]

end Reader

/-- The top bit of a 33-bit value survives in the flag byte of splice_time(),
whose other bits are all set. -/
lemma timeFlagByte {v : Nat} (hv : v < 2 ^ 33) :
    (((0xFE : UInt8) ||| byteOf (v >>> 32)) &&& 1).toNat = v / 2 ^ 32 ∧
      ((0xFE : UInt8) ||| byteOf (v >>> 32)) &&& 0x80 ≠ 0 := by
  rw [Nat.shiftRight_eq_div_pow]
  have hbit : v / 2 ^ 32 = 0 ∨ v / 2 ^ 32 = 1 := by omega
  rcases hbit with h | h <;> rw [h] <;> decide

lemma durationFlagByte {v : Nat} (hv : v < 2 ^ 33) :
    (((0x7E : UInt8) ||| byteOf (v >>> 32) ||| 0x80) &&& 1).toNat = v / 2 ^ 32 ∧
      ((0x7E : UInt8) ||| byteOf (v >>> 32) ||| 0x80) &&& 0x80 ≠ 0 := by
  rw [Nat.shiftRight_eq_div_pow]
  have hbit : v / 2 ^ 32 = 0 ∨ v / 2 ^ 32 = 1 := by omega
  rcases hbit with h | h <;> rw [h] <;> decide

lemma appendSpliceTime_append (b : List UInt8) (specified : Bool) (pts : Nat) :
    appendSpliceTime b specified pts = b ++ appendSpliceTime [] specified pts := by
  cases specified <;> simp [appendSpliceTime]

variable (specified : Bool) (pts : Nat) (cmdType : UInt8) (cmd desc : List UInt8) (c : Cue)
  (tail : List UInt8) (eventID : UInt32) (typeID : UInt8) (dur : Nat) (hasDur : Bool)

lemma spliceTime_appendSpliceTime (rest : List UInt8) :
    spliceTime { rest := appendSpliceTime [] specified pts ++ rest } =
      ((specified, if specified then pts % 2 ^ 33 else 0), { rest := rest }) := by
  cases specified with
  | false =>
    have hflag : (0x7F : UInt8) &&& 0x80 = 0 := by decide
    simp [appendSpliceTime, spliceTime, hflag]
  | true =>
    have hlt : pts % 2 ^ 33 < 2 ^ 33 := Nat.mod_lt _ (by decide)
    obtain ⟨hbit, hflag⟩ := timeFlagByte hlt
    simp only [appendSpliceTime, if_true, nil_append, spliceTime,
      cons_append, getD_cons_zero, if_neg hflag, Bool.false_eq_true,
      reduceCtorEq, or_self, if_false]
    rw [← cons_append, u33_flagByte hbit]

lemma u33_appendBreakDuration (d : Nat) (rest : List UInt8) :
    ∃ first : UInt8, first &&& 0x80 ≠ 0 ∧
      u33 { rest := appendBreakDuration [] true d ++ rest } =
        ((first, d % 2 ^ 33), { rest := rest }) := by
  have hlt : d % 2 ^ 33 < 2 ^ 33 := Nat.mod_lt _ (by decide)
  obtain ⟨hbit, hflag⟩ := durationFlagByte hlt
  refine ⟨_, hflag, ?_⟩
  simp only [appendBreakDuration, if_true, nil_append]
  rw [u33_flagByte hbit]

/-! ## The frame of a section -/

/-- What `Parse` has learned when it reaches the splice command. -/
def builtInfo (cmdType : UInt8) : Info :=
  { sapType := 3, tier := 0xFFF, commandType := cmdType,
    command := commandName cmdType }

@[simp] lemma sectionHeader_length (secLen cl : Nat) (cmdType : UInt8) :
    (sectionHeader secLen cl cmdType).length = 14 := rfl

lemma buildSection_length :
    (buildSection cmdType cmd desc).length = 20 + cmd.length + desc.length := by
  simp [buildSection]
  omega

variable {sec : List UInt8}

/-- A complete section is decoded whatever bytes follow it. -/
lemma parse_append (htable : sec.getD 0 0 = tableID) (hlength : WellSized sec)
    (hmin : 20 ≤ sec.length) (hcrc : crc32 sec = 0) (tail : List UInt8) :
    parse (sec ++ tail) = parseHeader sec := by
  have hfirst : (sec ++ tail).getD 0 0 = sec.getD 0 0 := getD_append _ _ _ _ (by omega)
  have hdeclared : declaredLength (sec ++ tail) = sec.length := by
    rw [declaredLength_append hlength.three_le]
    exact hlength.symm
  have hlong : ¬ (sec ++ tail).length < 3 := by
    rw [length_append]
    omega
  have hroom : ¬ (sec.length < 20 ∨ (sec ++ tail).length < sec.length) := by
    rw [length_append]
    omega
  rw [parse, if_neg hlong, hfirst, htable, hdeclared, if_neg hroom]
  simp [hcrc]

/-- `Parse` of a built section goes on with its command and its descriptor
loop, in a reader that ends with the loop. -/
lemma parseHeader_buildSection (hsize : cmd.length < 4096) :
    parseHeader (buildSection cmdType cmd desc) =
      parseBody (builtInfo cmdType)
        { rest := cmd ++ (beBytes 2 desc.length ++ desc) } cmd.length := by
  have hcmdLen : be16 (((0xF0 : UInt8) ||| (byteOf (cmd.length >>> 8) &&& 0x0F)) &&&
      0x0F) (byteOf cmd.length) = cmd.length := be16_lengthField 0xF0 hsize
  have htier : ∀ x : UInt8, (0xFF : UInt8).toNat * 16 +
      (((0xF0 : UInt8) ||| (x &&& 0x0F)) >>> 4).toNat = 0xFFF := by
    intro x
    rw [or_lowNibble_shiftRight]
    rfl
  have hsap : ∀ x : UInt8,
      (((0x30 : UInt8) ||| (x &&& 0x0F)) >>> 4 &&& 0x03).toNat = 3 := by
    intro x
    rw [or_lowNibble_shiftRight]
    rfl
  -- what the reader has in front of it: the section without its CRC, from
  -- protocol_version on
  have hrest : ((buildSection cmdType cmd desc).take
        ((buildSection cmdType cmd desc).length - 4)).drop 4 =
      (0x00 :: 0x00 :: 0x00 :: 0x00 :: 0x00 :: 0x00 :: 0xFF ::
        ((0xF0 : UInt8) ||| (byteOf (cmd.length >>> 8) &&& 0x0F)) ::
        byteOf cmd.length :: cmdType ::
          (cmd ++ (beBytes 2 desc.length ++ desc)) : List UInt8) := by
    rw [buildSection, appendCRC_length, Nat.add_sub_cancel, appendCRC, take_left' rfl]
    simp [sectionHeader, beBytes]
  have hfirst : (buildSection cmdType cmd desc).getD 1 0 = (0x30 : UInt8) |||
      (byteOf ((11 + cmd.length + 2 + desc.length + 4) >>> 8) &&& 0x0F) := rfl
  have hadj : ∀ rest : List UInt8, u33
      { rest := 0x00 :: 0x00 :: 0x00 :: 0x00 :: 0x00 :: rest } =
        ((0, 0), { rest := rest }) := by
    intro rest
    have hzero : ((0 : UInt8) &&& 1).toNat = 0 / 2 ^ 32 := by decide
    exact u33_flagByte hzero rest
  have htc : ∀ (a b c : UInt8) (rest : List UInt8),
      Reader.take 3 { rest := a :: b :: c :: rest } =
        (some [a, b, c], { rest := rest }) := by
    intro a b c rest
    have hlen : [a, b, c].length = 3 := rfl
    exact Reader.take_append hlen rest
  simp only [parseHeader, hrest, hfirst, hsap, hadj, u8_cons, htc,
    Option.getD_some, getD_cons_zero, getD_cons_succ, hcmdLen, htier]
  exact if_neg (by decide)

lemma declaredLength_buildSection (hsize : cmd.length + desc.length < 4000) :
    declaredLength (buildSection cmdType cmd desc) =
      (buildSection cmdType cmd desc).length := by
  have hfield : be16 (((0x30 : UInt8) |||
      (byteOf ((11 + cmd.length + 2 + desc.length + 4) >>> 8) &&& 0x0F)) &&& 0x0F)
      (byteOf (11 + cmd.length + 2 + desc.length + 4)) =
        11 + cmd.length + 2 + desc.length + 4 := be16_lengthField 0x30 (by omega)
  rw [buildSection_length]
  change 3 + be16 (((0x30 : UInt8) |||
      (byteOf ((11 + cmd.length + 2 + desc.length + 4) >>> 8) &&& 0x0F)) &&& 0x0F)
      (byteOf (11 + cmd.length + 2 + desc.length + 4)) = _
  omega

lemma parse_buildSection (hsize : cmd.length + desc.length < 4000) :
    parse (buildSection cmdType cmd desc ++ tail) =
      parseBody (builtInfo cmdType)
        { rest := cmd ++ (beBytes 2 desc.length ++ desc) } cmd.length := by
  have hlength := buildSection_length cmdType cmd desc
  -- the CRC over a section with its CRC is zero
  rw [parse_append rfl (declaredLength_buildSection cmdType cmd desc hsize).symm
    (by omega) (crc32_appendCRC _) tail]
  exact parseHeader_buildSection cmdType cmd desc (by omega)

/-- Behind a command that was read without error, the declared command length
leads to the descriptor loop. -/
lemma parseBody_command {info info' : Info} {r' : Reader} {cmd desc : List UInt8}
    (hcmd : parseCommand info { rest := cmd ++ (beBytes 2 desc.length ++ desc) } = (info', r'))
    (hread : r'.failed = false) (hcmdLen : cmd.length < 0xFFF) (hdesc : desc.length < 2 ^ 16)
    (hadj : info'.ptsAdjustment = 0) (hpts : info'.pts < 2 ^ 33) :
    parseBody info { rest := cmd ++ (beBytes 2 desc.length ++ desc) } cmd.length =
      parseDescriptors desc.length desc info' := by
  have hne : cmd.length ≠ 0xFFF := by omega
  -- the adjustment is zero, so the splice time stays as it was read
  have htime : (if info'.timeSpecified then
      { info' with pts := (info'.pts + info'.ptsAdjustment) % 2 ^ 33 } else info') =
        info' := by
    have hsum : (info'.pts + info'.ptsAdjustment) % 2 ^ 33 = info'.pts := by
      rw [hadj, Nat.add_zero, Nat.mod_eq_of_lt hpts]
    rw [hsum]
    split <;> rfl
  have hloop : Reader.take desc.length { rest := desc } =
      (some desc, { rest := [] }) := by
    simpa using Reader.take_append (rfl : desc.length = desc.length) []
  simp only [parseBody, hcmd, hread, Bool.false_eq_true, if_false, htime, ne_eq, hne,
    not_false_eq_true, if_true, Reader.take_append, u16_beBytes,
    Nat.mod_eq_of_lt hdesc, hloop, Option.getD_some]

/-! ## Commands -/

lemma insertFlags_bits : decide (insertFlags c &&& 0x80 ≠ 0) = c.outOfNetwork ∧
      decide (insertFlags c &&& 0x40 ≠ 0) = true ∧
      decide (insertFlags c &&& 0x20 ≠ 0) = decide (c.durationMs > 0) ∧
      decide (insertFlags c &&& 0x10 ≠ 0) = c.immediate := by
  unfold insertFlags
  by_cases hdur : c.durationMs > 0 <;> simp only [hdur, if_true, if_false] <;>
    cases c.outOfNetwork <;> cases c.immediate <;> decide

/-- The break duration a section carries: 33 bits of the ticks. -/
def breakTicks (c : Cue) : Nat := if c.durationMs > 0 then msToTicks c.durationMs % 2 ^ 33 else 0

/-- The section an encoded splice_insert denotes. -/
def insertInfo (c : Cue) (pts : Nat) : Info :=
  { builtInfo cmdSpliceInsert with
    eventID := c.eventID.toNat
    outOfNetwork := c.outOfNetwork
    programSplice := true
    immediate := c.immediate
    uniqueProgramID := c.uniqueProgramID.toNat
    availNum := c.availNum
    availsExpected := c.availsExpected
    timeSpecified := !c.immediate
    pts := if c.immediate then 0 else pts % 2 ^ 33
    hasDuration := c.durationMs > 0
    duration := breakTicks c
    autoReturn := c.durationMs > 0 }

/-- The optional splice time of splice_insert. -/
def insertTime (c : Cue) (pts : Nat) : List UInt8 :=
  if c.immediate then [] else appendSpliceTime [] true pts

/-- The optional break duration of splice_insert. -/
def insertDuration (c : Cue) : List UInt8 :=
  if c.durationMs > 0 then
    appendBreakDuration [] true (msToTicks c.durationMs) else []

lemma insertCommand_eq (pts : Nat) :
    insertCommand c pts = beBytes 4 c.eventID.toNat ++ (0x7F :: insertFlags c ::
      (insertTime c pts ++ (insertDuration c ++
        (beBytes 2 c.uniqueProgramID.toNat ++ [c.availNum, c.availsExpected])))) := by
  have htime := appendSpliceTime_append
    (beBytes 4 c.eventID.toNat ++ [0x7F] ++ [insertFlags c]) true pts
  simp only [insertCommand, insertTime, insertDuration, htime]
  cases c.immediate <;> by_cases hdur : c.durationMs > 0 <;>
    simp [hdur, appendBreakDuration]

lemma insertTime_read (pts : Nat) (rest : List UInt8) :
    (if ¬ c.immediate then spliceTime { rest := insertTime c pts ++ rest }
      else ((false, 0), { rest := insertTime c pts ++ rest })) =
      ((!c.immediate, if c.immediate then 0 else pts % 2 ^ 33), { rest := rest }) := by
  unfold insertTime
  cases c.immediate with
  | true => simp
  | false => simpa using spliceTime_appendSpliceTime true pts rest

/-- Reading the break duration: the auto_return flag and the ticks. -/
lemma insertDuration_read (rest : List UInt8) :
    ∃ first : UInt8, decide (first &&& 0x80 ≠ 0) = decide (c.durationMs > 0) ∧
      (if c.durationMs > 0 then u33 { rest := insertDuration c ++ rest }
        else ((0, 0), { rest := insertDuration c ++ rest })) =
        ((first, breakTicks c), { rest := rest }) := by
  unfold insertDuration breakTicks
  by_cases hdur : c.durationMs > 0
  · obtain ⟨first, hflag, hread⟩ := u33_appendBreakDuration (msToTicks c.durationMs) rest
    refine ⟨first, by simp [hflag, hdur], ?_⟩
    simp only [hdur, if_true, hread]
  · refine ⟨0, by simp [hdur], ?_⟩
    simp only [hdur, if_false, nil_append]

lemma parseCommand_insert (pts : Nat) (rest : List UInt8) :
    parseCommand (builtInfo cmdSpliceInsert)
      { rest := insertCommand c pts ++ rest } =
        (insertInfo c pts, { rest := rest }) := by
  obtain ⟨hout, hprogram, hduration, himmediate⟩ := insertFlags_bits c
  have hdur : (insertFlags c &&& 0x20 ≠ 0) = (c.durationMs > 0) :=
    propext (decide_eq_decide.mp hduration)
  have hevent : c.eventID.toNat % 2 ^ 32 = c.eventID.toNat := Nat.mod_eq_of_lt c.eventID.toNat_lt
  have hprog : c.uniqueProgramID.toNat % 2 ^ 16 = c.uniqueProgramID.toNat :=
    Nat.mod_eq_of_lt c.uniqueProgramID.toNat_lt
  have hcancel : decide ((0x7F : UInt8) &&& 0x80 ≠ 0) = false := by decide
  have htime := insertTime_read c pts (insertDuration c ++
    (beBytes 2 c.uniqueProgramID.toNat ++ (c.availNum :: c.availsExpected :: rest)))
  obtain ⟨first, hauto, hread⟩ := insertDuration_read c
    (beBytes 2 c.uniqueProgramID.toNat ++ (c.availNum :: c.availsExpected :: rest))
  rw [insertCommand_eq]
  simp only [append_assoc, cons_append]
  simp only [parseCommand, builtInfo, if_true, u32_beBytes, u8_cons,
    hevent, hcancel, Bool.false_eq_true, if_false, parseInsertBody, hout, hprogram,
    himmediate, true_and, htime, hdur, hread, u16_beBytes, hprog, hauto,
    nil_append, insertInfo]

/-- What a time_signal section carries besides its descriptors. -/
def signalCommandInfo (c : Cue) (pts : Nat) : Info :=
  { builtInfo cmdTimeSignal with
    timeSpecified := !c.immediate
    pts := if c.immediate then 0 else pts % 2 ^ 33 }

lemma parseCommand_signal (pts : Nat) (rest : List UInt8) :
    parseCommand (builtInfo cmdTimeSignal)
      { rest := appendSpliceTime [] (!c.immediate) pts ++ rest } =
        (signalCommandInfo c pts, { rest := rest }) := by
  have hne : ¬ cmdTimeSignal = cmdSpliceInsert := by decide
  simp only [parseCommand, builtInfo, if_neg hne, if_true,
    spliceTime_appendSpliceTime, signalCommandInfo]
  cases c.immediate <;> rfl

/-! ## Segmentation descriptors -/

/-- The segmentation an encoded time_signal denotes: 40 bits of the ticks. -/
def signalSegmentation (c : Cue) : Segmentation :=
  { eventID := c.eventID.toNat
    typeID := c.segmentationTypeID
    hasDuration := c.durationMs > 0
    duration := if c.durationMs > 0 then msToTicks c.durationMs % 2 ^ 40 else 0 }

/-- The fields behind the optional duration: no UPID, the type, no segment
numbers, and the sub-segment numbers of the types that have them. -/
def segmentationTail (typeID : UInt8) : List UInt8 :=
  0x00 :: 0x00 :: typeID :: 0 :: 0 :: (if hasSubSegments typeID then [0, 0] else [])

/-- The optional 40-bit duration. -/
def segmentationDuration (dur : Nat) (hasDur : Bool) : List UInt8 :=
  if hasDur then beBytes 5 (dur % 2 ^ 40) else []

def segmentationFlags (hasDur : Bool) : UInt8 := if hasDur then 0xBF ||| 0x40 else 0xBF

lemma segmentationDuration_read (rest : List UInt8) : ∃ bytes : Option (List UInt8),
      (if hasDur then Reader.take 5 { rest := segmentationDuration dur hasDur ++ rest }
        else (none, { rest := segmentationDuration dur hasDur ++ rest })) =
        (bytes, { rest := rest }) ∧
      beNat (bytes.getD []) = if hasDur then dur % 2 ^ 40 else 0 := by
  cases hasDur with
  | false => exact ⟨none, rfl, rfl⟩
  | true =>
    refine ⟨some (beBytes 5 (dur % 2 ^ 40)), ?_, ?_⟩
    · exact Reader.take_append (beBytes_length 5 (dur % 2 ^ 40)) rest
    · rw [Option.getD_some, beNat_beBytes]
      exact Nat.mod_mod _ _

lemma parseSegmentationBody_tail (eventID : Nat) (typeID : UInt8) (hasDur : Bool) (dur : Nat) :
    parseSegmentationBody { eventID := eventID }
      { rest := segmentationFlags hasDur ::
          (segmentationDuration dur hasDur ++ segmentationTail typeID) } =
      ({ eventID := eventID, typeID := typeID, hasDuration := hasDur,
         duration := if hasDur then dur % 2 ^ 40 else 0 }, { rest := [] }) := by
  have hprogram : segmentationFlags hasDur &&& 0x80 ≠ 0 := by cases hasDur <;> decide
  have hflag : (segmentationFlags hasDur &&& 0x40 ≠ 0) = (hasDur = true) := by
    cases hasDur <;> decide
  have hupid : ∀ rest : List UInt8, Reader.take 0 { rest := rest } =
      (some [], { rest := rest }) := by
    intro rest
    simp [Reader.take]
  obtain ⟨bytes, hread, hvalue⟩ := segmentationDuration_read dur hasDur (segmentationTail typeID)
  simp only [parseSegmentationBody, u8_cons, if_pos hprogram, hflag, hread,
    hvalue, Bool.decide_eq_true]
  simp only [segmentationTail, u8_cons, UInt8.toNat_zero, hupid, Option.getD_some]
  cases hsub : hasSubSegments typeID <;> simp

lemma parseSegmentation_body :
    parseSegmentation ((segmentationBody eventID typeID dur hasDur).drop 4) =
      ({ eventID := eventID.toNat, typeID := typeID, hasDuration := hasDur,
         duration := if hasDur then dur % 2 ^ 40 else 0 }, none) := by
  have hdrop : (segmentationBody eventID typeID dur hasDur).drop 4 =
      beBytes 4 eventID.toNat ++ (0x7F :: segmentationFlags hasDur ::
        (segmentationDuration dur hasDur ++ segmentationTail typeID)) := by
    simp only [segmentationBody, segmentationTail, segmentationFlags,
      segmentationDuration, append_assoc, cons_append, nil_append]
    rfl
  have hevent : eventID.toNat % 2 ^ 32 = eventID.toNat := Nat.mod_eq_of_lt eventID.toNat_lt
  have hcancel : decide ((0x7F : UInt8) &&& 0x80 ≠ 0) = false := by decide
  simp only [parseSegmentation, hdrop, u32_beBytes, u8_cons, hevent,
    hcancel, Bool.false_eq_true, if_false, parseSegmentationBody_tail]

lemma segmentationBody_length : 15 ≤ (segmentationBody eventID typeID dur hasDur).length ∧
      (segmentationBody eventID typeID dur hasDur).length ≤ 22 := by
  unfold segmentationBody
  cases hasDur <;> cases hasSubSegments typeID <;> simp [cuei]

/-- The descriptor loop of an encoded time_signal adds its one descriptor. -/
lemma parseDescriptors_segmentation (info : Info) : parseDescriptors
      (appendSegmentationDescriptor [] eventID typeID dur hasDur).length
      (appendSegmentationDescriptor [] eventID typeID dur hasDur) info =
      ({ info with
          descriptors := info.descriptors ++ [⟨0x02, cueiID,
            (segmentationBody eventID typeID dur hasDur).length⟩]
          segmentations := info.segmentations ++
            [{ eventID := eventID.toNat, typeID := typeID, hasDuration := hasDur,
               duration := if hasDur then dur % 2 ^ 40 else 0 }] }, none) := by
  obtain ⟨hmin, hmax⟩ := segmentationBody_length eventID typeID dur hasDur
  have hid : beNat ((segmentationBody eventID typeID dur hasDur).take 4) = cueiID := by
    have htake : (segmentationBody eventID typeID dur hasDur).take 4 = cuei := by
      simp [segmentationBody, cuei]
    rw [htake]
    decide
  have hseg := parseSegmentation_body eventID typeID dur hasDur
  have happend : appendSegmentationDescriptor [] eventID typeID dur hasDur =
      0x02 :: byteOf (segmentationBody eventID typeID dur hasDur).length ::
        segmentationBody eventID typeID dur hasDur := by simp [appendSegmentationDescriptor]
  -- from here on only the length of the body matters
  generalize segmentationBody eventID typeID dur hasDur = body at *
  have hl : (byteOf body.length).toNat = body.length := by
    rw [byteOf_toNat, Nat.mod_eq_of_lt (by omega)]
  have hlen : ¬ (0x02 :: byteOf body.length :: body).length < 2 := by simp
  have hfit : ¬ (0x02 :: byteOf body.length :: body).length < 2 + body.length := by
    simp
    omega
  have hdrop : (0x02 :: byteOf body.length :: body).drop (2 + body.length) = [] := by
    apply drop_eq_nil_of_le
    simp
    omega
  have h4 : 4 ≤ body.length := by omega
  rw [happend, length_cons, parseDescriptors]
  simp only [if_neg hlen, getD_cons_zero, getD_cons_succ, hl, if_neg hfit,
    drop_succ_cons, drop_zero, take_length, if_pos h4, hid, hdrop,
    and_self, if_true, hseg]
  rfl

/-! ## Whole sections -/

/-- The section an encoded cue denotes; durations have lost what exceeds the
width of their field. -/
def decodedCue (c : Cue) (pts : Nat) : Info :=
  match c.kind with
  | .spliceInsert => insertInfo c pts
  | .timeSignal =>
    if c.segmentationTypeID ≠ 0 then
      { signalCommandInfo c pts with
        descriptors := [⟨0x02, cueiID, (segmentationBody c.eventID
          c.segmentationTypeID (msToTicks c.durationMs) (c.durationMs > 0)).length⟩]
        segmentations := [signalSegmentation c] }
    else signalCommandInfo c pts
  | .spliceNull => builtInfo cmdSpliceNull
  | .other _ => {}

lemma insertCommand_length_le (pts : Nat) : (insertCommand c pts).length ≤ 20 := by
  rw [insertCommand_eq]
  unfold insertTime insertDuration
  cases c.immediate <;> by_cases hdur : c.durationMs > 0 <;>
    simp [hdur, appendSpliceTime, appendBreakDuration]

lemma appendSpliceTime_length_le : (appendSpliceTime [] specified pts).length ≤ 5 := by
  cases specified <;> simp [appendSpliceTime]

lemma signalDescriptors_length_le : (signalDescriptors c).length ≤ 24 := by
  have hbody := (segmentationBody_length c.eventID c.segmentationTypeID
    (msToTicks c.durationMs) (c.durationMs > 0)).2
  unfold signalDescriptors
  split
  · simp only [appendSegmentationDescriptor, length_append, length_cons, length_nil]
    omega
  · simp

lemma parse_insert (pts : Nat) (tail : List UInt8) :
    parse (buildSection cmdSpliceInsert (insertCommand c pts) [] ++ tail) =
      (insertInfo c pts, none) := by
  have hlen := insertCommand_length_le c pts
  rw [parse_buildSection _ _ _ _ (by simp; omega),
    parseBody_command (parseCommand_insert c pts _) rfl (by omega) (by simp) rfl]
  · rfl
  · change (if c.immediate then 0 else pts % 2 ^ 33) < 2 ^ 33
    split <;> omega

lemma parse_signal (pts : Nat) (tail : List UInt8) (hkind : c.kind = .timeSignal) :
    parse (buildSection cmdTimeSignal (appendSpliceTime [] (!c.immediate) pts)
      (signalDescriptors c) ++ tail) = (decodedCue c pts, none) := by
  have hlen := appendSpliceTime_length_le (!c.immediate) pts
  have hdesc := signalDescriptors_length_le c
  rw [parse_buildSection _ _ _ _ (by omega),
    parseBody_command (parseCommand_signal c pts _) rfl (by omega) (by omega) rfl]
  · simp only [decodedCue, hkind, signalDescriptors]
    split
    · rw [parseDescriptors_segmentation]
      simp [signalCommandInfo, builtInfo, signalSegmentation]
    · rfl
  · change (if c.immediate then 0 else pts % 2 ^ 33) < 2 ^ 33
    split <;> omega

lemma parse_null : parse (buildSection cmdSpliceNull [] [] ++ tail) =
      (builtInfo cmdSpliceNull, none) := by
  rw [parse_buildSection _ _ _ _ (by simp)]
  rfl

/-- `Parse` decodes every section `Encode` returns, whatever follows it. -/
lemma parse_encode {c : Cue} {pts : Nat} (hsec : encode c pts = .ok sec) (tail : List UInt8) :
    parse (sec ++ tail) = (decodedCue c pts, none) := by
  unfold encode at hsec
  cases hkind : c.kind with
  | spliceInsert =>
    rw [hkind] at hsec
    cases hsec
    rw [parse_insert, decodedCue, hkind]
  | timeSignal =>
    rw [hkind] at hsec
    cases hsec
    exact parse_signal c pts tail hkind
  | spliceNull =>
    rw [hkind] at hsec
    cases hsec
    rw [parse_null, decodedCue, hkind]
  | other kind =>
    rw [hkind] at hsec
    cases hsec

lemma encode_sent {c : Cue} {pts : Nat} (hsec : encode c pts = .ok sec) : SentSection sec := by
  have hinsert := insertCommand_length_le c pts
  have htime := appendSpliceTime_length_le (!c.immediate) pts
  have hdesc := signalDescriptors_length_le c
  have hbuilt : ∀ cmdType cmd desc, cmd.length + desc.length < 4000 →
      SentSection (buildSection cmdType cmd desc) := fun cmdType cmd desc hsize =>
    ⟨rfl, (declaredLength_buildSection cmdType cmd desc hsize).symm⟩
  unfold encode at hsec
  split at hsec <;> cases hsec
  · exact hbuilt _ _ _ (by decide)
  · exact hbuilt _ _ _ (by rw [length_nil]; omega)
  · exact hbuilt _ _ _ (by omega)

/-! ## The round trip -/

/-- The splice_command_type of a cue kind. -/
def CueKind.commandType : CueKind → UInt8
  | .spliceInsert => cmdSpliceInsert
  | .timeSignal => cmdTimeSignal
  | _ => cmdSpliceNull

/-- A decoded splice_insert that says what the cue says. -/
structure InsertMatches (c : Cue) (pts : Nat) (info : Info) : Prop where
  eventID : info.eventID = c.eventID.toNat
  notCancelled : info.cancel = false
  outOfNetwork : info.outOfNetwork = c.outOfNetwork
  immediate : info.immediate = c.immediate
  uniqueProgramID : info.uniqueProgramID = c.uniqueProgramID.toNat
  availNum : info.availNum = c.availNum
  availsExpected : info.availsExpected = c.availsExpected
  programSplice : info.programSplice = true
  timeSpecified : info.timeSpecified = !c.immediate
  pts : c.immediate = false → info.pts = pts % 2 ^ 33
  hasDuration : info.hasDuration = decide (c.durationMs > 0)
  autoReturn : info.autoReturn = decide (c.durationMs > 0)
  duration : (info.duration : Int) = 90 * c.durationMs
  noDescriptors : info.descriptors = [] ∧ info.segmentations = []

/-- A decoded time_signal that says what the cue says. -/
structure SignalMatches (c : Cue) (pts : Nat) (info : Info) : Prop where
  timeSpecified : info.timeSpecified = !c.immediate
  pts : c.immediate = false → info.pts = pts % 2 ^ 33
  segmentation : c.segmentationTypeID ≠ 0 → ∃ s d,
    info.segmentations = [s] ∧ info.descriptors = [d] ∧
      s.eventID = c.eventID.toNat ∧ s.typeID = c.segmentationTypeID ∧
      s.cancel = false ∧ s.hasDuration = decide (c.durationMs > 0) ∧
      (s.duration : Int) = 90 * c.durationMs ∧ s.upidType = 0 ∧ s.upid = []
  noSegmentation : c.segmentationTypeID = 0 →
    info.segmentations = [] ∧ info.descriptors = []

lemma msToTicks_mod_iff {ms : Int} (hpos : 0 ≤ 90 * ms) {width : Nat} (hwidth : width ≤ 64) :
    ((if ms > 0 then msToTicks ms % 2 ^ width else 0 : Nat) : Int) = 90 * ms ↔
      90 * ms < 2 ^ width := by
  have hbound : (0 : Int) < 2 ^ width := by positivity
  have hticks : ((msToTicks ms % 2 ^ width : Nat) : Int) = 90 * ms % 2 ^ width := by
    rw [msToTicks, Int.mul_comm ms 90, Int.natCast_mod,
      Int.toNat_of_nonneg (Int.emod_nonneg _ (by decide))]
    exact_mod_cast Int.emod_emod_of_dvd _ (pow_dvd_pow 2 hwidth)
  split
  · rw [hticks]
    constructor
    · intro heq
      rw [← heq]
      exact Int.emod_lt_of_pos _ hbound
    · exact Int.emod_eq_of_lt hpos
  · have hzero : ms = 0 := by omega
    simp [hzero]

lemma insertInfo_matches {c : Cue} (hpos : 0 ≤ 90 * c.durationMs)
    (hlt : 90 * c.durationMs < 2 ^ 33) : InsertMatches c pts (insertInfo c pts) where
  eventID := rfl
  notCancelled := rfl
  outOfNetwork := rfl
  immediate := rfl
  uniqueProgramID := rfl
  availNum := rfl
  availsExpected := rfl
  programSplice := rfl
  timeSpecified := rfl
  pts := fun himm => by simp [insertInfo, himm]
  hasDuration := rfl
  autoReturn := rfl
  duration := (msToTicks_mod_iff hpos (by decide)).mpr hlt
  noDescriptors := ⟨rfl, rfl⟩

lemma decodedCue_signal_matches {c : Cue} (hkind : c.kind = .timeSignal)
    (hpos : 0 ≤ 90 * c.durationMs) (hlt : 90 * c.durationMs < 2 ^ 33) :
    SignalMatches c pts (decodedCue c pts) := by
  by_cases htype : c.segmentationTypeID = 0
  · simp only [decodedCue, hkind, htype, ne_eq, not_true_eq_false, if_false]
    exact {
      timeSpecified := rfl
      pts := fun himm => by simp [signalCommandInfo, himm]
      segmentation := fun hne => absurd htype hne
      noSegmentation := fun _ => ⟨rfl, rfl⟩ }
  · simp only [decodedCue, hkind, ne_eq, htype, not_false_eq_true, if_true]
    exact {
      timeSpecified := rfl
      pts := fun himm => by simp [signalCommandInfo, himm]
      segmentation := fun _ => ⟨signalSegmentation c, _, rfl, rfl, rfl, rfl, rfl, rfl,
        (msToTicks_mod_iff hpos (by decide)).mpr (hlt.trans (by decide)), rfl, rfl⟩
      noSegmentation := fun hzero => absurd hzero htype }

/-- Decoding an encoded cue gives back every field the cue signals. -/
theorem cue_roundTrip (c : Cue) (pts : Nat) (tail : List UInt8)
    (hkind : c.kind = .spliceInsert ∨ c.kind = .timeSignal ∨ c.kind = .spliceNull)
    (hpos : 0 ≤ 90 * c.durationMs) (hlt : 90 * c.durationMs < 2 ^ 33) :
    ∃ sec info, encode c pts = .ok sec ∧ parse (sec ++ tail) = (info, none) ∧
      info.ptsAdjustment = 0 ∧ info.tier = 0xFFF ∧ info.sapType = 3 ∧
      info.commandType = c.kind.commandType ∧
      (c.kind = .spliceInsert → InsertMatches c pts info) ∧
      (c.kind = .timeSignal → SignalMatches c pts info) := by
  have hsec : ∃ sec, encode c pts = .ok sec := by
    unfold encode
    rcases hkind with h | h | h <;> rw [h] <;> exact ⟨_, rfl⟩
  obtain ⟨sec, hsec⟩ := hsec
  refine ⟨sec, decodedCue c pts, hsec, parse_encode hsec tail, ?_⟩
  rcases hkind with h | h | h
  · have hinfo : decodedCue c pts = insertInfo c pts := by rw [decodedCue, h]
    rw [hinfo, h]
    exact ⟨rfl, rfl, rfl, rfl, fun _ => insertInfo_matches pts hpos hlt, nofun⟩
  · have hframe : (decodedCue c pts).ptsAdjustment = 0 ∧
        (decodedCue c pts).tier = 0xFFF ∧ (decodedCue c pts).sapType = 3 ∧
        (decodedCue c pts).commandType = cmdTimeSignal := by
      simp only [decodedCue, h]
      split <;> exact ⟨rfl, rfl, rfl, rfl⟩
    obtain ⟨hadj, htier, hsap, hcmd⟩ := hframe
    refine ⟨hadj, htier, hsap, by rw [hcmd, h]; rfl, by rw [h]; nofun, fun _ => ?_⟩
    exact decodedCue_signal_matches pts h hpos hlt
  · have hinfo : decodedCue c pts = builtInfo cmdSpliceNull := by rw [decodedCue, h]
    rw [hinfo, h]
    exact ⟨rfl, rfl, rfl, rfl, nofun, nofun⟩

/-- A thirty second break. -/
def breakCue : Cue :=
  { kind := .spliceInsert, eventID := 7, outOfNetwork := true, durationMs := 30000 }

theorem cue_roundTrip_breakCue :
    ∃ sec info, encode breakCue 360000 = .ok sec ∧
      parse (sec ++ [0xFF, 0xFF]) = (info, none) ∧ info.duration = 2700000 := by
  obtain ⟨sec, info, hsec, hparse, -, -, -, -, hinsert, -⟩ :=
    cue_roundTrip breakCue 360000 [0xFF, 0xFF] (Or.inl rfl) (by decide) (by decide)
  have hduration : (info.duration : Int) = 90 * 30000 := (hinsert rfl).duration
  exact ⟨sec, info, hsec, hparse, by omega⟩

end StreamHub.Scte35
