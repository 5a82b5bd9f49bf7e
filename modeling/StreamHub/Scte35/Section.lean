import StreamHub.Library.Crc

/-!
# The splice_info_section: cues, encoder, decoder

`Encode` builds the section of a cue; `Parse` decodes one section found after
a pointer field.  Both follow `internal/scte35/section.go` field by field, and
`crc.go` for the checksum (polynomial `0x04C11DB7`, initial register all ones).

Multi-byte fields use the big-endian library.  The decoder's `reader` keeps
the unread suffix of its buffer in place of the buffer and a position; the
first short read latches `failed` and every later read returns zero.
-/

namespace StreamHub.Scte35

open Library.Bytes Library.Crc

/-! ## Checksum -/

/-- CRC-32/MPEG-2 of a byte string. -/
def crc32 (b : List UInt8) : BitVec 32 := crc 0x04C11DB7 0xFFFFFFFF b

/-- Append the big-endian CRC-32/MPEG-2 of `b` to `b`. -/
def appendCRC (b : List UInt8) : List UInt8 := b ++ registerBytes (crc32 b)

@[simp] lemma appendCRC_length (b : List UInt8) : (appendCRC b).length = b.length + 4 := by
  simp [appendCRC]

@[simp] lemma crc32_appendCRC (b : List UInt8) : crc32 (appendCRC b) = 0 :=
  crc_append_registerBytes _ _ b

/-! ## Cues and decoded sections -/

/-- `Cue.Kind`: a string of which three values are accepted. -/
inductive CueKind
  | spliceInsert
  | timeSignal
  | spliceNull
  | other (kind : String)
  deriving DecidableEq

/-- A request to signal a splice point. -/
structure Cue where
  kind : CueKind
  eventID : UInt32 := 0
  outOfNetwork : Bool := false
  immediate : Bool := false
  preRollMs : Int := 0
  durationMs : Int := 0
  uniqueProgramID : UInt16 := 0
  availNum : UInt8 := 0
  availsExpected : UInt8 := 0
  segmentationTypeID : UInt8 := 0
  deriving DecidableEq

/-- A decoded segmentation_descriptor. -/
structure Segmentation where
  eventID : Nat := 0
  cancel : Bool := false
  typeID : UInt8 := 0
  hasDuration : Bool := false
  duration : Nat := 0
  upidType : UInt8 := 0
  upid : List UInt8 := []
  segmentNum : UInt8 := 0
  segmentsExpected : UInt8 := 0
  subSegmentNum : UInt8 := 0
  subSegmentsExpected : UInt8 := 0
  deriving DecidableEq

/-- The header of one splice_descriptor. -/
structure Descriptor where
  tag : UInt8
  identifier : Nat := 0
  length : Nat
  deriving DecidableEq

/-- A decoded splice_info_section. -/
structure Info where
  pid : Nat := 0
  sapType : Nat := 0
  ptsAdjustment : Nat := 0
  tier : Nat := 0
  commandType : UInt8 := 0
  command : String := ""
  eventID : Nat := 0
  cancel : Bool := false
  outOfNetwork : Bool := false
  programSplice : Bool := false
  immediate : Bool := false
  uniqueProgramID : Nat := 0
  availNum : UInt8 := 0
  availsExpected : UInt8 := 0
  timeSpecified : Bool := false
  pts : Nat := 0
  hasDuration : Bool := false
  duration : Nat := 0
  autoReturn : Bool := false
  descriptors : List Descriptor := []
  segmentations : List Segmentation := []
  deriving DecidableEq

def cmdSpliceNull : UInt8 := 0x00
def cmdSpliceSchedule : UInt8 := 0x04
def cmdSpliceInsert : UInt8 := 0x05
def cmdTimeSignal : UInt8 := 0x06
def cmdBandwidthReservation : UInt8 := 0x07
def cmdPrivate : UInt8 := 0xFF

/-- `table_id` of a splice_info_section. -/
def tableID : UInt8 := 0xFC

/-- The "CUEI" format identifier. -/
def cueiID : Nat := 0x43554549

/-- The ASCII bytes of "CUEI". -/
def cuei : List UInt8 := [0x43, 0x55, 0x45, 0x49]

/-- The pre-roll applied when `Cue.PreRollMs` is zero. -/
def defaultPreRollMs : Int := 4000

def hexDigit (n : Nat) : Char := if n < 10 then Char.ofNat (48 + n) else Char.ofNat (87 + n)

/-- The SCTE-35 name of a splice_command_type. -/
def commandName (t : UInt8) : String :=
  if t = cmdSpliceNull then "splice_null"
  else if t = cmdSpliceSchedule then "splice_schedule"
  else if t = cmdSpliceInsert then "splice_insert"
  else if t = cmdTimeSignal then "time_signal"
  else if t = cmdBandwidthReservation then "bandwidth_reservation"
  else if t = cmdPrivate then "private_command"
  else "reserved_0x" ++
    String.ofList [hexDigit (t.toNat / 16), hexDigit (t.toNat % 16)]

/-! ## Encoding -/

/-- Milliseconds to 90 kHz ticks: `uint64(ms) * 90` with 64-bit wrap-around. -/
def msToTicks (ms : Int) : Nat := ((ms * 90) % 2 ^ 64).toNat

/-- splice_time(): flag, reserved bits, 33-bit time; or the flag alone. -/
def appendSpliceTime (b : List UInt8) (specified : Bool) (pts : Nat) : List UInt8 :=
  if specified then
    let pts := pts % 2 ^ 33
    b ++ ((0xFE : UInt8) ||| byteOf (pts >>> 32)) :: beBytes 4 pts
  else
    b ++ [0x7F]

/-- break_duration(): auto_return, reserved bits, 33-bit duration. -/
def appendBreakDuration (b : List UInt8) (autoReturn : Bool) (d : Nat) : List UInt8 :=
  let d := d % 2 ^ 33
  let first := (0x7E : UInt8) ||| byteOf (d >>> 32)
  b ++ (if autoReturn then first ||| 0x80 else first) :: beBytes 4 d

/-- Whether a segmentation_type_id carries the sub-segment fields. -/
def hasSubSegments (t : UInt8) : Bool :=
  t ∈ ([0x30, 0x32, 0x34, 0x36, 0x38, 0x3A, 0x44, 0x46] : List UInt8)

/-- The body of a segmentation_descriptor without UPID. -/
def segmentationBody (eventID : UInt32) (typeID : UInt8) (dur : Nat)
    (hasDur : Bool) : List UInt8 :=
  cuei ++ beBytes 4 eventID.toNat ++ [0x7F] ++
    [if hasDur then 0xBF ||| 0x40 else 0xBF] ++
    (if hasDur then beBytes 5 (dur % 2 ^ 40) else []) ++
    [0x00, 0x00] ++ [typeID, 0, 0] ++
    (if hasSubSegments typeID then [0, 0] else [])

/-- Append a segmentation_descriptor: tag, length, body. -/
def appendSegmentationDescriptor (b : List UInt8) (eventID : UInt32)
    (typeID : UInt8) (dur : Nat) (hasDur : Bool) : List UInt8 :=
  let body := segmentationBody eventID typeID dur hasDur
  b ++ [0x02, byteOf body.length] ++ body

/-- Everything in front of the splice command: table id, section length,
protocol version, no encryption, pts_adjustment 0, cw_index 0, tier 0xFFF,
splice_command_length, splice_command_type. -/
def sectionHeader (secLen cl : Nat) (cmdType : UInt8) : List UInt8 :=
  [tableID, (0x30 : UInt8) ||| (byteOf (secLen >>> 8) &&& 0x0F), byteOf secLen,
    0x00, 0x00, 0x00, 0x00, 0x00, 0x00, 0x00,
    0xFF, (0xF0 : UInt8) ||| (byteOf (cl >>> 8) &&& 0x0F), byteOf cl, cmdType]

/-- Wrap a splice command and a descriptor loop in a section with its CRC. -/
def buildSection (cmdType : UInt8) (cmd desc : List UInt8) : List UInt8 :=
  let secLen := 11 + cmd.length + 2 + desc.length + 4
  appendCRC (sectionHeader secLen cmd.length cmdType ++ cmd ++
    [byteOf (desc.length >>> 8), byteOf desc.length] ++ desc)

/-- The flag byte of splice_insert. -/
def insertFlags (c : Cue) : UInt8 :=
  0x4F ||| (if c.outOfNetwork then 0x80 else 0) |||
    (if c.durationMs > 0 then 0x20 else 0) |||
    (if c.immediate then 0x10 else 0)

/-- The splice_insert() command of a cue. -/
def insertCommand (c : Cue) (pts : Nat) : List UInt8 :=
  let cmd := beBytes 4 c.eventID.toNat ++ [0x7F] ++ [insertFlags c]
  let cmd := if c.immediate then cmd else appendSpliceTime cmd true pts
  let cmd := if c.durationMs > 0 then
      appendBreakDuration cmd true (msToTicks c.durationMs) else cmd
  cmd ++ beBytes 2 c.uniqueProgramID.toNat ++ [c.availNum, c.availsExpected]

/-- The descriptor loop of a time_signal cue. -/
def signalDescriptors (c : Cue) : List UInt8 :=
  if c.segmentationTypeID ≠ 0 then
    appendSegmentationDescriptor [] c.eventID c.segmentationTypeID
      (msToTicks c.durationMs) (c.durationMs > 0)
  else []

/-- The errors of `Encode` and `Injector.Insert`. -/
inductive CueError
  | encodeKind (kind : String)
  | insertKind (kind : String)
  | negativeTime
  | noVideoPTS
  deriving DecidableEq

def CueError.message : CueError → String
  | .encodeKind kind => "scte35: unknown cue kind " ++ kind.quote
  | .insertKind kind => "scte35: unknown cue kind " ++ kind.quote ++
      " (want splice_insert, time_signal or splice_null)"
  | .negativeTime => "scte35: preRollMs and durationMs must be >= 0"
  | .noVideoPTS => "scte35: no video PTS seen yet; use an immediate cue or retry"

/-- The splice_info_section of a cue; `pts` is used when it is not immediate. -/
def encode (c : Cue) (pts : Nat) : Except CueError (List UInt8) :=
  match c.kind with
  | .spliceNull => .ok (buildSection cmdSpliceNull [] [])
  | .spliceInsert => .ok (buildSection cmdSpliceInsert (insertCommand c pts) [])
  | .timeSignal =>
    .ok (buildSection cmdTimeSignal
      (appendSpliceTime [] (!c.immediate) pts) (signalDescriptors c))
  | .other kind => .error (.encodeKind kind)

/-! ## Decoding -/

/-- The errors of `Parse`; a short read also says where it happened. -/
inductive ParseError
  | short
  | tableID
  | crc
  | encrypted
  | shortCommand
  | shortLoop
  | shortDescriptor (tag : UInt8)
  | shortSegmentation
  deriving DecidableEq

def ParseError.message : ParseError → String
  | .short => "scte35: section truncated"
  | .tableID => "scte35: table_id is not 0xFC"
  | .crc => "scte35: CRC-32 mismatch"
  | .encrypted => "scte35: encrypted section not supported"
  | .shortCommand => "scte35: section truncated (splice command)"
  | .shortLoop => "scte35: section truncated (descriptor loop)"
  | .shortDescriptor tag => "scte35: section truncated (descriptor 0x" ++
      String.ofList [hexDigit (tag.toNat / 16), hexDigit (tag.toNat % 16)] ++ ")"
  | .shortSegmentation => "scte35: section truncated (segmentation_descriptor)"

/-- The bounds-checked reader: the unread bytes and the latched error. -/
structure Reader where
  rest : List UInt8
  failed : Bool := false
  deriving DecidableEq

namespace Reader

/-- Read `n` bytes; `none` on a short read. -/
def take (n : Nat) (r : Reader) : Option (List UInt8) × Reader :=
  if r.failed ∨ r.rest.length < n then (none, { r with failed := true })
  else (some (r.rest.take n), { r with rest := r.rest.drop n })

def u8 (r : Reader) : UInt8 × Reader :=
  match r.take 1 with
  | (some v, r) => (v.getD 0 0, r)
  | (none, r) => (0, r)

def u16 (r : Reader) : Nat × Reader :=
  match r.take 2 with
  | (some v, r) => (beNat v, r)
  | (none, r) => (0, r)

def u32 (r : Reader) : Nat × Reader :=
  match r.take 4 with
  | (some v, r) => (beNat v, r)
  | (none, r) => (0, r)

/-- Five bytes whose low 33 bits are a value; the first byte has the flags. -/
def u33 (r : Reader) : (UInt8 × Nat) × Reader :=
  match r.take 5 with
  | (some v, r) => ((v.getD 0 0, (v.getD 0 0 &&& 1).toNat * 2 ^ 32 + beNat (v.drop 1)), r)
  | (none, r) => ((0, 0), r)

/-- splice_time(). -/
def spliceTime (r : Reader) : (Bool × Nat) × Reader :=
  if r.failed ∨ r.rest = [] then ((false, 0), { r with failed := true })
  else if r.rest.getD 0 0 &&& 0x80 = 0 then
    ((false, 0), { r with rest := r.rest.drop 1 })
  else
    let v := r.u33
    ((true, v.1.2), v.2)

end Reader

/-- The components of a component splice: tag, and a time unless immediate. -/
def skipComponents (immediate : Bool) : Nat → Reader → Reader
  | 0, r => r
  | n + 1, r =>
    let r := r.u8.2
    let r := if immediate then r else r.spliceTime.2
    skipComponents immediate n r

/-- The body of a splice_insert() that is not cancelled. -/
def parseInsertBody (info : Info) (r : Reader) : Info × Reader :=
  let f := r.u8
  let flags := f.1
  let r := f.2
  let program : Bool := flags &&& 0x40 ≠ 0
  let immediate : Bool := flags &&& 0x10 ≠ 0
  let info := { info with
    outOfNetwork := flags &&& 0x80 ≠ 0
    programSplice := program
    immediate := immediate }
  let time := if program ∧ ¬ immediate then r.spliceTime else ((false, 0), r)
  let info := { info with timeSpecified := time.1.1, pts := time.1.2 }
  let r := time.2
  let r := if program then r else
    let n := r.u8
    skipComponents immediate n.1.toNat n.2
  let dur := if flags &&& 0x20 ≠ 0 then r.u33 else ((0, 0), r)
  let info := { info with
    duration := dur.1.2
    hasDuration := flags &&& 0x20 ≠ 0
    autoReturn := dur.1.1 &&& 0x80 ≠ 0 }
  let program := dur.2.u16
  let num := program.2.u8
  let expected := num.2.u8
  ({ info with
      uniqueProgramID := program.1
      availNum := num.1
      availsExpected := expected.1 }, expected.2)

/-- The splice command, by `splice_command_type`. -/
def parseCommand (info : Info) (r : Reader) : Info × Reader :=
  if info.commandType = cmdSpliceInsert then
    let event := r.u32
    let cancel := event.2.u8
    let info := { info with
      eventID := event.1
      cancel := cancel.1 &&& 0x80 ≠ 0 }
    if info.cancel then (info, cancel.2) else parseInsertBody info cancel.2
  else if info.commandType = cmdTimeSignal then
    let time := r.spliceTime
    ({ info with timeSpecified := time.1.1, pts := time.1.2 }, time.2)
  else (info, r)

/-- A segmentation_descriptor that is not cancelled. -/
def parseSegmentationBody (s : Segmentation) (r : Reader) : Segmentation × Reader :=
  let f := r.u8
  let flags := f.1
  let r := f.2
  let r := if flags &&& 0x80 ≠ 0 then r else
    let n := r.u8
    (n.2.take (6 * n.1.toNat)).2
  let dur := if flags &&& 0x40 ≠ 0 then r.take 5 else (none, r)
  let upidType := dur.2.u8
  let upidLength := upidType.2.u8
  let upid := upidLength.2.take upidLength.1.toNat
  let typeID := upid.2.u8
  let num := typeID.2.u8
  let expected := num.2.u8
  let s := { s with
    hasDuration := flags &&& 0x40 ≠ 0
    duration := beNat (dur.1.getD [])
    upidType := upidType.1
    upid := upid.1.getD []
    typeID := typeID.1
    segmentNum := num.1
    segmentsExpected := expected.1 }
  let r := expected.2
  if r.failed = false ∧ hasSubSegments s.typeID ∧ 2 ≤ r.rest.length then
    let sub := r.u8
    let subExpected := sub.2.u8
    ({ s with subSegmentNum := sub.1, subSegmentsExpected := subExpected.1 },
      subExpected.2)
  else (s, r)

/-- A segmentation_descriptor body after its identifier. -/
def parseSegmentation (b : List UInt8) : Segmentation × Option ParseError :=
  let event := Reader.u32 { rest := b }
  let cancel := event.2.u8
  let s : Segmentation := { eventID := event.1, cancel := cancel.1 &&& 0x80 ≠ 0 }
  let done := if s.cancel then (s, cancel.2) else parseSegmentationBody s cancel.2
  (done.1, if done.2.failed then some .shortSegmentation else none)

/-- The descriptor loop.  Every round consumes two bytes or more, so the length
of the loop bounds the rounds. -/
def parseDescriptors : Nat → List UInt8 → Info → Info × Option ParseError
  | 0, _, info => (info, none)
  | rounds + 1, loop, info =>
    if loop.length < 2 then (info, none)
    else
      let tag := loop.getD 0 0
      let l := (loop.getD 1 0).toNat
      if loop.length < 2 + l then (info, some (.shortDescriptor tag))
      else
        let body := (loop.drop 2).take l
        let loop := loop.drop (2 + l)
        let identifier := if 4 ≤ l then beNat (body.take 4) else 0
        let info := { info with
          descriptors := info.descriptors ++ [⟨tag, identifier, l⟩] }
        if tag = 0x02 ∧ identifier = cueiID then
          match parseSegmentation (body.drop 4) with
          | (_, some err) => (info, some err)
          | (sd, none) =>
            parseDescriptors rounds loop
              { info with segmentations := info.segmentations ++ [sd] }
        else parseDescriptors rounds loop info

/-- The splice command and the descriptor loop, `cmdLen` being the declared
`splice_command_length`. -/
def parseBody (info : Info) (r : Reader) (cmdLen : Nat) : Info × Option ParseError :=
  let cmd := parseCommand info r
  let info := cmd.1
  if cmd.2.failed then (info, some .shortCommand)
  else
    let info := if info.timeSpecified then
        { info with pts := (info.pts + info.ptsAdjustment) % 2 ^ 33 } else info
    -- 0xFFF marks an unspecified length: trust the parsed one then
    let r := if cmdLen ≠ 0xFFF then (r.take cmdLen).2 else cmd.2
    let loopLen := r.u16
    let loop := loopLen.2.take loopLen.1
    if loop.2.failed then (info, some .shortLoop)
    else
      let bytes := loop.1.getD []
      parseDescriptors bytes.length bytes info

/-- Decode a complete, CRC-checked section: the header behind table id, lengths
and protocol version, then command and descriptor loop. -/
def parseHeader (sec : List UInt8) : Info × Option ParseError :=
  let r : Reader := { rest := (sec.take (sec.length - 4)).drop 4 }
  let adj := r.u33
  let cw := adj.2.u8
  let tc := cw.2.take 3
  let tcBytes := tc.1.getD []
  let cmdLen := be16 (tcBytes.getD 1 0 &&& 0x0F) (tcBytes.getD 2 0)
  let cmdType := tc.2.u8
  let info : Info := {
    sapType := (sec.getD 1 0 >>> 4 &&& 0x03).toNat
    ptsAdjustment := adj.1.2
    tier := (tcBytes.getD 0 0).toNat * 16 + (tcBytes.getD 1 0 >>> 4).toNat
    commandType := cmdType.1
    command := commandName cmdType.1 }
  if adj.1.1 &&& 0x80 ≠ 0 then (info, some .encrypted)
  else parseBody info cmdType.2 cmdLen

/-- The total length a section declares in its first three bytes. -/
def declaredLength (b : List UInt8) : Nat := 3 + be16 (b.getD 1 0 &&& 0x0F) (b.getD 2 0)

variable {sec : List UInt8}

lemma declaredLength_append (hsec : 3 ≤ sec.length) (tail : List UInt8) :
    declaredLength (sec ++ tail) = declaredLength sec := by
  rw [declaredLength, List.getD_append _ _ _ _ (by omega), List.getD_append _ _ _ _ (by omega)]
  rfl

/-- A byte string that is as long as it declares to be. -/
def WellSized (sec : List UInt8) : Prop := sec.length = declaredLength sec

lemma WellSized.three_le (h : WellSized sec) : 3 ≤ sec.length := by
  rw [WellSized, declaredLength] at h
  omega

/-- A splice_info_section as it is sent: the table id, and as many bytes as it
declares. -/
structure SentSection (sec : List UInt8) : Prop where
  table : sec.getD 0 0 = tableID
  size : WellSized sec

lemma SentSection.first_ne (h : SentSection sec) : sec.getD 0 0 ≠ 0xFF := by
  rw [h.table]
  decide

/-- Decode one splice_info_section; bytes behind it are ignored. -/
def parse (bytes : List UInt8) : Info × Option ParseError :=
  if bytes.length < 3 then ({}, some .short)
  else if bytes.getD 0 0 ≠ tableID then ({}, some .tableID)
  else if declaredLength bytes < 20 ∨ bytes.length < declaredLength bytes then
    ({}, some .short)
  else
    let sec := bytes.take (declaredLength bytes)
    if crc32 sec ≠ 0 then ({}, some .crc) else parseHeader sec

end StreamHub.Scte35
