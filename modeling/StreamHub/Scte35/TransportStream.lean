import StreamHub.Library.Blocks
import StreamHub.Scte35.Section

/-!
# Transport stream packets and program tables

The packet walkers of `internal/scte35/ts.go`: header fields, payload offset,
PCR and PTS, program tables that fit one packet, the PMT rewriter and the
packetizer.

A `Packet` is 188 bytes by construction.  A loop that walks an index over a
slice is a function on the unread suffix of the slice; a field of a packet is
read with `Packet.byte`.
-/

namespace StreamHub.Scte35

open Library.Bytes Library.Blocks List

def packetSize : Nat := 188
def syncByte : UInt8 := 0x47

/-- The PMT stream_type of SCTE-35 splice sections. -/
def streamTypeSCTE35 : UInt8 := 0x86
def stH264 : UInt8 := 0x1b
def stH265 : UInt8 := 0x24

/-! ## Packets -/

/-- A transport packet: exactly 188 bytes. -/
structure Packet where
  bytes : List UInt8
  size : bytes.length = packetSize
  deriving DecidableEq

namespace Packet

def byte (p : Packet) (i : Nat) : UInt8 := p.bytes.getD i 0

/-- `p[start:stop]`. -/
def slice (p : Packet) (start stop : Nat) : List UInt8 := (p.bytes.take stop).drop start

/-- The packet that starts with `b` and ends with 0xFF stuffing. -/
def pad (b : List UInt8) : Packet where
  bytes := b.take packetSize ++ replicate (packetSize - b.length) 0xFF
  size := by
    simp only [length_append, length_take, length_replicate]
    omega

lemma ext_bytes {p q : Packet} (h : p.bytes = q.bytes) : p = q := by
  cases p
  cases q
  simpa using h

lemma pad_bytes {b : List UInt8} (hb : b.length ≤ packetSize) :
    (pad b).bytes = b ++ replicate (packetSize - b.length) 0xFF := by
  simp only [pad, take_of_length_le hb]

lemma byte_pad {b : List UInt8} {i : Nat} (hi : i < b.length)
    (hb : b.length ≤ packetSize) : (pad b).byte i = b.getD i 0 := by
  rw [byte, pad_bytes hb, getD_append _ _ _ _ hi]

end Packet

/-- The packets of a stream, one after the other. -/
def streamBytes (ps : List Packet) : List UInt8 := (ps.map Packet.bytes).flatten

/-- The whole packets at the front of a byte string. -/
def packetsOf (b : List UInt8) : List Packet :=
  (wholeBlocks packetSize b).attach.map fun block => ⟨block.1, length_of_mem_wholeBlocks block.2⟩

lemma packetsOf_bytes (b : List UInt8) :
    (packetsOf b).map Packet.bytes = wholeBlocks packetSize b := by
  simp [packetsOf, Function.comp_def]

/-- Cutting bytes into packets loses nothing but a part of a packet at the end,
which is left over. -/
lemma streamBytes_packetsOf (b : List UInt8) :
    streamBytes (packetsOf b) ++ leftover packetSize b = b := by
  rw [streamBytes, packetsOf_bytes, wholeBlocks_append_leftover]

lemma map_bytes_injective : Function.Injective (map Packet.bytes) :=
  map_injective_iff.mpr fun _ _ h => Packet.ext_bytes h

@[simp] lemma packetsOf_streamBytes (ps : List Packet) : packetsOf (streamBytes ps) = ps := by
  apply map_bytes_injective
  rw [packetsOf_bytes, streamBytes, wholeBlocks_flatten (by decide)]
  intro part hpart
  obtain ⟨p, -, rfl⟩ := mem_map.mp hpart
  exact p.size

@[simp] lemma streamBytes_nil : streamBytes [] = [] := rfl

@[simp] lemma streamBytes_cons (p : Packet) (ps : List Packet) :
    streamBytes (p :: ps) = p.bytes ++ streamBytes ps := rfl

@[simp] lemma streamBytes_append (ps qs : List Packet) :
    streamBytes (ps ++ qs) = streamBytes ps ++ streamBytes qs := by simp [streamBytes]

lemma streamBytes_length (ps : List Packet) : (streamBytes ps).length = ps.length * packetSize := by
  induction ps with
  | nil => simp
  | cons p ps ih =>
    rw [streamBytes_cons, length_append, ih, p.size, length_cons]
    ring

/-! ## Header fields -/

def pktPID (p : Packet) : Nat := be16 (p.byte 1 &&& 0x1F) (p.byte 2)

def pktPUSI (p : Packet) : Bool := p.byte 1 &&& 0x40 ≠ 0

/-- In sync and without transport_error: the packets that are looked at. -/
def usable (p : Packet) : Bool := p.byte 0 = syncByte ∧ p.byte 1 &&& 0x80 = 0

/-- The offset of the payload, if the packet carries a (valid) one. -/
def payloadOffset (p : Packet) : Option Nat :=
  let afc := p.byte 3 >>> 4 &&& 0x03
  if afc &&& 0x01 = 0 then none
  else
    let off := if afc &&& 0x02 ≠ 0 then 4 + (1 + (p.byte 4).toNat) else 4
    if packetSize ≤ off then none else some off

/-- The 33-bit PCR base of a packet whose adaptation field carries a PCR. -/
def pcrBase (p : Packet) : Option Nat :=
  if p.byte 3 &&& 0x20 = 0 ∨ p.byte 4 < 7 ∨ p.byte 5 &&& 0x10 = 0 then none
  else some ((p.byte 6).toNat <<< 25 ||| (p.byte 7).toNat <<< 17 |||
    (p.byte 8).toNat <<< 9 ||| (p.byte 9).toNat <<< 1 ||| (p.byte 10 >>> 7).toNat)

/-- The PTS of a PES packet header at the start of payload `b`. -/
def pesPTS (b : List UInt8) : Option Nat :=
  if b.length < 14 ∨ b.getD 0 0 ≠ 0 ∨ b.getD 1 0 ≠ 0 ∨ b.getD 2 0 ≠ 1 then none
  else if b.getD 6 0 &&& 0xC0 ≠ 0x80 ∨ b.getD 7 0 &&& 0x80 = 0 then none
  else some ((b.getD 9 0 >>> 1 &&& 0x07).toNat <<< 30 ||| (b.getD 10 0).toNat <<< 22 |||
    (b.getD 11 0 >>> 1).toNat <<< 15 ||| (b.getD 12 0).toNat <<< 7 |||
    (b.getD 13 0 >>> 1).toNat)

/-! ## Program tables -/

/-- The bounds of a section of table `tid` that starts in this packet and ends
inside it. -/
def singleSection (p : Packet) (tid : UInt8) : Option (Nat × Nat) :=
  if pktPUSI p then
    match payloadOffset p with
    | none => none
    | some off =>
      let start := off + 1 + (p.byte off).toNat
      if start + 3 > packetSize ∨ p.byte start ≠ tid then none
      else
        let stop := start + 3 + be16 (p.byte (start + 1) &&& 0x0F) (p.byte (start + 2))
        if stop > packetSize then none else some (start, stop)
  else none

/-- The bytes of such a section. -/
def sectionOf (p : Packet) (tid : UInt8) : Option (List UInt8) :=
  (singleSection p tid).map fun bounds => p.slice bounds.1 bounds.2

/-- The PMT PID of the first program in a PAT section. -/
def parsePAT (sec : List UInt8) : Option Nat :=
  if sec.length < 12 ∨ sec.getD 0 0 ≠ 0x00 ∨ crc32 sec ≠ 0 then none
  else (wholeBlocks 4 ((sec.take (sec.length - 4)).drop 8)).findSome? fun e =>
    if be16 (e.getD 0 0) (e.getD 1 0) ≠ 0 then
      some (be16 (e.getD 2 0 &&& 0x1F) (e.getD 3 0))
    else none

/-- One elementary-stream loop entry of a PMT. -/
structure EsEntry where
  streamType : UInt8
  pid : Nat
  deriving DecidableEq

/-- What the injector needs from a PMT section. -/
structure PmtInfo where
  pcrPID : Nat
  /-- 0 = none -/
  videoPID : Nat
  streams : List EsEntry
  piLen : Nat
  esStart : Nat
  esEnd : Nat
  hasCUEI : Bool
  deriving DecidableEq

/-- The program_info loop: whether it has a CUEI registration descriptor.
Every round consumes two bytes or more. -/
def walkDescriptors : Nat → List UInt8 → Bool → Option Bool
  | 0, _, has => some has
  | rounds + 1, d, has =>
    if d.length < 2 then some has
    else
      let l := (d.getD 1 0).toNat
      if d.length < 2 + l then none
      else
        let found : Bool := d.getD 0 0 = 0x05 ∧ 4 ≤ l ∧ (d.drop 2).take 4 = cuei
        walkDescriptors rounds (d.drop (2 + l)) (has || found)

/-- The elementary-stream loop; it must end exactly at the end of the slice. -/
def walkStreams : Nat → List UInt8 → Option (List EsEntry)
  | 0, es => if es = [] then some [] else none
  | rounds + 1, es =>
    if es.length < 5 then (if es = [] then some [] else none)
    else
      let e : EsEntry := ⟨es.getD 0 0, be16 (es.getD 1 0 &&& 0x1F) (es.getD 2 0)⟩
      let n := 5 + be16 (es.getD 3 0 &&& 0x0F) (es.getD 4 0)
      if es.length < n then none
      else (walkStreams rounds (es.drop n)).map (e :: ·)

/-- The PID of the first H.264 or HEVC stream; 0 = none. -/
def videoPIDOf (streams : List EsEntry) : Nat :=
  streams.foldl (fun v e =>
    if v = 0 ∧ (e.streamType = stH264 ∨ e.streamType = stH265) then e.pid else v) 0

/-- Validate (CRC included) and walk a PMT section. -/
def parsePMT (sec : List UInt8) : Option PmtInfo :=
  if sec.length < 16 ∨ sec.getD 0 0 ≠ 0x02 ∨ crc32 sec ≠ 0 then none
  else
    let piLen := be16 (sec.getD 10 0 &&& 0x0F) (sec.getD 11 0)
    let esStart := 12 + piLen
    let esEnd := sec.length - 4
    if esStart > esEnd then none
    else
      let d := (sec.take esStart).drop 12
      let es := (sec.take esEnd).drop esStart
      match walkDescriptors d.length d false with
      | none => none
      | some has =>
        (walkStreams es.length es).map fun streams =>
          { pcrPID := be16 (sec.getD 8 0 &&& 0x1F) (sec.getD 9 0)
            videoPID := videoPIDOf streams
            streams := streams
            piLen := piLen
            esStart := esStart
            esEnd := esEnd
            hasCUEI := has }

/-! ## Rewriting a PMT -/

/-- The registration descriptor of format "CUEI". -/
def cueiDescriptor : List UInt8 := [0x05, 0x04] ++ cuei

/-- The elementary-stream entry that announces SCTE-35 on `pid`. -/
def scteEntry (pid : Nat) : List UInt8 :=
  [streamTypeSCTE35, (0xE0 : UInt8) ||| (byteOf (pid >>> 8) &&& 0x1F), byteOf pid,
    0xF0, 0x06] ++ cueiDescriptor

/-- The section that announces `pid` as well: CUEI registration in program_info
and one more elementary stream, the next version_number, fresh lengths and CRC. -/
def rewriteSection (sec : List UInt8) (pi : PmtInfo) (pid : Nat) : List UInt8 :=
  let desc := (sec.take pi.esStart).drop 12
  let added := if pi.hasCUEI then [] else cueiDescriptor
  let piLen := pi.piLen + added.length
  let es := (sec.take pi.esEnd).drop pi.esStart
  let body := desc ++ added ++ es ++ scteEntry pid
  let secLen := 12 + body.length - 3 + 4
  let version := (sec.getD 5 0 >>> 1 + 1) &&& 0x1F
  appendCRC ([sec.getD 0 0,
    (sec.getD 1 0 &&& (0xF0 : UInt8)) ||| (byteOf (secLen >>> 8) &&& 0x0F), byteOf secLen,
    sec.getD 3 0, sec.getD 4 0, (sec.getD 5 0 &&& (0xC1 : UInt8)) ||| version <<< 1,
    sec.getD 6 0, sec.getD 7 0, sec.getD 8 0, sec.getD 9 0,
    (sec.getD 10 0 &&& (0xF0 : UInt8)) ||| (byteOf (piLen >>> 8) &&& 0x0F),
    byteOf piLen] ++ body)

/-- The bytes in front of the rewritten section's pointer_field: the packet
header, and the adaptation field if it carries more than stuffing. -/
def rewriteHeader (p : Packet) (off : Nat) : List UInt8 :=
  if off > 5 ∧ p.byte 5 ≠ 0 then p.bytes.take off
  else p.bytes.take 3 ++ [(p.byte 3 &&& 0xCF) ||| 0x10]

/-- The parsed PMT of a packet with a valid single-packet PMT section, and the
packet that announces `pid` as well; no packet when `p` must pass unchanged:
`pid` is announced already, foreign data follows the section, or the result
does not fit. -/
def rewritePMT (p : Packet) (pid : Nat) : Option (PmtInfo × Option Packet) :=
  match singleSection p 0x02 with
  | none => none
  | some (start, stop) =>
    let sec := p.slice start stop
    match parsePMT sec with
    | none => none
    | some pi =>
      if pi.streams.any (fun e => e.pid = pid) then some (pi, none)
      else if (p.bytes.drop stop).any (fun b => b ≠ 0xFF) then some (pi, none)
      else
        let ns := rewriteSection sec pi pid
        let front := rewriteHeader p ((payloadOffset p).getD 0)
        if front.length + 1 + ns.length > packetSize then some (pi, none)
        else some (pi, some (Packet.pad (front ++ [0x00] ++ ns)))

/-! ## Packetizing a section -/

/-- The header of a payload-only packet. -/
def packetHeader (pid : Nat) (first : Bool) (cc : UInt8) : List UInt8 :=
  [syncByte, (byteOf (pid >>> 8) &&& 0x1F) ||| (if first then 0x40 else 0), byteOf pid,
    (0x10 : UInt8) ||| (cc &&& 0x0F)]

/-- The next 4-bit continuity counter. -/
def nextCC (cc : UInt8) : UInt8 := (cc + 1) &&& 0x0F

/-- The payload-only packet of one block. -/
def blockPacket (pid : Nat) (first : Bool) (cc : UInt8) (block : List UInt8) : Packet :=
  Packet.pad (packetHeader pid first cc ++ block)

/-- One packet a block, the first one with payload_unit_start. -/
def packetizeBlocks (pid : Nat) : Bool → UInt8 → List (List UInt8) → List Packet × UInt8
  | _, cc, [] => ([], cc)
  | first, cc, block :: rest =>
    let tail := packetizeBlocks pid false (nextCC cc) rest
    (blockPacket pid first cc block :: tail.1, tail.2)

/-- The packets of a section and the counter behind them: pointer_field 0 and
the section, cut into payloads of 184 bytes. -/
def sectionPackets (sec : List UInt8) (pid : Nat) (cc : UInt8) : List Packet × UInt8 :=
  packetizeBlocks pid true cc (allBlocks (packetSize - 4) (0x00 :: sec))

/-- Append the packets that carry a section to `dst`. -/
def packetize (dst sec : List UInt8) (pid : Nat) (cc : UInt8) : List UInt8 × UInt8 :=
  let sent := sectionPackets sec pid cc
  (dst ++ streamBytes sent.1, sent.2)

end StreamHub.Scte35
