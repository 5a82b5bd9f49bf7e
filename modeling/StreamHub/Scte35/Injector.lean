import StreamHub.Scte35.Packetize
import StreamHub.Scte35.SectionRoundTrip

/-!
# The injector

`Injector` of `internal/scte35/injector.go`: `Insert` queues the section of a
cue, `SetHeartbeat` sets the splice_null interval, and `Process` scans one
datagram (following PAT and PMT, rewriting PMTs, tracking PCR and PTS) and
appends the datagrams that carry the queued sections.

A `PendingSection` carries the proof that its bytes are the encoding of its
cue, a splice_null for a heartbeat, so a malformed section cannot be queued.
The counters `cuesSent`, `heartbeatsSent` and `pmtRewritten` are unbounded
here.
-/

namespace StreamHub.Scte35

open Library.Bytes Library.Blocks

/-- The largest number of packets in an emitted cue datagram. -/
def packetsPerDatagram : Nat := 7

/-- The cue a heartbeat encodes. -/
def heartbeatCue : Cue := { kind := .spliceNull }

/-- The section of a heartbeat. -/
def heartbeatSection : List UInt8 := buildSection cmdSpliceNull [] []

/-- A section waiting for the next `Process`; no cue for a heartbeat. -/
structure PendingSection where
  sec : List UInt8
  cue : Option Cue
  pts : Nat
  encoded : encode (cue.getD heartbeatCue) pts = .ok sec

def PendingSection.heartbeat : PendingSection :=
  { sec := heartbeatSection, cue := none, pts := 0, encoded := rfl }

structure Injector where
  pid : Nat
  cc : UInt8 := 0
  pmtPID : Nat := 0
  havePMT : Bool := false
  videoPID : Nat := 0
  pcrPID : Nat := 0
  haveES : Bool := false
  havePTS : Bool := false
  lastPTS : Nat := 0
  havePCR : Bool := false
  lastPCR : Nat := 0
  /-- heartbeat interval in 90 kHz ticks; 0 = off -/
  hbTicks : Nat := 0
  hbArmed : Bool := false
  hbLast : Nat := 0
  pending : List PendingSection := []
  cuesSent : Nat := 0
  heartbeatsSent : Nat := 0
  pmtRewritten : Nat := 0
  lastCue : Option Cue := none
  lastCuePTS : Nat := 0

/-- An injector that carries SCTE-35 on `pid`, with the heartbeat off. -/
def newInjector (pid : Nat) : Injector := { pid := pid % 2 ^ 13 }

namespace Injector

/-- A splice_null every `d` nanoseconds of stream time; `d ≤ 0` disables it. -/
def setHeartbeat (i : Injector) (d : Int) : Injector :=
  { i with
    hbTicks := if d ≤ 0 then 0 else max (d.toNat / 1000 * 9 / 100) 1
    hbArmed := false }

/-- The splice time of a cue: the last video PTS plus the pre-roll of a
scheduled cue, the last video PTS otherwise. -/
def splicePTS (i : Injector) (c : Cue) : Nat :=
  if c.kind ≠ .spliceNull ∧ c.immediate = false then
    let pre := if c.preRollMs = 0 then defaultPreRollMs else c.preRollMs
    (i.lastPTS + msToTicks pre) % 2 ^ 33
  else i.lastPTS

/-- Queue a cue for the next `Process`. -/
def insert (i : Injector) (c : Cue) : Except CueError Nat × Injector :=
  match c.kind with
  | .other kind => (.error (.insertKind kind), i)
  | _ =>
    if c.preRollMs < 0 ∨ c.durationMs < 0 then (.error .negativeTime, i)
    else if c.kind ≠ .spliceNull ∧ c.immediate = false ∧ i.havePTS = false then
      (.error .noVideoPTS, i)
    else
      match h : encode c (i.splicePTS c) with
      | .error err => (.error err, i)
      | .ok sec =>
        (.ok (i.splicePTS c),
          { i with pending := i.pending ++ [⟨sec, some c, i.splicePTS c, h⟩] })

/-! ## Scanning a datagram -/

def onPAT (i : Injector) (p : Packet) : Injector :=
  match (sectionOf p 0x00).bind parsePAT with
  | none => i
  | some v =>
    if i.havePMT = false ∨ v ≠ i.pmtPID then
      -- the video and PCR PIDs are learned again from the new PMT
      { i with pmtPID := v, havePMT := true, haveES := false }
    else i

/-- Learn the video and PCR PIDs; the rewritten packet, if there is one. -/
def onPMT (i : Injector) (p : Packet) : Injector × Option Packet :=
  match rewritePMT p i.pid with
  | none => (i, none)
  | some (pi, np) =>
    let i := if i.haveES = false ∨ pi.videoPID ≠ i.videoPID ∨ pi.pcrPID ≠ i.pcrPID then
        { i with
          videoPID := pi.videoPID
          pcrPID := pi.pcrPID
          haveES := true
          havePTS := false
          havePCR := false
          hbArmed := false }
      else i
    ({ i with pmtRewritten := if np.isSome then i.pmtRewritten + 1 else i.pmtRewritten },
      np)

/-- `(a - b) & mask33` of unsigned 64-bit numbers. -/
def sub33 (a b : Nat) : Nat := (a + 2 ^ 64 - b) % 2 ^ 64 % 2 ^ 33

/-- Keep the latest video PTS: small backward steps are ignored, a jump of more
than ten seconds is followed. -/
def onPTS (i : Injector) (v : Nat) : Injector :=
  if i.havePTS = false then { i with lastPTS := v, havePTS := true }
  else
    let d := sub33 v i.lastPTS
    if d < 2 ^ 32 ∨ 2 ^ 33 - d > 10 * 90000 then { i with lastPTS := v } else i

/-- Track the PCR and queue a heartbeat when its interval has elapsed. -/
def onPCR (i : Injector) (v : Nat) : Injector :=
  let i := { i with lastPCR := v, havePCR := true }
  if i.hbTicks = 0 then i
  else if i.hbArmed = false then { i with hbArmed := true, hbLast := v }
  else if sub33 v i.hbLast ≥ i.hbTicks then
    { i with hbLast := v, pending := i.pending ++ [.heartbeat] }
  else i

/-- The PCR of a packet on the PCR PID. -/
def trackPCR (i : Injector) (p : Packet) : Injector :=
  if pktPID p = i.pcrPID then
    match pcrBase p with
    | none => i
    | some v => i.onPCR v
  else i

/-- The PTS of a PES packet that starts in a packet on the video PID. -/
def trackPTS (i : Injector) (p : Packet) : Injector :=
  if pktPID p = i.videoPID ∧ pktPUSI p then
    match (payloadOffset p).bind fun off => pesPTS (p.bytes.drop off) with
    | none => i
    | some v => i.onPTS v
  else i

/-- The program tables in a packet; a PMT packet may be replaced. -/
def followTables (i : Injector) (p : Packet) : Injector × Packet :=
  if pktPID p = 0 then (i.onPAT p, p)
  else if i.havePMT ∧ pktPID p = i.pmtPID then
    let r := i.onPMT p
    (r.1, r.2.getD p)
  else (i, p)

/-- One packet of a datagram: the state behind it and the packet to send. -/
def processPacket (i : Injector) (p : Packet) : Injector × Packet :=
  if usable p then
    let r := i.followTables p
    (if r.1.haveES then (r.1.trackPCR p).trackPTS p else r.1, r.2)
  else (i, p)

def processPackets : Injector → List Packet → Injector × List Packet
  | i, [] => (i, [])
  | i, p :: rest =>
    let head := i.processPacket p
    let tail := processPackets head.1 rest
    (tail.1, head.2 :: tail.2)

/-! ## Sending the queue -/

/-- Count a section that has been packetized. -/
def countSent (i : Injector) (ps : PendingSection) : Injector :=
  match ps.cue with
  | some c => { i with cuesSent := i.cuesSent + 1, lastCue := some c, lastCuePTS := ps.pts }
  | none => { i with heartbeatsSent := i.heartbeatsSent + 1 }

/-- Packetize sections behind `buf`. -/
def packPending : Injector → List UInt8 → List PendingSection → Injector × List UInt8
  | i, buf, [] => (i, buf)
  | i, buf, ps :: rest =>
    let packed := packetize buf ps.sec i.pid i.cc
    packPending (countSent { i with cc := packed.2 } ps) packed.1 rest

/-- Packetize every pending section and split the packets into datagrams. -/
def flush (i : Injector) : Injector × List (List UInt8) :=
  let packed := packPending i [] i.pending
  ({ packed.1 with pending := [] },
    allBlocks (packetsPerDatagram * packetSize) packed.2)

/-- One datagram: the datagrams to send instead. -/
def process (i : Injector) (dgram : List UInt8) : Injector × List (List UInt8) :=
  let scanned := i.processPackets (packetsOf dgram)
  let out := streamBytes scanned.2 ++ leftover packetSize dgram
  if scanned.1.pending = [] then (scanned.1, [out])
  else
    let flushed := scanned.1.flush
    (flushed.1, out :: flushed.2)

end Injector

end StreamHub.Scte35
