import StreamHub.Scte35.Packetize

/-!
# ExtractSections

The two-pass reader of `internal/scte35/ts.go`.  Pass 1 follows the first valid
PAT to its PMT packets and collects the PIDs announced with stream_type 0x86;
pass 2 reassembles the sections of these PIDs, each with its own buffer, active
flag and continuity counter.

A decoded section is an `Outcome`; the returned sections and the joined error
are the two halves of the outcomes.  The last part cuts pass 2 down to one PID:
`reassemble_filter` says that the outcomes of a PID depend on its own packets
only.
-/

namespace StreamHub.Scte35

open Library.Bytes Library.Blocks List

/-! ## Synchronisation -/

/-- The first offset at which two consecutive sync bytes line up; 0 if none. -/
def syncOffset (ts : List UInt8) : Nat :=
  ((range packetSize).find? fun o =>
    o < ts.length ∧ ts.getD o 0 = syncByte ∧
      (ts.length ≤ o + packetSize ∨ ts.getD (o + packetSize) 0 = syncByte)).getD 0

/-- The packets of a stream that are looked at. -/
def usablePackets (ts : List UInt8) : List Packet :=
  (packetsOf (ts.drop (syncOffset ts))).filter usable

/-! ## Pass 1 -/

/-- The PMT PID a packet names, if it carries a valid PAT. -/
def patOf (p : Packet) : Option Nat :=
  if pktPID p = 0 then (sectionOf p 0x00).bind parsePAT else none

/-- The PMT a packet carries, if it is a valid one on the PMT PID. -/
def pmtOf (pmtPID : Nat) (p : Packet) : Option PmtInfo :=
  if pktPID p = pmtPID then (sectionOf p 0x02).bind parsePMT else none

/-- Whether one of the PMTs announces SCTE-35 on `pid`. -/
def announced (pmts : List PmtInfo) (pid : Nat) : Bool :=
  pmts.any fun pi => pi.streams.any fun e => e.streamType = streamTypeSCTE35 ∧ e.pid = pid

/-! ## Pass 2 -/

/-- The reassembly state of one PID; no counter before its first packet. -/
structure Asm where
  buf : List UInt8 := []
  active : Bool := false
  cc : Option UInt8 := none
  deriving DecidableEq

/-- A section that was decoded, successfully or not. -/
structure Outcome where
  pid : Nat
  result : Info × Option ParseError
  deriving DecidableEq

/-- Drop what was collected. -/
def Asm.reset (a : Asm) : Asm := { a with buf := [], active := false }

/-- Decode the complete sections in the buffer.  Every round consumes three
bytes or more; a partial section waits for its continuation packets. -/
def emitLoop (pid : Nat) : Nat → Asm → Asm × List Outcome
  | 0, a => (a.reset, [])
  | rounds + 1, a =>
    if a.buf = [] ∨ a.buf.getD 0 0 = 0xFF then (a.reset, [])
    else if a.buf.length < 3 then (a, [])
    else
      let total := declaredLength a.buf
      if a.buf.length < total then (a, [])
      else
        let tail := emitLoop pid rounds { a with buf := a.buf.drop total }
        (tail.1, ⟨pid, parse (a.buf.take total)⟩ :: tail.2)

def emit (pid : Nat) (a : Asm) : Asm × List Outcome := emitLoop pid a.buf.length a

/-- The continuity check: a gap drops the partial section. -/
def Asm.resync (a : Asm) (cc : UInt8) : Asm :=
  let a := match a.cc with
    | none => a
    | some last => if cc ≠ nextCC last then a.reset else a
  { a with cc := some cc }

/-- One packet of an announced PID. -/
def asmPacket (pid : Nat) (a : Asm) (p : Packet) (off : Nat) : Asm × List Outcome :=
  let a := a.resync (pktCC p)
  let pl := p.bytes.drop off
  if pktPUSI p then
    let ptr := (pl.getD 0 0).toNat
    if 1 + ptr > pl.length then (a.reset, [])
    else
      let ended := if a.active then
          emit pid { a with buf := a.buf ++ (pl.take (1 + ptr)).drop 1 }
        else (a, [])
      let opened := emit pid { ended.1 with buf := pl.drop (1 + ptr), active := true }
      (opened.1, ended.2 ++ opened.2)
  else if a.active then emit pid { a with buf := a.buf ++ pl }
  else (a, [])

/-- A packet without payload is ignored, its counter included. -/
def asmStep (pid : Nat) (a : Asm) (p : Packet) : Asm × List Outcome :=
  match payloadOffset p with
  | none => (a, [])
  | some off => asmPacket pid a p off

/-- Pass 2 over the packets of the stream. -/
def reassemble (scte : Nat → Bool) : (Nat → Asm) → List Packet → List Outcome
  | _, [] => []
  | state, p :: rest =>
    if scte (pktPID p) then
      let r := asmStep (pktPID p) (state (pktPID p)) p
      r.2 ++ reassemble scte (Function.update state (pktPID p) r.1) rest
    else reassemble scte state rest

/-! ## The result -/

inductive ExtractError
  | noPMT
  | sections (errs : List (Nat × ParseError))
  deriving DecidableEq

/-- The section of a successful outcome, with the PID it was found on. -/
def Outcome.info (o : Outcome) : Option Info :=
  match o.result with
  | (info, none) => some { info with pid := o.pid }
  | (_, some _) => none

def Outcome.err (o : Outcome) : Option (Nat × ParseError) :=
  o.result.2.map fun err => (o.pid, err)

/-- `errors.Join`: no error when there is nothing to join. -/
def joinErrors (errs : List (Nat × ParseError)) : Option ExtractError :=
  if errs = [] then none else some (.sections errs)

/-- Decode every SCTE-35 section of a transport stream. -/
def extractSections (ts : List UInt8) : List Info × Option ExtractError :=
  let pkts := usablePackets ts
  match pkts.findSome? patOf with
  | none => ([], some .noPMT)
  | some pmtPID =>
    let pmts := pkts.filterMap (pmtOf pmtPID)
    if pmts = [] then ([], some .noPMT)
    else
      let outcomes := reassemble (announced pmts) (fun _ => {}) pkts
      (outcomes.filterMap Outcome.info, joinErrors (outcomes.filterMap Outcome.err))

/-! ## One PID of pass 2 -/

/-- Pass 2 on the packets of one PID: the state behind them and the outcomes. -/
def asmRun (pid : Nat) : Asm → List Packet → Asm × List Outcome
  | a, [] => (a, [])
  | a, p :: rest =>
    let head := asmStep pid a p
    let tail := asmRun pid head.1 rest
    (tail.1, head.2 ++ tail.2)

lemma asmRun_append (pid : Nat) (a : Asm) (ps qs : List Packet) : asmRun pid a (ps ++ qs) =
      ((asmRun pid (asmRun pid a ps).1 qs).1,
        (asmRun pid a ps).2 ++ (asmRun pid (asmRun pid a ps).1 qs).2) := by
  induction ps generalizing a with
  | nil => rfl
  | cons p ps ih => simp [asmRun, ih]

lemma emitLoop_pid (pid rounds : Nat) (a : Asm) : ∀ o ∈ (emitLoop pid rounds a).2, o.pid = pid := by
  induction rounds generalizing a with
  | zero => simp [emitLoop]
  | succ rounds ih =>
    simp only [emitLoop]
    split
    · simp
    split
    · simp
    split
    · simp
    exact forall_mem_cons.mpr ⟨rfl, ih _⟩

lemma asmStep_pid (pid : Nat) (a : Asm) (p : Packet) : ∀ o ∈ (asmStep pid a p).2, o.pid = pid := by
  unfold asmStep
  split
  · simp
  simp only [asmPacket]
  split
  · split
    · simp
    refine forall_mem_append.mpr ⟨?_, emitLoop_pid pid _ _⟩
    split
    · exact emitLoop_pid pid _ _
    · simp
  · split
    · exact emitLoop_pid pid _ _
    · simp

/-- The outcomes of an announced PID are those of its own packets. -/
lemma reassemble_filter {scte : Nat → Bool} {pid : Nat} (hpid : scte pid = true)
    (state : Nat → Asm) (ps : List Packet) :
    (reassemble scte state ps).filter (fun o => o.pid = pid) =
      (asmRun pid (state pid) (ps.filter fun p => pktPID p = pid)).2 := by
  -- the other PIDs have states of their own, so their packets change nothing here
  induction ps generalizing state with
  | nil => rfl
  | cons p ps ih =>
    simp only [reassemble]
    by_cases hp : pktPID p = pid
    · have hown : ∀ o ∈ (asmStep pid (state pid) p).2, decide (o.pid = pid) = true :=
        fun o ho => decide_eq_true (asmStep_pid pid _ p o ho)
      rw [hp, if_pos hpid, filter_append, filter_eq_self.mpr hown, ih,
        filter_cons_of_pos (by simpa using hp), Function.update_self]
      rfl
    · have hother : ∀ o ∈ (asmStep (pktPID p) (state (pktPID p)) p).2,
          ¬ decide (o.pid = pid) = true := by
        intro o ho
        rw [asmStep_pid _ _ p o ho]
        simpa using hp
      rw [filter_cons_of_neg (by simpa using hp)]
      split
      · rw [filter_append, filter_eq_nil_iff.mpr hother, ih,
          Function.update_of_ne (Ne.symm hp), nil_append]
      · exact ih state

/-- Only announced PIDs have outcomes. -/
lemma reassemble_announced {scte : Nat → Bool} (state : Nat → Asm)
    (ps : List Packet) : ∀ o ∈ reassemble scte state ps, scte o.pid = true := by
  induction ps generalizing state with
  | nil => simp [reassemble]
  | cons p ps ih =>
    simp only [reassemble]
    split
    · intro o ho
      rcases mem_append.mp ho with hhead | htail
      · rwa [asmStep_pid _ _ p o hhead]
      · exact ih _ o htail
    · exact ih state

end StreamHub.Scte35
