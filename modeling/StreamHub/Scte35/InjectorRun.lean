import StreamHub.Scte35.Injector

/-!
# Runs of one injector

A run is a sequence of `Insert`, `SetHeartbeat` and `Process` calls in any
order; its events record what each call returned.  `ledger` splits the sections
of the accepted cues into those a `Process` call came after and those still
waiting.

Scanning a datagram only queues heartbeats (`Scanned`), and flushing sends the
queue as one packetization that goes on with the counter (`flush_spec`).  Hence
the invariant `Balanced`: everything sent so far is the packetization of the
delivered cues, interleaved with heartbeats only, and what waits in the queue is
exactly the rest.
-/

namespace StreamHub.Scte35

open Library.Bytes Library.Blocks List

/-! ## Scanning -/

/-- What scanning packets may do to the queue side of an injector: heartbeats
are appended, nothing else changes. -/
structure Scanned (i j : Injector) : Prop where
  pid : j.pid = i.pid
  cc : j.cc = i.cc
  cuesSent : j.cuesSent = i.cuesSent
  heartbeatsSent : j.heartbeatsSent = i.heartbeatsSent
  pending : ∃ k, j.pending = i.pending ++ replicate k .heartbeat

namespace Scanned

lemma of_eq {i j : Injector} (hpid : j.pid = i.pid) (hcc : j.cc = i.cc)
    (hcues : j.cuesSent = i.cuesSent) (hhearts : j.heartbeatsSent = i.heartbeatsSent)
    (hpending : j.pending = i.pending) : Scanned i j :=
  ⟨hpid, hcc, hcues, hhearts, 0, by simpa using hpending⟩

lemma refl (i : Injector) : Scanned i i := of_eq rfl rfl rfl rfl rfl

lemma trans {i j k : Injector} (hij : Scanned i j) (hjk : Scanned j k) : Scanned i k where
  pid := hjk.pid.trans hij.pid
  cc := hjk.cc.trans hij.cc
  cuesSent := hjk.cuesSent.trans hij.cuesSent
  heartbeatsSent := hjk.heartbeatsSent.trans hij.heartbeatsSent
  pending := by
    obtain ⟨a, ha⟩ := hij.pending
    obtain ⟨b, hb⟩ := hjk.pending
    exact ⟨a + b, by rw [hb, ha, append_assoc, replicate_append_replicate]⟩

end Scanned

namespace Injector

variable (i : Injector) (p : Packet) (ps : List Packet)

lemma onPAT_scanned : Scanned i (i.onPAT p) := by
  unfold onPAT
  split
  · exact Scanned.refl i
  split
  · exact Scanned.of_eq rfl rfl rfl rfl rfl
  · exact Scanned.refl i

lemma onPMT_scanned : Scanned i (i.onPMT p).1 := by
  unfold onPMT
  split
  · exact Scanned.refl i
  split <;> exact Scanned.of_eq rfl rfl rfl rfl rfl

lemma onPTS_scanned (v : Nat) : Scanned i (i.onPTS v) := by
  unfold onPTS
  split
  · exact Scanned.of_eq rfl rfl rfl rfl rfl
  simp only
  split
  · exact Scanned.of_eq rfl rfl rfl rfl rfl
  · exact Scanned.refl i

lemma onPCR_scanned (v : Nat) : Scanned i (i.onPCR v) := by
  simp only [onPCR]
  split
  · exact Scanned.of_eq rfl rfl rfl rfl rfl
  split
  · exact Scanned.of_eq rfl rfl rfl rfl rfl
  split
  · -- the interval is over: one heartbeat is queued
    exact ⟨rfl, rfl, rfl, rfl, 1, rfl⟩
  · exact Scanned.of_eq rfl rfl rfl rfl rfl

lemma trackPCR_scanned : Scanned i (i.trackPCR p) := by
  unfold trackPCR
  split
  · split
    · exact Scanned.refl i
    · exact onPCR_scanned i _
  · exact Scanned.refl i

lemma trackPTS_scanned : Scanned i (i.trackPTS p) := by
  unfold trackPTS
  split
  · split
    · exact Scanned.refl i
    · exact onPTS_scanned i _
  · exact Scanned.refl i

lemma followTables_scanned : Scanned i (i.followTables p).1 := by
  unfold followTables
  split
  · exact onPAT_scanned i p
  split
  · exact onPMT_scanned i p
  · exact Scanned.refl i

lemma processPacket_scanned : Scanned i (i.processPacket p).1 := by
  unfold processPacket
  split
  · have htables := followTables_scanned i p
    simp only
    split
    · exact htables.trans ((trackPCR_scanned _ p).trans (trackPTS_scanned _ p))
    · exact htables
  · exact Scanned.refl i

lemma processPackets_scanned : Scanned i (i.processPackets ps).1 := by
  induction ps generalizing i with
  | nil => exact Scanned.refl i
  | cons p ps ih => exact (processPacket_scanned i p).trans (ih _)

/-! ## What a scan replaces -/

/-- `q` is sent for `p`, a packet on the PMT PID that the scan follows. -/
def Replaced (i : Injector) (p q : Packet) : Prop :=
  usable p = true ∧ i.havePMT = true ∧ pktPID p = i.pmtPID ∧
    ∃ pi, rewritePMT p i.pid = some (pi, some q)

lemma onPMT_replaces {i : Injector} {p q : Packet} (h : (i.onPMT p).2 = some q) :
    ∃ pi, rewritePMT p i.pid = some (pi, some q) := by
  unfold onPMT at h
  split at h
  · cases h
  rename_i pi np hrewrite
  cases h
  exact ⟨pi, hrewrite⟩

lemma processPacket_sent : (i.processPacket p).2 = p ∨ Replaced i p (i.processPacket p).2 := by
  unfold processPacket followTables
  split
  · rename_i husable
    split
    · exact .inl rfl
    split
    · rename_i hpmt
      simp only
      cases hnew : (i.onPMT p).2 with
      | none => exact .inl rfl
      | some q => exact .inr ⟨husable, hpmt.1, hpmt.2, onPMT_replaces hnew⟩
    · exact .inl rfl
  · exact .inl rfl

/-- The packet sent in slot `k` is the one the scan makes of the packet there, in
the state behind the slots before it. -/
lemma processPackets_getElem? (k : Nat) : (i.processPackets ps).2[k]? =
      ps[k]?.map fun p => ((i.processPackets (ps.take k)).1.processPacket p).2 := by
  induction ps generalizing i k with
  | nil => rfl
  | cons p ps ih =>
    cases k with
    | zero => rfl
    | succ k => exact ih (i.processPacket p).1 k

lemma processPackets_length : (i.processPackets ps).2.length = ps.length := by
  induction ps generalizing i with
  | nil => rfl
  | cons p ps ih => exact congrArg Nat.succ (ih _)

/-! ## Flushing -/

/-- The number of cues in a queue. -/
def cueCount (pending : List PendingSection) : Nat :=
  (pending.filter fun ps => ps.cue.isSome).length

/-- The effect of packetizing sections behind `buf`. -/
structure Packed (i j : Injector) (buf out : List UInt8)
    (pending : List PendingSection) : Prop where
  pid : j.pid = i.pid
  cc : j.cc = (packetizeAll i.pid i.cc (pending.map PendingSection.sec)).2
  out : out = buf ++
    streamBytes (packetizeAll i.pid i.cc (pending.map PendingSection.sec)).1
  cuesSent : j.cuesSent = i.cuesSent + cueCount pending
  heartbeatsSent : j.heartbeatsSent + cueCount pending = i.heartbeatsSent + pending.length

lemma countSent_spec (ps : PendingSection) :
    (i.countSent ps).pid = i.pid ∧ (i.countSent ps).cc = i.cc ∧
      (i.countSent ps).cuesSent = i.cuesSent + cueCount [ps] ∧
      (i.countSent ps).heartbeatsSent + cueCount [ps] = i.heartbeatsSent + 1 := by
  unfold countSent cueCount
  cases hcue : ps.cue <;> simp [hcue]

lemma cueCount_cons (ps : PendingSection) (rest : List PendingSection) :
    cueCount (ps :: rest) = cueCount [ps] + cueCount rest := by
  unfold cueCount
  cases hcue : ps.cue.isSome <;> simp [hcue, Nat.add_comm]

lemma packPending_spec (buf : List UInt8) (pending : List PendingSection) :
    Packed i (i.packPending buf pending).1 buf (i.packPending buf pending).2 pending := by
  induction pending generalizing i buf with
  | nil => exact ⟨rfl, rfl, by simp [packPending, packetizeAll], rfl, rfl⟩
  | cons ps rest ih =>
    -- the state between the two sections, with its counter and one more sent
    have hcounted := countSent_spec { i with cc := (packetize buf ps.sec i.pid i.cc).2 } ps
    have htail := ih (countSent { i with cc := (packetize buf ps.sec i.pid i.cc).2 } ps)
      (packetize buf ps.sec i.pid i.cc).1
    rw [packPending]
    generalize countSent { i with cc := (packetize buf ps.sec i.pid i.cc).2 } ps = j at *
    obtain ⟨hpid, hcc, hcues, hhearts⟩ : j.pid = i.pid ∧
      j.cc = (packetize buf ps.sec i.pid i.cc).2 ∧
      j.cuesSent = i.cuesSent + cueCount [ps] ∧
      j.heartbeatsSent + cueCount [ps] = i.heartbeatsSent + 1 := hcounted
    refine ⟨htail.pid.trans hpid, ?_, ?_, ?_, ?_⟩
    · rw [htail.cc, hpid, hcc]
      rfl
    · rw [htail.out, hpid, hcc]
      simp [packetize, packetizeAll]
    · rw [htail.cuesSent, hcues, cueCount_cons ps rest, Nat.add_assoc]
    · have := htail.heartbeatsSent
      rw [cueCount_cons ps rest, length_cons]
      omega

/-- Sending the queue: the packets of the pending sections, with a continuing
counter, in datagrams of at most seven packets. -/
structure Flushed (i j : Injector) (dgrams : List (List UInt8)) : Prop where
  pid : j.pid = i.pid
  pending : j.pending = []
  cc : j.cc = (packetizeAll i.pid i.cc (i.pending.map PendingSection.sec)).2
  packets : dgrams.flatten =
    streamBytes (packetizeAll i.pid i.cc (i.pending.map PendingSection.sec)).1
  shape : ∀ d ∈ dgrams, d ≠ [] ∧ packetSize ∣ d.length ∧
    d.length ≤ packetsPerDatagram * packetSize
  cuesSent : j.cuesSent = i.cuesSent + cueCount i.pending
  heartbeatsSent :
    j.heartbeatsSent + cueCount i.pending = i.heartbeatsSent + i.pending.length

lemma flush_spec : Flushed i i.flush.1 i.flush.2 := by
  have hpacked := packPending_spec i [] i.pending
  have hout : (i.packPending [] i.pending).2 = streamBytes
      (packetizeAll i.pid i.cc (i.pending.map PendingSection.sec)).1 := hpacked.out
  refine ⟨hpacked.pid, rfl, hpacked.cc, ?_, ?_, hpacked.cuesSent, hpacked.heartbeatsSent⟩
  · rw [← hout]
    exact allBlocks_flatten (by decide) _
  · apply (filled_allBlocks (by decide) _).forall_mem (by decide)
      (Nat.dvd_mul_left packetSize packetsPerDatagram)
    rw [allBlocks_flatten (by decide), hout, streamBytes_length]
    exact Nat.dvd_mul_left _ _

end Injector

/-! ## Calls and events -/

/-- A call of the injector's API. -/
inductive Call
  | insert (c : Cue)
  | setHeartbeat (d : Int)
  | process (dgram : List UInt8)

/-- What a call did: the section of an accepted cue, or the datagrams `Process`
returned, the rewritten input first. -/
inductive Event
  | accepted (sec : List UInt8)
  | rejected (err : CueError)
  | configured
  | sent (out : List UInt8) (extra : List (List UInt8))

namespace Injector

def call (i : Injector) : Call → Injector × Event
  | .insert c =>
    match i.insert c with
    | (.ok pts, j) => (j, .accepted ((encode c pts).toOption.getD []))
    | (.error err, j) => (j, .rejected err)
  | .setHeartbeat d => (i.setHeartbeat d, .configured)
  | .process dgram =>
    let r := i.process dgram
    (r.1, .sent (r.2.headD []) r.2.tail)

def run : Injector → List Call → Injector × List Event
  | i, [] => (i, [])
  | i, c :: rest =>
    let head := i.call c
    let tail := run head.1 rest
    (tail.1, head.2 :: tail.2)

end Injector

/-- The datagrams `Process` returned after the first one. -/
def Event.extra : Event → List (List UInt8)
  | .sent _ extra => extra
  | _ => []

/-- All of them, over a whole run. -/
def extras (es : List Event) : List (List UInt8) := es.flatMap Event.extra

/-- The sections of the accepted cues: those a `Process` call came after, and
those still waiting. -/
def ledger (es : List Event) : List (List UInt8) × List (List UInt8) :=
  es.foldl (fun l e =>
    match e with
    | .accepted sec => (l.1, l.2 ++ [sec])
    | .sent _ _ => (l.1 ++ l.2, [])
    | _ => l) ([], [])

def Event.acceptedSection : Event → Option (List UInt8)
  | .accepted sec => some sec
  | _ => none

/-- The sections of the accepted cues, in the order of acceptance. -/
def acceptedSections (es : List Event) : List (List UInt8) := es.filterMap Event.acceptedSection

/-- The second list is the first one with splice_null heartbeats put in. -/
inductive WithHeartbeats : List (List UInt8) → List (List UInt8) → Prop
  | nil : WithHeartbeats [] []
  | cue (sec : List UInt8) {cues carried : List (List UInt8)} :
      WithHeartbeats cues carried → WithHeartbeats (sec :: cues) (sec :: carried)
  | heartbeat {cues carried : List (List UInt8)} :
      WithHeartbeats cues carried → WithHeartbeats cues (heartbeatSection :: carried)

lemma WithHeartbeats.append {cues carried cues' carried' : List (List UInt8)}
    (h : WithHeartbeats cues carried) (h' : WithHeartbeats cues' carried') :
    WithHeartbeats (cues ++ cues') (carried ++ carried') := by
  induction h with
  | nil => exact h'
  | cue sec _ ih => exact ih.cue sec
  | heartbeat _ ih => exact ih.heartbeat

lemma withHeartbeats_self (cues : List (List UInt8)) : WithHeartbeats cues cues := by
  induction cues with
  | nil => exact .nil
  | cons sec cues ih => exact ih.cue sec

lemma withHeartbeats_replicate (k : Nat) : WithHeartbeats [] (replicate k heartbeatSection) := by
  induction k with
  | zero => exact .nil
  | succ k ih => exact ih.heartbeat

lemma withHeartbeats_queue (cues : List (List UInt8)) (k : Nat) :
    WithHeartbeats cues (cues ++ replicate k heartbeatSection) := by
  have happended := (withHeartbeats_self cues).append (withHeartbeats_replicate k)
  rwa [append_nil] at happended

lemma ledger_append_event (es : List Event) (e : Event) : ledger (es ++ [e]) =
      match e with
      | .accepted sec => ((ledger es).1, (ledger es).2 ++ [sec])
      | .sent _ _ => ((ledger es).1 ++ (ledger es).2, [])
      | _ => ledger es := by
  rw [ledger, foldl_append]
  rfl

lemma ledger_accepted (es : List Event) : (ledger es).1 ++ (ledger es).2 = acceptedSections es := by
  -- the ledger is a fold from the left, so the induction is on the last event
  induction es using reverseRecOn with
  | nil => rfl
  | append_singleton es e ih =>
    rw [ledger_append_event, acceptedSections, filterMap_append, ← acceptedSections, ← ih]
    cases e <;> simp [Event.acceptedSection]

/-! ## What one call does -/

namespace Injector

lemma insert_ok {i j : Injector} {c : Cue} {pts : Nat} (h : i.insert c = (.ok pts, j)) :
    ∃ ps : PendingSection, 0 ≤ c.durationMs ∧ ps.cue = some c ∧ encode c pts = .ok ps.sec ∧
      j = { i with pending := i.pending ++ [ps] } := by
  unfold insert at h
  split at h
  · cases h
  split at h
  · cases h
  split at h
  · cases h
  split at h
  · cases h
  rename_i sec hsec
  cases h
  exact ⟨⟨sec, some c, _, hsec⟩, by omega, rfl, hsec, rfl⟩

lemma insert_error {i j : Injector} {c : Cue} {err : CueError}
    (h : i.insert c = (.error err, j)) : j = i := by
  unfold insert at h
  split at h
  · cases h
    rfl
  split at h
  · cases h
    rfl
  split at h
  · cases h
    rfl
  split at h
  · cases h
    rfl
  · cases h

/-- The section of an accepted cue says whether there is a duration, and states it exactly if
it fits into its field. -/
theorem insert_duration_iff {i j : Injector} {c : Cue} {pts : Nat}
    (h : i.insert c = (.ok pts, j)) : ∃ ps, j.pending = i.pending ++ [ps] ∧
      (parse ps.sec).2 = none ∧
      (c.kind = .spliceInsert → ((parse ps.sec).1.hasDuration = true ↔ 0 < c.durationMs) ∧
        (((parse ps.sec).1.duration : Int) = 90 * c.durationMs ↔ 90 * c.durationMs < 2 ^ 33)) ∧
      (c.kind = .timeSignal → c.segmentationTypeID ≠ 0 →
        ∃ sd, (parse ps.sec).1.segmentations = [sd] ∧ (sd.hasDuration = true ↔ 0 < c.durationMs) ∧
          ((sd.duration : Int) = 90 * c.durationMs ↔ 90 * c.durationMs < 2 ^ 40)) := by
  obtain ⟨ps, hpos, -, hsec, rfl⟩ := insert_ok h
  have hparse := parse_encode hsec []
  rw [append_nil] at hparse
  refine ⟨ps, rfl, ?_⟩
  rw [hparse]
  refine ⟨rfl, fun hkind => ?_, fun hkind htype => ?_⟩
  · simp only [decodedCue, hkind]
    exact ⟨decide_eq_true_iff, msToTicks_mod_iff (by omega) (by decide)⟩
  · simp only [decodedCue, hkind, ne_eq, htype, not_false_eq_true, if_true]
    exact ⟨_, rfl, decide_eq_true_iff, msToTicks_mod_iff (by omega) (by decide)⟩

/-- Half a minute is announced as it is. -/
theorem insert_duration_iff_advert : ∃ j ps, ((newInjector 0x1F0).insert
      { kind := .spliceInsert, immediate := true, durationMs := 30000 }) = (.ok 0, j) ∧
    j.pending = [ps] ∧ ((parse ps.sec).1.duration : Int) = 90 * 30000 := by
  obtain ⟨ps, hpending, -, hinsert, -⟩ := insert_duration_iff (show (newInjector 0x1F0).insert
    { kind := .spliceInsert, immediate := true, durationMs := 30000 } = (.ok 0, _) from rfl)
  exact ⟨_, ps, rfl, hpending, (hinsert rfl).2.mpr (by decide)⟩

/-- A break of more than 26.5 hours is announced as one of 28 ticks. -/
theorem long_break_wraps : ∃ j ps, ((newInjector 0x1F0).insert
      { kind := .spliceInsert, immediate := true, durationMs := 95443718 }) = (.ok 0, j) ∧
    j.pending = [ps] ∧ (parse ps.sec).1.duration = 28 := ⟨_, _, rfl, rfl, by decide +kernel⟩

/-- A `Process` call sends the queue and `k` new heartbeats behind it. -/
structure Processed (i j : Injector) (extra : List (List UInt8)) (k : Nat) : Prop where
  pid : j.pid = i.pid
  pending : j.pending = []
  cc : j.cc = (packetizeAll i.pid i.cc (i.pending.map PendingSection.sec ++
    replicate k heartbeatSection)).2
  packets : extra.flatten = streamBytes (packetizeAll i.pid i.cc
    (i.pending.map PendingSection.sec ++ replicate k heartbeatSection)).1
  shape : ∀ d ∈ extra, d ≠ [] ∧ packetSize ∣ d.length ∧
    d.length ≤ packetsPerDatagram * packetSize
  cuesSent : j.cuesSent = i.cuesSent + cueCount i.pending
  sent : j.cuesSent + j.heartbeatsSent =
    i.cuesSent + i.heartbeatsSent + (i.pending.length + k)

lemma cueCount_heartbeats (pending : List PendingSection) (k : Nat) :
    cueCount (pending ++ replicate k .heartbeat) = cueCount pending := by
  have hnone : (replicate k PendingSection.heartbeat).filter
      (fun ps => ps.cue.isSome) = [] := by
    rw [filter_eq_nil_iff]
    intro ps hps
    rw [eq_of_mem_replicate hps]
    simp [PendingSection.heartbeat]
  simp [cueCount, hnone]

lemma process_spec (i : Injector) (dgram : List UInt8) :
    ∃ k, Processed i (i.process dgram).1 (i.process dgram).2.tail k := by
  have hscan := processPackets_scanned i (packetsOf dgram)
  obtain ⟨k, hpending⟩ := hscan.pending
  refine ⟨k, ?_⟩
  have hsecs : (i.processPackets (packetsOf dgram)).1.pending.map PendingSection.sec =
      i.pending.map PendingSection.sec ++ replicate k heartbeatSection := by
    rw [hpending, map_append, map_replicate]
    rfl
  simp only [process]
  generalize (i.processPackets (packetsOf dgram)).1 = m at *
  split
  · -- nothing to flush, so the scan queued no heartbeat either
    rename_i hempty
    rw [hempty] at hpending hsecs
    have hnil := append_eq_nil_iff.mp hpending.symm
    have hzero : k = 0 := by simpa using hnil.2
    subst hzero
    refine ⟨hscan.pid, hempty, ?_, ?_, by simp, ?_, ?_⟩
    · rw [← hsecs]
      exact hscan.cc
    · rw [← hsecs]
      rfl
    · rw [hscan.cuesSent, hnil.1]
      rfl
    · rw [hscan.cuesSent, hscan.heartbeatsSent, hnil.1]
      rfl
  · have hflush := flush_spec m
    have hcount : cueCount m.pending = cueCount i.pending := by rw [hpending, cueCount_heartbeats]
    have hlength : m.pending.length = i.pending.length + k := by
      rw [hpending, length_append, length_replicate]
    have hcues := hflush.cuesSent
    have hhearts := hflush.heartbeatsSent
    rw [hcount, hscan.cuesSent] at hcues
    rw [hscan.heartbeatsSent, hlength] at hhearts
    refine ⟨hflush.pid.trans hscan.pid, hflush.pending, ?_, ?_, hflush.shape, hcues, ?_⟩
    · rw [hflush.cc, hscan.pid, hscan.cc, hsecs]
    · rw [tail_cons, hflush.packets, hscan.pid, hscan.cc, hsecs]
    · simp only
      omega

/-- The first datagram `process` returns has the slots of `dgram` and the bytes
behind them; a slot differs only where a PMT packet is replaced, on the PMT PID
that the scan follows when it gets there. -/
theorem process_replaces (i : Injector) (dgram : List UInt8) :
    ∃ out qs rest, (i.process dgram).2 = out :: rest ∧ out.length = dgram.length ∧
      dgram = streamBytes (packetsOf dgram) ++ leftover packetSize dgram ∧
      out = streamBytes qs ++ leftover packetSize dgram ∧
      qs.length = (packetsOf dgram).length ∧
      (∀ k p, (packetsOf dgram)[k]? = some p → ∃ q, qs[k]? = some q ∧
        (q = p ∨ Replaced (i.processPackets ((packetsOf dgram).take k)).1 p q)) ∧
      ((∀ k p q, (packetsOf dgram)[k]? = some p →
        ¬ Replaced (i.processPackets ((packetsOf dgram).take k)).1 p q) → out = dgram) := by
  have hcut := streamBytes_packetsOf dgram
  have hlength := processPackets_length i (packetsOf dgram)
  have hslots : ∀ k p, (packetsOf dgram)[k]? = some p →
      ∃ q, (i.processPackets (packetsOf dgram)).2[k]? = some q ∧
        (q = p ∨ Replaced (i.processPackets ((packetsOf dgram).take k)).1 p q) := by
    intro k p hp
    refine ⟨_, ?_, processPacket_sent (i.processPackets ((packetsOf dgram).take k)).1 p⟩
    rw [processPackets_getElem?, hp]
    rfl
  obtain ⟨rest, hout⟩ : ∃ rest, (i.process dgram).2 = (streamBytes
      (i.processPackets (packetsOf dgram)).2 ++ leftover packetSize dgram) :: rest := by
    simp only [process]
    split
    · exact ⟨_, rfl⟩
    · exact ⟨_, rfl⟩
  refine ⟨_, _, rest, hout, ?_, hcut.symm, rfl, hlength, hslots, ?_⟩
  · nth_rewrite 3 [← hcut]
    rw [length_append, length_append, streamBytes_length, streamBytes_length, hlength]
  · intro hnone
    have hsame : (i.processPackets (packetsOf dgram)).2 = packetsOf dgram := by
      apply ext_getElem?
      intro k
      cases hp : (packetsOf dgram)[k]? with
      | none => rw [processPackets_getElem?, hp, Option.map_none]
      | some p =>
        obtain ⟨q, hq, rfl | hreplaced⟩ := hslots k p hp
        · exact hq
        · exact absurd hreplaced (hnone k p q hp)
    rw [hsame, hcut]

end Injector

/-! ## The invariant of a run -/

/-- A section some cue encodes to. -/
def EncodedSection (sec : List UInt8) : Prop := ∃ c pts, encode c pts = .ok sec

lemma EncodedSection.sent {sec : List UInt8} (h : EncodedSection sec) : SentSection sec := by
  obtain ⟨c, pts, hsec⟩ := h
  exact encode_sent hsec

/-- Everything sent so far is one packetization of the delivered cues and
heartbeats; the queue is the rest of the accepted cues. -/
structure Balanced (pid : Nat) (i : Injector) (es : List Event)
    (secs : List (List UInt8)) : Prop where
  owner : i.pid = pid
  carried : WithHeartbeats (ledger es).1 secs
  encoded : ∀ sec ∈ secs, EncodedSection sec
  packets : (extras es).flatten = streamBytes (packetizeAll pid (counterAt 0) secs).1
  cc : i.cc = (packetizeAll pid (counterAt 0) secs).2
  sent : secs.length = i.cuesSent + i.heartbeatsSent
  pending : i.pending.map PendingSection.sec = (ledger es).2
  cues : ∀ ps ∈ i.pending, ps.cue.isSome = true
  cuesSent : i.cuesSent = (ledger es).1.length
  shape : ∀ d ∈ extras es, d ≠ [] ∧ packetSize ∣ d.length ∧
    d.length ≤ packetsPerDatagram * packetSize

lemma balanced_new (pid : Nat) : Balanced (pid % 2 ^ 13) (newInjector pid) [] [] where
  owner := rfl
  carried := .nil
  encoded := by simp
  packets := rfl
  cc := rfl
  sent := rfl
  pending := rfl
  cues := by simp [newInjector]
  cuesSent := rfl
  shape := by simp [extras]

lemma extras_append_event (es : List Event) (e : Event) :
    extras (es ++ [e]) = extras es ++ e.extra := by simp [extras]

namespace Balanced

variable {pid : Nat} {i j : Injector} {es : List Event} {secs : List (List UInt8)}

section

variable (h : Balanced pid i es secs)

include h

lemma idle {e : Event} (hextra : e.extra = [])
    (hledger : ledger (es ++ [e]) = ledger es) (hpid : j.pid = i.pid) (hcc : j.cc = i.cc)
    (hcues : j.cuesSent = i.cuesSent) (hhearts : j.heartbeatsSent = i.heartbeatsSent)
    (hpending : j.pending = i.pending) : Balanced pid j (es ++ [e]) secs where
  owner := hpid.trans h.owner
  carried := hledger ▸ h.carried
  encoded := h.encoded
  packets := by rw [extras_append_event, hextra, append_nil, h.packets]
  cc := hcc.trans h.cc
  sent := by rw [h.sent, hcues, hhearts]
  pending := by rw [hpending, hledger, h.pending]
  cues := hpending ▸ h.cues
  cuesSent := by rw [hcues, hledger, h.cuesSent]
  shape := by
    rw [extras_append_event, hextra, append_nil]
    exact h.shape

/-- An accepted cue joins the queue. -/
lemma accept (ps : PendingSection) (hcue : ps.cue.isSome = true) :
    Balanced pid { i with pending := i.pending ++ [ps] } (es ++ [.accepted ps.sec])
      secs where
  owner := h.owner
  carried := by
    rw [ledger_append_event]
    exact h.carried
  encoded := h.encoded
  packets := by
    rw [extras_append_event]
    simpa [Event.extra] using h.packets
  cc := h.cc
  sent := h.sent
  pending := by
    rw [ledger_append_event, map_append, h.pending]
    rfl
  cues := forall_mem_append.mpr ⟨h.cues, forall_mem_singleton.mpr hcue⟩
  cuesSent := by
    rw [ledger_append_event]
    exact h.cuesSent
  shape := by
    rw [extras_append_event]
    simpa [Event.extra] using h.shape

lemma cueCount_pending : Injector.cueCount i.pending = (ledger es).2.length := by
  rw [Injector.cueCount, filter_eq_self.mpr h.cues, ← h.pending, length_map]

/-- A `Process` call delivers the whole queue. -/
lemma send {extra : List (List UInt8)} {k : Nat} (hsent : Injector.Processed i j extra k)
    (out : List UInt8) : Balanced pid j (es ++ [.sent out extra])
      (secs ++ (i.pending.map PendingSection.sec ++ replicate k heartbeatSection)) where
  owner := hsent.pid.trans h.owner
  carried := by
    rw [ledger_append_event, h.pending]
    exact h.carried.append (withHeartbeats_queue _ k)
  encoded := by
    intro sec hsec
    rcases mem_append.mp hsec with hold | hnew
    · exact h.encoded sec hold
    -- a pending section carries the proof that some cue encodes to it
    rcases mem_append.mp hnew with hqueued | hheart
    · obtain ⟨ps, -, rfl⟩ := mem_map.mp hqueued
      exact ⟨_, _, ps.encoded⟩
    · rw [eq_of_mem_replicate hheart]
      exact ⟨heartbeatCue, 0, rfl⟩
  packets := by
    rw [extras_append_event, flatten_append, h.packets, Event.extra, hsent.packets,
      packetizeAll_append pid _ secs, streamBytes_append, h.owner, h.cc]
  cc := by rw [hsent.cc, packetizeAll_append pid _ secs, h.owner, h.cc]
  sent := by
    rw [hsent.sent, length_append, h.sent, length_append, length_map, length_replicate]
  pending := by
    rw [hsent.pending, ledger_append_event]
    rfl
  cues := by simp [hsent.pending]
  cuesSent := by
    rw [hsent.cuesSent, ledger_append_event, length_append, ← h.cuesSent, h.cueCount_pending]
  shape := by
    rw [extras_append_event]
    exact forall_mem_append.mpr ⟨h.shape, hsent.shape⟩

lemma call (c : Call) : ∃ secs', Balanced pid (i.call c).1 (es ++ [(i.call c).2]) secs' := by
  cases c with
  | insert c =>
    simp only [Injector.call]
    split
    · rename_i pts j hinsert
      obtain ⟨ps, -, hcue, hsec, rfl⟩ := Injector.insert_ok hinsert
      rw [hsec]
      exact ⟨secs, h.accept ps (by rw [hcue]; rfl)⟩
    · rename_i err j hinsert
      obtain rfl := Injector.insert_error hinsert
      exact ⟨secs, h.idle rfl (ledger_append_event _ _) rfl rfl rfl rfl rfl⟩
  | setHeartbeat d => exact ⟨secs, h.idle rfl (ledger_append_event _ _) rfl rfl rfl rfl rfl⟩
  | process dgram =>
    obtain ⟨k, hsent⟩ := Injector.process_spec i dgram
    exact ⟨_, h.send hsent _⟩

lemma run (calls : List Call) :
    ∃ secs', Balanced pid (i.run calls).1 (es ++ (i.run calls).2) secs' := by
  induction calls generalizing i es secs with
  | nil => exact ⟨secs, by simpa [Injector.run] using h⟩
  | cons c calls ih =>
    obtain ⟨secs', hcall⟩ := h.call c
    obtain ⟨secs'', hrun⟩ := ih hcall
    exact ⟨secs'', by simpa [Injector.run] using hrun⟩

end

end Balanced

lemma balanced_run (pid : Nat) (calls : List Call) :
    ∃ secs, Balanced (pid % 2 ^ 13) ((newInjector pid).run calls).1
      ((newInjector pid).run calls).2 secs := by simpa using (balanced_new pid).run calls

/-! ## Delivery -/

/-- The packets that carry sections, over a whole run. -/
def extraPackets (es : List Event) : List Packet := packetsOf (extras es).flatten

variable {secs : List (List UInt8)}

lemma Balanced.extraPackets {pid : Nat} {i : Injector} {es : List Event}
    (h : Balanced pid i es secs) : extraPackets es = (packetizeAll pid (counterAt 0) secs).1 := by
  rw [Scte35.extraPackets, h.packets, packetsOf_streamBytes]

lemma Balanced.carriedSections {pid : Nat} {i : Injector} {es : List Event}
    (h : Balanced pid i es secs) : carriedSections (Scte35.extraPackets es) = secs := by
  rw [h.extraPackets]
  exact (carriedSections_packetizeAll pid _ fun sec hsec => (h.encoded sec hsec).sent.size).2

/-- The datagrams of one `Process` call carry the whole queue, and heartbeats. -/
lemma Balanced.process_carries {pid : Nat} {i : Injector} {es : List Event}
    (h : Balanced pid i es secs) (dgram : List UInt8) : WithHeartbeats (ledger es).2
      (Scte35.carriedSections (packetsOf (i.process dgram).2.tail.flatten)) := by
  obtain ⟨k, hsent⟩ := Injector.process_spec i dgram
  have hsized : ∀ sec ∈ i.pending.map PendingSection.sec ++
      replicate k heartbeatSection, WellSized sec := by
    intro sec hsec
    exact ((h.send hsent []).encoded sec (mem_append_right _ hsec)).sent.size
  rw [hsent.packets, packetsOf_streamBytes, (carriedSections_packetizeAll _ _ hsized).2, h.pending]
  exact withHeartbeats_queue _ k

/-- Cues are emitted exactly once, in order, with a continuous counter.  In
every run: the extra datagrams hold one to seven whole packets; they carry the
delivered cues in the order of acceptance and otherwise only heartbeats; the
next `Process` call, whatever its datagram, carries every cue accepted since the
last one; the packets' counters are `0, 1, ..., 15, 0, ...`; and every accepted
cue is either counted as sent or pending. -/
theorem injector_delivery (pid : Nat) (calls : List Call) :
    let i := ((newInjector pid).run calls).1
    let es := ((newInjector pid).run calls).2
    (∀ d ∈ extras es, d ≠ [] ∧ packetSize ∣ d.length ∧
        d.length ≤ packetsPerDatagram * packetSize) ∧
      (acceptedSections es = (ledger es).1 ++ (ledger es).2 ∧
        WithHeartbeats (ledger es).1 (carriedSections (extraPackets es)) ∧
        (carriedSections (extraPackets es)).length = i.cuesSent + i.heartbeatsSent) ∧
      (∀ dgram, WithHeartbeats (ledger es).2
        (carriedSections (packetsOf (i.process dgram).2.tail.flatten))) ∧
      (extraPackets es).map pktCC =
        (range (extraPackets es).length).map counterAt ∧
      i.cuesSent + Injector.cueCount i.pending = (acceptedSections es).length := by
  intro i es
  obtain ⟨secs, h⟩ := balanced_run pid calls
  refine ⟨h.shape, ⟨(ledger_accepted es).symm, ?_, ?_⟩, h.process_carries, ?_, ?_⟩
  · rw [h.carriedSections]
    exact h.carried
  · rw [h.carriedSections]
    exact h.sent
  · rw [h.extraPackets, range_eq_range']
    exact (packetizeAll_counters _ 0 secs).1
  · rw [h.cuesSent, h.cueCount_pending, ← length_append, ledger_accepted]

end StreamHub.Scte35
