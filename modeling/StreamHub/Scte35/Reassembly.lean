import StreamHub.Library.Loss
import StreamHub.Scte35.Extract
import StreamHub.Scte35.SectionRoundTrip

/-!
# Reassembly under packet loss

Sections are packetized on one PID, some of their packets are lost, and the
reassembler reads what is left.  Two predicates describe the reassembly state
in front of the packet with index `n`:

* `Idle`: nothing of the next packets' section has been collected, or a gap of
  one to fifteen packets will be noticed by the continuity check;
* `Collecting`: every packet of the current section has arrived so far.

One lemma says what each kind of packet does to them; by induction on the
blocks a section comes out iff all its packets arrived, and by induction on the
sections the outcomes are those of the surviving sections.
-/

namespace StreamHub.Scte35

open Library.Bytes Library.Blocks Library.Loss List

/-! ## The decoder's buffer -/

variable {a : Asm}

lemma emitLoop_stuffing (pid rounds k : Nat) (hbuf : a.buf = replicate k 0xFF) :
    emitLoop pid rounds a = (a.reset, []) := by
  cases rounds with
  | zero => rfl
  | succ rounds =>
    have hend : a.buf = [] ∨ a.buf.getD 0 0 = 0xFF := by
      cases k with
      | zero => exact .inl hbuf
      | succ k =>
        right
        rw [hbuf]
        rfl
    rw [emitLoop, if_pos hend]

lemma emit_unfinished (pid : Nat) (hfirst : a.buf.getD 0 0 ≠ 0xFF) (hmin : 3 ≤ a.buf.length)
    (hpart : a.buf.length < declaredLength a.buf) : emit pid a = (a, []) := by
  have hgo : ¬ (a.buf = [] ∨ a.buf.getD 0 0 = 0xFF) := by
    rintro (hnil | hff)
    · simp [hnil] at hmin
    · exact hfirst hff
  obtain ⟨rounds, hrounds⟩ : ∃ rounds, a.buf.length = rounds + 1 := ⟨a.buf.length - 1, by omega⟩
  rw [emit, hrounds, emitLoop, if_neg hgo, if_neg (by omega)]
  simp only [if_pos hpart]

variable {sec : List UInt8}

/-- A complete section is decoded; the stuffing behind it ends the unit. -/
lemma emit_complete (pid k : Nat) (hsec : WellSized sec) (hfirst : sec.getD 0 0 ≠ 0xFF)
    (hbuf : a.buf = sec ++ replicate k 0xFF) : emit pid a = (a.reset, [⟨pid, parse sec⟩]) := by
  have hmin := hsec.three_le
  have hlength : sec.length ≤ a.buf.length := by
    rw [hbuf, length_append]
    omega
  have hhead : a.buf.getD 0 0 = sec.getD 0 0 := by rw [hbuf, getD_append _ _ _ _ (by omega)]
  have hgo : ¬ (a.buf = [] ∨ a.buf.getD 0 0 = 0xFF) := by
    rintro (hnil | hff)
    · simp [hnil] at hlength
      simp [hlength] at hmin
    · exact hfirst (hhead ▸ hff)
  have htotal : declaredLength a.buf = sec.length := by
    rw [hbuf, declaredLength_append hmin]
    exact hsec.symm
  obtain ⟨rounds, hrounds⟩ : ∃ rounds, a.buf.length = rounds + 1 := ⟨a.buf.length - 1, by omega⟩
  have htake : a.buf.take sec.length = sec := by rw [hbuf, take_left' rfl]
  have hdrop : a.buf.drop sec.length = replicate k 0xFF := by rw [hbuf, drop_left' rfl]
  rw [emit, hrounds, emitLoop, if_neg hgo, if_neg (by omega)]
  simp only [htotal, if_neg (Nat.not_lt.mpr hlength), htake, hdrop]
  rw [emitLoop_stuffing pid rounds k rfl]
  rfl

/-! ## States between packets -/

/-- Nothing is being collected, or the packets lost in front of packet `n` will
be noticed. -/
def Idle (a : Asm) (n gap : Nat) : Prop :=
  (a.cc = none ∧ a.active = false) ∨
    ∃ m, a.cc = some (counterAt m) ∧ n = m + 1 + gap ∧ gap < 16 ∧
      (gap = 0 → a.active = false)

variable {n : Nat}

lemma counterAt_inj_of_lt {m : Nat} (hle : m ≤ n) (hlt : n < m + 16)
    (h : counterAt m = counterAt n) : m = n := by
  have hvalue := congrArg UInt8.toNat h
  simp only [counterAt, byteOf_toNat] at hvalue
  omega

variable {gap : Nat}

/-- The continuity check of packet `n` leaves an idle state inactive. -/
lemma Idle.resync_inactive (h : Idle a n gap) : (a.resync (counterAt n)).active = false := by
  rcases h with ⟨hcc, hactive⟩ | ⟨m, hcc, hn, hgap, hactive⟩
  · simp [Asm.resync, hcc, hactive]
  simp only [Asm.resync, hcc, nextCC_counterAt]
  by_cases hzero : gap = 0
  · split
    · rfl
    · exact hactive hzero
  have hne : counterAt n ≠ counterAt (m + 1) := by
    intro heq
    have := counterAt_inj_of_lt (by omega) (by omega) heq.symm
    omega
  rw [if_pos hne]
  rfl

lemma Idle.lost (h : Idle a n gap) (hgap : gap + 1 < 16) : Idle a (n + 1) (gap + 1) := by
  rcases h with hnone | ⟨m, hcc, hn, -, -⟩
  · exact .inl hnone
  · exact .inr ⟨m, hcc, by omega, hgap, by omega⟩

lemma idle_of_inactive (hcc : a.cc = some (counterAt n)) (hactive : a.active = false) :
    Idle a (n + 1) 0 := Or.inr ⟨n, hcc, rfl, by decide, fun _ => hactive⟩

@[simp] lemma reset_active (a : Asm) : a.reset.active = false := rfl

/-- Every packet in front of packet `n` has arrived and the section lacks just
the remaining blocks. -/
structure Collecting (a : Asm) (n : Nat) (sec : List UInt8)
    (blocks : List (List UInt8)) : Prop where
  active : a.active = true
  cc : ∃ m, a.cc = some (counterAt m) ∧ n = m + 1
  buf : a.buf ++ blocks.flatten = sec
  header : 3 ≤ a.buf.length

variable {blocks : List (List UInt8)}

lemma Collecting.resync (h : Collecting a n sec blocks) :
    a.resync (counterAt n) = { a with cc := some (counterAt n) } := by
  obtain ⟨m, hcc, rfl⟩ := h.cc
  simp only [Asm.resync, hcc, nextCC_counterAt, ne_eq, not_true_eq_false, if_false]

lemma Collecting.lost (h : Collecting a n sec blocks) : Idle a (n + 1) 1 := by
  obtain ⟨m, hcc, rfl⟩ := h.cc
  exact .inr ⟨m, hcc, rfl, by decide, nofun⟩

/-! ## One packet -/

section Step

variable {pid : Nat} {cc : UInt8} {n : Nat} {block : List UInt8}

/-- A continuation packet: collected if a section is being collected. -/
lemma asmStep_continuation (hcc : cc &&& 0x0F = counterAt n)
    (hblock : block.length ≤ packetSize - 4) (a : Asm) :
    asmStep pid a (blockPacket pid false cc block) =
      if (a.resync (counterAt n)).active then
        emit pid { a.resync (counterAt n) with
          buf := (a.resync (counterAt n)).buf ++
            (block ++ replicate (packetSize - 4 - block.length) 0xFF) }
      else (a.resync (counterAt n), []) := by
  have hoff : payloadOffset (blockPacket pid false cc block) = some 4 :=
    blockPacket_payloadOffset
  have hpayload : payload (blockPacket pid false cc block) = _ := blockPacket_payload hblock
  rw [payload, hoff, Option.getD_some] at hpayload
  simp only [asmStep, hoff, asmPacket, blockPacket_pktCC, hcc,
    blockPacket_pktPUSI, hpayload, Bool.false_eq_true, if_false]

/-- The first packet of a section, pointer_field 0, when nothing is being
collected. -/
lemma asmStep_start (hcc : cc &&& 0x0F = counterAt n)
    (hblock : (0x00 :: block).length ≤ packetSize - 4)
    (hidle : (a.resync (counterAt n)).active = false) :
    asmStep pid a (blockPacket pid true cc (0x00 :: block)) =
      emit pid { a.resync (counterAt n) with
        buf := block ++ replicate (packetSize - 4 - (0x00 :: block).length) 0xFF
        active := true } := by
  have hoff : payloadOffset (blockPacket pid true cc (0x00 :: block)) = some 4 :=
    blockPacket_payloadOffset
  have hpayload : payload (blockPacket pid true cc (0x00 :: block)) = _ :=
    blockPacket_payload hblock
  rw [payload, hoff, Option.getD_some] at hpayload
  have hptr : ¬ 1 + ((0x00 : UInt8)).toNat >
      (0x00 :: (block ++ replicate (packetSize - 4 - (0x00 :: block).length)
        (0xFF : UInt8))).length := by simp
  simp only [asmStep, hoff, asmPacket, blockPacket_pktCC, hcc,
    blockPacket_pktPUSI, hpayload, if_true, cons_append,
    getD_cons_zero, if_neg hptr, hidle, Bool.false_eq_true, if_false,
    nil_append]
  rfl

end Step

/-! ## The packets of one section -/

/-- Reading `ps` from state `a` gives the outcomes and an idle state in front of
packet `n`, from where the losses `more` are still bounded. -/
structure Reads (pid : Nat) (a : Asm) (ps : List Packet) (outcomes : List Outcome)
    (n : Nat) (more : List Bool) : Prop where
  outcomes : (asmRun pid a ps).2 = outcomes
  idle : ∃ gap, LossBounded gap more ∧ Idle (asmRun pid a ps).1 n gap

variable {pid : Nat}

lemma Reads.cons {a' : Asm} {p : Packet} {ps : List Packet} {head tail : List Outcome}
    {more : List Bool} (hstep : asmStep pid a p = (a', head))
    (hrest : Reads pid a' ps tail n more) : Reads pid a (p :: ps) (head ++ tail) n more where
  outcomes := by rw [asmRun, hstep, hrest.outcomes]
  idle := by
    rw [asmRun, hstep]
    exact hrest.idle

variable {cc : UInt8}

lemma nextCC_of_lowNibble (hcc : cc &&& 0x0F = counterAt n) :
    nextCC cc &&& 0x0F = counterAt (n + 1) := by
  have hnext : nextCC cc = nextCC (cc &&& 0x0F) := by
    rw [nextCC_eq_counterAt, lowNibble_eq_counterAt, nextCC_counterAt]
  rw [hnext, hcc, nextCC_counterAt, counterAt_lowNibble]

/-- The rest of a section of which a packet is missing gives nothing. -/
lemma reads_lost (pid : Nat) (hfilled : Filled (packetSize - 4) blocks) {keep more : List Bool}
    (hcc : cc &&& 0x0F = counterAt n) (hlength : keep.length = blocks.length)
    (hloss : LossBounded gap (keep ++ more)) (hidle : Idle a n gap) :
    Reads pid a (kept (packetizeBlocks pid false cc blocks).1 keep) []
      (n + blocks.length) more := by
  induction blocks generalizing keep a n gap cc with
  | nil =>
    rw [length_nil, length_eq_zero_iff] at hlength
    subst hlength
    exact ⟨rfl, gap, hloss, hidle⟩
  | cons block blocks ih =>
    obtain ⟨k, keep, rfl⟩ := exists_cons_of_length_eq_add_one hlength
    have hnext := nextCC_of_lowNibble hcc
    have htail : keep.length = blocks.length := by simpa using hlength
    rw [packetizeBlocks, length_cons, Nat.add_comm blocks.length, ← Nat.add_assoc]
    cases k with
    | false =>
      -- one more lost packet widens the gap
      have hbounded := LossBounded.lost hloss
      exact ih hfilled.tail hnext htail hbounded (hidle.lost hbounded.gap_lt)
    | true =>
      -- the packet is dropped, and from it on the counter runs without a gap
      have hinactive := hidle.resync_inactive
      have hstep : asmStep pid a (blockPacket pid false cc block) =
          (a.resync (counterAt n), []) := by
        rw [asmStep_continuation hcc hfilled.head_length, hinactive]
        rfl
      exact Reads.cons hstep (ih hfilled.tail hnext htail hloss.arrived
        (idle_of_inactive rfl hinactive))

/-- A part of the section without stuffing waits for the next blocks. -/
lemma emit_waiting (pid : Nat) (hsec : WellSized sec) (hfirst : sec.getD 0 0 ≠ 0xFF)
    (hactive : a.active = true) (hcc : a.cc = some (counterAt n))
    (hpart : a.buf ++ blocks.flatten = sec) (hmin : 3 ≤ a.buf.length)
    (hrest : blocks.flatten ≠ []) :
    emit pid a = (a, []) ∧ Collecting a (n + 1) sec blocks := by
  have hshort : a.buf.length < sec.length := by
    rw [← hpart, length_append]
    have := length_pos_iff.mpr hrest
    omega
  have hhead : a.buf.getD 0 0 = sec.getD 0 0 := by rw [← hpart, getD_append _ _ _ _ (by omega)]
  have hdeclared : declaredLength a.buf = sec.length := by
    rw [show sec.length = declaredLength sec from hsec, ← hpart, declaredLength_append hmin]
  exact ⟨emit_unfinished pid (hhead ▸ hfirst) hmin (by omega), hactive, ⟨n, hcc, rfl⟩, hpart, hmin⟩

/-- A packet that leaves a part of the section and stuffing in the buffer, the
latter only behind the last block, and the packets of the other blocks: the
section comes out iff they all arrive. -/
lemma reads_collected (pid : Nat) (hsec : WellSized sec) (hfirst : sec.getD 0 0 ≠ 0xFF)
    (hfilled : Filled (packetSize - 4) blocks) {keep more : List Bool} {a' : Asm} {p : Packet}
    {part : List UInt8} {k : Nat} (hstep : asmStep pid a p = emit pid a')
    (hactive : a'.active = true) (hlast : a'.cc = some (counterAt n))
    (hbuf : a'.buf = part ++ replicate k 0xFF) (hpart : part ++ blocks.flatten = sec)
    (hmore : blocks ≠ [] → k = 0 ∧ 3 ≤ part.length) (hcc : cc &&& 0x0F = counterAt (n + 1))
    (hlength : keep.length = blocks.length) (hloss : LossBounded 0 (keep ++ more)) :
    Reads pid a (p :: kept (packetizeBlocks pid false cc blocks).1 keep)
      (if keep.all id then [⟨pid, parse sec⟩] else []) (n + 1 + blocks.length) more := by
  induction blocks generalizing keep a a' n cc p part k with
  | nil =>
    rw [length_nil, length_eq_zero_iff] at hlength
    subst hlength
    rw [flatten_nil, append_nil] at hpart
    subst hpart
    exact Reads.cons (hstep.trans (emit_complete pid k hsec hfirst hbuf))
      ⟨rfl, 0, hloss, idle_of_inactive hlast (reset_active _)⟩
  | cons block blocks ih =>
    obtain ⟨rfl, hmin⟩ := hmore (cons_ne_nil _ _)
    rw [replicate_zero, append_nil] at hbuf
    subst hbuf
    obtain ⟨hwait, hcollecting⟩ := emit_waiting pid hsec hfirst hactive hlast hpart hmin
      (hfilled.flatten_ne_nil (by decide) (cons_ne_nil _ _))
    obtain ⟨k, keep, rfl⟩ := exists_cons_of_length_eq_add_one hlength
    have hnext := nextCC_of_lowNibble hcc
    have htail : keep.length = blocks.length := by simpa using hlength
    refine Reads.cons (hstep.trans hwait) ?_
    rw [packetizeBlocks, length_cons, Nat.add_comm blocks.length, ← Nat.add_assoc]
    cases k with
    | false =>
      -- from the first lost packet on, the rest of the section is lost
      exact reads_lost pid hfilled.tail hnext htail (LossBounded.lost hloss) hcollecting.lost
    | true =>
      have hread : asmStep pid a' (blockPacket pid false cc block) = _ :=
        asmStep_continuation hcc hfilled.head_length a'
      rw [hcollecting.resync, if_pos hactive, ← append_assoc] at hread
      refine ih hfilled.tail hread hactive rfl rfl (by rw [append_assoc]; exact hpart) ?_ hnext
        htail hloss.arrived
      intro hblocks
      rw [hfilled.head_full hblocks, length_append]
      exact ⟨rfl, Nat.le_add_right_of_le hmin⟩

/-- The number of packets of a section. -/
def packetCount (sec : List UInt8) : Nat := (allBlocks (packetSize - 4) (0x00 :: sec)).length

lemma sectionPackets_length (sec : List UInt8) (pid : Nat) (cc : UInt8) :
    (sectionPackets sec pid cc).1.length = packetCount sec := packetizeBlocks_length _ _ _ _

lemma firstBlock_pointer {size : Nat} (hpos : 0 < size) {block : List UInt8}
    (hfilled : Filled size (block :: blocks))
    (hflatten : (block :: blocks).flatten = 0x00 :: sec) :
    ∃ part, block = 0x00 :: part ∧ part ++ blocks.flatten = sec := by
  have hne : block ≠ [] := by
    rintro rfl
    cases blocks with
    | nil => exact hfilled.1 rfl
    | cons next rest => exact absurd hfilled.1 hpos.ne
  obtain ⟨b, part, rfl⟩ := exists_cons_of_ne_nil hne
  rw [flatten_cons, cons_append, cons.injEq] at hflatten
  exact ⟨part, by rw [hflatten.1], hflatten.2⟩

/-- A section comes out iff all its packets arrive. -/
lemma reads_section (pid : Nat) (hsec : WellSized sec) (hfirst : sec.getD 0 0 ≠ 0xFF)
    {keep more : List Bool} (hcc : cc &&& 0x0F = counterAt n)
    (hlength : keep.length = packetCount sec) (hloss : LossBounded gap (keep ++ more))
    (hidle : Idle a n gap) : Reads pid a (kept (sectionPackets sec pid cc).1 keep)
      (if keep.all id then [⟨pid, parse sec⟩] else []) (n + packetCount sec) more := by
  have hpos : 0 < packetSize - 4 := by decide
  have hfilled := filled_allBlocks hpos (0x00 :: sec)
  have hflatten := allBlocks_flatten hpos (0x00 :: sec)
  rw [packetCount] at hlength
  rw [sectionPackets, packetCount]
  cases hblocks : allBlocks (packetSize - 4) (0x00 :: sec) with
  | nil => simp [hblocks] at hflatten
  | cons block blocks =>
    rw [hblocks] at hfilled hflatten hlength
    obtain ⟨part, rfl, hpart⟩ := firstBlock_pointer hpos hfilled hflatten
    obtain ⟨k, keep, rfl⟩ := exists_cons_of_length_eq_add_one hlength
    have hnext := nextCC_of_lowNibble hcc
    have htail : keep.length = blocks.length := by simpa using hlength
    rw [packetizeBlocks, length_cons, Nat.add_comm blocks.length, ← Nat.add_assoc]
    cases k with
    | false =>
      have hbounded := LossBounded.lost hloss
      exact reads_lost pid hfilled.tail hnext htail hbounded
        (hidle.lost hbounded.gap_lt)
    | true =>
      have hstep : asmStep pid a (blockPacket pid true cc (0x00 :: part)) = _ :=
        asmStep_start hcc hfilled.head_length hidle.resync_inactive
      have hfull : blocks ≠ [] → packetSize - 4 - (0x00 :: part).length = 0 ∧
          3 ≤ part.length := by
        intro hne
        have hsize : part.length + 1 = 188 - 4 := hfilled.head_full hne
        rw [hfilled.head_full hne]
        exact ⟨Nat.sub_self _, by omega⟩
      exact reads_collected pid hsec hfirst hfilled.tail hstep rfl rfl rfl hpart hfull hnext
        htail hloss.arrived

/-! ## The packets of all sections -/

/-- The sections none of whose packets is lost. -/
def survivors : List (List UInt8) → List Bool → List (List UInt8)
  | [], _ => []
  | sec :: rest, keep =>
    let tail := survivors rest (keep.drop (packetCount sec))
    if (keep.take (packetCount sec)).all id then sec :: tail else tail

lemma sectionPackets_counter (hcc : cc &&& 0x0F = counterAt n) :
    (sectionPackets sec pid cc).2 &&& 0x0F = counterAt (n + packetCount sec) := by
  unfold sectionPackets packetCount
  generalize allBlocks (packetSize - 4) (0x00 :: sec) = blocks
  generalize true = first
  induction blocks generalizing first cc n with
  | nil => exact hcc
  | cons block blocks ih =>
    rw [packetizeBlocks, ih (nextCC_of_lowNibble hcc), length_cons, Nat.add_assoc, Nat.add_comm 1]

variable {secs : List (List UInt8)}

/-- The outcomes on the PID are the surviving sections, in order. -/
lemma reads_sections (pid : Nat) (hsecs : ∀ sec ∈ secs, SentSection sec) {keep : List Bool}
    (hcc : cc &&& 0x0F = counterAt n)
    (hlength : keep.length = (packetizeAll pid cc secs).1.length) (hloss : LossBounded gap keep)
    (hidle : Idle a n gap) : (asmRun pid a (kept (packetizeAll pid cc secs).1 keep)).2 =
      (survivors secs keep).map fun sec => ⟨pid, parse sec⟩ := by
  induction secs generalizing keep a n gap cc with
  | nil => simp [packetizeAll, kept, asmRun, survivors]
  | cons sec rest ih =>
    have hhead := hsecs sec (by simp)
    have hrest : ∀ s ∈ rest, SentSection s := fun s hs => hsecs s (mem_cons_of_mem _ hs)
    have hcount := sectionPackets_length sec pid cc
    rw [packetizeAll, length_append] at hlength
    have hsplit : keep.take (packetCount sec) ++ keep.drop (packetCount sec) = keep :=
      take_append_drop _ _
    have htake : (keep.take (packetCount sec)).length = packetCount sec := by
      rw [length_take]
      omega
    rw [← hsplit] at hloss
    have hread := reads_section pid hhead.size hhead.first_ne hcc htake hloss hidle
    obtain ⟨gap', hloss', hidle'⟩ := hread.idle
    have hcc' : (sectionPackets sec pid cc).2 &&& 0x0F = counterAt (n + packetCount sec) :=
      sectionPackets_counter hcc
    have htail := ih hrest hcc' (by rw [length_drop]; omega) hloss' hidle'
    rw [packetizeAll, kept_append _ _ _ (by omega), hcount, asmRun_append,
      hread.outcomes, htail, survivors]
    split <;> simp

/-! ## A stream with losses -/

/-- What `ExtractSections` returns for a section found on `pid`. -/
def parsedOn (pid : Nat) (sec : List UInt8) : Option Info := Outcome.info ⟨pid, parse sec⟩

lemma outcome_info_pid {o : Outcome} {info : Info} (h : o.info = some info) : info.pid = o.pid := by
  unfold Outcome.info at h
  split at h
  · cases h
    rfl
  · cases h

lemma filter_infos (outcomes : List Outcome) (pid : Nat) :
    (outcomes.filterMap Outcome.info).filter (fun i => i.pid = pid) =
      (outcomes.filter fun o => o.pid = pid).filterMap Outcome.info := by
  induction outcomes with
  | nil => rfl
  | cons o outcomes ih =>
    cases hinfo : o.info with
    | none =>
      rw [filterMap_cons_none hinfo, ih]
      by_cases hpid : o.pid = pid <;> simp [hpid, hinfo]
    | some info =>
      have hsame := outcome_info_pid hinfo
      by_cases hpid : o.pid = pid <;> simp [hsame, hpid, hinfo, ih]

lemma usablePackets_streamBytes {ps : List Packet} (haligned : syncOffset (streamBytes ps) = 0) :
    usablePackets (streamBytes ps) = ps.filter usable := by
  rw [usablePackets, haligned, drop_zero, packetsOf_streamBytes]

lemma extractSections_of_tables {ts : List UInt8} {pkts : List Packet}
    (hpkts : usablePackets ts = pkts) {pmtPID : Nat} (hpat : pkts.findSome? patOf = some pmtPID)
    (hpmt : pkts.filterMap (pmtOf pmtPID) ≠ []) : extractSections ts =
      ((reassemble (announced (pkts.filterMap (pmtOf pmtPID))) (fun _ => {})
          pkts).filterMap Outcome.info,
        joinErrors ((reassemble (announced (pkts.filterMap (pmtOf pmtPID)))
          (fun _ => {}) pkts).filterMap Outcome.err)) := by
  simp only [extractSections, hpkts, hpat, if_neg hpmt]

lemma ne_nil_of_announced {pmts : List PmtInfo} (h : announced pmts pid = true) : pmts ≠ [] := by
  rintro rfl
  simp [announced] at h

section Stream

variable (pid : Nat) (stream : List (Packet × Bool))

/-- The packets that arrive. -/
def arrived : List Packet := (stream.filter Prod.snd).map Prod.fst

/-- Which packets of the PID arrive. -/
def ownKeep : List Bool := (stream.filter fun e => decide (pktPID e.1 = pid)).map Prod.snd

/-- The PMTs of the program that arrive. -/
def arrivedPMTs (pmtPID : Nat) : List PmtInfo :=
  ((arrived stream).filter usable).filterMap (pmtOf pmtPID)

end Stream

lemma own_arrived {stream : List (Packet × Bool)}
    (hown : (stream.map Prod.fst).filter (fun p => decide (pktPID p = pid)) =
      (packetizeAll pid cc secs).1) :
    ((arrived stream).filter usable).filter (fun p => decide (pktPID p = pid)) =
      kept (packetizeAll pid cc secs).1 (ownKeep pid stream) := by
  have husable : ∀ p ∈ (packetizeAll pid cc secs).1, usable p = true :=
    forall_packetizeAll (fun _ _ _ => blockPacket_usable) cc secs
  have hsub : ∀ p ∈ (arrived stream).filter (fun p => decide (pktPID p = pid)),
      usable p = true := by
    intro p hp
    apply husable
    rw [← hown]
    obtain ⟨hmem, hp⟩ := mem_filter.mp hp
    obtain ⟨e, he, rfl⟩ := mem_map.mp hmem
    exact mem_filter.mpr ⟨mem_map_of_mem (mem_filter.mp he).1, hp⟩
  rw [filter_comm, filter_eq_self.mpr hsub, arrived, filter_arrived, hown]
  rfl

lemma reassemble_survivors (hsecs : ∀ sec ∈ secs, SentSection sec)
    {stream : List (Packet × Bool)}
    (hown : (stream.map Prod.fst).filter (fun p => decide (pktPID p = pid)) =
      (packetizeAll pid cc secs).1)
    (hloss : LossBounded 0 (ownKeep pid stream)) {scte : Nat → Bool} (hscte : scte pid = true) :
    (reassemble scte (fun _ => {}) ((arrived stream).filter usable)).filter
        (fun o => o.pid = pid) =
      (survivors secs (ownKeep pid stream)).map fun sec => ⟨pid, parse sec⟩ := by
  have hlength : (ownKeep pid stream).length = (packetizeAll pid cc secs).1.length := by
    rw [← hown, ownKeep, length_map, filter_map, length_map]
    rfl
  rw [reassemble_filter hscte, own_arrived hown]
  exact reads_sections pid hsecs (lowNibble_eq_counterAt cc) hlength hloss
    (Or.inl ⟨rfl, rfl⟩)

/-- Sections are packetized on a PID, mixed with other packets, and some packets
get lost, never sixteen consecutive ones of the PID.  If the first valid PAT
that arrives leads to a PMT that announces the PID, then what
`ExtractSections` returns for the PID is the surviving sections that decode; if
no other PID is announced, it returns nothing else. -/
theorem extractSections_survivors (pid : Nat) (cc : UInt8) (secs : List (List UInt8))
    (stream : List (Packet × Bool)) (pmtPID : Nat)
    (hsecs : ∀ sec ∈ secs, SentSection sec)
    (hown : (stream.map Prod.fst).filter (fun p => decide (pktPID p = pid)) =
      (packetizeAll pid cc secs).1)
    (hloss : ¬ replicate 16 false <:+: ownKeep pid stream)
    (haligned : syncOffset (streamBytes (arrived stream)) = 0)
    (hpat : ((arrived stream).filter usable).findSome? patOf = some pmtPID)
    (hpmt : announced (arrivedPMTs stream pmtPID) pid = true) :
    (extractSections (streamBytes (arrived stream))).1.filter (fun i => i.pid = pid) =
        (survivors secs (ownKeep pid stream)).filterMap (parsedOn pid) ∧
      ((∀ q, announced (arrivedPMTs stream pmtPID) q = true → q = pid) →
        (extractSections (streamBytes (arrived stream))).1 =
          (survivors secs (ownKeep pid stream)).filterMap (parsedOn pid)) := by
  have hextract := extractSections_of_tables (usablePackets_streamBytes haligned) hpat
    (ne_nil_of_announced hpmt)
  have hown := reassemble_survivors hsecs hown hloss hpmt
  -- outcomes that do not decode are errors and give no section
  have hinfos : ((survivors secs (ownKeep pid stream)).map fun sec =>
      (⟨pid, parse sec⟩ : Outcome)).filterMap Outcome.info =
      (survivors secs (ownKeep pid stream)).filterMap (parsedOn pid) := by
    rw [filterMap_map]
    rfl
  rw [hextract]
  refine ⟨?_, fun honly => ?_⟩
  · rw [filter_infos, ← hinfos, ← hown]
    rfl
  · have hall : ∀ o ∈ reassemble (announced (arrivedPMTs stream pmtPID)) (fun _ => {})
        ((arrived stream).filter usable), decide (o.pid = pid) = true := fun o ho =>
      decide_eq_true (honly o.pid (reassemble_announced _ _ o ho))
    rw [filter_eq_self.mpr hall] at hown
    rw [← hinfos, ← hown]
    rfl

/-! ### One program with two SCTE-35 streams -/

/-- A PAT whose only program has its PMT on PID 0x100. -/
def samplePAT : List UInt8 :=
  appendCRC [0x00, 0xB0, 0x0D, 0x00, 0x01, 0xC1, 0x00, 0x00, 0x00, 0x01, 0xE1, 0x00]

/-- A PMT that announces SCTE-35 on PID 500. -/
def samplePMT : List UInt8 :=
  appendCRC [0x02, 0xB0, 0x12, 0x00, 0x01, 0xC1, 0x00, 0x00, 0xE1, 0x01, 0xF0, 0x00,
    0x86, 0xE1, 0xF4, 0xF0, 0x00]

/-- A PMT that announces SCTE-35 on PIDs 500 and 501. -/
def samplePMT2 : List UInt8 :=
  appendCRC [0x02, 0xB0, 0x17, 0x00, 0x01, 0xC1, 0x00, 0x00, 0xE1, 0x01, 0xF0, 0x00,
    0x86, 0xE1, 0xF4, 0xF0, 0x00, 0x86, 0xE1, 0xF5, 0xF0, 0x00]

/-- A splice_null section. -/
def sampleNull : List UInt8 := buildSection cmdSpliceNull [] []

/-- Tables and one section on `pid`; everything arrives. -/
def sampleStream (pmt : List UInt8) (pid : Nat) : List (Packet × Bool) :=
  ((sectionPackets samplePAT 0 0).1 ++ (sectionPackets pmt 0x100 0).1 ++
    (sectionPackets sampleNull pid 0).1).map fun p => (p, true)

theorem extractSections_survivors_sample :
    (extractSections (streamBytes (arrived (sampleStream samplePMT 500)))).1 =
      [sampleNull].filterMap (parsedOn 500) := by
  have hpmts : arrivedPMTs (sampleStream samplePMT 500) 0x100 =
      [{ pcrPID := 0x101, videoPID := 0, streams := [⟨0x86, 500⟩], piLen := 0,
         esStart := 12, esEnd := 17, hasCUEI := false }] := by decide +kernel
  have h := (extractSections_survivors 500 0 [sampleNull] (sampleStream samplePMT 500)
    0x100 (by
      intro sec hsec
      rw [mem_singleton.mp hsec]
      exact ⟨by decide +kernel, (declaredLength_buildSection _ _ _ (by decide)).symm⟩)
    (by decide +kernel) (by decide +kernel) (by decide +kernel) (by decide +kernel)
    (by rw [hpmts]; decide)).2
  rw [h]
  · decide +kernel
  · rw [hpmts]
    intro q hq
    simpa [announced, streamTypeSCTE35, eq_comm] using hq

/-- The program announces a second SCTE-35 PID: without any section on PID 500
and without losses, the section on PID 501 is returned. -/
theorem extractSections_second_pid :
    (sampleStream samplePMT2 501).map Prod.snd = [true, true, true] ∧
      ((sampleStream samplePMT2 501).map Prod.fst).filter
        (fun p => decide (pktPID p = 500)) = (packetizeAll 500 0 []).1 ∧
      ((arrived (sampleStream samplePMT2 501)).filter usable).findSome? patOf =
        some 0x100 ∧
      announced (arrivedPMTs (sampleStream samplePMT2 501) 0x100) 500 = true ∧
      (survivors [] (ownKeep 500 (sampleStream samplePMT2 501))).filterMap
        (parsedOn 500) = [] ∧
      (extractSections (streamBytes (arrived (sampleStream samplePMT2 501)))).1.map
        Info.pid = [501] := by decide +kernel

end StreamHub.Scte35
