import StreamHub.Scte35.InjectorRun
import StreamHub.Scte35.PmtRewrite
import StreamHub.Scte35.Reassembly

/-!
# Extraction undoes injection

An injector relays a stream and adds sections to it; `ExtractSections` reads the
result back.  The invariant `Relayed` says what the extractor will see of the
relayed packets: every PAT names the one PMT PID, PMTs announce SCTE-35 at most
on the injector's PID, and a rewritten one announces it.  The added packets are
the only ones on this PID and form one packetization (`Transmitted`), so pass 2
returns exactly the added sections.
-/

namespace StreamHub.Scte35

open Library.Bytes Library.Blocks Library.Loss List

/-! ## Input packets -/

/-- What is assumed of an input packet: it is looked at, not on the injector's
PID, names no PMT PID but `pmtPID` if it is a PAT, and announces no SCTE-35
stream if it is a PMT. -/
structure CleanInput (pid pmtPID : Nat) (p : Packet) : Prop where
  usable : usable p = true
  free : pktPID p ≠ pid
  pat : ∀ v, patOf p = some v → v = pmtPID
  pmt : ∀ pi, pmtOf pmtPID p = some pi → ∀ e ∈ pi.streams, e.streamType ≠ streamTypeSCTE35

/-- The relayed packets `ps` as the extractor will see them. -/
structure Relayed (pid pmtPID : Nat) (i : Injector) (ps : List Packet) : Prop where
  owner : i.pid = pid
  usable : ∀ q ∈ ps, usable q = true
  pats : ∀ q ∈ ps, pktPID q ≠ pid → ∀ v, patOf q = some v → v = pmtPID
  pmts : ∀ q ∈ ps, pktPID q ≠ pid → ∀ pi, pmtOf pmtPID q = some pi →
    ∀ e ∈ pi.streams, e.streamType = streamTypeSCTE35 → e.pid = pid
  known : i.havePMT = true →
    i.pmtPID = pmtPID ∧ ∃ q ∈ ps, pktPID q ≠ pid ∧ patOf q = some pmtPID
  rewritten : 0 < i.pmtRewritten → i.havePMT = true ∧ ∃ q ∈ ps, pktPID q ≠ pid ∧
    ∃ pi, pmtOf pmtPID q = some pi ∧ ⟨streamTypeSCTE35, pid⟩ ∈ pi.streams

/-- The part of an injector's state that the program tables determine. -/
def Injector.tables (i : Injector) : Nat × Bool × Nat × Nat :=
  (i.pid, i.havePMT, i.pmtPID, i.pmtRewritten)

namespace Relayed

variable {pid pmtPID : Nat} {i j : Injector} {ps : List Packet}

section

variable (h : Relayed pid pmtPID i ps)

include h

lemma of_tables (htables : j.tables = i.tables) : Relayed pid pmtPID j ps := by
  simp only [Injector.tables, Prod.mk.injEq] at htables
  obtain ⟨hpid, hhave, hpmt, hcount⟩ := htables
  exact ⟨hpid.trans h.owner, h.usable, h.pats, h.pmts, by rw [hhave, hpmt]; exact h.known,
    by rw [hcount, hhave]; exact h.rewritten⟩

lemma append {new : List Packet}
    (husable : ∀ q ∈ new, Scte35.usable q = true)
    (hpats : ∀ q ∈ new, pktPID q ≠ pid → ∀ v, patOf q = some v → v = pmtPID)
    (hpmts : ∀ q ∈ new, pktPID q ≠ pid → ∀ pi, pmtOf pmtPID q = some pi →
      ∀ e ∈ pi.streams, e.streamType = streamTypeSCTE35 → e.pid = pid) :
    Relayed pid pmtPID i (ps ++ new) where
  owner := h.owner
  usable := fun q hq => (mem_append.mp hq).elim (h.usable q) (husable q)
  pats := fun q hq => (mem_append.mp hq).elim (h.pats q) (hpats q)
  pmts := fun q hq => (mem_append.mp hq).elim (h.pmts q) (hpmts q)
  known := fun hhave => by
    obtain ⟨hpmt, q, hq, hpat⟩ := h.known hhave
    exact ⟨hpmt, q, mem_append_left _ hq, hpat⟩
  rewritten := fun hcount => by
    obtain ⟨hhave, q, hq, hpmt⟩ := h.rewritten hcount
    exact ⟨hhave, q, mem_append_left _ hq, hpmt⟩

lemma append_own {own : List Packet} (husable : ∀ q ∈ own, Scte35.usable q = true)
    (hown : ∀ q ∈ own, pktPID q = pid) : Relayed pid pmtPID i (ps ++ own) :=
  h.append husable (fun q hq hne => absurd (hown q hq) hne)
    (fun q hq hne => absurd (hown q hq) hne)

lemma append_same {p : Packet}
    (hp : CleanInput pid pmtPID p) : Relayed pid pmtPID i (ps ++ [p]) := by
  apply h.append <;> intro q hq <;> rw [mem_singleton.mp hq]
  · exact hp.usable
  · exact fun _ => hp.pat
  · exact fun _ pi hpi e he htype => absurd htype (hp.pmt pi hpi e he)

end

end Relayed

/-! ## One packet -/

namespace Injector

lemma onPTS_tables (i : Injector) (v : Nat) : (i.onPTS v).tables = i.tables := by
  simp only [onPTS]
  split
  · rfl
  · split <;> rfl

lemma onPCR_tables (i : Injector) (v : Nat) : (i.onPCR v).tables = i.tables := by
  simp only [onPCR]
  split
  · rfl
  split
  · rfl
  · split <;> rfl

lemma track_tables (i : Injector) (p : Packet) : ((i.trackPCR p).trackPTS p).tables = i.tables := by
  have hpcr : (i.trackPCR p).tables = i.tables := by
    unfold trackPCR
    split
    · split
      · rfl
      · exact onPCR_tables i _
    · rfl
  have hpts : ∀ j : Injector, (j.trackPTS p).tables = j.tables := by
    intro j
    unfold trackPTS
    split
    · split
      · rfl
      · exact onPTS_tables j _
    · rfl
  rw [hpts, hpcr]

/-- A usable packet does to the tables what `followTables` does. -/
lemma processPacket_tables {i : Injector} {p : Packet} (hp : usable p = true) :
    (i.processPacket p).1.tables = (i.followTables p).1.tables ∧
      (i.processPacket p).2 = (i.followTables p).2 := by
  simp only [processPacket, if_pos hp, and_true]
  split
  · exact track_tables _ p
  · rfl

lemma onPMT_cases (i : Injector) (p : Packet) :
    ((i.onPMT p).1.tables = i.tables ∧ (i.onPMT p).2 = none) ∨
      ∃ pi np, rewritePMT p i.pid = some (pi, some np) ∧ (i.onPMT p).2 = some np ∧
        (i.onPMT p).1.tables = (i.pid, i.havePMT, i.pmtPID, i.pmtRewritten + 1) := by
  have hlearn : ∀ (pi : PmtInfo) (np : Option Packet), rewritePMT p i.pid = some (pi, np) →
      (i.onPMT p).2 = np ∧ (i.onPMT p).1.tables = (i.pid, i.havePMT, i.pmtPID,
        if np.isSome then i.pmtRewritten + 1 else i.pmtRewritten) := by
    intro pi np hrewrite
    simp only [onPMT, hrewrite, tables, true_and]
    split <;> rfl
  cases hrewrite : rewritePMT p i.pid with
  | none => exact .inl (by simp only [onPMT, hrewrite, and_self])
  | some result =>
    obtain ⟨pi, np⟩ := result
    obtain ⟨hnp, htables⟩ := hlearn pi np hrewrite
    cases np with
    | none => exact .inl ⟨htables, hnp⟩
    | some np => exact .inr ⟨pi, np, rfl, hnp, htables⟩

lemma packPending_tables (i : Injector) (buf : List UInt8) (pending : List PendingSection) :
    (i.packPending buf pending).1.tables = i.tables := by
  induction pending generalizing i buf with
  | nil => rfl
  | cons ps rest ih =>
    have hcount : ∀ j : Injector, (countSent j ps).tables = j.tables := by
      intro j
      unfold countSent
      split <;> rfl
    rw [packPending, ih, hcount]
    rfl

lemma process_tables (i : Injector) (dgram : List UInt8) :
    (i.process dgram).1.tables = (i.processPackets (packetsOf dgram)).1.tables := by
  simp only [process]
  split
  · rfl
  · exact packPending_tables _ _ _

end Injector

namespace Relayed

variable {pid pmtPID : Nat} {i : Injector} {ps : List Packet} {p : Packet}

section

variable (h : Relayed pid pmtPID i ps)

include h

/-- A PAT packet: the PMT PID is learned. -/
lemma onPAT (hp : CleanInput pid pmtPID p)
    (hzero : pktPID p = 0) : Relayed pid pmtPID (i.onPAT p) (ps ++ [p]) := by
  have hsame := h.append_same hp
  unfold Injector.onPAT
  split
  · exact hsame
  rename_i v hv
  have hpat : patOf p = some v := by rw [patOf, if_pos hzero, hv]
  have hv := hp.pat v hpat
  subst hv
  split
  · exact ⟨hsame.owner, hsame.usable, hsame.pats, hsame.pmts,
      fun _ => ⟨rfl, p, mem_append_right _ (mem_singleton.mpr rfl),
        hp.free, hpat⟩, fun hcount => ⟨rfl, (hsame.rewritten hcount).2⟩⟩
  · exact hsame

/-- A rewritten PMT packet. -/
lemma append_rewritten (hpid : pid < 8192) (hp : CleanInput pid pmtPID p)
    (hpmt : pktPID p = pmtPID) (hne : pktPID p ≠ 0) {pi : PmtInfo} {np : Packet}
    (hrewrite : rewritePMT p pid = some (pi, some np)) (hhave : i.havePMT = true) {j : Injector}
    (hj : j.pid = i.pid ∧ j.havePMT = i.havePMT ∧ j.pmtPID = i.pmtPID) :
    Relayed pid pmtPID j (ps ++ [np]) ∧ pktPID np ≠ pid := by
  obtain ⟨hsamePID, husable, sec, has, hparse⟩ := rewritePMT_announces hpid hrewrite
  obtain ⟨oldSec, off, hsection, hvalid, -⟩ := rewritePMT_some hrewrite
  have hold : pmtOf pmtPID p = some pi := by
    rw [pmtOf, if_pos hpmt, hsection]
    exact (parsePMT_iff _ _).mpr hvalid
  have hnew : pmtOf pmtPID np = some (rewrittenInfo sec pi pid has) := by
    rw [pmtOf, if_pos (hsamePID.trans hpmt), hparse]
  have hfree : pktPID np ≠ pid := by
    rw [hsamePID]
    exact hp.free
  have hnopat : patOf np = none := by rw [patOf, hsamePID, if_neg hne]
  have hsent : Relayed pid pmtPID i (ps ++ [np]) := by
    apply h.append <;> intro q hq <;> rw [mem_singleton.mp hq]
    · rw [husable]
      exact hp.usable
    · intro _ v hv
      rw [hnopat] at hv
      cases hv
    · -- the only SCTE-35 stream of the new PMT is the one added
      intro _ pi' hpi e he htype
      rw [hnew] at hpi
      cases hpi
      rcases mem_append.mp he with heold | henew
      · exact absurd htype (hp.pmt pi hold e heold)
      · rw [mem_singleton.mp henew]
  refine ⟨⟨hj.1.trans h.owner, hsent.usable, hsent.pats, hsent.pmts, ?_, fun _ => ?_⟩, hfree⟩
  · rw [hj.2.1, hj.2.2]
    exact hsent.known
  · exact ⟨hj.2.1.trans hhave, np, by simp, hfree, _, hnew, by simp [rewrittenInfo]⟩

/-- One input packet. -/
lemma processPacket (hpid : pid < 8192) (hp : CleanInput pid pmtPID p) :
    Relayed pid pmtPID (i.processPacket p).1 (ps ++ [(i.processPacket p).2]) ∧
      pktPID (i.processPacket p).2 ≠ pid := by
  obtain ⟨htables, hpacket⟩ := Injector.processPacket_tables hp.usable
  rw [hpacket]
  suffices hfollow : Relayed pid pmtPID (i.followTables p).1
      (ps ++ [(i.followTables p).2]) ∧ pktPID (i.followTables p).2 ≠ pid from
    ⟨hfollow.1.of_tables htables, hfollow.2⟩
  unfold Injector.followTables
  split
  · rename_i hzero
    exact ⟨h.onPAT hp hzero, hp.free⟩
  split
  · rename_i hne hpmt
    have hknown := h.known hpmt.1
    have hhere : pktPID p = pmtPID := hpmt.2.trans hknown.1
    rcases i.onPMT_cases p with ⟨htables, hnone⟩ | ⟨pi, np, hrewrite, hnp, htables⟩
    · simp only [hnone, Option.getD_none]
      exact ⟨(h.append_same hp).of_tables htables, hp.free⟩
    rw [h.owner] at hrewrite
    simp only [Injector.tables, Prod.mk.injEq] at htables
    simp only [hnp, Option.getD_some]
    exact h.append_rewritten hpid hp hhere hne hrewrite hpmt.1
      ⟨htables.1, htables.2.1, htables.2.2.1⟩
  · exact ⟨h.append_same hp, hp.free⟩

lemma processPackets (hpid : pid < 8192)
    {input : List Packet} (hinput : ∀ p ∈ input, CleanInput pid pmtPID p) :
    Relayed pid pmtPID (i.processPackets input).1 (ps ++ (i.processPackets input).2) ∧
      ∀ q ∈ (i.processPackets input).2, pktPID q ≠ pid := by
  induction input generalizing i ps with
  | nil => exact ⟨by simpa [Injector.processPackets] using h, by simp [Injector.processPackets]⟩
  | cons p input ih =>
    obtain ⟨hstep, hfree⟩ := h.processPacket hpid (hinput p (by simp))
    obtain ⟨hrest, hfrees⟩ := ih hstep fun q hq => hinput q (mem_cons_of_mem _ hq)
    rw [append_assoc] at hrest
    exact ⟨hrest, forall_mem_cons.mpr ⟨hfree, hfrees⟩⟩

end

end Relayed

/-! ## Whole runs -/

/-- The datagrams a call returned. -/
def Event.datagrams : Event → List (List UInt8)
  | .sent out extra => out :: extra
  | _ => []

/-- Everything `Process` returned, one datagram after the other. -/
def transmitted (es : List Event) : List UInt8 := (es.flatMap Event.datagrams).flatten

/-- The datagrams given to `Process`. -/
def Call.input : Call → Option (List UInt8)
  | .process dgram => some dgram
  | _ => none

def inputs (calls : List Call) : List (List UInt8) := calls.filterMap Call.input

def inputPackets (calls : List Call) : List Packet := (inputs calls).flatMap packetsOf

lemma transmitted_append_event (es : List Event) (e : Event) :
    transmitted (es ++ [e]) = transmitted es ++ e.datagrams.flatten := by simp [transmitted]

/-- The transmitted stream: relayed packets, and the packetization of `secs` on
the injector's PID. -/
structure Transmitted (pid pmtPID : Nat) (i : Injector) (es : List Event)
    (secs : List (List UInt8)) (ps : List Packet) : Prop where
  balanced : Balanced pid i es secs
  relayed : Relayed pid pmtPID i ps
  bytes : transmitted es = streamBytes ps
  own : ps.filter (fun q => decide (pktPID q = pid)) =
    (packetizeAll pid (counterAt 0) secs).1

lemma leftover_of_dvd {size : Nat} {b : List UInt8} (h : size ∣ b.length) :
    leftover size b = [] := by rw [leftover, Nat.div_mul_cancel h, drop_length]

namespace Transmitted

variable {pid pmtPID : Nat} {i j : Injector} {es : List Event}
  {secs : List (List UInt8)} {ps : List Packet}

section

variable (h : Transmitted pid pmtPID i es secs ps)

include h

lemma quiet {e : Event}
    (hbalanced : Balanced pid j (es ++ [e]) secs) (htables : j.tables = i.tables)
    (hnone : e.datagrams = []) : Transmitted pid pmtPID j (es ++ [e]) secs ps where
  balanced := hbalanced
  relayed := h.relayed.of_tables htables
  bytes := by rw [transmitted_append_event, hnone, flatten_nil, append_nil, h.bytes]
  own := h.own

/-- A `Process` call on clean input. -/
lemma process (hpid : pid < 8192) {dgram : List UInt8} (hwhole : packetSize ∣ dgram.length)
    (hclean : ∀ p ∈ packetsOf dgram, CleanInput pid pmtPID p) :
    ∃ secs' ps', Transmitted pid pmtPID (i.call (.process dgram)).1
      (es ++ [(i.call (.process dgram)).2]) secs' ps' := by
  obtain ⟨k, hsent⟩ := Injector.process_spec i dgram
  obtain ⟨hrelayed, hfree⟩ := h.relayed.processPackets hpid hclean
  have hout : (i.process dgram).2.headD [] =
      streamBytes (i.processPackets (packetsOf dgram)).2 := by
    simp only [Injector.process, leftover_of_dvd hwhole, append_nil]
    split <;> rfl
  obtain ⟨added, hadded⟩ : ∃ added, added = (packetizeAll pid i.cc
      (i.pending.map PendingSection.sec ++ replicate k heartbeatSection)).1 := ⟨_, rfl⟩
  have hownPID : ∀ q ∈ added, pktPID q = pid := by
    rw [hadded]
    exact forall_packetizeAll (fun _ _ _ => blockPacket_pktPID hpid) _ _
  have hownUsable : ∀ q ∈ added, usable q = true := by
    rw [hadded]
    exact forall_packetizeAll (fun _ _ _ => blockPacket_usable) _ _
  refine ⟨_, ps ++ (i.processPackets (packetsOf dgram)).2 ++ added,
    h.balanced.send hsent _, ?_, ?_, ?_⟩
  · exact (hrelayed.append_own hownUsable hownPID).of_tables (i.process_tables dgram)
  · rw [transmitted_append_event, h.bytes]
    simp only [Injector.call, Event.datagrams, flatten_cons, hout, hsent.packets,
      streamBytes_append, append_assoc, hadded, h.balanced.owner]
  · have hnone : (i.processPackets (packetsOf dgram)).2.filter
        (fun q => decide (pktPID q = pid)) = [] := by
      rw [filter_eq_nil_iff]
      intro q hq
      simpa using hfree q hq
    have hall : added.filter (fun q => decide (pktPID q = pid)) = added := by
      rw [filter_eq_self]
      intro q hq
      simpa using hownPID q hq
    rw [filter_append, filter_append, h.own, hnone, hall, append_nil,
      packetizeAll_append pid _ secs, hadded, h.balanced.cc]

lemma call (hpid : pid < 8192) (c : Call)
    (hwhole : ∀ dgram, c.input = some dgram → packetSize ∣ dgram.length)
    (hclean : ∀ dgram, c.input = some dgram → ∀ p ∈ packetsOf dgram, CleanInput pid pmtPID p) :
    ∃ secs' ps', Transmitted pid pmtPID (i.call c).1 (es ++ [(i.call c).2]) secs' ps' := by
  cases c with
  | insert c =>
    simp only [Injector.call]
    split
    · rename_i pts j hinsert
      obtain ⟨pending, -, hcue, hsec, rfl⟩ := Injector.insert_ok hinsert
      rw [hsec]
      exact ⟨secs, ps, h.quiet (h.balanced.accept pending (by rw [hcue]; rfl)) rfl rfl⟩
    rename_i err j hinsert
    obtain rfl := Injector.insert_error hinsert
    exact ⟨secs, ps, h.quiet
      (h.balanced.idle rfl (ledger_append_event _ _) rfl rfl rfl rfl rfl) rfl rfl⟩
  | setHeartbeat d =>
    exact ⟨secs, ps, h.quiet
      (h.balanced.idle rfl (ledger_append_event _ _) rfl rfl rfl rfl rfl) rfl rfl⟩
  | process dgram => exact h.process hpid (hwhole dgram rfl) (hclean dgram rfl)

lemma run (hpid : pid < 8192)
    (calls : List Call) (hwhole : ∀ dgram ∈ inputs calls, packetSize ∣ dgram.length)
    (hclean : ∀ p ∈ inputPackets calls, CleanInput pid pmtPID p) :
    ∃ secs' ps', Transmitted pid pmtPID (i.run calls).1 (es ++ (i.run calls).2)
      secs' ps' := by
  induction calls generalizing i es secs ps with
  | nil => exact ⟨secs, ps, by simpa [Injector.run] using h⟩
  | cons c calls ih =>
    have hmem : ∀ dgram, c.input = some dgram → dgram ∈ inputs (c :: calls) :=
      fun dgram hc => mem_filterMap.mpr ⟨c, by simp, hc⟩
    have hsub : ∀ dgram ∈ inputs calls, dgram ∈ inputs (c :: calls) := by
      intro dgram hd
      obtain ⟨c', hc', hd⟩ := mem_filterMap.mp hd
      exact mem_filterMap.mpr ⟨c', mem_cons_of_mem _ hc', hd⟩
    obtain ⟨secs', ps', hcall⟩ := h.call hpid c
      (fun dgram hc => hwhole dgram (hmem dgram hc))
      (fun dgram hc p hp => hclean p (mem_flatMap.mpr ⟨dgram, hmem dgram hc, hp⟩))
    obtain ⟨secs'', ps'', hrun⟩ := ih hcall (fun dgram hd => hwhole dgram (hsub dgram hd))
      (fun p hp => by
        obtain ⟨dgram, hd, hp⟩ := mem_flatMap.mp hp
        exact hclean p (mem_flatMap.mpr ⟨dgram, hsub dgram hd, hp⟩))
    exact ⟨secs'', ps'', by simpa [Injector.run] using hrun⟩

end

end Transmitted

lemma transmitted_new (pid pmtPID : Nat) :
    Transmitted (pid % 2 ^ 13) pmtPID (newInjector pid) [] [] [] where
  balanced := balanced_new pid
  relayed := ⟨rfl, by simp, by simp, by simp, nofun, nofun⟩
  bytes := rfl
  own := rfl

/-! ## Reading the stream back -/

lemma usable_sync {p : Packet} (h : usable p = true) : p.byte 0 = syncByte :=
  (of_decide_eq_true h).1

variable {ps : List Packet}

/-- A stream of packets in sync is aligned. -/
lemma syncOffset_streamBytes (h : ∀ q ∈ ps, usable q = true) : syncOffset (streamBytes ps) = 0 := by
  cases ps with
  | nil => decide +kernel
  | cons p rest =>
    have hsize : p.bytes.length = packetSize := p.size
    have hpos : 0 < packetSize := by decide
    have hfirst : (streamBytes (p :: rest)).getD 0 0 = syncByte := by
      rw [streamBytes_cons, getD_append _ _ _ _ (by omega)]
      exact usable_sync (h p (by simp))
    have hnext : (streamBytes (p :: rest)).length ≤ 0 + packetSize ∨
        (streamBytes (p :: rest)).getD (0 + packetSize) 0 = syncByte := by
      cases rest with
      | nil =>
        left
        rw [streamBytes_length, length_singleton]
        omega
      | cons q rest =>
        right
        rw [streamBytes_cons, streamBytes_cons, Nat.zero_add, getD_append_right _ _ _ _ (by omega),
          hsize, getD_append _ _ _ _ (by rw [q.size]; omega)]
        exact usable_sync (h q (by simp))
    have hlength : 0 < (streamBytes (p :: rest)).length := by
      rw [streamBytes_length, length_cons, Nat.succ_mul]
      omega
    have hrange : range packetSize = 0 :: (range 187).map Nat.succ := range_succ_eq_map
    rw [syncOffset, hrange, find?_cons_of_pos]
    · rfl
    · exact decide_eq_true ⟨hlength, hfirst, hnext⟩

lemma findSome?_of_unique {α β : Type*} {f : α → Option β} {l : List α} {b : β}
    (hex : ∃ a ∈ l, f a = some b) (hall : ∀ a ∈ l, ∀ v, f a = some v → v = b) :
    l.findSome? f = some b := by
  obtain ⟨a, ha, hb⟩ := hex
  have hsome : (l.findSome? f).isSome := by
    rw [findSome?_isSome_iff]
    exact ⟨a, ha, by rw [hb]; rfl⟩
  obtain ⟨v, hv⟩ := Option.isSome_iff_exists.mp hsome
  obtain ⟨a', ha', hv'⟩ := exists_of_findSome?_eq_some hv
  rw [hv, hall a' ha' v hv']

lemma survivors_all (secs : List (List UInt8)) (n : Nat) (hn : n = (secs.map packetCount).sum) :
    survivors secs (replicate n true) = secs := by
  induction secs generalizing n with
  | nil => rfl
  | cons sec rest ih =>
    rw [map_cons, sum_cons] at hn
    rw [survivors, take_replicate, drop_replicate]
    have hall : (replicate (min (packetCount sec) n) true).all id = true := by simp
    rw [if_pos hall, ih _ (by omega)]

lemma packetizeAll_length (pid : Nat) (cc : UInt8) (secs : List (List UInt8)) :
    (packetizeAll pid cc secs).1.length = (secs.map packetCount).sum := by
  induction secs generalizing cc with
  | nil => rfl
  | cons sec rest ih =>
    rw [packetizeAll, length_append, sectionPackets_length, ih, map_cons, sum_cons]

lemma lossBounded_all (n : Nat) : LossBounded 0 (replicate n true) := by
  intro hwithin
  have hmem : false ∈ replicate n true := hwithin.subset (mem_replicate.mpr ⟨by decide, rfl⟩)
  exact absurd (eq_of_mem_replicate hmem) (by decide)

variable {secs : List (List UInt8)}

lemma asmRun_packetizeAll (pid : Nat) (hsecs : ∀ sec ∈ secs, SentSection sec) :
    (asmRun pid {} (packetizeAll pid (counterAt 0) secs).1).2 =
      secs.map fun sec => ⟨pid, parse sec⟩ := by
  have hread := reads_sections pid hsecs (counterAt_lowNibble 0) length_replicate
    (lossBounded_all _) (Or.inl ⟨rfl, rfl⟩ : Idle {} 0 0)
  rwa [kept_all, survivors_all secs _ (packetizeAll_length _ _ _)] at hread

lemma patOf_pid {p : Packet} {v : Nat} (h : patOf p = some v) : pktPID p = 0 := by
  unfold patOf at h
  split at h
  · assumption
  · cases h

lemma pmtOf_pid {pmtPID : Nat} {p : Packet} {pi : PmtInfo}
    (h : pmtOf pmtPID p = some pi) : pktPID p = pmtPID := by
  unfold pmtOf at h
  split at h
  · assumption
  · cases h

/-- Pass 1 over a transmitted stream in which a PMT was rewritten: it finds the
PMT PID, and SCTE-35 announced on the injector's PID only. -/
lemma Relayed.pass1 {pid pmtPID : Nat} {i : Injector} (h : Relayed pid pmtPID i ps)
    (hrewritten : 0 < i.pmtRewritten) : ps.findSome? patOf = some pmtPID ∧
      ∀ q, announced (ps.filterMap (pmtOf pmtPID)) q = true ↔ q = pid := by
  obtain ⟨hhave, np, hnp, hnpfree, pi, hpi, hmem⟩ := h.rewritten hrewritten
  obtain ⟨-, pat, hpat, hpatfree, hnames⟩ := h.known hhave
  have hne0 : pid ≠ 0 := by
    rw [← patOf_pid hnames]
    exact hpatfree.symm
  have hnem : pid ≠ pmtPID := by
    rw [← pmtOf_pid hpi]
    exact hnpfree.symm
  constructor
  · apply findSome?_of_unique ⟨pat, hpat, hnames⟩
    intro q hq v hv
    exact h.pats q hq (by rw [patOf_pid hv]; exact hne0.symm) v hv
  · intro q
    simp only [announced, any_eq_true, decide_eq_true_eq, mem_filterMap]
    constructor
    · rintro ⟨pi', ⟨q', hq', hpi'⟩, e, he, htype, rfl⟩
      exact h.pmts q' hq' (by rw [pmtOf_pid hpi']; exact hnem.symm) pi' hpi' e he htype
    · rintro rfl
      exact ⟨pi, ⟨np, hnp, hpi⟩, _, hmem, rfl, rfl⟩

lemma outcomes_of_parsed (pid : Nat) (hparse : ∀ sec ∈ secs, (parse sec).2 = none) :
    (secs.map fun sec => (⟨pid, parse sec⟩ : Outcome)).filterMap Outcome.info =
        (secs.map fun sec => { (parse sec).1 with pid := pid }) ∧
      (secs.map fun sec => (⟨pid, parse sec⟩ : Outcome)).filterMap Outcome.err = [] := by
  have hinfo : ∀ sec ∈ secs, Outcome.info ⟨pid, parse sec⟩ =
      some { (parse sec).1 with pid := pid } := by
    intro sec hsec
    have hnone := hparse sec hsec
    unfold Outcome.info
    split
    · rename_i info heq
      rw [show parse sec = (info, none) from heq]
    · rename_i info err heq
      rw [show parse sec = (info, some err) from heq] at hnone
      cases hnone
  have herr : ∀ sec ∈ secs, Outcome.err ⟨pid, parse sec⟩ = none := by
    intro sec hsec
    simp [Outcome.err, hparse sec hsec]
  rw [filterMap_map, filterMap_map, ← filterMap_eq_map]
  exact ⟨filterMap_congr hinfo, filterMap_eq_nil_iff.mpr herr⟩

lemma Balanced.parses {pid : Nat} {i : Injector} {es : List Event} (h : Balanced pid i es secs) :
    ∀ sec ∈ secs, (parse sec).2 = none := by
  intro sec hsec
  obtain ⟨c, pts, hencode⟩ := h.encoded sec hsec
  have hparse := parse_encode hencode []
  rw [append_nil] at hparse
  rw [hparse]

/-- `ExtractSections` on a transmitted stream. -/
lemma Transmitted.extract {pid pmtPID : Nat} {i : Injector} {es : List Event}
    (h : Transmitted pid pmtPID i es secs ps) (hrewritten : 0 < i.pmtRewritten) :
    extractSections (transmitted es) =
      (secs.map fun sec => { (parse sec).1 with pid := pid }, none) := by
  obtain ⟨hpat, hannounced⟩ := h.relayed.pass1 hrewritten
  have hself := (hannounced pid).mpr rfl
  have hpkts : usablePackets (transmitted es) = ps := by
    rw [h.bytes, usablePackets_streamBytes (syncOffset_streamBytes h.relayed.usable),
      filter_eq_self.mpr h.relayed.usable]
  -- no other PID is announced, so all outcomes are of the injector's PID
  have houtcomes : reassemble (announced (ps.filterMap (pmtOf pmtPID))) (fun _ => {}) ps =
      secs.map fun sec => ⟨pid, parse sec⟩ := by
    have hall : ∀ o ∈ reassemble (announced (ps.filterMap (pmtOf pmtPID)))
        (fun _ => {}) ps, decide (o.pid = pid) = true := fun o ho =>
      decide_eq_true ((hannounced o.pid).mp (reassemble_announced _ _ o ho))
    rw [← filter_eq_self.mpr hall, reassemble_filter hself, h.own]
    exact asmRun_packetizeAll pid fun sec hsec => (h.balanced.encoded sec hsec).sent
  obtain ⟨hinfos, herrors⟩ := outcomes_of_parsed pid h.balanced.parses
  rw [extractSections_of_tables hpkts hpat (ne_nil_of_announced hself), houtcomes, hinfos, herrors]
  rfl

lemma pktPID_lt (p : Packet) : pktPID p < 8192 := by
  have hlow := (p.byte 2).toNat_lt
  rw [pktPID, be16, and_low_toNat _ (n := 5) rfl]
  omega

/-- Injection is undone by extraction.  In every run whose input is whole packets
in sync without transport errors, none of them on the injector's PID, with one
PMT PID in all valid PATs, no SCTE-35 stream in the input's PMTs and at least one
rewritten PMT, `ExtractSections` of everything `Process` returned gives no error
and exactly the emitted sections, in order. -/
theorem extract_undoes_inject (pid : Nat) (calls : List Call)
    (hwhole : ∀ dgram ∈ inputs calls, packetSize ∣ dgram.length)
    (husable : ∀ p ∈ inputPackets calls, usable p = true)
    (hfree : ∀ p ∈ inputPackets calls, pktPID p ≠ pid % 2 ^ 13)
    (hpats : ∀ p ∈ inputPackets calls, ∀ q ∈ inputPackets calls, ∀ a b,
      patOf p = some a → patOf q = some b → a = b)
    (hpmts : ∀ p ∈ inputPackets calls, ∀ q ∈ inputPackets calls, ∀ pmtPID pi,
      patOf p = some pmtPID → pmtOf pmtPID q = some pi →
        ∀ e ∈ pi.streams, e.streamType ≠ streamTypeSCTE35)
    (hrewritten : 0 < ((newInjector pid).run calls).1.pmtRewritten) :
    let es := ((newInjector pid).run calls).2
    extractSections (transmitted es) =
        ((carriedSections (extraPackets es)).map fun sec =>
          { (parse sec).1 with pid := pid % 2 ^ 13 }, none) ∧
      ∀ sec ∈ carriedSections (extraPackets es), (parse sec).2 = none := by
  intro es
  -- the PMT PID of the input; without a PAT any PID no packet can have
  obtain ⟨pmtPID, hclean⟩ : ∃ pmtPID, ∀ p ∈ inputPackets calls,
      CleanInput (pid % 2 ^ 13) pmtPID p := by
    by_cases hany : ∃ p ∈ inputPackets calls, ∃ v, patOf p = some v
    · obtain ⟨p, hp, v, hv⟩ := hany
      exact ⟨v, fun q hq => ⟨husable q hq, hfree q hq,
        fun w hw => hpats q hq p hp w v hw hv, fun pi => hpmts p hp q hq v pi hv⟩⟩
    · refine ⟨8192, fun q hq => ⟨husable q hq, hfree q hq, fun w hw => ?_, fun pi hpi => ?_⟩⟩
      · exact absurd ⟨q, hq, w, hw⟩ hany
      · exact absurd (pmtOf_pid hpi) (pktPID_lt q).ne
  obtain ⟨secs, ps, h⟩ := (transmitted_new pid pmtPID).run
    (Nat.mod_lt _ (by decide)) calls hwhole hclean
  rw [nil_append] at h
  rw [h.balanced.carriedSections]
  exact ⟨h.extract hrewritten, h.balanced.parses⟩

/-- A PMT with one H.264 stream. -/
def videoPMT : List UInt8 :=
  appendCRC [0x02, 0xB0, 0x12, 0x00, 0x01, 0xC1, 0x00, 0x00, 0xE1, 0x01, 0xF0, 0x00,
    0x1B, 0xE1, 0x01, 0xF0, 0x00]

/-- A program's tables. -/
def videoTables : List Packet :=
  (sectionPackets samplePAT 0 0).1 ++ (sectionPackets videoPMT 0x100 0).1

/-- A cue is inserted, then the tables pass. -/
def sampleCalls : List Call :=
  [.insert { breakCue with immediate := true }, .process (streamBytes videoTables)]

theorem extract_undoes_inject_sample :
    0 < ((newInjector 500).run sampleCalls).1.pmtRewritten ∧
      (extractSections (transmitted ((newInjector 500).run sampleCalls).2)).2 = none := by
  have hrewritten : 0 < ((newInjector 500).run sampleCalls).1.pmtRewritten := by decide +kernel
  have hinputs : inputs sampleCalls = [streamBytes videoTables] := rfl
  have hpackets : inputPackets sampleCalls = videoTables := by
    rw [inputPackets, hinputs]
    simp
  have hpats : videoTables.map patOf = [some 0x100, none] := by decide +kernel
  have hpmts : videoTables.map (pmtOf 0x100) =
      [none, some ⟨0x101, 0x101, [⟨0x1B, 0x101⟩], 0, 12, 17, false⟩] := by decide +kernel
  have hpat : ∀ p ∈ videoTables, ∀ v, patOf p = some v → v = 0x100 := by
    intro p hp v hv
    have hmem : patOf p ∈ videoTables.map patOf := mem_map_of_mem hp
    rw [hpats, hv] at hmem
    simpa using hmem
  have hpmt : ∀ p ∈ videoTables, ∀ pi, pmtOf 0x100 p = some pi →
      ∀ e ∈ pi.streams, e.streamType ≠ streamTypeSCTE35 := by
    intro p hp pi hpi
    have hmem : pmtOf 0x100 p ∈ videoTables.map (pmtOf 0x100) := mem_map_of_mem hp
    rw [hpmts, hpi] at hmem
    have hpi : pi = ⟨0x101, 0x101, [⟨0x1B, 0x101⟩], 0, 12, 17, false⟩ := by simpa using hmem
    rw [hpi]
    decide
  have h := extract_undoes_inject 500 sampleCalls
    (by rw [hinputs]; decide +kernel) (by rw [hpackets]; decide +kernel)
    (by rw [hpackets]; decide +kernel)
    (by
      rw [hpackets]
      intro p hp q hq a b ha hb
      rw [hpat p hp a ha, hpat q hq b hb])
    (by
      rw [hpackets]
      intro p hp q hq m pi hm
      rw [hpat p hp m hm]
      exact hpmt q hq pi)
    hrewritten
  exact ⟨hrewritten, congrArg Prod.snd h.1⟩

end StreamHub.Scte35
