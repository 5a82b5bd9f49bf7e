import StreamHub.Scte35.Packetize

/-!
# A rewritten PMT is read back

The program_info walk accepts the appended CUEI registration and the
elementary-stream walk the appended entry, so a rewritten section is a valid
PMT whose streams are the old ones and the announced PID
(`parsePMT_rewriteSection`).  The rebuilt packet keeps its first three bytes
and carries exactly this section (`rewritePMT_announces`).
-/

namespace StreamHub.Scte35

open Library.Bytes Library.Blocks List Option Packet

/-! ## The two loops -/

/-- What follows a whole descriptor does not decide whether it is the
registration. -/
lemma registration_append {d : List UInt8} (more : List UInt8)
    (hfit : 2 + (d.getD 1 0).toNat ≤ d.length) :
    decide (d.getD 0 0 = 0x05 ∧ 4 ≤ (d.getD 1 0).toNat ∧
        ((d ++ more).drop 2).take 4 = cuei) =
      decide (d.getD 0 0 = 0x05 ∧ 4 ≤ (d.getD 1 0).toNat ∧ (d.drop 2).take 4 = cuei) := by
  have hfound : 4 ≤ (d.getD 1 0).toNat →
      ((d ++ more).drop 2).take 4 = (d.drop 2).take 4 := by
    intro h4
    rw [drop_append_of_le_length (by omega), take_append_of_le_length]
    rw [length_drop]
    omega
  apply decide_eq_decide.mpr
  constructor
  · rintro ⟨htag, h4, hcuei⟩
    exact ⟨htag, h4, hfound h4 ▸ hcuei⟩
  · rintro ⟨htag, h4, hcuei⟩
    exact ⟨htag, h4, (hfound h4).trans hcuei⟩

/-- What the program_info walk leaves: nothing, or a single byte. -/
def descriptorRest : Nat → List UInt8 → List UInt8
  | 0, d => d
  | rounds + 1, d =>
    if d.length < 2 then d else descriptorRest rounds (d.drop (2 + (d.getD 1 0).toNat))

/-- The program_info walk accepts one more registration descriptor.  A single
byte left over in front of it becomes the tag of a descriptor that swallows it. -/
lemma walkDescriptors_append {rounds more : Nat} {d : List UInt8} {has r : Bool}
    (hwalk : walkDescriptors rounds d has = some r) (hrounds : d.length ≤ rounds)
    (hmore : (d ++ cueiDescriptor).length ≤ more) :
    walkDescriptors more (d ++ cueiDescriptor) has =
      some (r || (descriptorRest rounds d).isEmpty) := by
  induction rounds generalizing d has more with
  | zero =>
    have hnil : d = [] := length_eq_zero_iff.mp (by omega)
    subst hnil
    obtain ⟨more, rfl⟩ : ∃ m, more = m + 2 := ⟨more - 2, by
      have : 6 ≤ more := hmore
      omega⟩
    cases hwalk
    rfl
  | succ rounds ih =>
    obtain ⟨more, rfl⟩ : ∃ m, more = m + 2 := ⟨more - 2, by
      have : (d ++ cueiDescriptor).length = d.length + 6 := length_append
      omega⟩
    rw [walkDescriptors] at hwalk
    by_cases hshort : d.length < 2
    · -- here the walk of `d` ended: only the new descriptor is left
      rw [if_pos hshort] at hwalk
      cases hwalk
      match d, hshort with
      | [], _ => rfl
      | [b], _ => simp [walkDescriptors, descriptorRest, cueiDescriptor, cuei]
    · rw [if_neg hshort] at hwalk
      rw [descriptorRest, if_neg hshort]
      simp only at hwalk
      split at hwalk
      · cases hwalk
      rename_i hfit
      -- both walks take the same descriptor off
      have htag : (d ++ cueiDescriptor).getD 0 0 = d.getD 0 0 := getD_append _ _ _ _ (by omega)
      have hlen : (d ++ cueiDescriptor).getD 1 0 = d.getD 1 0 := getD_append _ _ _ _ (by omega)
      have hdrop : (d ++ cueiDescriptor).drop (2 + (d.getD 1 0).toNat) =
          d.drop (2 + (d.getD 1 0).toNat) ++ cueiDescriptor :=
        drop_append_of_le_length (by omega)
      have htotal : (d ++ cueiDescriptor).length = d.length + 6 := length_append
      rw [walkDescriptors, if_neg (by omega), hlen]
      simp only [if_neg (show ¬ (d ++ cueiDescriptor).length <
        2 + (d.getD 1 0).toNat by omega), hdrop, htag]
      rw [registration_append _ (Nat.not_lt.mp hfit)]
      apply ih hwalk
      · rw [length_drop]
        omega
      · rw [length_append, length_drop]
        have : cueiDescriptor.length = 6 := rfl
        omega

variable {pid : Nat}

/-- The announced entry is read back. -/
lemma walkStreams_scteEntry (hpid : pid < 8192) (rounds : Nat) :
    walkStreams (rounds + 1) (scteEntry pid) = some [⟨streamTypeSCTE35, pid⟩] := by
  have hfield : (0x1F : UInt8) &&& 0x1F = 0x1F := by decide
  have hreserved : (0xE0 : UInt8) &&& 0x1F = 0 := by decide
  have hread : be16 (((0xE0 : UInt8) ||| (byteOf (pid >>> 8) &&& 0x1F)) &&& 0x1F)
      (byteOf pid) = pid := by
    rw [UInt8.or_comm, or_and_mask _ hfield hreserved, UInt8.or_zero, be16_pid hpid]
  have hnil : ∀ m, walkStreams m [] = some [] := by
    intro m
    cases m <;> rfl
  have hsize : 5 + be16 ((scteEntry pid).getD 3 0 &&& 0x0F) ((scteEntry pid).getD 4 0) =
      (scteEntry pid).length := by
    change 5 + be16 ((0xF0 : UInt8) &&& 0x0F) 0x06 = 11
    decide
  have hentry : (⟨(scteEntry pid).getD 0 0, be16 ((scteEntry pid).getD 1 0 &&& 0x1F)
      ((scteEntry pid).getD 2 0)⟩ : EsEntry) = ⟨streamTypeSCTE35, pid⟩ :=
    congrArg (EsEntry.mk streamTypeSCTE35) hread
  rw [walkStreams]
  simp only [hsize, lt_irrefl, if_false, drop_length, hnil, hentry]
  rfl

/-- The elementary-stream walk accepts one more entry. -/
lemma walkStreams_append {rounds more : Nat} (hpid : pid < 8192) {es : List UInt8}
    {streams : List EsEntry} (hwalk : walkStreams rounds es = some streams)
    (hmore : (es ++ scteEntry pid).length ≤ more) : walkStreams more (es ++ scteEntry pid) =
      some (streams ++ [⟨streamTypeSCTE35, pid⟩]) := by
  have hentry : (scteEntry pid).length = 11 := rfl
  rw [length_append] at hmore
  obtain ⟨more, rfl⟩ : ∃ m, more = m + 1 := ⟨more - 1, by omega⟩
  -- a walk that stops has consumed everything, so the new entry is next
  have hlast : ∀ {es : List UInt8} {streams : List EsEntry} (m : Nat),
      (if es = [] then some [] else none) = some streams →
      walkStreams (m + 1) (es ++ scteEntry pid) =
        some (streams ++ [⟨streamTypeSCTE35, pid⟩]) := by
    intro es streams m hstop
    split at hstop
    · rename_i hnil
      cases hstop
      rw [hnil]
      exact walkStreams_scteEntry hpid m
    · cases hstop
  induction rounds generalizing es streams more with
  | zero => exact hlast more hwalk
  | succ rounds ih =>
    rw [walkStreams] at hwalk
    by_cases hshort : es.length < 5
    · rw [if_pos hshort] at hwalk
      exact hlast more hwalk
    rw [if_neg hshort] at hwalk
    simp only at hwalk
    split at hwalk
    · cases hwalk
    obtain ⟨rest, hrest, rfl⟩ := map_eq_some_iff.mp hwalk
    have hgetD : ∀ i < 5, (es ++ scteEntry pid).getD i 0 = es.getD i 0 :=
      fun i hi => getD_append _ _ _ _ (by omega)
    have htotal : (es ++ scteEntry pid).length = es.length + 11 := length_append
    rw [walkStreams, if_neg (by omega), hgetD 0 (by omega), hgetD 1 (by omega),
      hgetD 2 (by omega), hgetD 3 (by omega), hgetD 4 (by omega)]
    have hn : 5 ≤ 5 + be16 (es.getD 3 0 &&& 0x0F) (es.getD 4 0) := Nat.le_add_right _ _
    generalize 5 + be16 (es.getD 3 0 &&& 0x0F) (es.getD 4 0) = n at *
    have hdrop : (es ++ scteEntry pid).drop n = es.drop n ++ scteEntry pid :=
      drop_append_of_le_length (by omega)
    obtain ⟨m, rfl⟩ : ∃ m, more = m + 1 := ⟨more - 1, by omega⟩
    have htail := ih hrest m (by rw [length_drop]; omega)
    simp only [if_neg (show ¬ (es ++ scteEntry pid).length < n by omega), hdrop, htail]
    rfl

/-! ## The section -/

/-- What `parsePMT` checks and returns. -/
structure ValidPMT (sec : List UInt8) (pi : PmtInfo) : Prop where
  length : 16 ≤ sec.length
  table : sec.getD 0 0 = 0x02
  crc : crc32 sec = 0
  piLen : pi.piLen = be16 (sec.getD 10 0 &&& 0x0F) (sec.getD 11 0)
  esStart : pi.esStart = 12 + pi.piLen
  esEnd : pi.esEnd = sec.length - 4
  bounds : pi.esStart ≤ pi.esEnd
  descriptors : walkDescriptors ((sec.take pi.esStart).drop 12).length
    ((sec.take pi.esStart).drop 12) false = some pi.hasCUEI
  streams : walkStreams ((sec.take pi.esEnd).drop pi.esStart).length
    ((sec.take pi.esEnd).drop pi.esStart) = some pi.streams
  pcrPID : pi.pcrPID = be16 (sec.getD 8 0 &&& 0x1F) (sec.getD 9 0)
  videoPID : pi.videoPID = videoPIDOf pi.streams

lemma parsePMT_iff (sec : List UInt8) (pi : PmtInfo) :
    parsePMT sec = some pi ↔ ValidPMT sec pi := by
  constructor
  · intro h
    unfold parsePMT at h
    split at h
    · cases h
    rename_i hhead
    simp only [not_or, not_lt, not_not] at hhead
    simp only at h
    split at h
    · cases h
    rename_i hbounds
    split at h
    · cases h
    rename_i has hwalk
    obtain ⟨streams, hstreams, rfl⟩ := map_eq_some_iff.mp h
    exact ⟨hhead.1, hhead.2.1, hhead.2.2, rfl, rfl, rfl, Nat.not_lt.mp hbounds,
      hwalk, hstreams, rfl, rfl⟩
  · intro h
    have hhead : ¬ (sec.length < 16 ∨ sec.getD 0 0 ≠ 0x02 ∨ crc32 sec ≠ 0) := by
      simp only [not_or, not_lt, not_not]
      exact ⟨h.length, h.table, h.crc⟩
    simp only [parsePMT, if_neg hhead, ← h.piLen, ← h.esStart, ← h.esEnd,
      if_neg (Nat.not_lt.mpr h.bounds), h.descriptors, h.streams, map_some,
      ← h.pcrPID, ← h.videoPID]

section Rewrite

variable {sec : List UInt8} {pi : PmtInfo} {pid : Nat}

/-- The program_info loop of a rewritten section. -/
def rewriteDescriptors (sec : List UInt8) (pi : PmtInfo) : List UInt8 :=
  (sec.take pi.esStart).drop 12 ++ if pi.hasCUEI then [] else cueiDescriptor

/-- The elementary-stream loop of a rewritten section. -/
def rewriteStreams (sec : List UInt8) (pi : PmtInfo) (pid : Nat) : List UInt8 :=
  (sec.take pi.esEnd).drop pi.esStart ++ scteEntry pid

lemma appendCRC_drop {header : List UInt8} {n : Nat} (hn : header.length = n)
    (body : List UInt8) : ∃ crc : List UInt8, crc.length = 4 ∧
      (appendCRC (header ++ body)).drop n = body ++ crc := by
  refine ⟨Library.Crc.registerBytes (crc32 (header ++ body)), rfl, ?_⟩
  rw [appendCRC, append_assoc, drop_left' hn]

/-- Behind its twelve header bytes a rewritten section has these two loops and
the CRC. -/
lemma rewriteSection_drop (sec : List UInt8) (pi : PmtInfo) (pid : Nat) :
    ∃ crc : List UInt8, crc.length = 4 ∧
      (rewriteSection sec pi pid).drop 12 =
        rewriteDescriptors sec pi ++ (rewriteStreams sec pi pid ++ crc) := by
  obtain ⟨header, hheader, hform⟩ : ∃ header : List UInt8, header.length = 12 ∧
      rewriteSection sec pi pid = appendCRC (header ++ (rewriteDescriptors sec pi ++
        (sec.take pi.esEnd).drop pi.esStart ++ scteEntry pid)) := by
    refine ⟨_, ?_, rfl⟩
    rfl
  obtain ⟨crc, hcrc, hdrop⟩ := appendCRC_drop hheader (rewriteDescriptors sec pi ++
    (sec.take pi.esEnd).drop pi.esStart ++ scteEntry pid)
  refine ⟨crc, hcrc, ?_⟩
  rw [hform, hdrop]
  simp only [rewriteStreams, append_assoc]

lemma rewriteSection_length (sec : List UInt8) (pi : PmtInfo) (pid : Nat) :
    (rewriteSection sec pi pid).length =
      16 + (rewriteDescriptors sec pi).length + (rewriteStreams sec pi pid).length := by
  simp only [rewriteSection, appendCRC_length, rewriteDescriptors, rewriteStreams,
    length_append, length_cons, length_nil]
  omega

lemma rewriteSection_loops (sec : List UInt8) (pi : PmtInfo) (pid : Nat) :
    ((rewriteSection sec pi pid).take (12 + (rewriteDescriptors sec pi).length)).drop 12 =
        rewriteDescriptors sec pi ∧
      ((rewriteSection sec pi pid).take ((rewriteSection sec pi pid).length - 4)).drop
        (12 + (rewriteDescriptors sec pi).length) = rewriteStreams sec pi pid := by
  have hlength := rewriteSection_length sec pi pid
  obtain ⟨crc, hcrc, hdrop⟩ := rewriteSection_drop sec pi pid
  constructor
  · rw [drop_take, hdrop, Nat.add_sub_cancel_left, take_left' rfl]
  · rw [drop_take, ← drop_drop, hdrop, drop_left' rfl]
    apply take_left'
    omega

lemma rewriteSection_wellSized (hsize : (rewriteSection sec pi pid).length < 4096) :
    WellSized (rewriteSection sec pi pid) := by
  have hlength := rewriteSection_length sec pi pid
  generalize hn : (rewriteDescriptors sec pi).length +
    (rewriteStreams sec pi pid).length = n at *
  have hbody : 12 + ((sec.take pi.esStart).drop 12 ++
      (if pi.hasCUEI then [] else cueiDescriptor) ++
      (sec.take pi.esEnd).drop pi.esStart ++ scteEntry pid).length - 3 + 4 = 13 + n := by
    simp only [rewriteDescriptors, rewriteStreams, length_append] at hn ⊢
    omega
  have hfield := be16_lengthField (sec.getD 1 0) (show 13 + n < 4096 by omega)
  have hdeclared : declaredLength (rewriteSection sec pi pid) = 3 + (13 + n) := by
    rw [← hfield, ← hbody]
    rfl
  rw [WellSized]
  omega

/-- No byte of the program_info loop is left over. -/
def endsWhole (sec : List UInt8) (pi : PmtInfo) : Bool :=
  (descriptorRest ((sec.take pi.esStart).drop 12).length
    ((sec.take pi.esStart).drop 12)).isEmpty

/-- The program_info walk of a rewritten section finds the registration that was
there, or the one that was added behind whole descriptors. -/
lemma walkDescriptors_rewrite (hvalid : ValidPMT sec pi) :
    walkDescriptors (rewriteDescriptors sec pi).length (rewriteDescriptors sec pi) false =
      some (pi.hasCUEI || endsWhole sec pi) := by
  have hwalk := hvalid.descriptors
  unfold rewriteDescriptors
  cases hcuei : pi.hasCUEI with
  | true => simpa [hcuei] using hwalk
  | false =>
    rw [hcuei] at hwalk
    exact walkDescriptors_append hwalk (le_refl _) (le_refl _)

/-- The PMT a rewritten section holds. -/
def rewrittenInfo (sec : List UInt8) (pi : PmtInfo) (pid : Nat) (has : Bool) : PmtInfo where
  pcrPID := pi.pcrPID
  videoPID := videoPIDOf (pi.streams ++ [⟨streamTypeSCTE35, pid⟩])
  streams := pi.streams ++ [⟨streamTypeSCTE35, pid⟩]
  piLen := (rewriteDescriptors sec pi).length
  esStart := 12 + (rewriteDescriptors sec pi).length
  esEnd := (rewriteSection sec pi pid).length - 4
  hasCUEI := has

/-- A rewritten section is a valid PMT with one more stream. -/
lemma parsePMT_rewriteSection (hpid : pid < 8192) (hvalid : ValidPMT sec pi)
    (hsize : (rewriteSection sec pi pid).length < 4096) : parsePMT (rewriteSection sec pi pid) =
      some (rewrittenInfo sec pi pid (pi.hasCUEI || endsWhole sec pi)) := by
  have hlength := rewriteSection_length sec pi pid
  have hdescriptors := walkDescriptors_rewrite hvalid
  have hstreams : walkStreams (rewriteStreams sec pi pid).length
      (rewriteStreams sec pi pid) = some _ := walkStreams_append hpid hvalid.streams (le_refl _)
  -- the length field counts the old descriptors and the registration
  have hdesc : (rewriteDescriptors sec pi).length =
      pi.piLen + (if pi.hasCUEI then [] else cueiDescriptor).length := by
    have := hvalid.esStart
    have := hvalid.esEnd
    have := hvalid.bounds
    rw [rewriteDescriptors, length_append, length_drop, length_take]
    omega
  have hpiLen : be16 ((rewriteSection sec pi pid).getD 10 0 &&& 0x0F)
      ((rewriteSection sec pi pid).getD 11 0) = (rewriteDescriptors sec pi).length := by
    have hfield := be16_lengthField (sec.getD 10 0)
      (show (rewriteDescriptors sec pi).length < 4096 by omega)
    rw [← hfield, hdesc]
    rfl
  obtain ⟨hloop, hes⟩ := rewriteSection_loops sec pi pid
  exact (parsePMT_iff _ _).mpr {
    length := by omega
    table := hvalid.table
    crc := crc32_appendCRC _
    piLen := hpiLen.symm
    esStart := rfl
    esEnd := rfl
    bounds := by
      simp only [rewrittenInfo]
      omega
    descriptors := by
      simp only [rewrittenInfo, hloop]
      exact hdescriptors
    streams := by
      simp only [rewrittenInfo, hes]
      exact hstreams
    pcrPID := hvalid.pcrPID
    videoPID := rfl }

end Rewrite

/-! ## The packet -/

/-- A section behind a front part that ends where the payload starts, with
pointer_field 0, is found again. -/
lemma sectionOf_pad {front ns : List UInt8} {tid : UInt8}
    (hfit : front.length + 1 + ns.length ≤ packetSize)
    (hpusi : pktPUSI (pad (front ++ [0x00] ++ ns)) = true)
    (hoff : payloadOffset (pad (front ++ [0x00] ++ ns)) = some front.length)
    (htid : ns.getD 0 0 = tid) (hsize : WellSized ns) :
    sectionOf (pad (front ++ [0x00] ++ ns)) tid = some ns := by
  have htotal : (front ++ [0x00] ++ ns).length = front.length + 1 + ns.length := by
    rw [length_append, length_append]
    rfl
  have hbyte : ∀ i, i < front.length + 1 + ns.length →
      (pad (front ++ [0x00] ++ ns)).byte i = (front ++ [0x00] ++ ns).getD i 0 :=
    fun i hi => byte_pad (by omega) (by omega)
  have hpointer : (pad (front ++ [0x00] ++ ns)).byte front.length = 0x00 := by
    rw [hbyte _ (by omega)]
    simp
  have hns : ∀ i < ns.length, (pad (front ++ [0x00] ++ ns)).byte
      (front.length + 1 + i) = ns.getD i 0 := by
    intro i hi
    rw [hbyte _ (by omega), getD_append_right _ _ _ _ (by simp)]
    simp
  have hstart : front.length + 1 + (0x00 : UInt8).toNat = front.length + 1 := rfl
  have hstop : front.length + 1 + 3 + be16 (ns.getD 1 0 &&& 0x0F) (ns.getD 2 0) =
      front.length + 1 + ns.length := by
    rw [show ns.length = declaredLength ns from hsize, declaredLength]
    omega
  have hbounds : singleSection (pad (front ++ [0x00] ++ ns)) tid =
      some (front.length + 1, front.length + 1 + ns.length) := by
    have hhead : ¬ (front.length + 1 + 3 > packetSize ∨
        (pad (front ++ [0x00] ++ ns)).byte (front.length + 1) ≠ tid) := by
      rw [hns 0 (by omega), htid]
      simp only [ne_eq, not_true_eq_false, or_false]
      omega
    simp only [singleSection, hpusi, if_true, hoff, hpointer, hstart, if_neg hhead,
      hns 1 (by omega), hns 2 (by omega), hstop, if_neg (Nat.not_lt.mpr hfit)]
  rw [sectionOf, hbounds, map_some, slice, pad_bytes (by omega),
    take_append_of_le_length (by omega), drop_take]
  congr 1
  rw [drop_left' (by simp), Nat.add_sub_cancel_left, take_length]

variable {p : Packet}

lemma payloadOffset_bounds {off : Nat} (h : payloadOffset p = some off) :
    4 ≤ off ∧ off < packetSize := by
  simp only [payloadOffset] at h
  split at h
  · cases h
  have hmin : 4 ≤ if p.byte 3 >>> 4 &&& 0x03 &&& 0x02 ≠ 0 then
      4 + (1 + (p.byte 4).toNat) else 4 := by split <;> omega
  generalize (if p.byte 3 >>> 4 &&& 0x03 &&& 0x02 ≠ 0 then
    4 + (1 + (p.byte 4).toNat) else 4) = o at h hmin
  split at h
  · cases h
  rename_i hfit
  cases h
  exact ⟨hmin, Nat.not_le.mp hfit⟩

lemma payloadOffset_congr {q : Packet} (h3 : p.byte 3 = q.byte 3) (h4 : p.byte 4 = q.byte 4) :
    payloadOffset p = payloadOffset q := by simp only [payloadOffset, h3, h4]

lemma singleSection_some {tid : UInt8} {bounds : Nat × Nat}
    (h : singleSection p tid = some bounds) :
    pktPUSI p = true ∧ bounds.1 < packetSize ∧ ∃ off, payloadOffset p = some off := by
  unfold singleSection at h
  split at h
  · rename_i hpusi
    split at h
    · cases h
    rename_i off hoff
    simp only at h
    split at h
    · cases h
    split at h
    · cases h
    cases h
    exact ⟨hpusi, by omega, off, hoff⟩
  · cases h

variable {pi : PmtInfo}

/-- What a rewrite does: the section was a valid PMT, and the new packet is the
header, pointer_field 0 and the rewritten section. -/
lemma rewritePMT_some {np : Packet} (h : rewritePMT p pid = some (pi, some np)) :
    ∃ sec off, sectionOf p 0x02 = some sec ∧ ValidPMT sec pi ∧ pktPUSI p = true ∧
      payloadOffset p = some off ∧
      (rewriteHeader p off).length + 1 + (rewriteSection sec pi pid).length ≤ packetSize ∧
      np = pad (rewriteHeader p off ++ [0x00] ++ rewriteSection sec pi pid) ∧
      ∀ start stop, singleSection p 0x02 = some (start, stop) →
        ∀ b ∈ p.bytes.drop stop, b = 0xFF := by
  unfold rewritePMT at h
  split at h
  · cases h
  rename_i start stop hbounds
  obtain ⟨hpusi, -, off, hoff⟩ := singleSection_some hbounds
  simp only at h
  split at h
  · cases h
  rename_i pi' hparse
  split at h
  · cases h
  split at h
  · cases h
  rename_i htail
  rw [hoff, getD_some] at h
  split at h
  · cases h
  rename_i hfit
  cases h
  refine ⟨p.slice start stop, off, ?_, (parsePMT_iff _ _).mp hparse, hpusi, hoff,
    Nat.not_lt.mp hfit, rfl, ?_⟩
  · rw [sectionOf, hbounds]
    rfl
  · rintro _ _ hsame
    cases hbounds.symm.trans hsame
    simpa using htail

/-- The first three bytes of the header, the continuity counter and an adaptation
field with flags stay, and the front part ends where the payload starts. -/
lemma rewriteHeader_spec {off : Nat} (hoff : payloadOffset p = some off) {ns : List UInt8}
    (hfit : (rewriteHeader p off).length + 1 + ns.length ≤ packetSize) :
    (∀ i < 3, (pad (rewriteHeader p off ++ [0x00] ++ ns)).byte i = p.byte i) ∧
      payloadOffset (pad (rewriteHeader p off ++ [0x00] ++ ns)) =
        some (rewriteHeader p off).length ∧
      pktCC (pad (rewriteHeader p off ++ [0x00] ++ ns)) = pktCC p ∧
      (5 < off → p.byte 5 ≠ 0 →
        ∀ i < off, (pad (rewriteHeader p off ++ [0x00] ++ ns)).byte i = p.byte i) := by
  obtain ⟨hmin, hmax⟩ := payloadOffset_bounds hoff
  have hsize := p.size
  have hbyte : ∀ i < (rewriteHeader p off).length,
      (pad (rewriteHeader p off ++ [0x00] ++ ns)).byte i =
        (rewriteHeader p off).getD i 0 := by
    intro i hi
    have htotal : (rewriteHeader p off ++ [0x00] ++ ns).length =
        (rewriteHeader p off).length + 1 + ns.length := by
      rw [length_append, length_append]
      rfl
    rw [byte_pad (by omega) (by omega), append_assoc, getD_append _ _ _ _ hi]
  have htake : ∀ n i, i < n → (p.bytes.take n).getD i 0 = p.byte i := by
    intro n i hi
    rw [byte, getD_eq_getElem?_getD, getElem?_take_of_lt hi, getD_eq_getElem?_getD]
  by_cases hkeep : off > 5 ∧ p.byte 5 ≠ 0
  · -- the adaptation field has flags and is kept
    have hheader : rewriteHeader p off = p.bytes.take off := if_pos hkeep
    have hlength : (rewriteHeader p off).length = off := by
      rw [hheader, length_take]
      omega
    have hsame : ∀ i < off, (pad (rewriteHeader p off ++ [0x00] ++ ns)).byte i =
        p.byte i := by
      intro i hi
      rw [hbyte i (by omega), hheader, htake off i hi]
    refine ⟨fun i hi => hsame i (by omega), ?_, ?_, fun _ _ => hsame⟩
    · rw [payloadOffset_congr (hsame 3 (by omega)) (hsame 4 (by omega)), hlength, hoff]
    · rw [pktCC, hsame 3 (by omega), pktCC]
  · -- it is dropped, and the control bits say so
    have hcleared : (0xCF : UInt8) >>> 4 &&& 0x03 = 0 := by decide
    have hmask : ∀ x : UInt8, ((x &&& 0xCF) ||| 0x10) >>> 4 &&& 0x03 = 1 := by
      intro x
      rw [UInt8.shiftRight_or, UInt8.shiftRight_and, or_and_mask _ hcleared rfl,
        UInt8.and_zero, UInt8.zero_or]
      rfl
    have hheader : rewriteHeader p off =
        p.bytes.take 3 ++ [(p.byte 3 &&& 0xCF) ||| 0x10] := if_neg hkeep
    have hthree : (p.bytes.take 3).length = 3 := by
      rw [length_take, hsize]
      rfl
    have hlength : (rewriteHeader p off).length = 4 := by
      rw [hheader, length_append, hthree]
      rfl
    have hthird : (pad (rewriteHeader p off ++ [0x00] ++ ns)).byte 3 =
        (p.byte 3 &&& 0xCF) ||| 0x10 := by
      rw [hbyte 3 (by omega), hheader, getD_append_right _ _ _ _ (by omega), hthree]
      rfl
    refine ⟨fun i hi => ?_, ?_, ?_, fun h5 hflags => absurd ⟨h5, hflags⟩ hkeep⟩
    · rw [hbyte i (by omega), hheader, getD_append _ _ _ _ (by omega), htake 3 i hi]
    · rw [hlength]
      apply payloadOffset_payloadOnly
      rw [hthird]
      exact hmask (p.byte 3)
    · rw [pktCC, hthird, or_and_mask _ (show (0xCF : UInt8) &&& 0x0F = 0x0F by decide)
        (show (0x10 : UInt8) &&& 0x0F = 0 by decide), UInt8.or_zero, pktCC]

/-- What a rewritten packet carries: the rewritten section, a valid PMT. -/
lemma rewritePMT_section {np : Packet} (hpid : pid < 8192)
    (h : rewritePMT p pid = some (pi, some np)) :
    ∃ sec, sectionOf p 0x02 = some sec ∧ parsePMT sec = some pi ∧
      (∀ i < 3, np.byte i = p.byte i) ∧ pktCC np = pktCC p ∧
      (∀ off, payloadOffset p = some off → 5 < off → p.byte 5 ≠ 0 →
        ∀ i < off, np.byte i = p.byte i) ∧
      sectionOf np 0x02 = some (rewriteSection sec pi pid) ∧
      parsePMT (rewriteSection sec pi pid) =
        some (rewrittenInfo sec pi pid (pi.hasCUEI || endsWhole sec pi)) := by
  obtain ⟨sec, off, hsec, hvalid, hpusi, hoff, hfit, rfl, -⟩ := rewritePMT_some h
  obtain ⟨hbytes, hnewoff, hcc, hkept⟩ := rewriteHeader_spec hoff hfit
  have hsize : packetSize = 188 := rfl
  have hlength : (rewriteSection sec pi pid).length < 4096 := by omega
  have hnewpusi : pktPUSI (pad (rewriteHeader p off ++ [0x00] ++
      rewriteSection sec pi pid)) = true := by
    rw [pktPUSI, hbytes 1 (by decide)]
    exact hpusi
  refine ⟨sec, hsec, (parsePMT_iff _ _).mpr hvalid, hbytes, hcc, ?_, ?_,
    parsePMT_rewriteSection hpid hvalid hlength⟩
  · intro off' hoff'
    cases hoff.symm.trans hoff'
    exact hkept
  · exact sectionOf_pad hfit hnewpusi hnewoff
      (show (rewriteSection sec pi pid).getD 0 0 = 0x02 from hvalid.table)
      (rewriteSection_wellSized hlength)

/-- A rewritten packet keeps PID, sync and flags, and holds a valid PMT that
announces the old streams and `pid`. -/
lemma rewritePMT_announces {np : Packet} (hpid : pid < 8192)
    (h : rewritePMT p pid = some (pi, some np)) : pktPID np = pktPID p ∧ usable np = usable p ∧
      ∃ sec has, (sectionOf np 0x02).bind parsePMT = some (rewrittenInfo sec pi pid has) := by
  obtain ⟨sec, -, -, hbytes, -, -, hsection, hparse⟩ := rewritePMT_section hpid h
  refine ⟨?_, ?_, sec, pi.hasCUEI || endsWhole sec pi, ?_⟩
  · rw [pktPID, hbytes 1 (by decide), hbytes 2 (by decide), pktPID]
  · rw [usable, hbytes 0 (by decide), hbytes 1 (by decide), usable]
  · rw [hsection]
    exact hparse

/-! ## What a rewrite keeps -/

lemma videoPIDOf_append_scte (streams : List EsEntry) (pid : Nat) :
    videoPIDOf (streams ++ [⟨streamTypeSCTE35, pid⟩]) = videoPIDOf streams := by
  rw [videoPIDOf, foldl_append]
  exact if_neg (by rintro ⟨-, h | h⟩ <;> cases h)

/-- The byte of version_number and current_next in a rewritten section. -/
def nextVersion (x : UInt8) : UInt8 := (x &&& (0xC1 : UInt8)) ||| ((x >>> 1 + 1) &&& 0x1F) <<< 1

lemma nextVersion_spec (x : UInt8) :
    (nextVersion x >>> 1 &&& 0x1F).toNat = ((x >>> 1 &&& 0x1F).toNat + 1) % 32 ∧
      nextVersion x &&& 1 = x &&& 1 := by
  have hall : ∀ n : Fin 256, (nextVersion (.ofFin n) >>> 1 &&& 0x1F).toNat =
      ((UInt8.ofFin n >>> 1 &&& 0x1F).toNat + 1) % 32 ∧
      nextVersion (.ofFin n) &&& 1 = .ofFin n &&& 1 := by decide +kernel
  exact hall x.toFin

lemma rewritePMT_of_announced {sec : List UInt8} (hsection : sectionOf p 0x02 = some sec)
    (hparse : parsePMT sec = some pi) (hpid : ∃ e ∈ pi.streams, e.pid = pid) :
    rewritePMT p pid = some (pi, none) := by
  obtain ⟨bounds, hbounds, rfl⟩ := map_eq_some_iff.mp hsection
  have hany : (pi.streams.any fun e => e.pid = pid) = true := by simpa using hpid
  simp only [rewritePMT, hbounds, hparse, hany, if_true]

/-- What `np` keeps of the packet `p` it is rewritten from, and adds to it. -/
structure Extends (p np : Packet) (pid : Nat) (sec ns : List UInt8) (pi pi' : PmtInfo) :
    Prop where
  header : ∀ i < 3, np.byte i = p.byte i
  counter : pktCC np = pktCC p
  adaptation : ∀ off, payloadOffset p = some off → 5 < off → p.byte 5 ≠ 0 →
    ∀ i < off, np.byte i = p.byte i
  old : sectionOf p 0x02 = some sec ∧ parsePMT sec = some pi
  new : sectionOf np 0x02 = some ns ∧ parsePMT ns = some pi'
  streams : pi'.streams = pi.streams ++ [⟨0x86, pid⟩]
  pids : pi'.pcrPID = pi.pcrPID ∧ pi'.videoPID = pi.videoPID
  descriptors : (ns.take pi'.esStart).drop 12 =
    (sec.take pi.esStart).drop 12 ++ if pi.hasCUEI then [] else cueiDescriptor
  entries : (ns.take pi'.esEnd).drop pi'.esStart =
    (sec.take pi.esEnd).drop pi.esStart ++ scteEntry pid
  version : (ns.getD 5 0 >>> 1 &&& 0x1F).toNat =
    ((sec.getD 5 0 >>> 1 &&& 0x1F).toNat + 1) % 32
  current : ns.getD 5 0 &&& 1 = sec.getD 5 0 &&& 1
  again : rewritePMT np pid = some (pi', none)

/-- A rewrite is an extension.  Its program_info has the registration exactly if
the old one had it or left no byte over. -/
theorem rewritePMT_extends {p np : Packet} {pid : Nat} {pi : PmtInfo}
    (hpid : pid < 8192) (h : rewritePMT p pid = some (pi, some np)) :
    ∃ sec ns pi', Extends p np pid sec ns pi pi' ∧
      (pi'.hasCUEI = true ↔ pi.hasCUEI = true ∨ endsWhole sec pi = true) := by
  obtain ⟨sec, hsec, hold, hbytes, hcc, hkept, hsection, hparse⟩ := rewritePMT_section hpid h
  obtain ⟨hversion, hcurrent⟩ := nextVersion_spec (sec.getD 5 0)
  obtain ⟨hloop, hes⟩ := rewriteSection_loops sec pi pid
  have hvideo : videoPIDOf (pi.streams ++ [⟨streamTypeSCTE35, pid⟩]) = pi.videoPID := by
    rw [videoPIDOf_append_scte]
    exact ((parsePMT_iff _ _).mp hold).videoPID.symm
  have hagain := rewritePMT_of_announced hsection hparse
    ⟨_, mem_append_right _ (mem_singleton_self _), rfl⟩
  refine ⟨sec, rewriteSection sec pi pid, _, ⟨hbytes, hcc, hkept, ⟨hsec, hold⟩,
    ⟨hsection, hparse⟩, rfl, ⟨rfl, hvideo⟩, hloop, hes, hversion, hcurrent, hagain⟩, ?_⟩
  simp [rewrittenInfo]

/-- The PMT of one H.264 stream behind `pointer`, with `info` as program_info. -/
def pmtPacket (pointer info : List UInt8) : Packet :=
  pad ([0x47, 0x50, 0x00, 0x10, byteOf pointer.length] ++ pointer ++
    appendCRC ([0x02, 0xB0, byteOf (18 + info.length), 0x00, 0x01, 0xC1, 0x00, 0x00, 0xE1,
      0x00, 0xF0, byteOf info.length] ++ info ++ [0x1B, 0xE1, 0x00, 0xF0, 0x00]))

lemma pmtPacket_rewritten (pointer info : List UInt8)
    (h : ((rewritePMT (pmtPacket pointer info) 0x1F0).bind (·.2)).isSome = true) :
    ∃ pi np, rewritePMT (pmtPacket pointer info) 0x1F0 = some (pi, some np) := by
  obtain ⟨np, hnp⟩ := isSome_iff_exists.mp h
  obtain ⟨⟨pi, _⟩, hrewrite, rfl⟩ := bind_eq_some_iff.mp hnp
  exact ⟨pi, np, hrewrite⟩

theorem rewritePMT_extends_plain : ∃ pi np sec ns pi',
    rewritePMT (pmtPacket [] []) 0x1F0 = some (pi, some np) ∧
      Extends (pmtPacket [] []) np 0x1F0 sec ns pi pi' := by
  obtain ⟨pi, np, hrewrite⟩ := pmtPacket_rewritten [] [] (by decide +kernel)
  obtain ⟨sec, ns, pi', hextends, -⟩ := rewritePMT_extends (by decide) hrewrite
  exact ⟨pi, np, sec, ns, pi', hrewrite, hextends⟩

/-- A byte behind the last descriptor of program_info swallows the registration. -/
theorem registration_swallowed :
    ((rewritePMT (pmtPacket [] [0x00]) 0x1F0).bind (·.2)).isSome = true ∧
      ((((rewritePMT (pmtPacket [] [0x00]) 0x1F0).bind (·.2)).bind (sectionOf · 0x02)).bind
        parsePMT).map (·.hasCUEI) = some false := by decide +kernel

/-! ## What a rewrite discards -/

/-- The payload bytes outside the section and the pointer_field are stuffing
exactly if those in front of the section are: only the ones behind it are
looked at. -/
theorem discards_stuffing_iff {p np : Packet} {pid start stop : Nat} {pi : PmtInfo}
    (h : rewritePMT p pid = some (pi, some np))
    (hbounds : singleSection p 0x02 = some (start, stop)) :
    (∀ i, (payloadOffset p).getD 0 < i → i < packetSize → ¬ (start ≤ i ∧ i < stop) →
        p.byte i = 0xFF) ↔
      ∀ i, (payloadOffset p).getD 0 < i → i < start → p.byte i = 0xFF := by
  obtain ⟨-, hstart, -⟩ := singleSection_some hbounds
  obtain ⟨-, -, -, -, -, -, -, -, htail⟩ := rewritePMT_some h
  have hsize := p.size
  constructor
  · intro hall i hi hlt
    exact hall i hi (hlt.trans hstart) (fun hin => absurd hin.1 (Nat.not_le.mpr hlt))
  · intro hfront i hi hlast hout
    by_cases hlt : i < start
    · exact hfront i hi hlt
    apply htail start stop hbounds
    have hlength : i < p.bytes.length := by omega
    rw [byte, getD_eq_getElem _ _ hlength, mem_drop_iff_getElem]
    exact ⟨i - stop, by omega, by simp only [show stop + (i - stop) = i by omega]⟩

theorem discards_stuffing_padded : ∃ pi np,
    rewritePMT (pmtPacket [0xFF] []) 0x1F0 = some (pi, some np) ∧
      ∀ i, (payloadOffset (pmtPacket [0xFF] [])).getD 0 < i → i < packetSize →
        ¬ (6 ≤ i ∧ i < 27) → (pmtPacket [0xFF] []).byte i = 0xFF := by
  obtain ⟨pi, np, hrewrite⟩ := pmtPacket_rewritten [0xFF] [] (by decide +kernel)
  refine ⟨pi, np, hrewrite, (discards_stuffing_iff hrewrite (by decide +kernel)).mpr ?_⟩
  have hoff : (payloadOffset (pmtPacket [0xFF] [])).getD 0 = 4 := by decide +kernel
  intro i hi hlt
  obtain rfl : i = 5 := by omega
  decide

/-- The end of another section in front of the PMT is lost. -/
theorem foreign_bytes_discarded :
    ((rewritePMT (pmtPacket [0x4F] []) 0x1F0).bind (·.2)).isSome = true ∧
      payloadOffset (pmtPacket [0x4F] []) = some 4 ∧
      singleSection (pmtPacket [0x4F] []) 0x02 = some (6, 27) ∧
      (pmtPacket [0x4F] []).byte 5 = 0x4F := by decide +kernel

end StreamHub.Scte35
