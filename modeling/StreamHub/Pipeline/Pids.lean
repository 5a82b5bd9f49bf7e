import StreamHub.Pipeline.Outputs

/-!
# The PIDs of the transport stream

`BuildEngineWith` of `internal/pipeline/engine_pro.go` requests one sink of the
mux for every elementary stream, named after its PID; the injector adds the cues.
The main streams have the PIDs of the configuration, the renditions and the extra
tracks count up from two fixed bases.

Validation compares the main PIDs with each other and the PID of the cues with
all the others.  It does not compare the main PIDs with the fixed ones, and that
is all that is missing: `streamPIDs_nodup_iff`.
-/

namespace StreamHub.Pipeline

open Library Library.Text Config List

/-- `TrackPIDBase` -/
def trackPIDBase : Int := 0x120

/-- `n` PIDs from `base` on. -/
def pidsFrom (base : Int) (n : ℕ) : List Int := (range n).map fun i : ℕ => base + i

lemma mem_pidsFrom {base pid : Int} {n : ℕ} :
    pid ∈ pidsFrom base n ↔ base ≤ pid ∧ pid < base + n := by
  unfold pidsFrom
  rw [mem_map]
  constructor
  · rintro ⟨i, hi, rfl⟩
    rw [mem_range] at hi
    omega
  · rintro ⟨hlow, hhigh⟩
    exact ⟨(pid - base).toNat, mem_range.mpr (by omega), by omega⟩

lemma nodup_pidsFrom (base : Int) (n : ℕ) : (pidsFrom base n).Nodup := by
  refine nodup_range.map fun i j hij => ?_
  omega

/-- The sinks of the renditions. -/
def renditionPIDs (c : Channel) : List Int := pidsFrom renditionPIDBase c.video.renditions.length

/-- The sinks of the extra audio tracks. -/
def trackPIDs (c : Channel) : List Int := pidsFrom trackPIDBase c.audio.tracks.length

/-- The sinks of the mux in the order of `BuildEngineWith`. -/
def enginePIDs (c : Channel) : List Int :=
  c.mux.videoPID :: renditionPIDs c ++
    if c.audio.disabled then [] else c.mux.audioPID :: trackPIDs c

/-- The PID of the cues. -/
def cuePIDs (c : Channel) : List Int :=
  match c.scte35 with
  | none => []
  | some s => if s.enabled then [s.pid] else []

/-- Every elementary stream of the transport stream. -/
def streamPIDs (c : Channel) : List Int := enginePIDs c ++ cuePIDs c

/-- The PIDs the configuration sets for the main streams. -/
def mainPIDs (c : Channel) : List Int :=
  c.mux.videoPID :: if c.audio.disabled then [] else [c.mux.audioPID]

/-! ## What validation says about PIDs -/

/-- The checks of `Channel.Validate` that PIDs depend on. -/
structure PidChecks (c : Channel) : Prop where
  main : c.mux.videoPID ≠ c.mux.audioPID
  renditions : c.video.renditions.length ≤ 4
  tracks : c.audio.tracks.length ≤ 7
  silent : c.audio.disabled = true → c.audio.tracks = []
  cues : ∀ pid ∈ cuePIDs c, pid ≠ c.mux.videoPID ∧ pid ≠ c.mux.audioPID ∧
    (pid < 0x110 ∨ 0x130 ≤ pid)

lemma tracks_of_validatePro {a : Audio} {i : Input} (h : a.validatePro i = []) :
    a.tracks.length ≤ 7 ∧ (a.disabled = true → a.tracks = []) := by
  unfold Audio.validatePro at h
  split at h
  · have hnone : a.tracks = [] := by simpa using h
    exact ⟨by simp [hnone], fun _ => hnone⟩
  · rename_i hdisabled
    simp only [append_eq_nil_iff, reject_eq_nil] at h
    exact ⟨Nat.le_of_not_lt h.1.2, fun hd => absurd hd hdisabled⟩

lemma cuePIDs_of_validate {c : Channel} (h : (c.scte35.elim [] fun s => s.validate c.mux) = []) :
    ∀ pid ∈ cuePIDs c, pid ≠ c.mux.videoPID ∧ pid ≠ c.mux.audioPID ∧
      (pid < 0x110 ∨ 0x130 ≤ pid) := by
  intro pid hpid
  unfold cuePIDs at hpid
  split at hpid
  · cases hpid
  rename_i s hs
  split at hpid
  · rename_i henabled
    rw [mem_singleton] at hpid
    rw [hs] at h
    simp only [Option.elim_some, SCTE35Options.validate, if_pos henabled,
      append_eq_nil_iff, reject_eq_nil] at h
    omega
  · cases hpid

lemma pidChecks_of_validate {go : Go} {c : Channel} (h : c.validate go = []) : PidChecks c := by
  have hparts : c.validatePro = [] ∧ c.validateMux = [] := by
    unfold Channel.validate at h
    simp only [append_eq_nil_iff] at h
    exact ⟨h.1.1.1.2, h.1.2⟩
  obtain ⟨hpro, hmux⟩ := hparts
  simp only [Channel.validatePro, append_eq_nil_iff] at hpro
  simp only [Channel.validateMux, append_eq_nil_iff, reject_eq_nil] at hmux
  obtain ⟨⟨⟨⟨hvideo, haudio⟩, -⟩, hcues⟩, -⟩ := hpro
  have hrenditions : ¬ c.video.renditions.length > 4 := by
    simp only [Video.validatePro, append_eq_nil_iff, reject_eq_nil] at hvideo
    exact hvideo.1.2
  obtain ⟨htracks, hsilent⟩ := tracks_of_validatePro haudio
  exact ⟨hmux.1.1.2, Nat.le_of_not_lt hrenditions, htracks, hsilent, cuePIDs_of_validate hcues⟩

/-! ## Distinct PIDs -/

variable {c : Channel}

lemma PidChecks.mem_renditionPIDs (h : PidChecks c) {pid : Int} (hpid : pid ∈ renditionPIDs c) :
    0x110 ≤ pid ∧ pid < 0x114 := by
  have hrange := mem_pidsFrom.mp hpid
  have hlength := h.renditions
  unfold renditionPIDBase at hrange
  omega

lemma PidChecks.mem_trackPIDs (h : PidChecks c) {pid : Int} (hpid : pid ∈ trackPIDs c) :
    0x120 ≤ pid ∧ pid < 0x127 := by
  have hrange := mem_pidsFrom.mp hpid
  have hlength := h.tracks
  unfold trackPIDBase at hrange
  omega

lemma PidChecks.nodup_fixed (h : PidChecks c) : (renditionPIDs c ++ trackPIDs c).Nodup := by
  refine (nodup_pidsFrom _ _).append (nodup_pidsFrom _ _) ?_
  intro pid hrendition htrack
  have hlow := h.mem_renditionPIDs hrendition
  have hhigh := h.mem_trackPIDs htrack
  omega

lemma PidChecks.nodup_mainPIDs (h : PidChecks c) : (mainPIDs c).Nodup := by
  unfold mainPIDs
  split
  · exact nodup_singleton _
  · simp [h.main]

lemma nodup_cuePIDs (c : Channel) : (cuePIDs c).Nodup := by
  unfold cuePIDs
  split
  · exact nodup_nil
  split
  · exact nodup_singleton _
  · exact nodup_nil

lemma mem_mainPIDs {pid : Int} (h : pid ∈ mainPIDs c) :
    pid = c.mux.videoPID ∨ pid = c.mux.audioPID := by
  unfold mainPIDs at h
  split at h
  · exact .inl (mem_singleton.mp h)
  · simpa using h

lemma PidChecks.disjoint_cuePIDs (h : PidChecks c) :
    (mainPIDs c ++ (renditionPIDs c ++ trackPIDs c)).Disjoint (cuePIDs c) := by
  intro pid hpid hcue
  obtain ⟨hvideo, haudio, hrange⟩ := h.cues pid hcue
  rw [mem_append, mem_append] at hpid
  obtain hmain | hrendition | htrack := hpid
  · exact (mem_mainPIDs hmain).elim hvideo haudio
  · have hlow := h.mem_renditionPIDs hrendition
    omega
  · have hhigh := h.mem_trackPIDs htrack
    omega

/-- Main streams, fixed PIDs, cues: the streams in another order. -/
lemma PidChecks.streamPIDs_perm (h : PidChecks c) :
    (streamPIDs c).Perm (mainPIDs c ++ (renditionPIDs c ++ trackPIDs c) ++ cuePIDs c) := by
  refine Perm.append_right _ ?_
  unfold enginePIDs mainPIDs
  split
  · -- without audio there are no tracks either, so the shorter list leaves none out
    rename_i hdisabled
    have hnone : trackPIDs c = [] := by simp [trackPIDs, pidsFrom, h.silent hdisabled]
    simp [hnone]
  · simp

/-- The PIDs of an accepted channel are pairwise distinct exactly when no main
stream has the PID of a rendition or of an extra track. -/
theorem streamPIDs_nodup_iff (go : Go) (c : Channel)
    (hvalid : (c.applyDefaults go).validate go = []) :
    (streamPIDs (c.applyDefaults go)).Nodup ↔
      ∀ pid ∈ mainPIDs (c.applyDefaults go),
        pid ∉ renditionPIDs (c.applyDefaults go) ∧ pid ∉ trackPIDs (c.applyDefaults go) := by
  have h := pidChecks_of_validate hvalid
  generalize c.applyDefaults go = d at h
  rw [h.streamPIDs_perm.nodup_iff, nodup_append', nodup_append']
  constructor
  · rintro ⟨⟨-, -, hdisjoint⟩, -⟩ pid hpid
    exact ⟨fun hrendition => hdisjoint hpid (mem_append_left _ hrendition),
      fun htrack => hdisjoint hpid (mem_append_right _ htrack)⟩
  · intro hmain
    refine ⟨⟨h.nodup_mainPIDs, h.nodup_fixed, ?_⟩, nodup_cuePIDs d, h.disjoint_cuePIDs⟩
    intro pid hpid hfixed
    exact (mem_append.mp hfixed).elim (hmain pid hpid).1 (hmain pid hpid).2

/-- A test pattern with one rendition, and the PIDs of the main streams. -/
def ladderChannel (videoPID audioPID : Int) : Channel where
  id := str "ch1"
  input := { type := str "test" }
  video := { renditions := [{ width := 640, height := 360, bitrateKbps := 800 }] }
  mux := { videoPID := videoPID, audioPID := audioPID }

theorem streamPIDs_nodup_default :
    ((ladderChannel 0 0).applyDefaults Go.plain).validate Go.plain = [] ∧
      (streamPIDs ((ladderChannel 0 0).applyDefaults Go.plain)).Nodup := by
  have hvalid : ((ladderChannel 0 0).applyDefaults Go.plain).validate Go.plain = [] := by
    decide +kernel
  exact ⟨hvalid, (streamPIDs_nodup_iff Go.plain _ hvalid).mpr (by decide +kernel)⟩

/-- The main video on PID 272 is accepted, and shares it with the first rendition. -/
theorem video_shares_rendition_pid :
    ((ladderChannel 272 0).applyDefaults Go.plain).validate Go.plain = [] ∧
      ¬ (streamPIDs ((ladderChannel 272 0).applyDefaults Go.plain)).Nodup :=
  ⟨by decide +kernel, by decide +kernel⟩

end StreamHub.Pipeline
