import StreamHub.Pipeline.Outputs

/-!
# When a running output is left alone

`outputKey` of `internal/channel/manager.go` decides whether a reconcile keeps
the process of an output.  It covers the output, the video codec and whether
audio is disabled.  `BuildOutput` reads more of the channel: HLS outputs and
single renditions select streams by the PIDs of the mux, and the ladder lists the
renditions.  `SameStreams` says exactly when equal keys mean equal commands.
-/

namespace StreamHub.Channel

open Library Library.Text Config Pipeline List

/-- What `outputKey` marshals. -/
structure OutputKey where
  output : Output
  codec : Str
  noAudio : Bool
  deriving DecidableEq

/-- Without what the encoder writes back. -/
def withoutResolution (s : StreamHubOutput) : StreamHubOutput :=
  { s with ingressID := [], resolvedURL := [], streamKey := [] }

/-- `outputKey`, as the value before its JSON form. -/
def outputKey (c : Config.Channel) (o : Output) : OutputKey where
  output := { o with streamHub := o.streamHub.map withoutResolution, name := [] }
  codec := c.video.codec
  noAudio := c.audio.disabled

variable {c d : Config.Channel}

/-! ## The streams a command selects -/

/-- The same audio PID, if there is audio. -/
def SameAudio (c d : Config.Channel) : Prop :=
  c.audio.disabled = false → c.mux.audioPID = d.mux.audioPID

/-- What an output reads of the channel beyond its key. -/
def SameStreams (c d : Config.Channel) (o : Output) : Prop :=
  match OutputType.of o.type, o.hls with
  | .hls, none => True
  | .hls, some h =>
    if h.ladder then
      c.mux.videoPID = d.mux.videoPID ∧ SameAudio c d ∧
        c.video.renditions.length = d.video.renditions.length ∧
        varStreamMap c = varStreamMap d
    else (o.rendition = 0 → c.mux.videoPID = d.mux.videoPID) ∧ SameAudio c d
  | _, _ => o.rendition > 0 → SameAudio c d

lemma mapPID_inj {a b : Int} : mapPID a = mapPID b ↔ a = b := by
  constructor
  · intro h
    simp only [mapPID, cons.injEq, append_cancel_left_eq, true_and, and_true] at h
    exact itoa_injective h
  · rintro rfl
    rfl

section

variable (hdisabled : c.audio.disabled = d.audio.disabled)

include hdisabled

lemma mapAudio_eq_iff : mapAudio c = mapAudio d ↔ SameAudio c d := by
  unfold mapAudio SameAudio
  rw [← hdisabled]
  cases c.audio.disabled with
  | true => simp
  | false => simpa using mapPID_inj

lemma length_selectRendition (r k : Int) :
    (selectRendition c r).length = (selectRendition d k).length := by
  unfold selectRendition mapAudio
  rw [← hdisabled]
  split <;> rfl

lemma selectRendition_eq_iff {r : Int} : selectRendition c r = selectRendition d r ↔
      (r = 0 → c.mux.videoPID = d.mux.videoPID) ∧ SameAudio c d := by
  have hpid : renditionPID c r = renditionPID d r ↔
      (r = 0 → c.mux.videoPID = d.mux.videoPID) := by
    unfold renditionPID
    by_cases hr : r = 0
    · simp [hr]
    · simp [hr]
  constructor
  · intro h
    obtain ⟨hvideo, haudio⟩ := append_inj h rfl
    exact ⟨hpid.mp (mapPID_inj.mp hvideo), (mapAudio_eq_iff hdisabled).mp haudio⟩
  · rintro ⟨hvideo, haudio⟩
    unfold selectRendition
    rw [hpid.mpr hvideo, (mapAudio_eq_iff hdisabled).mpr haudio]

end

/-- Every rung adds the same number of arguments, so their number shows. -/
lemma length_ladderMaps (c : Config.Channel) : (ladderMaps c).length =
      (c.video.renditions.length + 1) * (selectRendition c 0).length := by
  have hconst : ∀ i : Nat, (selectRendition c i).length = (selectRendition c 0).length :=
    fun i => length_selectRendition rfl i 0
  simp [ladderMaps, rungs, length_flatMap, hconst]

lemma ladderMaps_eq_iff (hdisabled : c.audio.disabled = d.audio.disabled) :
    ladderMaps c = ladderMaps d ↔
      c.mux.videoPID = d.mux.videoPID ∧ SameAudio c d ∧
        c.video.renditions.length = d.video.renditions.length := by
  constructor
  · intro h
    have hlength := congrArg length h
    rw [length_ladderMaps, length_ladderMaps, length_selectRendition hdisabled 0 0] at hlength
    have hpos : 0 < (selectRendition d 0).length := by simp [selectRendition, mapPID]
    have hcount := Nat.eq_of_mul_eq_mul_right hpos hlength
    -- the first rung is the main encode
    have hmain : selectRendition c 0 = selectRendition d 0 := by
      unfold ladderMaps rungs at h
      rw [range_succ_eq_map, range_succ_eq_map, flatMap_cons, flatMap_cons] at h
      exact (append_inj h (length_selectRendition hdisabled 0 0)).1
    obtain ⟨hvideo, haudio⟩ := (selectRendition_eq_iff hdisabled).mp hmain
    exact ⟨hvideo rfl, haudio, Nat.succ.inj hcount⟩
  · rintro ⟨hvideo, haudio, hcount⟩
    have hrung : (fun i : Nat => selectRendition c i) = fun i : Nat => selectRendition d i :=
      funext fun i => (selectRendition_eq_iff hdisabled).mpr ⟨fun _ => hvideo, haudio⟩
    unfold ladderMaps rungs
    rw [hrung, hcount]

lemma ladderTail_inj {hevc : Bool} {o : Output} {h : HLSOptions} {a b : Str} :
    ladderTail hevc o h a = ladderTail hevc o h b ↔ a = b := by
  constructor
  · intro heq
    have hcut := append_cancel_left (append_cancel_right heq)
    simpa using hcut
  · rintro rfl
    rfl

lemma buildHLS_eq_iff {o : Output} {h : HLSOptions} {port : Int}
    (hcodec : c.video.codec = d.video.codec) (hdisabled : c.audio.disabled = d.audio.disabled) :
    buildHLS c o h port = buildHLS d o h port ↔
      if h.ladder then
        c.mux.videoPID = d.mux.videoPID ∧ SameAudio c d ∧
          c.video.renditions.length = d.video.renditions.length ∧
          varStreamMap c = varStreamMap d
      else (o.rendition = 0 → c.mux.videoPID = d.mux.videoPID) ∧ SameAudio c d := by
  unfold buildHLS
  simp only [Command.mk.injEq, append_cancel_left_eq, true_and, and_true, hcodec]
  cases h.ladder with
  | true =>
    simp only [if_true]
    constructor
    · intro heq
      -- the tails are equally long, whatever the stream map is
      have htails : (ladderTail (decide (d.video.codec = str "h265")) o h
          (varStreamMap c)).length = (ladderTail (decide (d.video.codec = str "h265")) o h
          (varStreamMap d)).length := by simp [ladderTail]
      obtain ⟨hmaps, htail⟩ := append_inj' heq htails
      obtain ⟨hvideo, haudio, hcount⟩ := (ladderMaps_eq_iff hdisabled).mp hmaps
      exact ⟨hvideo, haudio, hcount, ladderTail_inj.mp htail⟩
    · rintro ⟨hvideo, haudio, hcount, hmap⟩
      rw [(ladderMaps_eq_iff hdisabled).mpr ⟨hvideo, haudio, hcount⟩, hmap]
  | false =>
    simp only [Bool.false_eq_true, if_false, append_cancel_right_eq]
    exact selectRendition_eq_iff hdisabled

/-! ## Single renditions -/

variable {go : Go} {o : Output} {port : Int}

lemma validateURL_parsed {field raw : Str} {schemes : List Str} {emptyHostOK : Bool}
    (h : (validateURL go field raw schemes emptyHostOK).1 = []) : ∃ u, go.parseURL raw = .ok u := by
  unfold validateURL at h
  cases hparse : go.parseURL raw with
  | ok u => exact ⟨u, rfl⟩
  | error err =>
    rw [hparse] at h
    split at h
    · cases h
    split at h
    · cases h
    · split at h <;> cases h

/-- Only these outputs select a rendition. -/
lemma validate_rendition (h : o.validate go c = []) (hrendition : o.rendition > 0) :
    OutputType.of o.type ∈ [OutputType.rtmp, .srt, .udp, .hls] := by
  have hpro := (Output.validate_parts h).2
  unfold Output.validatePro at hpro
  simp only [append_eq_nil_iff, reject_eq_nil] at hpro
  by_contra hnot
  exact hpro.1.1.2 ⟨hrendition, hnot⟩

lemma renditionTarget_ok (h : o.validate go c = []) (hrendition : o.rendition > 0)
    (hhls : OutputType.of o.type ≠ .hls) : ∃ target, renditionTarget go o = .ok target := by
  have htype := validate_rendition h hrendition
  have hchecks := (Output.validate_parts h).1
  unfold Output.validateType at hchecks
  unfold renditionTarget
  cases hof : OutputType.of o.type <;> rw [hof] at htype hchecks hhls <;> try simp at htype
  case srt =>
    -- the URL was parsed by its check, and the options are there
    obtain ⟨hurl, hsrt⟩ := append_eq_nil_iff.mp hchecks
    obtain ⟨u, hu⟩ := validateURL_parsed hurl
    cases hs : o.srt with
    | none =>
      rw [hs] at hsrt
      cases hsrt
    | some options => exact ⟨_, by simp only [parsed, hu, deref]; rfl⟩
  case rtmp => exact ⟨_, rfl⟩
  case udp => exact ⟨_, rfl⟩
  case hls => exact absurd rfl hhls

lemma buildRendition_eq_iff (hvalid : o.validate go c = [])
    (hdisabled : c.audio.disabled = d.audio.disabled) (hrendition : o.rendition > 0)
    (hhls : OutputType.of o.type ≠ .hls) :
    buildRendition go c o port = buildRendition go d o port ↔ SameAudio c d := by
  obtain ⟨target, htarget⟩ := renditionTarget_ok hvalid hrendition hhls
  have hcommand : ∀ e : Config.Channel, buildRendition go e o port =
      .ok { path := ffmpeg, args := ffmpegIn port ++
        (selectRendition e o.rendition ++ ([str "-c", str "copy"] ++ target)) } := by
    intro e
    simp only [buildRendition, htarget]
    rfl
  rw [hcommand c, hcommand d]
  simp only [Except.ok.injEq, Command.mk.injEq, append_cancel_left_eq,
    append_cancel_right_eq, true_and, and_true]
  rw [selectRendition_eq_iff hdisabled]
  exact and_iff_right fun hzero => absurd hzero (by omega)

/-- Only a single rendition of another output reads more than its key. -/
lemma sameStreams_iff (hhls : OutputType.of o.type ≠ .hls) :
    SameStreams c d o ↔ (o.rendition > 0 → SameAudio c d) := by
  unfold SameStreams
  split
  · rename_i hof _
    exact absurd hof hhls
  · rename_i hof _
    exact absurd hof hhls
  · rfl

/-- Two channels with the same id under which an output is valid and has the same
key give the same command exactly if they agree on the streams it selects. -/
theorem buildOutput_eq_iff (go : Go) (c d : Config.Channel) (o : Output) (port : Int) (now : Str)
    (hid : c.id = d.id) (hc : o.validate go c = []) (hd : o.validate go d = [])
    (hkey : outputKey c o = outputKey d o) :
    buildOutput go c o port now = buildOutput go d o port now ↔ SameStreams c d o := by
  have hcodec : c.video.codec = d.video.codec := congrArg OutputKey.codec hkey
  have hdisabled : c.audio.disabled = d.audio.disabled := congrArg OutputKey.noAudio hkey
  unfold buildOutput
  rw [if_neg (not_not.mpr hc), if_neg (not_not.mpr hd)]
  unfold buildOutputPro
  by_cases hhls : OutputType.of o.type = .hls
  · unfold SameStreams
    rw [if_pos hhls, hhls]
    cases hopts : o.hls with
    | none => exact iff_of_true rfl trivial
    | some h =>
      change Except.ok (buildHLS c o h port) = .ok (buildHLS d o h port) ↔ _
      rw [Except.ok.injEq]
      exact buildHLS_eq_iff hcodec hdisabled
  · rw [if_neg hhls, if_neg hhls, sameStreams_iff hhls]
    by_cases hrendition : o.rendition > 0
    · simp only [hrendition, true_implies]
      exact buildRendition_eq_iff hc hdisabled hrendition hhls
    · rw [if_neg hrendition, if_neg hrendition]
      -- without a rendition the key and the id are all that is read
      simp only [hrendition, false_implies, hid, hcodec, hdisabled]

/-- An HLS push of the main encode. -/
def hlsOutput : Output :=
  Output.applyDefaults
    { id := str "hls1", type := str "hls", enabled := true,
      url := str "http://cdn/live/index.m3u8" } (str "ch1")

/-- A test pattern with that output, and with this video PID. -/
def hlsChannel (videoPID : Int) : Config.Channel :=
  Channel.applyDefaults Go.plain
    { id := str "ch1", input := { type := str "test" }, mux := { videoPID := videoPID },
      outputs := [hlsOutput] }

/-- A change of the PCR interval leaves the command as it is. -/
theorem buildOutput_eq_pcrInterval :
    buildOutput Go.plain (hlsChannel 256) hlsOutput 20000 [] =
      buildOutput Go.plain { hlsChannel 256 with
        mux := { (hlsChannel 256).mux with pcrIntervalMs := 40 } } hlsOutput 20000 [] :=
  (buildOutput_eq_iff Go.plain _ _ hlsOutput 20000 [] rfl (by decide +kernel) (by decide +kernel)
    rfl).mpr (by
      change (_ → _) ∧ (_ → _)
      exact ⟨fun _ => rfl, fun _ => rfl⟩)

/-- A change of the video PID changes the command and not the key. -/
theorem outputKey_misses_videoPID :
    (hlsChannel 256).validate Go.plain = [] ∧ (hlsChannel 300).validate Go.plain = [] ∧
      (hlsChannel 256).id = (hlsChannel 300).id ∧
      hlsOutput ∈ (hlsChannel 256).outputs ∧ hlsOutput ∈ (hlsChannel 300).outputs ∧
      outputKey (hlsChannel 256) hlsOutput = outputKey (hlsChannel 300) hlsOutput ∧
      buildOutput Go.plain (hlsChannel 256) hlsOutput 20000 [] ≠
        buildOutput Go.plain (hlsChannel 300) hlsOutput 20000 [] := by
  refine ⟨by decide +kernel, by decide +kernel, rfl, ?_, ?_, rfl, by decide +kernel⟩
  all_goals exact mem_singleton.mpr rfl

end StreamHub.Channel
