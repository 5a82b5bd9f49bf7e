import StreamHub.Config.Model
import StreamHub.Library.Go

/-!
# Defaults

`ApplyDefaults` of `internal/config/defaults.go` and `validate_pro.go`: zero
values are filled in.
-/

namespace StreamHub.Config

open Library Library.Text

/-- `s`, or the default for an empty text. -/
def orStr (s default : Str) : Str := if s = [] then default else s

/-- `n`, or the default for zero. -/
def orInt (n default : Int) : Int := if n = 0 then default else n

@[simp] theorem orStr_orStr (s d : Str) : orStr (orStr s d) d = orStr s d := by
  by_cases h : s = [] <;> simp [orStr, h]

@[simp] theorem orInt_orInt (n d : Int) : orInt (orInt n d) d = orInt n d := by
  by_cases h : n = 0 <;> simp [orInt, h]

/-! ## Frame rates -/

def allowedFPS : List (Int × Int) :=
  [(24000, 1001), (24, 1), (25, 1), (30000, 1001), (30, 1), (50, 1), (60000, 1001), (60, 1)]

/-- The number behind `num/den` or `num`; the error is the message. -/
def fpsRatio (go : Go) (s : Str) : Except Str (Int × Int) :=
  let invalid : Except Str (Int × Int) := .error (str "invalid fps " ++ go.quote s)
  match cut (str "/") s with
  | some (a, b) =>
    match atoi a, atoi b with
    | some n, some d => if n ≤ 0 ∨ d ≤ 0 then invalid else .ok (n, d)
    | _, _ => invalid
  | none =>
    match atoi s with
    | some n => if n ≤ 0 then invalid else .ok (n, 1)
    | none => invalid

/-- `ParseFPS` -/
def parseFPS (go : Go) (raw : Str) : Except Str (Int × Int) :=
  let s := go.trimSpace raw
  if s = str "23.976" ∨ s = str "23.98" then .ok (24000, 1001)
  else if s = str "29.97" then .ok (30000, 1001)
  else if s = str "59.94" then .ok (60000, 1001)
  else
    match fpsRatio go s with
    | .error err => .error err
    | .ok (n, d) =>
      let g : Int := Int.gcd n d
      let (num, den) := if d ≠ 1 ∧ d ≠ 1001 then (n / g, d / g) else (n, d)
      if (num, den) ∈ allowedFPS then .ok (num, den)
      else .error (str "unsupported fps " ++ go.quote s ++
        str " (allowed: 23.976 24 25 29.97 30 50 59.94 60)")

/-- `FPSFloat` -/
def fpsFloat (go : Go) (s : Str) : ℚ :=
  match parseFPS go s with
  | .ok (n, d) => n / d
  | .error _ => 0

/-! ## Inputs and outputs -/

def Input.applyDefaults (i : Input) : Input :=
  let i := { i with timeoutMs := orInt i.timeoutMs 2000 }
  match InputType.of i.type with
  | .test => { i with pattern := orStr i.pattern (str "smpte"), toneHz := orInt i.toneHz 1000 }
  | .deckLink =>
    { i with
      connection := orStr i.connection (str "auto")
      mode := orStr i.mode (str "auto")
      audioInputCh := orInt i.audioInputCh 2 }
  | .v4l2 =>
    { i with
      devicePath := orStr i.devicePath (str "/dev/video0")
      format := orStr i.format (str "raw") }
  | .file => if (str "/").isPrefixOf i.uri then { i with uri := str "file://" ++ i.uri } else i
  | _ => i

/-- The defaults of SRT options; the URL decides on the mode. -/
def SRTOptions.applyDefaults (s : SRTOptions) (url : Str) : SRTOptions :=
  { s with
    mode := orStr s.mode
      (if (str "srt://:").isPrefixOf url then str "listener" else str "caller")
    latencyMs := orInt s.latencyMs 200
    pbKeyLen := if s.passphrase ≠ [] then orInt s.pbKeyLen 16 else s.pbKeyLen }

def StreamHubOutput.applyDefaults (s : StreamHubOutput) (channelID : Str) : StreamHubOutput :=
  { s with
    protocol := orStr s.protocol (str "rtmp")
    room := orStr s.room channelID
    baseURL := trimRight 0x2f s.baseURL }

/-- The part of `Output.ApplyDefaults` that depends on the type. -/
def Output.typeDefaults (o : Output) (channelID : Str) : Output :=
  match OutputType.of o.type with
  | .srt => { o with srt := some ((o.srt.getD {}).applyDefaults o.url) }
  | .udp | .rtp =>
    let u := o.udp.getD {}
    { o with udp := some { u with ttl := orInt u.ttl 16 } }
  | .hls =>
    let h := o.hls.getD {}
    { o with
      hls := some
        { h with
          segmentSeconds := orInt h.segmentSeconds 2
          listSize := orInt h.listSize 6 } }
  | .streamHub => { o with streamHub := some ((o.streamHub.getD {}).applyDefaults channelID) }
  | _ => o

/-- `Output.ApplyDefaults` -/
def Output.applyDefaults (o : Output) (channelID : Str) : Output :=
  let o := o.typeDefaults channelID
  { o with name := orStr o.name o.id }

/-- The outputs of `applyProDefaults`. -/
def Output.applyProDefaults (o : Output) : Output :=
  match OutputType.of o.type with
  | .rist =>
    let r := o.rist.getD {}
    { o with rist := some { r with bufferMs := orInt r.bufferMs 1000 } }
  | .record =>
    let r := o.record.getD {}
    { o with
      record := some
        { r with
          segmentSeconds := orInt r.segmentSeconds 60
          maxSegments := orInt r.maxSegments 60 } }
  | _ => o

/-! ## Video, audio, mux -/

/-- `DefaultMasterDisplay` -/
def defaultMasterDisplay : Str :=
  str "G(13250,34500)B(7500,3000)R(34000,16000)WP(15635,16450)L(10000000,1)"

/-- Two seconds of frames, rounded. -/
def defaultGOP (go : Go) (fps : Str) : Int :=
  let f := fpsFloat go fps
  ⌊(if f = 0 then 30 else f) * 2 + 1 / 2⌋

/-- The video part of `Channel.ApplyDefaults`. -/
def Video.applyDefaults (go : Go) (v : Video) : Video :=
  let codec := orStr v.codec (str "h264")
  let unsized := v.width = 0 ∧ v.height = 0
  let fps := orStr v.fps (str "30")
  { v with
    codec := codec
    encoder := orStr v.encoder (str "auto")
    width := if unsized then 1920 else v.width
    height := if unsized then 1080 else v.height
    fps := fps
    bitrateKbps := orInt v.bitrateKbps 4000
    rateControl := orStr v.rateControl (str "cbr")
    gop := orInt v.gop (defaultGOP go fps)
    profile := orStr v.profile (if codec = str "h265" then str "main" else str "high")
    bFrames := if v.lowLatency then 0 else v.bFrames
    deinterlace := some (v.deinterlace.getD true) }

def Rendition.applyDefaults (r : Rendition) : Rendition :=
  { r with name := orStr r.name (itoa r.height ++ str "p") }

/-- The video part of `applyProDefaults`. -/
def Video.applyProDefaults (v : Video) : Video :=
  let pq := v.hdr = str "pq"
  { v with
    bitDepth := orInt v.bitDepth 8
    chroma := orStr v.chroma (str "420")
    masterDisplay := if pq then orStr v.masterDisplay defaultMasterDisplay else v.masterDisplay
    maxCLL := if pq then orStr v.maxCLL (str "1000,400") else v.maxCLL
    renditions := v.renditions.map Rendition.applyDefaults }

/-- The bitrate of an audio track by its channels; one channel gets 96. -/
def Audio.defaultBitrate (channels : Int) : Int :=
  let kbps := if channels = 1 then 96 else (64 * channels).bmod (2 ^ 64)
  if kbps > 512 then 512 else kbps

/-- The audio part of `Channel.ApplyDefaults`. -/
def Audio.applyDefaults (a : Audio) : Audio :=
  let channels := orInt a.channels 2
  { a with
    codec := orStr a.codec (str "aac")
    channels := channels
    sampleRate := orInt a.sampleRate 48000
    bitrateKbps := orInt a.bitrateKbps (Audio.defaultBitrate channels) }

/-- A track takes the codec of the main track. -/
def AudioTrack.applyDefaults (t : AudioTrack) (codec : Str) : AudioTrack :=
  let channels := orInt t.channels 2
  { t with
    codec := orStr t.codec codec
    channels := channels
    bitrateKbps := orInt t.bitrateKbps (min ((64 * channels).bmod (2 ^ 64)) 512) }

/-- The audio part of `applyProDefaults`. -/
def Audio.applyProDefaults (a : Audio) : Audio :=
  { a with tracks := a.tracks.map fun t => t.applyDefaults a.codec }

def Mux.applyDefaults (m : Mux) : Mux :=
  { m with
    videoPID := orInt m.videoPID 256
    audioPID := orInt m.audioPID 257
    pcrIntervalMs := orInt m.pcrIntervalMs 20 }

def SCTE35Options.applyDefaults (s : SCTE35Options) : SCTE35Options :=
  { s with pid := orInt s.pid 500 }

/-! ## Channels -/

/-- `applyProDefaults` -/
def Channel.applyProDefaults (c : Channel) : Channel :=
  { c with
    video := c.video.applyProDefaults
    audio := c.audio.applyProDefaults
    scte35 := c.scte35.map SCTE35Options.applyDefaults
    outputs := c.outputs.map Output.applyProDefaults }

/-- `Channel.ApplyDefaults` -/
def Channel.applyDefaults (go : Go) (c : Channel) : Channel :=
  Channel.applyProDefaults
    { c with
      name := orStr c.name c.id
      input := c.input.applyDefaults
      backup := c.backup.map Input.applyDefaults
      video := c.video.applyDefaults go
      audio := c.audio.applyDefaults
      mux := c.mux.applyDefaults
      outputs := c.outputs.map fun o => o.applyDefaults c.id }

/-! ## Filling in twice -/

theorem Input.applyDefaults_applyDefaults (i : Input) :
    i.applyDefaults.applyDefaults = i.applyDefaults := by
  -- a path becomes a URL, which does not start with a slash
  have hurl (u : Str) : (str "/").isPrefixOf (str "file://" ++ u) = false := rfl
  by_cases hpath : (str "/").isPrefixOf i.uri <;> rcases h : InputType.of i.type <;>
    simp only [Input.applyDefaults, h, hpath, hurl, orStr_orStr, orInt_orInt, if_true,
      Bool.false_eq_true, if_false]

theorem SRTOptions.applyDefaults_applyDefaults (s : SRTOptions) (url : Str) :
    (s.applyDefaults url).applyDefaults url = s.applyDefaults url := by
  by_cases h : s.passphrase = [] <;> simp [SRTOptions.applyDefaults, h]

theorem Output.applyDefaults_twice (o : Output) (channelID : Str) :
    ((o.applyDefaults channelID).applyProDefaults.applyDefaults channelID).applyProDefaults =
      (o.applyDefaults channelID).applyProDefaults := by
  rcases h : OutputType.of o.type <;>
    simp [Output.applyDefaults, Output.typeDefaults, Output.applyProDefaults, h,
      SRTOptions.applyDefaults_applyDefaults, StreamHubOutput.applyDefaults, trimRight,
      List.rdropWhile_idempotent]

theorem Video.applyDefaults_twice (go : Go) (v : Video) :
    ((v.applyDefaults go).applyProDefaults.applyDefaults go).applyProDefaults =
      (v.applyDefaults go).applyProDefaults := by
  by_cases hsize : v.width = 0 ∧ v.height = 0 <;> by_cases hpq : v.hdr = str "pq" <;>
    cases hlow : v.lowLatency <;>
      simp [Video.applyDefaults, Video.applyProDefaults, Rendition.applyDefaults, hsize, hpq, hlow]

theorem Audio.applyDefaults_twice (a : Audio) :
    a.applyDefaults.applyProDefaults.applyDefaults.applyProDefaults =
      a.applyDefaults.applyProDefaults := by
  simp [Audio.applyDefaults, Audio.applyProDefaults, AudioTrack.applyDefaults]

/-- A second pass over a channel changes nothing. -/
theorem Channel.applyDefaults_idempotent (go : Go) (c : Channel) :
    (c.applyDefaults go).applyDefaults go = c.applyDefaults go := by
  have hscte (s : SCTE35Options) : s.applyDefaults.applyDefaults = s.applyDefaults := by
    simp [SCTE35Options.applyDefaults]
  simp [Channel.applyDefaults, Channel.applyProDefaults, Input.applyDefaults_applyDefaults,
    Output.applyDefaults_twice, Video.applyDefaults_twice, Audio.applyDefaults_twice,
    Mux.applyDefaults, hscte, Function.comp_def]

/-! ## Alarms -/

def AlarmOptions.withDefaults (a : AlarmOptions) : AlarmOptions :=
  { a with
    blackSec := orInt a.blackSec 5
    freezeSec := orInt a.freezeSec 10
    silenceSec := orInt a.silenceSec 10
    silenceDBFS := if a.silenceDBFS = 0 then -60 else a.silenceDBFS
    bitrateDropPct := orInt a.bitrateDropPct 20
    loudnessTolLU := if a.loudnessTolLU = 0 then 3 else a.loudnessTolLU }

/-- `AlarmDefaults` -/
def Channel.alarmDefaults (c : Channel) : AlarmOptions := (c.alarms.getD {}).withDefaults

/-- `AlarmEnabled` -/
def AlarmOptions.alarmEnabled (a : AlarmOptions) (typ : Str) : Bool := !a.disabled.contains typ

end StreamHub.Config
