import StreamHub.Config.Defaults
import StreamHub.Library.Regex

/-!
# Validation

`Validate` of `internal/config/validate.go` and `validate_pro.go`.  Every check
gives the list of its errors; the checks of the source stand in its order, with
the paths and texts of the source.
-/

namespace StreamHub.Config

open Library Library.Text

/-- One validation failure, addressed by a JSON-ish path. -/
structure FieldError where
  field : Str
  message : Str
  deriving DecidableEq

abbrev Errors := List FieldError

/-- `errs.add` -/
def fail (field message : Str) : Errors := [{ field := field, message := message }]

/-- An error for a bad value. -/
def reject (bad : Prop) [Decidable bad] (field message : Str) : Errors :=
  if bad then fail field message else []

/-- The errors of a part, under its path. -/
def Errors.under (path : Str) (errs : Errors) : Errors :=
  errs.map fun e => { e with field := path ++ str "." ++ e.field }

@[simp] lemma reject_eq_nil {bad : Prop} [Decidable bad] {field message : Str} :
    reject bad field message = [] ↔ ¬ bad := by
  unfold reject fail
  split <;> simp_all

@[simp] lemma under_eq_nil {path : Str} {errs : Errors} :
    Errors.under path errs = [] ↔ errs = [] := by simp [Errors.under]

/-- `name[i]` -/
def indexed (name : String) (i : Nat) : Str := str name ++ str "[" ++ itoa i ++ str "]"

/-! ## Patterns -/

namespace Pattern

open Regex

def alnum (extra : String) : Regex := .chars fun b => isAlnum b || oneOf extra b

def lowerDigit (extra : String) : Regex := .chars fun b => isLower b || isDigit b || oneOf extra b

def digits : Regex := plus (.chars isDigit)

/-- one to `m` digits -/
def digitsUpTo (m : Nat) : Regex := seq (.chars isDigit) (upTo (.chars isDigit) (m - 1))

def id : Regex := seq (lowerDigit "") (upTo (lowerDigit "-") 31)

def app : Regex := seq (alnum "") (upTo (alnum "_-") 63)

def room : Regex := seq (alnum "") (upTo (alnum "_.-") 127)

def v4l2 : Regex :=
  seq (lit "/dev/") (alt (seq (lit "video") digits)
    (seq (seq (lit "v4l/by-") (seq (alt (lit "id") (lit "path")) (lit "/")))
      (plus (alnum "._:-"))))

def alsa : Regex :=
  seq (alt (alt (lit "hw") (lit "plughw")) (alt (lit "default") (lit "sysdefault")))
    (opt (seq (lit ":") (plus (alnum ",=_"))))

def absPath : Regex := seq (lit "/") (plus (alnum "._/ -"))

def outPath : Regex := seq (lit "/") (plus (alnum "._/\x7b\x7d-"))

def iface : Regex := seq (alnum "._-") (upTo (alnum "._-") 14)

def lang : Regex := seq (.chars isLower) (seq (.chars isLower) (.chars isLower))

/-- `name(digits,digits)` -/
def point (name : String) : Regex :=
  seq (lit name) (seq (lit "(") (seq digits (seq (lit ",") (seq digits (lit ")")))))

def master : Regex :=
  seq (point "G") (seq (point "B") (seq (point "R") (seq (point "WP") (point "L"))))

def maxCLL : Regex := seq (digitsUpTo 5) (seq (lit ",") (digitsUpTo 5))

def png : Regex := seq (lit "/") (seq (plus (alnum "._/-")) (lit ".png"))

def hostPort : Regex := seq (plus (alnum ".:[]-")) (seq (lit ":") (digitsUpTo 5))

end Pattern

def idText : Str := str "must match ^[a-z0-9][a-z0-9-]\x7b0,31\x7d$"

/-! ## Safe texts -/

/-- `SafeValue`: no control characters, quotes, backslashes and backticks. -/
def safeValue (s : Str) : Bool :=
  s.all fun b => !(b < 0x20 || b == 0x7f || b == 0x22 || b == 0x5c || b == 0x27 || b == 0x60)

/-- `safeURL` -/
def safeURL (s : Str) : Bool := safeValue s && !s.contains 0x20 && !s.contains 0x09

def placeholderMsg : Str :=
  str "is the " ++ redacted ++
    str " placeholder and no stored secret matches (new id or changed destination): re-enter it"

def nameMsg : Str := str "max 64 printable chars, no quotes"

/-! ## URLs -/

/-- `validateURL`: the errors, and the parsed URL where there is one. -/
def validateURL (go : Go) (field raw : Str) (schemes : List Str) (emptyHostOK : Bool) :
    Errors × Option URL :=
  if raw = [] then (fail field (str "required"), none)
  else if contains raw redacted then (fail field placeholderMsg, none)
  else if safeURL raw = false ∨ raw.length > 1024 then
    (fail field
      (str "contains forbidden characters (quotes, backslashes, spaces or control chars)"), none)
  else
    match go.parseURL raw with
    | .error err => (fail field (str "invalid URL: " ++ err), none)
    | .ok u =>
      if u.scheme ∉ schemes then
        (fail field (str "scheme must be one of [" ++ join schemes (str " ") ++ str "]"), none)
      else if u.scheme = str "srt" ∨ u.scheme = str "udp" ∨ u.scheme = str "rtp" then
        match go.splitHostPort (trimPrefix u.host (str "@")) with
        | .error _ => (fail field (str "needs host:port"), some u)
        | .ok (h, port) =>
          let badPort : Bool :=
            match atoi port with
            | none => true
            | some n => n < 1 || n > 65535
          (reject (badPort = true) field (str "invalid port " ++ go.quote port) ++
            reject (h = [] ∧ emptyHostOK = false) field (str "needs a host"), some u)
      else (reject (u.host = []) field (str "needs a host"), some u)

/-! ## Inputs -/

def isURIInput (type : Str) : Bool :=
  match InputType.of type with
  | .file | .srt | .udp | .rtmp | .rtsp => true
  | _ => false

def testPatterns : List Str :=
  ["smpte", "smpte75", "smpte100", "bar", "ball", "snow", "black", "white", "red", "green", "blue",
    "checkers-8", "circular", "colors", "gamut", "zone-plate", "pinwheel", "spokes"].map str

def deckLinkModes : List Str :=
  ["auto", "ntsc", "pal", "1080p2398", "1080p24", "1080p25", "1080p2997", "1080p30", "1080i50",
    "1080i5994", "1080i60", "1080p50", "1080p5994", "1080p60", "720p50", "720p5994", "720p60",
    "2160p25", "2160p2997", "2160p30", "2160p50", "2160p60"].map str

/-- The schemes of the URI input types. -/
def inputSchemes : InputType → List Str
  | .srt => [str "srt"]
  | .udp => [str "udp"]
  | .rtmp => [str "rtmp", str "rtmps"]
  | .rtsp => [str "rtsp", str "rtsps"]
  | _ => []

/-- The checks of `validateInput` for the type. -/
def Input.validateType (go : Go) (p : Str) (i : Input) : Errors :=
  match InputType.of i.type with
  | .test =>
    reject (i.pattern ∉ testPatterns) (p ++ str ".pattern")
      (str "unknown pattern " ++ go.quote i.pattern) ++
    reject (i.toneHz < 20 ∨ i.toneHz > 20000) (p ++ str ".toneHz") (str "must be 20..20000")
  | .file =>
    let u := trimPrefix i.uri (str "file://")
    reject ((str "file:///").isPrefixOf i.uri = false ∨ Pattern.absPath.accepts u = false ∨
        contains u (str "..") = true) (p ++ str ".uri")
      (str "file input needs an absolute path (file:///… or /…) without '..'")
  | .srt | .udp =>
    (validateURL go (p ++ str ".uri") i.uri (inputSchemes (InputType.of i.type)) true).1
  | .rtmp | .rtsp =>
    (validateURL go (p ++ str ".uri") i.uri (inputSchemes (InputType.of i.type)) false).1
  | .deckLink =>
    reject (i.device < 0 ∨ i.device > 15) (p ++ str ".device") (str "must be 0..15") ++
    reject (i.connection ∉
        ["auto", "sdi", "hdmi", "optical-sdi", "component", "composite", "svideo"].map str)
      (p ++ str ".connection")
      (str "must be auto|sdi|hdmi|optical-sdi|component|composite|svideo") ++
    reject (i.mode ∉ deckLinkModes) (p ++ str ".mode")
      (str "unknown DeckLink mode " ++ go.quote i.mode) ++
    reject (i.audioInputCh ≠ 2 ∧ i.audioInputCh ≠ 8 ∧ i.audioInputCh ≠ 16)
      (p ++ str ".audioInputChannels") (str "DeckLink captures 2, 8 or 16 channels")
  | .v4l2 =>
    reject (Pattern.v4l2.accepts i.devicePath = false) (p ++ str ".devicePath")
      (str "must be /dev/videoN or /dev/v4l/by-id|by-path/…") ++
    reject (i.audioDevice ≠ [] ∧ Pattern.alsa.accepts i.audioDevice = false)
      (p ++ str ".audioDevice") (str "must be an ALSA device like hw:1,0") ++
    reject (i.format ≠ str "raw" ∧ i.format ≠ str "mjpeg") (p ++ str ".format")
      (str "must be raw|mjpeg")
  | .other =>
    fail (p ++ str ".type") (str "unknown input type " ++ go.quote i.type ++
      str " (test|file|srt|udp|rtmp|rtsp|decklink|v4l2)")

/-- `validateInput` -/
def Input.validate (go : Go) (p : Str) (i : Input) : Errors :=
  reject (i.timeoutMs < 200 ∨ i.timeoutMs > 60000) (p ++ str ".timeoutMs")
    (str "must be 200..60000") ++
  i.validateType go p

/-! ## Video -/

def x26xPresets : List Str :=
  ["ultrafast", "superfast", "veryfast", "faster", "fast", "medium", "slow", "slower",
    "veryslow"].map str

def nvencPresets : List Str := ["p1", "p2", "p3", "p4", "p5", "p6", "p7"].map str

/-- Which encoder goes with which codec. -/
def Video.validateEncoder (v : Video) : Errors :=
  if v.encoder ∈ ["auto", "nvenc", "qsv", "vaapi"].map str then []
  else if v.encoder = str "x264" then
    reject (v.codec ≠ str "h264") (str "video.encoder") (str "x264 only encodes h264")
  else if v.encoder = str "x265" then
    reject (v.codec ≠ str "h265") (str "video.encoder") (str "x265 only encodes h265")
  else fail (str "video.encoder") (str "must be auto|x264|x265|nvenc|qsv|vaapi")

/-- The frame rate must parse. -/
def Video.validateFPS (go : Go) (v : Video) : Errors :=
  match parseFPS go v.fps with
  | .ok _ => []
  | .error err => fail (str "video.fps") err

/-- `validateVideo` -/
def Video.validate (go : Go) (v : Video) : Errors :=
  reject (v.codec ≠ str "h264" ∧ v.codec ≠ str "h265") (str "video.codec")
    (str "must be h264|h265") ++
  v.validateEncoder ++
  reject (v.width < 128 ∨ v.width > 4096 ∨ v.width % 2 ≠ 0) (str "video.width")
    (str "must be an even number 128..4096") ++
  reject (v.height < 96 ∨ v.height > 2160 ∨ v.height % 2 ≠ 0) (str "video.height")
    (str "must be an even number 96..2160") ++
  v.validateFPS go ++
  reject (v.bitrateKbps < 100 ∨ v.bitrateKbps > 80000) (str "video.bitrateKbps")
    (str "must be 100..80000") ++
  reject (v.rateControl ≠ str "cbr" ∧ v.rateControl ≠ str "vbr") (str "video.rateControl")
    (str "must be cbr|vbr") ++
  reject (v.maxKbps ≠ 0 ∧ (v.maxKbps < v.bitrateKbps ∨ v.maxKbps > 120000))
    (str "video.maxBitrateKbps") (str "must be ≥ bitrateKbps and ≤ 120000") ++
  reject (v.gop < 1 ∨ v.gop > 600) (str "video.gop") (str "must be 1..600 frames") ++
  reject (v.bFrames < 0 ∨ v.bFrames > 4) (str "video.bframes") (str "must be 0..4") ++
  reject (v.lowLatency = true ∧ v.bFrames ≠ 0) (str "video.bframes")
    (str "lowLatency forces 0 B-frames") ++
  reject (v.codec = str "h264" ∧ v.profile ∉ ["baseline", "main", "high"].map str)
    (str "video.profile") (str "h264 profile must be baseline|main|high") ++
  reject (v.codec = str "h264" ∧ v.profile = str "baseline" ∧ v.bFrames > 0)
    (str "video.bframes") (str "baseline profile has no B-frames") ++
  reject (v.codec = str "h265" ∧ v.profile ≠ str "main") (str "video.profile")
    (str "h265 profile must be main (4:2:0 8-bit)") ++
  reject (v.preset ≠ [] ∧ v.preset ∉ x26xPresets ∧ v.preset ∉ nvencPresets)
    (str "video.preset")
    (str "must be a x264/x265 speed preset (ultrafast..veryslow) or p1..p7") ++
  reject (v.interlaced = true ∧
      (v.codec ≠ str "h264" ∨ (v.encoder ≠ str "x264" ∧ v.encoder ≠ str "auto")))
    (str "video.interlaced")
    (str "interlaced encoding is supported with h264/x264 only; use deinterlace for HEVC") ++
  reject (v.gpu < 0 ∨ v.gpu > 7) (str "video.gpu") (str "must be 0..7")

/-! ## Audio -/

/-- Channel indices of a map must be below `maxIn`. -/
def validateMapFrom (field : Str) (message : Str) (maxIn : Int) : Nat → List Int → Errors
  | _, [] => []
  | i, m :: rest =>
    reject (m < 0 ∨ m ≥ maxIn) (field ++ str "[" ++ itoa i ++ str "]") message ++
      validateMapFrom field message maxIn (i + 1) rest

/-- `validateAudio` -/
def Audio.validate (a : Audio) (i : Input) : Errors :=
  if a.disabled then []
  else
    let isDeckLink := InputType.of i.type = .deckLink
    let maxIn := if isDeckLink then i.audioInputCh else 16
    reject (a.channels ∉ ([1, 2, 6, 8] : List Int)) (str "audio.channels")
      (str "must be 1, 2, 6 (5.1) or 8 (7.1) — the AAC channel layouts") ++
    reject (a.sampleRate ≠ 48000 ∧ a.sampleRate ≠ 44100) (str "audio.sampleRate")
      (str "must be 48000|44100") ++
    reject (a.bitrateKbps < 32 ∨ a.bitrateKbps > 512) (str "audio.bitrateKbps")
      (str "must be 32..512") ++
    reject (a.map ≠ [] ∧ ¬ isDeckLink) (str "audio.map")
      (str ("channel mapping needs a DeckLink input (known embedded channel count); " ++
        "other inputs are down/up-mixed automatically")) ++
    reject (a.map ≠ [] ∧ (a.map.length : Int) ≠ a.channels) (str "audio.map")
      (str "needs exactly one input index per output channel (" ++ itoa a.channels ++ str ")") ++
    validateMapFrom (str "audio.map") (str "input channel must be 0.." ++ itoa (maxIn - 1)) maxIn
      0 a.map ++
    reject (a.gainDb < -60 ∨ a.gainDb > 30) (str "audio.gainDb") (str "must be -60..30")

/-- `validateAudioCodec` -/
def validateAudioCodec (p codec : Str) (ch kbps : Int) : Errors :=
  if codec = str "aac" then []
  else if codec = str "ac3" then
    reject (ch ≠ 1 ∧ ch ≠ 2 ∧ ch ≠ 6) (p ++ str ".channels")
      (str "AC-3 carries 1, 2 or 6 (5.1) channels") ++
    reject (kbps < 64 ∨ kbps > 640) (p ++ str ".bitrateKbps")
      (str "AC-3 bitrate must be 64..640")
  else if codec = str "mp2" then
    reject (ch > 2) (p ++ str ".channels") (str "MPEG-1 Layer II carries 1 or 2 channels") ++
    reject (kbps < 64 ∨ kbps > 384) (p ++ str ".bitrateKbps")
      (str "MP2 bitrate must be 64..384")
  else fail (p ++ str ".codec") (str "must be aac|ac3|mp2")

def langMsg : Str := str "ISO 639-2 code, 3 lowercase letters"

/-- An extra audio track, in the loop of `validatePro`. -/
def AudioTrack.validate (t : AudioTrack) (i : Input) (p : Str) : Errors :=
  let isDeckLink := InputType.of i.type = .deckLink
  reject (t.channels ∉ ([1, 2, 6, 8] : List Int)) (p ++ str ".channels")
    (str "must be 1, 2, 6 or 8") ++
  validateAudioCodec p t.codec t.channels t.bitrateKbps ++
  reject (t.lang ≠ [] ∧ Pattern.lang.accepts t.lang = false) (p ++ str ".lang") langMsg ++
  (if t.map = [] then []
  else if ¬ isDeckLink then
    fail (p ++ str ".map") (str "channel mapping needs a DeckLink input")
  else reject ((t.map.length : Int) ≠ t.channels) (p ++ str ".map")
    (str "needs one input index per channel")) ++
  validateMapFrom (p ++ str ".map") (str "input channel out of range") i.audioInputCh 0 t.map

def validateTracksFrom (i : Input) : Nat → List AudioTrack → Errors
  | _, [] => []
  | n, t :: rest => t.validate i (indexed "audio.tracks" n) ++ validateTracksFrom i (n + 1) rest

/-- The audio part of `validatePro`. -/
def Audio.validatePro (a : Audio) (i : Input) : Errors :=
  if a.disabled then
    reject (a.tracks ≠ []) (str "audio.tracks") (str "audio is disabled")
  else
    validateAudioCodec (str "audio") a.codec a.channels a.bitrateKbps ++
    reject (a.lang ≠ [] ∧ Pattern.lang.accepts a.lang = false) (str "audio.lang") langMsg ++
    reject (a.tracks.length > 7) (str "audio.tracks") (str "at most 7 extra tracks") ++
    validateTracksFrom i 0 a.tracks

/-! ## The professional features -/

def Rendition.validate (r : Rendition) (v : Video) (p : Str) : Errors :=
  reject (r.width < 128 ∨ r.width > v.width ∨ r.width % 2 ≠ 0 ∨ r.height < 96 ∨
      r.height > v.height ∨ r.height % 2 ≠ 0) p
    (str "even size between 128x96 and the main raster") ++
  reject (r.bitrateKbps < 100 ∨ r.bitrateKbps > v.bitrateKbps) (p ++ str ".bitrateKbps")
    (str "must be 100..main bitrate") ++
  reject (safeValue r.name = false ∨ r.name.length > 16) (p ++ str ".name")
    (str "max 16 printable chars")

def validateRenditionsFrom (v : Video) : Nat → List Rendition → Errors
  | _, [] => []
  | n, r :: rest =>
    r.validate v (indexed "video.renditions" n) ++ validateRenditionsFrom v (n + 1) rest

def Video.validateChroma (v : Video) : Errors :=
  if v.chroma = str "420" then []
  else if v.chroma = str "422" then
    reject (v.codec ≠ str "h265" ∨ v.bitDepth ≠ 10 ∨
        (v.encoder ≠ str "x265" ∧ v.encoder ≠ str "auto")) (str "video.chroma")
      (str "4:2:2 needs h265 10-bit on x265 (Main 4:2:2 10); NVENC has no 4:2:2")
  else fail (str "video.chroma") (str "must be 420 or 422")

def Video.validateHDR (v : Video) : Errors :=
  if v.hdr = [] then []
  else if v.hdr = str "hlg" ∨ v.hdr = str "pq" then
    reject (v.codec ≠ str "h265" ∨ v.bitDepth ≠ 10) (str "video.hdr")
      (str "HDR needs h265 10-bit")
  else fail (str "video.hdr") (str "must be empty, hlg or pq")

/-- The video part of `validatePro`. -/
def Video.validatePro (v : Video) : Errors :=
  reject (v.bitDepth ≠ 8 ∧ v.bitDepth ≠ 10) (str "video.bitDepth") (str "must be 8 or 10") ++
  reject (v.bitDepth = 10 ∧ v.codec ≠ str "h265") (str "video.bitDepth")
    (str "10-bit needs h265 (Main10)") ++
  reject (v.bitDepth = 10 ∧ v.encoder ∉ ["auto", "x265", "nvenc"].map str)
    (str "video.bitDepth") (str "10-bit is validated with x265 and NVENC only") ++
  v.validateChroma ++
  v.validateHDR ++
  reject (v.masterDisplay ≠ [] ∧
      (v.hdr ≠ str "pq" ∨ Pattern.master.accepts v.masterDisplay = false))
    (str "video.masterDisplay")
    (str "PQ only, format G(x,y)B(x,y)R(x,y)WP(x,y)L(max,min)") ++
  reject (v.maxCLL ≠ [] ∧ (v.hdr ≠ str "pq" ∨ Pattern.maxCLL.accepts v.maxCLL = false))
    (str "video.maxCll") (str "PQ only, format maxCLL,maxFALL") ++
  reject (v.timecodeSEI = true ∧
      (v.codec ≠ str "h264" ∨ (v.encoder ≠ str "x264" ∧ v.encoder ≠ str "auto")))
    (str "video.timecodeSei") (str "timecode SEI is implemented for h264/x264") ++
  reject (v.renditions.length > 4) (str "video.renditions")
    (str "at most 4 extra renditions") ++
  validateRenditionsFrom v 0 v.renditions

/-- The overlay part of `validatePro`. -/
def Overlay.validatePro (o : Overlay) : Errors :=
  reject (o.logo ≠ [] ∧ (Pattern.png.accepts o.logo = false ∨ contains o.logo (str "..") = true))
    (str "overlay.logo") (str "absolute .png path without '..'") ++
  reject (o.logoAlpha < 0 ∨ o.logoAlpha > 1 ∨ o.logoX < 0 ∨ o.logoY < 0)
    (str "overlay.logoAlpha") (str "alpha 0..1, offsets ≥ 0")

def SCTE35Options.validate (s : SCTE35Options) (m : Mux) : Errors :=
  if s.enabled then
    reject (s.pid < 32 ∨ s.pid > 8190 ∨ s.pid = m.videoPID ∨ s.pid = m.audioPID ∨
        (s.pid ≥ 0x110 ∧ s.pid < 0x130)) (str "scte35.pid")
      (str "32..8190, not used by video/audio/renditions/tracks") ++
    reject (s.heartbeatSec < 0 ∨ s.heartbeatSec > 60) (str "scte35.heartbeatSec") (str "0..60")
  else []

def AlarmOptions.validate (a : AlarmOptions) : Errors :=
  reject (a.blackSec < 0 ∨ a.freezeSec < 0 ∨ a.silenceSec < 0 ∨ a.bitrateDropPct < 0 ∨
      a.bitrateDropPct > 100) (str "alarms") (str "durations ≥ 0, bitrateDropPct 0..100") ++
  reject (a.loudnessTarget ≠ 0 ∧ (a.loudnessTarget < -40 ∨ a.loudnessTarget > -5))
    (str "alarms.loudnessTarget") (str "-40..-5 LUFS (0 = off)")

/-- `validatePro` -/
def Channel.validatePro (c : Channel) : Errors :=
  c.video.validatePro ++
  c.audio.validatePro c.input ++
  c.overlay.validatePro ++
  (c.scte35.elim [] fun s => s.validate c.mux) ++
  (c.alarms.elim [] fun a => a.validate)

/-! ## Outputs -/

/-- `needWebRTC` -/
def needWebRTC (v : Video) (what : Str) : Errors :=
  reject (v.codec ≠ str "h264") (str "type") (what ++ str " needs h264 video (WebRTC/LiveKit)") ++
  reject (v.bFrames ≠ 0) (str "type")
    (what ++ str " needs bframes=0 (WebRTC has no B-frame reordering)") ++
  reject (v.interlaced = true) (str "type") (what ++ str " needs progressive video")

def SRTOptions.validate (s : SRTOptions) (url : Str) : Errors :=
  reject (s.mode ∉ ["caller", "listener", "rendezvous"].map str) (str "srt.mode")
    (str "must be caller|listener|rendezvous") ++
  reject (s.mode ≠ str "listener" ∧ (str "srt://:").isPrefixOf url = true) (str "url")
    (s.mode ++ str " mode needs a remote host") ++
  reject (s.latencyMs < 20 ∨ s.latencyMs > 8000) (str "srt.latencyMs")
    (str "must be 20..8000") ++
  (if s.passphrase = redacted then fail (str "srt.passphrase") placeholderMsg
  else reject (s.passphrase ≠ [] ∧ (s.passphrase.length < 10 ∨ s.passphrase.length > 79 ∨
      safeValue s.passphrase = false)) (str "srt.passphrase")
    (str "must be 10..79 printable chars (libsrt), no quotes")) ++
  reject (s.pbKeyLen ∉ ([0, 16, 24, 32] : List Int)) (str "srt.pbkeylen")
    (str "must be 0|16|24|32") ++
  reject (s.streamID.length > 512 ∨ safeValue s.streamID = false) (str "srt.streamId")
    (str "max 512 printable chars, no quotes")

def UDPOptions.validate (go : Go) (u : UDPOptions) : Errors :=
  reject (u.ttl < 1 ∨ u.ttl > 255) (str "udp.ttl") (str "must be 1..255") ++
  reject (u.iface ≠ [] ∧ Pattern.iface.accepts u.iface = false) (str "udp.iface")
    (str "invalid interface name") ++
  reject (u.bind ≠ [] ∧ go.parseIP u.bind = none) (str "udp.bind") (str "must be an IP address")

def WHIPOptions.validate (w : WHIPOptions) : Errors :=
  if w.bearerToken = redacted then fail (str "whip.bearerToken") placeholderMsg
  else reject (safeValue w.bearerToken = false ∨ w.bearerToken.length > 2048)
    (str "whip.bearerToken") (str "invalid token")

def HLSOptions.validate (h : HLSOptions) : Errors :=
  reject (h.segmentSeconds < 1 ∨ h.segmentSeconds > 10) (str "hls.segmentSeconds")
    (str "must be 1..10") ++
  reject (h.listSize < 3 ∨ h.listSize > 30) (str "hls.listSize") (str "must be 3..30")

/-- A placeholder in the token or in what the encoder resolved. -/
def StreamHubOutput.hasPlaceholder (s : StreamHubOutput) : Bool :=
  s.token == redacted || s.streamKey == redacted || contains s.resolvedURL redacted

def StreamHubOutput.validate (go : Go) (s : StreamHubOutput) (v : Video) : Errors :=
  (validateURL go (str "streamhub.baseUrl") s.baseURL [str "http", str "https"] false).1 ++
  reject (Pattern.app.accepts s.app = false) (str "streamhub.app") (str "invalid app name") ++
  reject (Pattern.room.accepts s.room = false) (str "streamhub.room")
    (str "invalid room name") ++
  (if s.hasPlaceholder then fail (str "streamhub.token") placeholderMsg
  else reject (s.token = [] ∨ safeValue s.token = false ∨ s.token.contains 0x20 = true ∨
      s.token.contains 0x09 = true) (str "streamhub.token")
    (str "an app-scoped sk_ token is required")) ++
  reject (s.protocol ≠ str "rtmp" ∧ s.protocol ≠ str "whip") (str "streamhub.protocol")
    (str "must be rtmp|whip") ++
  (if s.protocol = str "whip" then needWebRTC v (str "StreamHub WHIP")
  else reject (v.codec ≠ str "h264" ∨ v.interlaced = true) (str "type")
    (str "StreamHub RTMP (LiveKit ingress) needs progressive h264 video"))

/-- The checks of `Output.Validate` for the type. -/
def Output.validateType (go : Go) (o : Output) (c : Channel) : Errors :=
  match OutputType.of o.type with
  | .srt =>
    (validateURL go (str "url") o.url [str "srt"] true).1 ++
    o.srt.elim (fail (str "srt") (str "required")) fun s => s.validate o.url
  | .rtmp =>
    (validateURL go (str "url") o.url [str "rtmp", str "rtmps"] false).1 ++
    reject (c.video.interlaced = true) (str "type")
      (str "RTMP/FLV carries progressive video only")
  | .udp | .rtp =>
    (validateURL go (str "url") o.url [o.type] false).1 ++
    o.udp.elim [] fun u => u.validate go
  | .whip =>
    (validateURL go (str "url") o.url [str "http", str "https"] false).1 ++
    needWebRTC c.video (str "WHIP") ++
    o.whip.elim [] fun w => w.validate
  | .hls =>
    let (errs, u) := validateURL go (str "url") o.url [str "http", str "https"] false
    errs ++
    (u.elim [] fun u => reject ((str ".m3u8").isSuffixOf u.path = false) (str "url")
      (str "HLS push URL must point to the playlist (…/index.m3u8)")) ++
    o.hls.elim [] fun h => h.validate
  | .file =>
    reject (Pattern.outPath.accepts o.url = false ∨ contains o.url (str "..") = true ∨
        (str ".ts").isSuffixOf o.url = false) (str "url")
      (str "file output needs an absolute .ts path without '..'")
  | .streamHub =>
    o.streamHub.elim (fail (str "streamhub") (str "required")) fun s => s.validate go c.video
  | .rist | .record => []
  | .other =>
    fail (str "type") (str "unknown output type " ++ go.quote o.type ++
      str " (srt|rtmp|udp|rtp|rist|whip|hls|file|record|streamhub)")

def validateBondingFrom : Nat → List Str → Errors
  | _, [] => []
  | n, b :: rest =>
    reject (Pattern.hostPort.accepts b = false) (indexed "rist.bonding" n) (str "host:port") ++
      validateBondingFrom (n + 1) rest

/-- RTP goes to an even port. -/
def validateRISTPort (go : Go) (u : URL) : Errors :=
  match go.splitHostPort u.host with
  | .error _ => []
  | .ok (_, port) =>
    reject (atoiValue port % 2 ≠ 0) (str "url")
      (str "RIST needs an even port (RTP), RTCP uses port+1")

/-- `validateOutputPro` -/
def Output.validatePro (go : Go) (o : Output) (c : Channel) : Errors :=
  let type := OutputType.of o.type
  reject (o.rendition < 0 ∨ o.rendition > c.video.renditions.length) (str "rendition")
    (str "must be 0.." ++ itoa c.video.renditions.length) ++
  reject (o.rendition > 0 ∧ type ∉ [OutputType.rtmp, .srt, .udp, .hls]) (str "rendition")
    (str "rendition selection is available for rtmp, srt, udp and hls outputs") ++
  reject (type ∈ [OutputType.rtmp, .whip, .streamHub] ∧ c.audio.disabled = false ∧
      c.audio.codec ≠ str "aac") (str "type")
    (o.type ++ str " carries AAC audio only (set audio.codec=aac)") ++
  match type with
  | .rist =>
    let (errs, u) := validateURL go (str "url") o.url [str "rist"] false
    errs ++
    (u.elim [] fun u => validateRISTPort go u) ++
    o.rist.elim [] fun r =>
      validateBondingFrom 0 r.bonding ++
      reject (r.bufferMs < 50 ∨ r.bufferMs > 30000) (str "rist.bufferMs") (str "50..30000")
  | .record =>
    reject (Pattern.absPath.accepts o.url = false ∨ contains o.url (str "..") = true ∨
        contains o.url (str " ") = true) (str "url")
      (str "record output needs an absolute directory path") ++
    o.record.elim [] fun r =>
      reject (r.segmentSeconds < 2 ∨ r.segmentSeconds > 3600 ∨ r.maxSegments < 1 ∨
        r.maxSegments > 10000) (str "record")
        (str "segmentSeconds 2..3600, maxSegments 1..10000")
  | .hls =>
    o.hls.elim [] fun h =>
      reject (h.ladder = true ∧ c.video.renditions = []) (str "hls.ladder")
        (str "needs video.renditions") ++
      reject (h.ladder = true ∧ o.rendition ≠ 0) (str "hls.ladder")
        (str "ladder publishes every rendition; leave rendition at 0")
  | _ => []

/-- `Output.Validate`: one output in the context of its channel. -/
def Output.validate (go : Go) (o : Output) (c : Channel) : Errors :=
  reject (Pattern.id.accepts o.id = false) (str "id") idText ++
  reject (o.name.length > 64 ∨ safeValue o.name = false) (str "name") nameMsg ++
  reject (o.managedBy ≠ [] ∧ o.managedBy ≠ str "streamhub") (str "managedBy")
    (str "must be empty or streamhub") ++
  o.validateType go c ++
  o.validatePro go c

lemma Output.validate_parts {go : Go} {o : Output} {c : Channel} (h : o.validate go c = []) :
    o.validateType go c = [] ∧ o.validatePro go c = [] := by
  unfold Output.validate at h
  simp only [List.append_eq_nil_iff] at h
  exact ⟨h.1.2, h.2⟩

/-! ## Channels -/

def validatePID (name : Str) (pid : Int) : Errors :=
  reject (pid < 32 ∨ pid > 8190) name (str "PID must be 32..8190")

/-- The rate the elementary streams need, with 15 % overhead. -/
def Channel.neededRate (c : Channel) : Int :=
  let video :=
    if c.video.rateControl = str "vbr" ∧ c.video.maxKbps > 0 then c.video.maxKbps
    else c.video.bitrateKbps
  ((video + c.audio.bitrateKbps) * 115).tdiv 100

/-- The mux part of `Channel.Validate`. -/
def Channel.validateMux (c : Channel) : Errors :=
  let m := c.mux
  validatePID (str "mux.videoPid") m.videoPID ++
  validatePID (str "mux.audioPid") m.audioPID ++
  reject (m.videoPID = m.audioPID) (str "mux.audioPid") (str "must differ from videoPid") ++
  reject (m.pcrIntervalMs < 10 ∨ m.pcrIntervalMs > 100) (str "mux.pcrIntervalMs")
    (str "must be 10..100 (ISO 13818-1 requires ≤100 ms)") ++
  reject (m.muxRateKbps ≠ 0 ∧ m.muxRateKbps < c.neededRate) (str "mux.muxRateKbps")
    (str "too low for the elementary streams: need ≥ " ++ itoa c.neededRate ++
      str " kbps (video+audio+15% overhead)")

/-- The loop over the outputs; `seen` are the ids so far. -/
def validateOutputsFrom (go : Go) (c : Channel) : Nat → List Str → List Output → Errors
  | _, _, [] => []
  | i, seen, o :: rest =>
    reject (o.id ∈ seen) (indexed "outputs" i ++ str ".id")
      (str "duplicate output id " ++ go.quote o.id) ++
    (o.validate go c).under (indexed "outputs" i) ++
    validateOutputsFrom go c (i + 1) (o.id :: seen) rest

/-- The backup input part of `Channel.Validate`. -/
def Channel.validateBackup (go : Go) (c : Channel) (backup : Input) : Errors :=
  backup.validate go (str "backup") ++
  reject (isURIInput c.input.type = false ∨ isURIInput backup.type = false) (str "backup")
    (str ("backup failover needs URI inputs (file/srt/udp/rtmp/rtsp) for both primary and " ++
      "backup; device inputs fail over to the slate"))

/-- `Channel.Validate` -/
def Channel.validate (go : Go) (c : Channel) : Errors :=
  reject (Pattern.id.accepts c.id = false) (str "id") idText ++
  reject (c.name.length > 64 ∨ safeValue c.name = false) (str "name") nameMsg ++
  c.input.validate go (str "input") ++
  (c.backup.elim [] fun b => c.validateBackup go b) ++
  c.video.validate go ++
  reject (c.video.interlaced = true ∧ c.input.interlaced = false ∧
      InputType.of c.input.type ≠ .deckLink) (str "video.interlaced")
    (str ("interlaced output needs an interlaced source (DeckLink 1080i, or " ++
      "input.interlaced=true for an interlaced IP/test source)")) ++
  c.audio.validate c.input ++
  c.validatePro ++
  reject (c.overlay.text.length > 64 ∨ safeValue c.overlay.text = false) (str "overlay.text")
    (str "max 64 printable chars, no quotes or backslashes") ++
  c.validateMux ++
  validateOutputsFrom go c 0 [] c.outputs

end StreamHub.Config
