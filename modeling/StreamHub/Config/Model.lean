import StreamHub.Library.Text

/-!
# The persisted configuration

The structures of `internal/config/model.go`, `model_pro.go` and
`internal/notify/notify.go`, field by field.  A pointer is an `Option`; a slice
is a list, nil and empty alike, as a JSON round trip has it; a `float64` is a
rational number.  `type` fields hold any text; the inductive types list the
values the program knows.
-/

namespace StreamHub.Config

open Library.Text

/-- The placeholder returned instead of secrets. -/
def redacted : Str := str "***"

/-! ## Inputs -/

/-- Input types. -/
inductive InputType
  | test
  | file
  | srt
  | udp
  | rtmp
  | rtsp
  | deckLink
  | v4l2
  | other
  deriving DecidableEq

def InputType.of (s : Str) : InputType :=
  if s = str "test" then .test
  else if s = str "file" then .file
  else if s = str "srt" then .srt
  else if s = str "udp" then .udp
  else if s = str "rtmp" then .rtmp
  else if s = str "rtsp" then .rtsp
  else if s = str "decklink" then .deckLink
  else if s = str "v4l2" then .v4l2
  else .other

/-- Where the channel's video and audio come from. -/
structure Input where
  type : Str := []
  uri : Str := []
  loop : Bool := false
  device : Int := 0
  connection : Str := []
  mode : Str := []
  audioInputCh : Int := 0
  devicePath : Str := []
  audioDevice : Str := []
  format : Str := []
  pattern : Str := []
  toneHz : Int := 0
  timeoutMs : Int := 0
  interlaced : Bool := false
  deriving DecidableEq

/-! ## The encode -/

/-- One rung of an ABR ladder. -/
structure Rendition where
  name : Str := []
  width : Int := 0
  height : Int := 0
  bitrateKbps : Int := 0
  deriving DecidableEq

/-- The single encode of the channel. -/
structure Video where
  codec : Str := []
  encoder : Str := []
  width : Int := 0
  height : Int := 0
  fps : Str := []
  interlaced : Bool := false
  deinterlace : Option Bool := none
  bitrateKbps : Int := 0
  maxKbps : Int := 0
  rateControl : Str := []
  gop : Int := 0
  bFrames : Int := 0
  profile : Str := []
  preset : Str := []
  lowLatency : Bool := false
  gpu : Int := 0
  bitDepth : Int := 0
  chroma : Str := []
  hdr : Str := []
  masterDisplay : Str := []
  maxCLL : Str := []
  timecodeSEI : Bool := false
  renditions : List Rendition := []
  deriving DecidableEq

/-- An extra audio track. -/
structure AudioTrack where
  lang : Str := []
  channels : Int := 0
  map : List Int := []
  bitrateKbps : Int := 0
  codec : Str := []
  deriving DecidableEq

structure Audio where
  lang : Str := []
  tracks : List AudioTrack := []
  disabled : Bool := false
  codec : Str := []
  bitrateKbps : Int := 0
  channels : Int := 0
  sampleRate : Int := 0
  map : List Int := []
  gainDb : ℚ := 0
  deriving DecidableEq

structure Overlay where
  timecode : Bool := false
  clock : Bool := false
  text : Str := []
  logo : Str := []
  logoX : Int := 0
  logoY : Int := 0
  logoAlpha : ℚ := 0
  deriving DecidableEq

/-- The MPEG-TS the engine produces. -/
structure Mux where
  videoPID : Int := 0
  audioPID : Int := 0
  pcrIntervalMs : Int := 0
  muxRateKbps : Int := 0
  deriving DecidableEq

structure SCTE35Options where
  enabled : Bool := false
  pid : Int := 0
  heartbeatSec : Int := 0
  deriving DecidableEq

structure AlarmOptions where
  disabled : List Str := []
  blackSec : Int := 0
  freezeSec : Int := 0
  silenceSec : Int := 0
  silenceDBFS : ℚ := 0
  bitrateDropPct : Int := 0
  loudnessTarget : ℚ := 0
  loudnessTolLU : ℚ := 0
  deriving DecidableEq

/-! ## Outputs -/

/-- Output types. -/
inductive OutputType
  | srt
  | rtmp
  | udp
  | rtp
  | whip
  | hls
  | file
  | streamHub
  | rist
  | record
  | other
  deriving DecidableEq

def OutputType.of (s : Str) : OutputType :=
  if s = str "srt" then .srt
  else if s = str "rtmp" then .rtmp
  else if s = str "udp" then .udp
  else if s = str "rtp" then .rtp
  else if s = str "whip" then .whip
  else if s = str "hls" then .hls
  else if s = str "file" then .file
  else if s = str "streamhub" then .streamHub
  else if s = str "rist" then .rist
  else if s = str "record" then .record
  else .other

structure SRTOptions where
  mode : Str := []
  latencyMs : Int := 0
  passphrase : Str := []
  pbKeyLen : Int := 0
  streamID : Str := []
  deriving DecidableEq

structure UDPOptions where
  ttl : Int := 0
  iface : Str := []
  bind : Str := []
  deriving DecidableEq

structure WHIPOptions where
  bearerToken : Str := []
  deriving DecidableEq

structure HLSOptions where
  segmentSeconds : Int := 0
  listSize : Int := 0
  ladder : Bool := false
  cmaf : Bool := false
  deriving DecidableEq

/-- Publishing into a StreamHub app; the last fields but one are resolved by the
encoder. -/
structure StreamHubOutput where
  baseURL : Str := []
  app : Str := []
  token : Str := []
  room : Str := []
  protocol : Str := []
  ingressID : Str := []
  resolvedURL : Str := []
  streamKey : Str := []
  deleteOnRemove : Bool := false
  deriving DecidableEq

structure RISTOptions where
  bonding : List Str := []
  bufferMs : Int := 0
  deriving DecidableEq

structure RecordOptions where
  segmentSeconds : Int := 0
  maxSegments : Int := 0
  deriving DecidableEq

/-- One destination of the channel. -/
structure Output where
  id : Str := []
  name : Str := []
  type : Str := []
  enabled : Bool := false
  url : Str := []
  preset : Str := []
  managedBy : Str := []
  srt : Option SRTOptions := none
  udp : Option UDPOptions := none
  whip : Option WHIPOptions := none
  hls : Option HLSOptions := none
  streamHub : Option StreamHubOutput := none
  rist : Option RISTOptions := none
  record : Option RecordOptions := none
  rendition : Int := 0
  deriving DecidableEq

/-- One encode: an input, one encode, N outputs. -/
structure Channel where
  id : Str := []
  name : Str := []
  enabled : Bool := false
  input : Input := {}
  backup : Option Input := none
  video : Video := {}
  audio : Audio := {}
  overlay : Overlay := {}
  mux : Mux := {}
  outputs : List Output := []
  scte35 : Option SCTE35Options := none
  alarms : Option AlarmOptions := none
  deriving DecidableEq

/-- `FindOutput`, with the output itself for its index. -/
def Channel.findOutput (c : Channel) (id : Str) : Option Output :=
  c.outputs.find? fun o => o.id == id

/-! ## Notification targets -/

structure Webhook where
  url : Str := []
  secret : Str := []
  types : List Str := []
  deriving DecidableEq

structure SNMPTarget where
  address : Str := []
  version : Str := []
  community : Str := []
  user : Str := []
  authProto : Str := []
  authPass : Str := []
  privProto : Str := []
  privPass : Str := []
  engineID : Str := []
  deriving DecidableEq

structure NotifyConfig where
  webhooks : List Webhook := []
  snmp : List SNMPTarget := []
  deriving DecidableEq

end StreamHub.Config
