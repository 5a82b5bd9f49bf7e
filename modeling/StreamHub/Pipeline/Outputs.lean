import StreamHub.Config.Validate

/-!
# Output processes

`BuildOutput` of `internal/pipeline/outputs.go` and `outputs_pro.go`: the command
line of the process of one output.  The time is given as the text the source
formats it to.  A nil pointer or an unsafe value in `mustQ` is `BuildError.panic`.
-/

namespace StreamHub.Pipeline

open Library Library.Text Config

/-- A process to run. -/
structure Command where
  path : Str
  args : List Str
  env : List Str := []
  deriving DecidableEq

inductive BuildError
  | invalid (errs : Errors)
  | message (text : Str)
  | panic
  deriving DecidableEq

def gstLaunch : Str := str "gst-launch-1.0"

def ffmpeg : Str := str "ffmpeg"

def self : Str := str "@self"

/-- `RenditionPIDBase` -/
def renditionPIDBase : Int := 0x110

/-! ## Descriptions -/

/-- `BusSource` -/
def busSource (port : Int) : Str :=
  str "udpsrc address=127.0.0.1 port=" ++ itoa port ++
    str " buffer-size=4194304 caps=\"video/mpegts,systemstream=(boolean)true,packetsize=(int)188\"" ++
    str (" ! queue max-size-buffers=0 max-size-bytes=0 max-size-time=3000000000" ++
      " leaky=downstream")

/-- The tokens from here on; `cur` is the token so far. -/
def launchArgsFrom : Bool → Str → Str → List Str
  | _, cur, [] => if cur = [] then [] else [cur]
  | inQuotes, cur, b :: s =>
    if b = 0x22 then launchArgsFrom (!inQuotes) (cur ++ [b]) s
    else if (b = 0x20 ∨ b = 0x09) ∧ inQuotes = false then
      if cur = [] then launchArgsFrom inQuotes [] s else cur :: launchArgsFrom inQuotes [] s
    else launchArgsFrom inQuotes (cur ++ [b]) s

/-- `LaunchArgs` -/
def launchArgs (desc : Str) : List Str := str "-e" :: launchArgsFrom false [] desc

def gst (desc : Str) : Command := { path := gstLaunch, args := launchArgs desc }

/-- `q` -/
def q (go : Go) (s : Str) : Except BuildError Str :=
  if safeValue s then .ok (str "\"" ++ s ++ str "\"")
  else .error (.message (str "unsafe value " ++ go.quote s))

/-- `mustQ` -/
def mustQ (s : Str) : Except BuildError Str :=
  if safeValue s then .ok (str "\"" ++ s ++ str "\"") else .error .panic

/-- A nil pointer is not followed. -/
def deref {α : Type} : Option α → Except BuildError α
  | none => .error .panic
  | some a => .ok a

/-- `u, _ := url.Parse(raw)`, and `u` is used. -/
def parsed (go : Go) (raw : Str) : Except BuildError URL :=
  match go.parseURL raw with
  | .ok u => .ok u
  | .error _ => .error .panic

/-- `host, port, _ := net.SplitHostPort(s)` -/
def hostPort (go : Go) (s : Str) : Str × Str :=
  match go.splitHostPort s with
  | .ok hp => hp
  | .error _ => ([], [])

/-! ## Remuxing with ffmpeg -/

/-- `ffmpegIn` -/
def ffmpegIn (port : Int) : List Str :=
  ["-hide_banner", "-loglevel", "warning", "-nostats", "-fflags", "+genpts", "-i"].map str ++
    [str "udp://127.0.0.1:" ++ itoa port ++
      str "?fifo_size=1000000&overrun_nonfatal=1&buffer_size=4194304"]

/-- `renditionPID` -/
def renditionPID (c : Channel) (r : Int) : Int :=
  if r = 0 then c.mux.videoPID else renditionPIDBase + r - 1

/-- `-map 0:i:pid` -/
def mapPID (pid : Int) : List Str := [str "-map", str "0:i:" ++ itoa pid]

/-- The main audio track, unless audio is disabled. -/
def mapAudio (c : Channel) : List Str := if c.audio.disabled then [] else mapPID c.mux.audioPID

/-- `selectRendition` -/
def selectRendition (c : Channel) (r : Int) : List Str := mapPID (renditionPID c r) ++ mapAudio c

/-- `renditionName` -/
def renditionName (c : Channel) : Nat → Str
  | 0 => itoa c.video.height ++ str "p"
  | i + 1 =>
    match c.video.renditions[i]? with
    | none => []
    | some r => orStr r.name (itoa r.height ++ str "p")

/-- The rungs of the ladder: the main encode and the renditions. -/
def rungs (c : Channel) : List Nat := List.range (c.video.renditions.length + 1)

/-- The `-map` arguments of the ladder. -/
def ladderMaps (c : Channel) : List Str := (rungs c).flatMap fun (i : Nat) => selectRendition c i

/-- The argument of `-var_stream_map`. -/
def varStreamMap (c : Channel) : Str :=
  join ((rungs c).map fun (i : Nat) =>
    if c.audio.disabled then str "v:" ++ itoa i ++ str ",name:" ++ renditionName c i
    else str "v:" ++ itoa i ++ str ",a:" ++ itoa i ++ str ",name:" ++ renditionName c i)
    (str " ")

/-- The arguments `-f hls` to `-http_persistent 1`. -/
def hlsMuxer (h : HLSOptions) : List Str :=
  [str "-f", str "hls", str "-hls_time", itoa h.segmentSeconds, str "-hls_list_size",
    itoa h.listSize, str "-hls_flags",
    str "independent_segments+omit_endlist+program_date_time", str "-method", str "PUT",
    str "-http_persistent", str "1"]

/-- The directory of the playlist. -/
def hlsDir (o : Output) : Str := trimSuffix o.url (pathBase o.url)

/-- `-c copy`, with the tag Apple requires for HEVC. -/
def hlsCopy (hevc : Bool) : List Str :=
  [str "-c", str "copy"] ++ if hevc then [str "-tag:v", str "hvc1"] else []

def segExt (fmp4 : Bool) : Str := if fmp4 then str "m4s" else str "ts"

/-- The ladder behind its `-map` arguments. -/
def ladderTail (hevc : Bool) (o : Output) (h : HLSOptions) (streamMap : Str) : List Str :=
  let fmp4 := h.cmaf || hevc
  hlsCopy hevc ++
    (if fmp4 then
      [str "-hls_segment_type", str "fmp4", str "-hls_fmp4_init_filename", str "init_%v.mp4"]
    else []) ++
    hlsMuxer h ++ [str "-var_stream_map", streamMap] ++
    [str "-master_pl_name", pathBase o.url, str "-master_pl_publish_rate", str "2",
      str "-hls_segment_filename", hlsDir o ++ str "%v/seg_%06d." ++ segExt fmp4,
      hlsDir o ++ str "%v/index.m3u8"]

/-- A single playlist behind its `-map` arguments. -/
def playlistTail (hevc : Bool) (o : Output) (h : HLSOptions) : List Str :=
  let fmp4 := h.cmaf || hevc
  hlsCopy hevc ++ (if fmp4 then [str "-hls_segment_type", str "fmp4"] else []) ++ hlsMuxer h ++
    [str "-hls_segment_filename", hlsDir o ++ str "seg_%06d." ++ segExt fmp4, o.url]

/-- The HLS branch of `buildOutputPro`. -/
def buildHLS (c : Channel) (o : Output) (h : HLSOptions) (port : Int) : Command :=
  let hevc := decide (c.video.codec = str "h265")
  { path := ffmpeg
    args := ffmpegIn port ++
      if h.ladder then ladderMaps c ++ ladderTail hevc o h (varStreamMap c)
      else selectRendition c o.rendition ++ playlistTail hevc o h }

/-- The target of a single-rendition output. -/
def renditionTarget (go : Go) (o : Output) : Except BuildError (List Str) :=
  match OutputType.of o.type with
  | .rtmp => .ok [str "-f", str "flv", str "-flvflags", str "no_duration_filesize", o.url]
  | .srt => do
      let u ← parsed go o.url
      let s ← deref o.srt
      let values :=
        [(str "mode", s.mode), (str "latency", itoa (s.latencyMs * 1000)),
          (str "pkt_size", str "1316")] ++
        (if s.passphrase = [] then []
        else [(str "passphrase", s.passphrase), (str "pbkeylen", itoa s.pbKeyLen)]) ++
        (if s.streamID = [] then [] else [(str "streamid", s.streamID)])
      .ok [str "-f", str "mpegts", str "srt://" ++ u.host ++ str "?" ++ encodeValues values]
  | .udp =>
    let ttl := o.udp.elim 16 fun u => u.ttl
    .ok [str "-f", str "mpegts", o.url ++ str "?pkt_size=1316&ttl=" ++ itoa ttl]
  | _ =>
    .error (.message (str "rendition selection is not available for " ++ o.type ++
      str " outputs"))

/-- The single-rendition branch of `buildOutputPro`. -/
def buildRendition (go : Go) (c : Channel) (o : Output) (port : Int) :
    Except BuildError Command := do
  let target ← renditionTarget go o
  .ok
    { path := ffmpeg
      args := ffmpegIn port ++ (selectRendition c o.rendition ++ ([str "-c", str "copy"] ++ target)) }

/-! ## RIST and recording -/

def buildRIST (go : Go) (o : Output) (port : Int) : Except BuildError Command := do
  let u ← parsed go o.url
  let (host, hport) := hostPort go u.host
  let r ← deref o.rist
  let address ← mustQ host
  let bonding ←
    if r.bonding = [] then .ok []
    else do
      let links ← mustQ (join (u.host :: r.bonding) (str ","))
      .ok (str " bonding-addresses=" ++ links ++ str " bonding-method=broadcast")
  let sink := str "ristsink address=" ++ address ++ str " port=" ++ hport ++
    str " sender-buffer=" ++ itoa r.bufferMs ++ bonding
  .ok (gst (busSource port ++ str " ! rtpmp2tpay pt=33 mtu=1316 ! " ++ sink))

def buildRecord (channelID : Str) (o : Output) (port : Int) : Except BuildError Command := do
  let r ← deref o.record
  let dir := trimRight 0x2f o.url
  .ok
    { path := ffmpeg
      args := ffmpegIn port ++
        [str "-map", str "0", str "-c", str "copy", str "-f", str "segment",
          str "-segment_format", str "mpegts", str "-segment_time", itoa r.segmentSeconds,
          str "-segment_wrap", itoa r.maxSegments, str "-segment_list", dir ++ str "/index.csv",
          str "-segment_list_type", str "csv", str "-segment_list_size", itoa r.maxSegments,
          dir ++ str "/" ++ channelID ++ str "-%06d.ts"] }

/-- `buildOutputPro`; nothing for the outputs it does not handle. -/
def buildOutputPro (go : Go) (c : Channel) (o : Output) (port : Int) :
    Option (Except BuildError Command) :=
  if OutputType.of o.type = .hls then
    some (do
      let h ← deref o.hls
      .ok (buildHLS c o h port))
  else if o.rendition > 0 then some (buildRendition go c o port)
  else
    match OutputType.of o.type with
    | .rist => some (buildRIST go o port)
    | .record => some (buildRecord c.id o port)
    | _ => none

/-! ## The other outputs -/

def buildSRT (go : Go) (o : Output) (port : Int) : Except BuildError Command := do
  let u ← parsed go o.url
  let s ← deref o.srt
  let target ← mustQ (str "srt://" ++ u.host)
  let passphrase ←
    if s.passphrase = [] then .ok []
    else do
      let pp ← q go s.passphrase
      .ok (str " passphrase=" ++ pp ++ str " pbkeylen=" ++ itoa s.pbKeyLen)
  let streamID ←
    if s.streamID = [] then .ok []
    else do
      let sid ← q go s.streamID
      .ok (str " streamid=" ++ sid)
  .ok (gst (busSource port ++ str " ! srtsink uri=" ++ target ++ str " mode=" ++ s.mode ++
    str " latency=" ++ itoa s.latencyMs ++ str " wait-for-connection=false sync=false" ++
    passphrase ++ streamID))

/-- UDP, or RTP with its payloader. -/
def buildUDP (go : Go) (o : Output) (port : Int) : Except BuildError Command := do
  let u ← parsed go o.url
  let (host, hport) := hostPort go u.host
  let quoted ← mustQ host
  let ttl := o.udp.elim 16 fun u => u.ttl
  let iface := o.udp.elim [] fun u => u.iface
  let bind := o.udp.elim [] fun u => u.bind
  let multicast : Bool :=
    match go.parseIP host with
    | some ip => isMulticast ip
    | none => false
  let route ←
    if multicast then
      if iface = [] then .ok (str " auto-multicast=true ttl-mc=" ++ itoa ttl)
      else do
        let i ← mustQ iface
        .ok (str " auto-multicast=true ttl-mc=" ++ itoa ttl ++ str " multicast-iface=" ++ i)
    else .ok (str " ttl=" ++ itoa ttl)
  let source ←
    if bind = [] then .ok []
    else do
      let b ← mustQ bind
      .ok (str " bind-address=" ++ b)
  let sink := str "udpsink host=" ++ quoted ++ str " port=" ++ hport ++
    str " sync=false async=false" ++ route ++ source
  if OutputType.of o.type = .rtp then
    .ok (gst (busSource port ++ str " ! rtpmp2tpay pt=33 mtu=1400 ! " ++ sink))
  else .ok (gst (busSource port ++ str " ! " ++ sink))

/-- RTMP: ffmpeg for HEVC, GStreamer for H.264. -/
def buildRTMP (go : Go) (hevc noAudio : Bool) (o : Output) (port : Int) :
    Except BuildError Command := do
  let loc ← q go o.url
  if hevc then
    .ok
      { path := ffmpeg
        args := ffmpegIn port ++
          [str "-map", str "0:v", str "-map", str "0:a?", str "-c", str "copy", str "-f",
            str "flv", str "-flvflags", str "no_duration_filesize", o.url] }
  else
    let video := str (" ! tsdemux name=d latency=200  d. ! video/x-h264 ! queue " ++
      "max-size-buffers=0 max-size-bytes=0 max-size-time=2000000000 ! h264parse ! flvmux name=m " ++
      "streamable=true latency=200000000 ! rtmp2sink location=")
    let audio :=
      if noAudio then []
      else str ("  d. ! audio/mpeg ! queue max-size-buffers=0 max-size-bytes=0 " ++
        "max-size-time=2000000000 ! aacparse ! m.")
    .ok (gst (busSource port ++ video ++ loc ++ str " async-connect=false sync=false" ++ audio))

def buildWHIP (noAudio : Bool) (o : Output) (port : Int) : Command :=
  let token := o.whip.elim [] fun w => w.bearerToken
  { path := self
    args := [str "whip-push", str "--bus-port", itoa port, str "--url", o.url] ++
      (if noAudio then [str "--no-audio"] else [])
    env := if token = [] then [] else [str "ENCODERD_WHIP_BEARER=" ++ token] }

def buildFile (o : Output) (port : Int) (now : Str) : Except BuildError Command := do
  let p ← mustQ (replaceAll o.url (str "\x7bts\x7d") now)
  .ok (gst (busSource port ++ str " ! filesink location=" ++ p ++ str " sync=false async=false"))

/-- `BuildOutput` -/
def buildOutput (go : Go) (c : Channel) (o : Output) (port : Int) (now : Str) :
    Except BuildError Command :=
  if o.validate go c ≠ [] then .error (.invalid (o.validate go c))
  else
    match buildOutputPro go c o port with
    | some result => result
    | none =>
      match OutputType.of o.type with
      | .srt => buildSRT go o port
      | .udp | .rtp => buildUDP go o port
      | .rtmp => buildRTMP go (decide (c.video.codec = str "h265")) c.audio.disabled o port
      | .whip => .ok (buildWHIP c.audio.disabled o port)
      | .file => buildFile o port now
      | _ =>
        .error (.message (str "output type " ++ go.quote o.type ++
          str " has no process builder (streamhub outputs must be resolved first)"))

end StreamHub.Pipeline
