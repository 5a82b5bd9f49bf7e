import StreamHub.Config.Model
import StreamHub.Library.Json

/-!
# The configuration in JSON

The `json` tags of `internal/config/model.go` and `model_pro.go`: the name of
every field of a channel and whether it is left out when it is empty.
-/

namespace StreamHub.Config

open Library Library.Json

def renditionCodec : Codec Rendition :=
  .record {} [
    omitEmpty "name" .text (·.name) fun s v => { s with name := v },
    field "width" .integer (·.width) fun s v => { s with width := v },
    field "height" .integer (·.height) fun s v => { s with height := v },
    field "bitrateKbps" .integer (·.bitrateKbps) fun s v => { s with bitrateKbps := v }]

def audioTrackCodec : Codec AudioTrack :=
  .record {} [
    omitEmpty "lang" .text (·.lang) fun s v => { s with lang := v },
    omitEmpty "channels" .integer (·.channels) fun s v => { s with channels := v },
    omitEmpty "map" Codec.integer.list (·.map) fun s v => { s with map := v },
    omitEmpty "bitrateKbps" .integer (·.bitrateKbps) fun s v => { s with bitrateKbps := v },
    omitEmpty "codec" .text (·.codec) fun s v => { s with codec := v }]

def inputCodec : Codec Input :=
  .record {} [
    field "type" .text (·.type) fun s v => { s with type := v },
    omitEmpty "uri" .text (·.uri) fun s v => { s with uri := v },
    omitEmpty "loop" .boolean (·.loop) fun s v => { s with loop := v },
    omitEmpty "device" .integer (·.device) fun s v => { s with device := v },
    omitEmpty "connection" .text (·.connection) fun s v => { s with connection := v },
    omitEmpty "mode" .text (·.mode) fun s v => { s with mode := v },
    omitEmpty "audioInputChannels" .integer (·.audioInputCh)
      fun s v => { s with audioInputCh := v },
    omitEmpty "devicePath" .text (·.devicePath) fun s v => { s with devicePath := v },
    omitEmpty "audioDevice" .text (·.audioDevice) fun s v => { s with audioDevice := v },
    omitEmpty "format" .text (·.format) fun s v => { s with format := v },
    omitEmpty "pattern" .text (·.pattern) fun s v => { s with pattern := v },
    omitEmpty "toneHz" .integer (·.toneHz) fun s v => { s with toneHz := v },
    omitEmpty "timeoutMs" .integer (·.timeoutMs) fun s v => { s with timeoutMs := v },
    omitEmpty "interlaced" .boolean (·.interlaced) fun s v => { s with interlaced := v }]

def videoCodec : Codec Video :=
  .record {} [
    field "codec" .text (·.codec) fun s v => { s with codec := v },
    omitEmpty "encoder" .text (·.encoder) fun s v => { s with encoder := v },
    field "width" .integer (·.width) fun s v => { s with width := v },
    field "height" .integer (·.height) fun s v => { s with height := v },
    field "fps" .text (·.fps) fun s v => { s with fps := v },
    omitEmpty "interlaced" .boolean (·.interlaced) fun s v => { s with interlaced := v },
    omitEmpty "deinterlace" Codec.boolean.pointer (·.deinterlace)
      fun s v => { s with deinterlace := v },
    field "bitrateKbps" .integer (·.bitrateKbps) fun s v => { s with bitrateKbps := v },
    omitEmpty "maxBitrateKbps" .integer (·.maxKbps) fun s v => { s with maxKbps := v },
    omitEmpty "rateControl" .text (·.rateControl) fun s v => { s with rateControl := v },
    omitEmpty "gop" .integer (·.gop) fun s v => { s with gop := v },
    omitEmpty "bframes" .integer (·.bFrames) fun s v => { s with bFrames := v },
    omitEmpty "profile" .text (·.profile) fun s v => { s with profile := v },
    omitEmpty "preset" .text (·.preset) fun s v => { s with preset := v },
    omitEmpty "lowLatency" .boolean (·.lowLatency) fun s v => { s with lowLatency := v },
    omitEmpty "gpu" .integer (·.gpu) fun s v => { s with gpu := v },
    omitEmpty "bitDepth" .integer (·.bitDepth) fun s v => { s with bitDepth := v },
    omitEmpty "chroma" .text (·.chroma) fun s v => { s with chroma := v },
    omitEmpty "hdr" .text (·.hdr) fun s v => { s with hdr := v },
    omitEmpty "masterDisplay" .text (·.masterDisplay) fun s v => { s with masterDisplay := v },
    omitEmpty "maxCll" .text (·.maxCLL) fun s v => { s with maxCLL := v },
    omitEmpty "timecodeSei" .boolean (·.timecodeSEI) fun s v => { s with timecodeSEI := v },
    omitEmpty "renditions" renditionCodec.list (·.renditions) fun s v => { s with renditions := v }]

def audioCodec : Codec Audio :=
  .record {} [
    omitEmpty "lang" .text (·.lang) fun s v => { s with lang := v },
    omitEmpty "tracks" audioTrackCodec.list (·.tracks) fun s v => { s with tracks := v },
    omitEmpty "disabled" .boolean (·.disabled) fun s v => { s with disabled := v },
    omitEmpty "codec" .text (·.codec) fun s v => { s with codec := v },
    omitEmpty "bitrateKbps" .integer (·.bitrateKbps) fun s v => { s with bitrateKbps := v },
    omitEmpty "channels" .integer (·.channels) fun s v => { s with channels := v },
    omitEmpty "sampleRate" .integer (·.sampleRate) fun s v => { s with sampleRate := v },
    omitEmpty "map" Codec.integer.list (·.map) fun s v => { s with map := v },
    omitEmpty "gainDb" .number (·.gainDb) fun s v => { s with gainDb := v }]

def overlayCodec : Codec Overlay :=
  .record {} [
    omitEmpty "timecode" .boolean (·.timecode) fun s v => { s with timecode := v },
    omitEmpty "clock" .boolean (·.clock) fun s v => { s with clock := v },
    omitEmpty "text" .text (·.text) fun s v => { s with text := v },
    omitEmpty "logo" .text (·.logo) fun s v => { s with logo := v },
    omitEmpty "logoX" .integer (·.logoX) fun s v => { s with logoX := v },
    omitEmpty "logoY" .integer (·.logoY) fun s v => { s with logoY := v },
    omitEmpty "logoAlpha" .number (·.logoAlpha) fun s v => { s with logoAlpha := v }]

def muxCodec : Codec Mux :=
  .record {} [
    omitEmpty "videoPid" .integer (·.videoPID) fun s v => { s with videoPID := v },
    omitEmpty "audioPid" .integer (·.audioPID) fun s v => { s with audioPID := v },
    omitEmpty "pcrIntervalMs" .integer (·.pcrIntervalMs) fun s v => { s with pcrIntervalMs := v },
    omitEmpty "muxRateKbps" .integer (·.muxRateKbps) fun s v => { s with muxRateKbps := v }]

def scte35Codec : Codec SCTE35Options :=
  .record {} [
    field "enabled" .boolean (·.enabled) fun s v => { s with enabled := v },
    omitEmpty "pid" .integer (·.pid) fun s v => { s with pid := v },
    omitEmpty "heartbeatSec" .integer (·.heartbeatSec) fun s v => { s with heartbeatSec := v }]

def alarmCodec : Codec AlarmOptions :=
  .record {} [
    omitEmpty "disabled" Codec.text.list (·.disabled) fun s v => { s with disabled := v },
    omitEmpty "blackSec" .integer (·.blackSec) fun s v => { s with blackSec := v },
    omitEmpty "freezeSec" .integer (·.freezeSec) fun s v => { s with freezeSec := v },
    omitEmpty "silenceSec" .integer (·.silenceSec) fun s v => { s with silenceSec := v },
    omitEmpty "silenceDbfs" .number (·.silenceDBFS) fun s v => { s with silenceDBFS := v },
    omitEmpty "bitrateDropPct" .integer (·.bitrateDropPct)
      fun s v => { s with bitrateDropPct := v },
    omitEmpty "loudnessTarget" .number (·.loudnessTarget) fun s v => { s with loudnessTarget := v },
    omitEmpty "loudnessTolLu" .number (·.loudnessTolLU) fun s v => { s with loudnessTolLU := v }]

def srtCodec : Codec SRTOptions :=
  .record {} [
    omitEmpty "mode" .text (·.mode) fun s v => { s with mode := v },
    omitEmpty "latencyMs" .integer (·.latencyMs) fun s v => { s with latencyMs := v },
    omitEmpty "passphrase" .text (·.passphrase) fun s v => { s with passphrase := v },
    omitEmpty "pbkeylen" .integer (·.pbKeyLen) fun s v => { s with pbKeyLen := v },
    omitEmpty "streamId" .text (·.streamID) fun s v => { s with streamID := v }]

def udpCodec : Codec UDPOptions :=
  .record {} [
    omitEmpty "ttl" .integer (·.ttl) fun s v => { s with ttl := v },
    omitEmpty "iface" .text (·.iface) fun s v => { s with iface := v },
    omitEmpty "bind" .text (·.bind) fun s v => { s with bind := v }]

def whipCodec : Codec WHIPOptions :=
  .record {} [
    omitEmpty "bearerToken" .text (·.bearerToken) fun s v => { s with bearerToken := v }]

def hlsCodec : Codec HLSOptions :=
  .record {} [
    omitEmpty "segmentSeconds" .integer (·.segmentSeconds)
      fun s v => { s with segmentSeconds := v },
    omitEmpty "listSize" .integer (·.listSize) fun s v => { s with listSize := v },
    omitEmpty "ladder" .boolean (·.ladder) fun s v => { s with ladder := v },
    omitEmpty "cmaf" .boolean (·.cmaf) fun s v => { s with cmaf := v }]

def streamHubCodec : Codec StreamHubOutput :=
  .record {} [
    field "baseUrl" .text (·.baseURL) fun s v => { s with baseURL := v },
    field "app" .text (·.app) fun s v => { s with app := v },
    omitEmpty "token" .text (·.token) fun s v => { s with token := v },
    omitEmpty "room" .text (·.room) fun s v => { s with room := v },
    omitEmpty "protocol" .text (·.protocol) fun s v => { s with protocol := v },
    omitEmpty "ingressId" .text (·.ingressID) fun s v => { s with ingressID := v },
    omitEmpty "resolvedUrl" .text (·.resolvedURL) fun s v => { s with resolvedURL := v },
    omitEmpty "streamKey" .text (·.streamKey) fun s v => { s with streamKey := v },
    omitEmpty "deleteOnRemove" .boolean (·.deleteOnRemove)
      fun s v => { s with deleteOnRemove := v }]

def ristCodec : Codec RISTOptions :=
  .record {} [
    omitEmpty "bonding" Codec.text.list (·.bonding) fun s v => { s with bonding := v },
    omitEmpty "bufferMs" .integer (·.bufferMs) fun s v => { s with bufferMs := v }]

def recordCodec : Codec RecordOptions :=
  .record {} [
    omitEmpty "segmentSeconds" .integer (·.segmentSeconds)
      fun s v => { s with segmentSeconds := v },
    omitEmpty "maxSegments" .integer (·.maxSegments) fun s v => { s with maxSegments := v }]

def outputCodec : Codec Output :=
  .record {} [
    field "id" .text (·.id) fun s v => { s with id := v },
    omitEmpty "name" .text (·.name) fun s v => { s with name := v },
    field "type" .text (·.type) fun s v => { s with type := v },
    field "enabled" .boolean (·.enabled) fun s v => { s with enabled := v },
    omitEmpty "url" .text (·.url) fun s v => { s with url := v },
    omitEmpty "preset" .text (·.preset) fun s v => { s with preset := v },
    omitEmpty "managedBy" .text (·.managedBy) fun s v => { s with managedBy := v },
    omitEmpty "srt" srtCodec.pointer (·.srt) fun s v => { s with srt := v },
    omitEmpty "udp" udpCodec.pointer (·.udp) fun s v => { s with udp := v },
    omitEmpty "whip" whipCodec.pointer (·.whip) fun s v => { s with whip := v },
    omitEmpty "hls" hlsCodec.pointer (·.hls) fun s v => { s with hls := v },
    omitEmpty "streamhub" streamHubCodec.pointer (·.streamHub) fun s v => { s with streamHub := v },
    omitEmpty "rist" ristCodec.pointer (·.rist) fun s v => { s with rist := v },
    omitEmpty "record" recordCodec.pointer (·.record) fun s v => { s with record := v },
    omitEmpty "rendition" .integer (·.rendition) fun s v => { s with rendition := v }]

def channelCodec : Codec Channel :=
  .record {} [
    field "id" .text (·.id) fun s v => { s with id := v },
    omitEmpty "name" .text (·.name) fun s v => { s with name := v },
    field "enabled" .boolean (·.enabled) fun s v => { s with enabled := v },
    field "input" inputCodec (·.input) fun s v => { s with input := v },
    omitEmpty "backup" inputCodec.pointer (·.backup) fun s v => { s with backup := v },
    field "video" videoCodec (·.video) fun s v => { s with video := v },
    field "audio" audioCodec (·.audio) fun s v => { s with audio := v },
    field "overlay" overlayCodec (·.overlay) fun s v => { s with overlay := v },
    field "mux" muxCodec (·.mux) fun s v => { s with mux := v },
    field "outputs" outputCodec.list (·.outputs) fun s v => { s with outputs := v },
    omitEmpty "scte35" scte35Codec.pointer (·.scte35) fun s v => { s with scte35 := v },
    omitEmpty "alarms" alarmCodec.pointer (·.alarms) fun s v => { s with alarms := v }]

end StreamHub.Config
