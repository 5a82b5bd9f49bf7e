import StreamHub.Channel.Manager

/-!
# Evaluation of the alarm conditions

`evaluateAlarms` of `internal/channel/alarms.go`, which runs once per second for a
running channel.  What it reads of the processes and of the monitor is a
`ChannelStatus` and a `MonitorSnapshot`, with the fields it looks at.
-/

namespace StreamHub.Channel

open Library Library.Text

/-! ## What is read -/

inductive ChannelState
  | stopped
  | starting
  | live
  | degraded
  | reconnecting
  | error
  deriving DecidableEq

inductive OutputState
  | stopped
  | resolving
  | running
  | backoff
  | stopping
  | error
  deriving DecidableEq

def OutputState.text : OutputState → Str
  | .stopped => str "stopped"
  | .resolving => str "resolving"
  | .running => str "running"
  | .backoff => str "backoff"
  | .stopping => str "stopping"
  | .error => str "error"

structure OutputStatus where
  id : Str
  state : OutputState
  error : Str := []

/-- `bitrateKbps` is that of `Stats`, if there are any. -/
structure ChannelStatus where
  state : ChannelState
  error : Str := []
  bitrateKbps : Option ℚ := none
  outputs : List OutputStatus := []

structure LoudnessSnapshot where
  rmsDBFS : List ℚ
  shortTermLUFS : ℚ
  seconds : ℚ

structure MonitorSnapshot where
  videoLive : Bool
  audioLive : Bool
  luma : ℚ
  motion : ℚ
  loudness : Option LoudnessSnapshot

/-! ## Conditions -/

/-- Seconds, in nanoseconds. -/
def sec (n : Int) : Int := n * 1000000000

/-- The last status of that id. -/
def statusOf (cs : ChannelStatus) (id : Str) : Option OutputStatus :=
  (cs.outputs.filter fun x => x.id == id).getLast?

/-- Longer than half of the grace period up. -/
def isWarm (grace now startedAt : Int) : Bool := decide (now - startedAt > grace.tdiv 2)

/-- The condition of an output's alarm. -/
def outputDown (ch : Config.Channel) (warm : Bool) (cs : ChannelStatus) (id : Str) : Bool :=
  ch.alarmDefaults.alarmEnabled alarmOutputDown && warm &&
    (statusOf cs id).map OutputStatus.state != some .running

/-- Sound is there but below the level of silence on every channel. -/
def isSilent (ch : Config.Channel) (ms : MonitorSnapshot) : Bool :=
  match ms.loudness with
  | none => false
  | some l => !ch.audio.disabled && ms.audioLive &&
      l.rmsDBFS.all fun r => decide (r ≤ ch.alarmDefaults.silenceDBFS)

namespace AlarmBook

/-- The alarm of the engine. -/
def observeEngine (now : Int) (ch : Config.Channel) (cs : ChannelStatus) (b : AlarmBook) :
    AlarmBook :=
  b.observe now ch.id alarmEngineDown []
    (ch.alarmDefaults.alarmEnabled alarmEngineDown &&
      (cs.state == .reconnecting || cs.state == .error))
    (sec 5) (str "engine not producing: " ++ cs.error) 0

/-- The alarm of the bitrate, once the channel is warm. -/
def observeBitrate (now : Int) (ch : Config.Channel) (warm : Bool) (cs : ChannelStatus)
    (b : AlarmBook) : AlarmBook :=
  match cs.bitrateKbps with
  | none => b
  | some rate =>
    if warm then
      let pct := ch.alarmDefaults.bitrateDropPct
      let low := decide (rate < ch.video.bitrateKbps * pct / 100)
      b.observe now ch.id alarmBitrateDrop []
        (ch.alarmDefaults.alarmEnabled alarmBitrateDrop && cs.state != .stopped && low)
        (sec 10)
        (str "TS bitrate " ++ fixed 0 rate ++ str " kbps < " ++ itoa pct ++ str "% of the " ++
          itoa ch.video.bitrateKbps ++ str " kbps target") rate
    else b

/-- The alarm of one output. -/
def observeOutput (now : Int) (ch : Config.Channel) (warm : Bool) (cs : ChannelStatus)
    (b : AlarmBook) (o : Config.Output) : AlarmBook :=
  if o.enabled then
    let st := statusOf cs o.id
    b.observe now ch.id alarmOutputDown o.id (outputDown ch warm cs o.id) (sec 10)
      (str "output " ++ o.id ++ str " " ++ st.elim [] (OutputState.text ∘ OutputStatus.state) ++
        str ": " ++ st.elim [] OutputStatus.error) 0
  else b

/-- The alarms of picture and sound. -/
def observeMonitor (now : Int) (ch : Config.Channel) (ms : MonitorSnapshot) (b : AlarmBook) :
    AlarmBook :=
  let opt := ch.alarmDefaults
  let en := opt.alarmEnabled
  let black := ms.videoLive && decide (ms.luma < 20)
  let frozen := ms.videoLive && decide (ms.motion ≥ 0) && decide (ms.motion < 1 / 4)
  let silent := isSilent ch ms
  let b := b.observe now ch.id alarmBlack [] (en alarmBlack && black) (sec opt.blackSec)
    (str "black picture (luma " ++ fixed 1 ms.luma ++ str ")") ms.luma
  let b := b.observe now ch.id alarmFreeze [] (en alarmFreeze && frozen) (sec opt.freezeSec)
    (str "frozen picture (motion " ++ fixed 2 ms.motion ++ str ")") ms.motion
  let b := b.observe now ch.id alarmSilence [] (en alarmSilence && silent) (sec opt.silenceSec)
    (str "audio below " ++ fixed 0 opt.silenceDBFS ++ str " dBFS") 0
  let b := b.observe now ch.id alarmInputLoss []
    (en alarmInputLoss && black && (silent || ch.audio.disabled)) (sec 3)
    (str "input lost (black + silence: fallback/slate on air)") 0
  match ms.loudness with
  | none => b
  | some l =>
    if opt.loudnessTarget ≠ 0 ∧ ms.audioLive = true ∧ silent = false ∧ l.seconds > 10 then
      let d := l.shortTermLUFS - opt.loudnessTarget
      b.observe now ch.id alarmLoudness []
        (en alarmLoudness && decide (d > opt.loudnessTolLU ∨ d < -opt.loudnessTolLU)) (sec 30)
        (str "short-term loudness " ++ fixed 1 l.shortTermLUFS ++ str " LUFS vs target " ++
          fixed 1 opt.loudnessTarget) l.shortTermLUFS
    else b

end AlarmBook

/-- `evaluateAlarms`; `ms` is the snapshot of the monitor, if one runs, and `grace`
the start grace of the manager. -/
def evaluateAlarms (grace now : Int) (cs : ChannelStatus) (ms : MonitorSnapshot)
    (rt : Manager.ChanRT) (b : AlarmBook) : AlarmBook :=
  let ch := rt.cfg
  let warm := isWarm grace now rt.startedAt
  let b := b.observeEngine now ch cs
  let b := b.observeBitrate now ch warm cs
  let b := ch.outputs.foldl (AlarmBook.observeOutput now ch warm cs) b
  if rt.mon then b.observeMonitor now ch ms else b

end StreamHub.Channel
