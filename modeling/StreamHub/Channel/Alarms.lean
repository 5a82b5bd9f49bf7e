import Mathlib.Data.List.AList
import StreamHub.Library.Text

/-!
# The alarm book

`alarmBook` of `internal/channel/alarms.go`: conditions that are pending, alarms
that are active, and the events sent for both edges.  Times are in nanoseconds.
`order` is the order in which a map is iterated; keys it does not name come last.
-/

namespace StreamHub.Channel

open Library Library.Text

/-! ## Alarms -/

def alarmInputLoss : Str := str "input_loss"

def alarmBlack : Str := str "black"

def alarmFreeze : Str := str "freeze"

def alarmSilence : Str := str "silence"

def alarmBitrateDrop : Str := str "bitrate_drop"

def alarmEngineDown : Str := str "engine_down"

def alarmOutputDown : Str := str "output_down"

def alarmLoudness : Str := str "loudness"

/-- `severities`; an unknown type has none. -/
def severity (typ : Str) : Str :=
  if typ = alarmEngineDown ∨ typ = alarmInputLoss then str "critical"
  else if typ = alarmBlack ∨ typ = alarmFreeze ∨ typ = alarmSilence ∨ typ = alarmOutputDown then
    str "major"
  else if typ = alarmBitrateDrop then str "minor"
  else if typ = alarmLoudness then str "warning"
  else []

structure Alarm where
  id : Str
  type : Str
  severity : Str
  channel : Str
  output : Str
  message : Str
  value : Rat
  raisedAt : Int
  clearedAt : Option Int := none
  acked : Bool := false
  ackedBy : Str := []
  deriving DecidableEq

/-- `notify.Event` without the time at which it is sent. -/
structure Event where
  id : Str
  type : Str
  severity : Str
  active : Bool
  channel : Str
  output : Str
  message : Str
  value : Rat
  device : Str
  deriving DecidableEq

/-- The event for an edge of an alarm. -/
def Alarm.event (device : Str) (active : Bool) (a : Alarm) : Event where
  id := a.id
  type := a.type
  severity := a.severity
  active := active
  channel := a.channel
  output := a.output
  message := a.message
  value := a.value
  device := device

/-- `akey` -/
def akey (ch typ out : Str) : Str := ch ++ str "|" ++ typ ++ str "|" ++ out

def Alarm.key (a : Alarm) : Str := akey a.channel a.type a.output

def Event.key (e : Event) : Str := akey e.channel e.type e.output

/-- The id of the alarm with number `seq`. -/
def alarmId (now : Int) (seq : Nat) : Str :=
  str "al-" ++ itoa (now / 1000000000) ++ str "-" ++ itoa seq

def newAlarm (now : Int) (ch typ out msg : Str) (value : Rat) (seq : Nat) : Alarm where
  id := alarmId now seq
  type := typ
  severity := severity typ
  channel := ch
  output := out
  message := msg
  value := value
  raisedAt := now

/-! ## The book -/

/-- `sent` are the events handed to the notifier. -/
structure AlarmBook where
  since : Str → Option Int := fun _ => none
  active : AList (fun _ : Str => Alarm) := ∅
  history : List Alarm := []
  seq : Nat := 0
  device : Str := []
  sent : List Event := []

def maxHistory : Nat := 500

namespace AlarmBook

/-- `push` -/
def push (a : Alarm) (b : AlarmBook) : AlarmBook :=
  let history := b.history ++ [a]
  { b with history := history.drop (history.length - maxHistory) }

/-- `emit` -/
def emit (a : Alarm) (active : Bool) (b : AlarmBook) : AlarmBook :=
  { b with sent := b.sent ++ [a.event b.device active] }

/-- The condition is gone. -/
def clear (now : Int) (k : Str) (b : AlarmBook) : AlarmBook :=
  let b := { b with since := Function.update b.since k none }
  match b.active.lookup k with
  | none => b
  | some a =>
    let a := { a with clearedAt := some now }
    ({ b.push a with active := b.active.erase k }).emit a false

/-- The condition has held long enough. -/
def raise (now : Int) (ch typ out msg : Str) (value : Rat) (b : AlarmBook) : AlarmBook :=
  let a := newAlarm now ch typ out msg value (b.seq + 1)
  ({ b with seq := b.seq + 1, active := b.active.insert (akey ch typ out) a }.push a).emit a true

/-- `observe` -/
def observe (now : Int) (ch typ out : Str) (cond : Bool) (hold : Int) (msg : Str) (value : Rat)
    (b : AlarmBook) : AlarmBook :=
  let k := akey ch typ out
  if cond = false then b.clear now k
  else if (b.active.lookup k).isSome then b
  else
    let first := (b.since k).getD now
    let b := { b with since := Function.update b.since k (some first) }
    if now - first < hold then b else b.raise now ch typ out msg value

/-- The keys in the order in which they are iterated. -/
def inOrder (order keys : List Str) : List Str :=
  order.filter (fun k => keys.contains k) ++ keys.filter fun k => !order.contains k

/-- Conditions of a channel are no longer pending. -/
def forget (ch : Str) (b : AlarmBook) : AlarmBook :=
  { b with since := fun k => if (ch ++ str "|").isPrefixOf k then none else b.since k }

/-- The second loop of `clearChannel`, for one key. -/
def clearKey (now : Int) (b : AlarmBook) (k : Str) : AlarmBook :=
  match b.active.lookup k with
  | none => b
  | some a => b.observe now a.channel a.type a.output false 0 [] 0

/-- `clearChannel` -/
def clearChannel (now : Int) (ch : Str) (order : List Str) (b : AlarmBook) : AlarmBook :=
  let keys := (b.active.entries.filter fun e => e.2.channel == ch).map Sigma.fst
  (inOrder order keys).foldl (clearKey now) (b.forget ch)

/-- `ack`; its answer is whether there was such an alarm. -/
def ack (id who : Str) (b : AlarmBook) : Bool × AlarmBook :=
  match b.active.entries.find? fun e => e.2.id == id with
  | none => (false, b)
  | some e => (true, { b with
      active := b.active.insert e.1 { e.2 with acked := true, ackedBy := who } })

end AlarmBook

end StreamHub.Channel
