import StreamHub.Channel.Alarms

/-!
# The queue of the notifier

`Send` puts an event into a bounded queue, one dispatcher takes the events out
and delivers them, `Close` stops the queue and drains it for a limited time.
They share the queue under a mutex, and meet at the wake channel (capacity one),
the context and the done channel.

A section under the mutex and an operation on a channel, on the context or on an
atomic counter are one step each; the parties take their steps in any order.  The
drain timer may fire at any time after it was set.
-/

namespace StreamHub.Notify

open Library.Text

/-- `notify.Event`: the event of an alarm and `At`; `none` is the zero time. -/
structure Event extends Channel.Event where
  time : Option ℤ
  deriving DecidableEq

/-- `fill` completes the optional fields of an event. -/
def fill (device newID : Str) (now : ℤ) (e : Event) : Event :=
  { e with
    id := if e.id = [] then newID else e.id
    time := some (e.time.getD now)
    device := if e.device = [] then device else e.device }

/-- Where the dispatcher is. -/
inductive Dispatcher (τ : Type)
  /-- about to lock and look at the queue -/
  | top
  /-- in the select on the wake channel and the context -/
  | waiting
  /-- in `deliver`, with the targets read under the mutex -/
  | delivering (ticket : Event × ℕ) (targets : τ)
  /-- returning, with the deferred `close(n.done)` to come -/
  | leaving
  | exited

/-- Past its last look at the queue. -/
def Dispatcher.left {τ : Type} : Dispatcher τ → Bool
  | .leaving | .exited => true
  | _ => false

/-- Where the one run of `Close` is. -/
inductive Closer
  | idle
  /-- `closed` is set, the signal is to come -/
  | signalling
  /-- in the select on the done channel and the timer -/
  | draining
  /-- the timer fired -/
  | aborting
  /-- cancelled after the timer, waiting for the dispatcher -/
  | awaiting
  /-- the dispatcher is done -/
  | cancelling (timedOut : Bool)
  /-- about to count what is left -/
  | counting (timedOut : Bool)
  | returned
  deriving DecidableEq

/-- The notifier.  `queue` holds each event with the number of its `Send` call;
the numbers, `calls`, `delivered` and `lost` are not in the source. -/
structure State (τ : Type) where
  queueSize : ℕ+
  targets : τ
  queue : List (Event × ℕ)
  closed : Bool
  device : Str
  wake : Bool
  cancelled : Bool
  done : Bool
  dropped : ℕ
  dispatcher : Dispatcher τ
  closer : Closer
  /-- `Send` calls that queued their event and have not signalled yet -/
  signals : ℕ
  /-- `Send` calls that found the notifier closed and have not counted it yet -/
  refusing : List Event
  /-- `Send` calls so far: each from the step on that queues its event or counts it -/
  calls : List Event
  /-- what was handed to `deliver` -/
  delivered : List (Event × ℕ)
  /-- what was counted in `dropped` -/
  lost : List (Event × ℕ)

/-- The queue size the options ask for is at least one. -/
def clampSize (queueSize : ℤ) : ℕ+ := if queueSize < 1 then 1 else queueSize.toNat.toPNat'

/-- `newNotifier` starts the dispatcher on an empty queue. -/
def newNotifier {τ : Type} (queueSize : ℤ) (host : Str) (targets : τ) : State τ where
  queueSize := clampSize queueSize
  targets := targets
  queue := []
  closed := false
  device := if host = [] then str "streamhub-encoder" else host
  wake := false
  cancelled := false
  done := false
  dropped := 0
  dispatcher := .top
  closer := .idle
  signals := 0
  refusing := []
  calls := []
  delivered := []
  lost := []

/-- One atomic step of one party. -/
inductive Label (τ : Type)
  /-- the section of `Send` under the mutex, with the answers of `newID` and the clock -/
  | send (e : Event) (newID : Str) (now : ℤ)
  /-- the signal of a `Send` call -/
  | signal
  /-- a refused `Send` call counts its event -/
  | refuse (i : ℕ)
  | update (targets : τ)
  | setDevice (id : Str)
  /-- the next step of the dispatcher; in its select, the wake channel -/
  | dispatch
  /-- the dispatcher's select finds the context done -/
  | dispatchCancelled
  /-- the next step of `Close`; in its select, the done channel -/
  | close
  /-- the drain timer fires -/
  | timeout

variable {τ : Type}

/-- A full queue gives up its oldest event. -/
def State.evict (s : State τ) : State τ :=
  if (s.queueSize : ℕ) ≤ s.queue.length then
    { s with
      queue := s.queue.drop 1
      dropped := s.dropped + 1
      lost := s.lost ++ s.queue.take 1 }
  else s

/-- The queue takes an event, the signal is to come. -/
def State.push (s : State τ) (e : Event) : State τ :=
  { s with
    queue := s.queue ++ [(e, s.calls.length)]
    calls := s.calls ++ [e]
    signals := s.signals + 1 }

/-- `Send` under the mutex. -/
def State.send (s : State τ) (e : Event) : State τ :=
  if s.closed then { s with refusing := s.refusing ++ [e] }
  else s.evict.push e

/-- `Send` on a closed notifier counts its event after the unlock. -/
def State.refuse (s : State τ) (i : ℕ) : Option (State τ) :=
  match s.refusing[i]? with
  | none => none
  | some e =>
    some { s with
      refusing := s.refusing.eraseIdx i
      dropped := s.dropped + 1
      calls := s.calls ++ [e]
      lost := s.lost ++ [(e, s.calls.length)] }

/-- One turn of `dispatch` under the mutex.  The inner loop comes back here after
the select. -/
def State.look (s : State τ) : State τ :=
  match s.queue with
  | [] =>
    if s.closed then { s with dispatcher := .leaving }
    else { s with dispatcher := .waiting }
  | e :: rest =>
    -- Close gave up; leftovers are counted there
    if s.cancelled then { s with dispatcher := .leaving }
    else
      { s with
        queue := rest
        dispatcher := .delivering e s.targets
        delivered := s.delivered ++ [e] }

/-- The steps of `dispatch`. -/
def State.dispatch (s : State τ) : Option (State τ) :=
  match s.dispatcher with
  | .top => some s.look
  | .waiting => if s.wake then some { s with wake := false, dispatcher := .top } else none
  | .delivering _ _ => some { s with dispatcher := .top }
  | .leaving => some { s with dispatcher := .exited, done := true }
  | .exited => none

/-- The select of `dispatch` on the context. -/
def State.dispatchCancelled (s : State τ) : Option (State τ) :=
  match s.dispatcher with
  | .waiting => if s.cancelled then some { s with dispatcher := .leaving } else none
  | _ => none

/-- The steps of `Close`; `closeOnce` lets one caller in. -/
def State.close (s : State τ) : Option (State τ) :=
  match s.closer with
  | .idle => some { s with closed := true, closer := .signalling }
  | .signalling => some { s with wake := true, closer := .draining }
  | .draining => if s.done then some { s with closer := .cancelling false } else none
  | .aborting => some { s with cancelled := true, closer := .awaiting }
  | .awaiting => if s.done then some { s with closer := .cancelling true } else none
  | .cancelling timedOut => some { s with cancelled := true, closer := .counting timedOut }
  | .counting _ =>
    some { s with
      queue := []
      dropped := s.dropped + s.queue.length
      lost := s.lost ++ s.queue
      closer := .returned }
  | .returned => none

/-- The select of `Close` on the timer. -/
def State.timeout (s : State τ) : Option (State τ) :=
  match s.closer with
  | .draining => some { s with closer := .aborting }
  | _ => none

/-- The notifier with all its callers. -/
def step (s : State τ) : Label τ → Option (State τ)
  | .send e newID now => some (s.send (fill s.device newID now e))
  | .signal =>
    if s.signals = 0 then none
    else some { s with wake := true, signals := s.signals - 1 }
  | .refuse i => s.refuse i
  | .update targets => some { s with targets := targets }
  | .setDevice id => some { s with device := id }
  | .dispatch => s.dispatch
  | .dispatchCancelled => s.dispatchCancelled
  | .close => s.close
  | .timeout => s.timeout

end StreamHub.Notify
