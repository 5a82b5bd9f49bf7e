import StreamHub.Library.Transition

/-!
# The process supervisor

`Process` of `internal/supervisor/supervisor.go` as a transition system.  The
parties are the callers of `Start`, `Stop`, `Restart` and `SetSpec`, the loop
goroutine of every `Start`, the children, and the timers.  One label is one
atomic action: a section under the mutex, a channel operation, a call of the
runner or of a child, the exit of a child.

Loops and children are numbered in the order of their creation.  `proc`,
`wantRun`, `spec` and `restarts` are the fields of the same names; `current` is
the loop whose `kick` and `done` channels the `Process` holds.  A kick channel of
capacity one is the flag `kick` of its loop; `done` is closed when the loop is at
`done`.  Times for display (`startedAt`, `lastExit`, `nextRetry`) and the log
ring are left out.
-/

namespace StreamHub.Supervisor

open Function

/-- What to run. -/
structure Spec where
  name : String := ""
  path : String := ""
  args : List String := []
  env : List String := []
  deriving DecidableEq

/-- The restart policy; durations in nanoseconds. -/
structure Options where
  minBackoff : Int := 0
  maxBackoff : Int := 0
  stableAfter : Int := 0
  deriving DecidableEq

/-- Zero options get their defaults: 1 s, 30 s and 30 s. -/
def Options.defaults (o : Options) : Options where
  minBackoff := if o.minBackoff = 0 then 1000000000 else o.minBackoff
  maxBackoff := if o.maxBackoff = 0 then 30000000000 else o.maxBackoff
  stableAfter := if o.stableAfter = 0 then 30000000000 else o.stableAfter

inductive Status
  | stopped
  | running
  | backoff
  | stopping
  deriving DecidableEq

/-- A started child. -/
structure Child where
  spec : Spec := {}
  alive : Bool := false
  interrupted : Bool := false
  killed : Bool := false
  deriving DecidableEq

/-- Where a loop goroutine stands; the argument is its child. -/
inductive Pc
  | absent
  /-- about to look at `wantRun` -/
  | top
  /-- about to call `runner.Start` -/
  | starting
  /-- the child runs, `p.proc` is not set yet -/
  | publishing (c : Nat)
  /-- in the select of child exit and kick -/
  | waiting (c : Nat)
  /-- a kick was received, about to look at `wantRun` -/
  | kicked (c : Nat)
  /-- in `terminate`: about to interrupt, in the grace period, about to kill, in
  the wait after SIGKILL -/
  | interrupting (c : Nat)
  | grace (c : Nat)
  | killing (c : Nat)
  | killWait (c : Nat)
  /-- in the Restart branch: waiting for the exit of the child -/
  | restartWait (c : Nat)
  /-- the child is gone, about to clear `p.proc` and look at `wantRun` -/
  | exited
  /-- about to set the state to stopped -/
  | leaving
  /-- returned, about to close `done` -/
  | closing
  /-- about to set the state to backoff -/
  | backingOff
  /-- in the select of timer and kick -/
  | sleeping
  | done
  deriving DecidableEq

structure Loop where
  pc : Pc := .absent
  kick : Bool := false
  spec : Spec := {}
  backoff : Int := 0
  first : Bool := true
  deriving DecidableEq

structure State where
  spec : Spec
  status : Status := .stopped
  proc : Option Nat := none
  restarts : Nat := 0
  wantRun : Bool := false
  current : Nat := 0
  loopCount : Nat := 0
  loops : Nat → Loop := fun _ => {}
  childCount : Nat := 0
  children : Nat → Child := fun _ => {}
  /-- the loops whose `done` the unfinished `Stop` calls wait for -/
  stops : List Nat := []
  /-- a `Stop` call has returned and no `Start` was called after it -/
  stopReturned : Bool := false

/-- `New`: a stopped supervisor. -/
def newProcess (spec : Spec) : State := { spec := spec }

/-- What a loop does next, where it has a choice. -/
inductive Act
  | go
  | started
  | startFailed
  | exit
  | kick
  | timer
  /-- the exit is handled `up` nanoseconds after the start -/
  | settle (up : Int)
  deriving DecidableEq

inductive Label
  | start
  | stop
  | stopReturn (l : Nat)
  | restart
  | setSpec (spec : Spec)
  | childExit (c : Nat)
  | loop (l : Nat) (a : Act)
  deriving DecidableEq

/-- The child a loop at this point may have. -/
def Pc.child : Pc → Option Nat
  | .publishing c | .waiting c | .kicked c | .interrupting c | .grace c | .killing c
  | .killWait c | .restartWait c => some c
  | _ => none

/-- Past the last look at `wantRun`: the loop only has to return. -/
def Pc.left : Pc → Bool
  | .absent | .leaving | .closing | .done => true
  | _ => false

namespace State

/-- Every loop has left. -/
def allLeft (s : State) : Bool := (List.range s.loopCount).all fun l => (s.loops l).pc.left

def setLoop (s : State) (l : Nat) (loop : Loop) : State :=
  { s with loops := update s.loops l loop }

def setChild (s : State) (c : Nat) (child : Child) : State :=
  { s with children := update s.children c child }

/-- `signal`: put a kick into the channel of the current loop, if there is room. -/
def signal (s : State) : State := s.setLoop s.current { s.loops s.current with kick := true }

/-- `Kill` of a child. -/
def kill (s : State) (c : Nat) : State := s.setChild c { s.children c with killed := true }

end State

/-- The backoff of the next round; the product is one of 64-bit integers. -/
def nextBackoff (o : Options) (backoff : Int) : Int :=
  if backoff = 0 then o.minBackoff
  else
    let backoff := (backoff * 2).bmod (2 ^ 64)
    if backoff > o.maxBackoff then o.maxBackoff else backoff

/-! ## Calls

`start` without an effect is still a `Start` call, so it ends `stopReturned`. -/

def start (o : Options) (s : State) : State :=
  if s.wantRun then { s with stopReturned := false }
  else
    { s with
      wantRun := true
      current := s.loopCount
      loopCount := s.loopCount + 1
      loops := update s.loops s.loopCount
        { pc := .top, backoff := o.minBackoff }
      stopReturned := false }

/-- The section of `Stop` under the mutex; without a running loop it returns. -/
def stop (s : State) : State :=
  if s.wantRun then
    State.signal { s with wantRun := false, stops := s.current :: s.stops }
  else { s with stopReturned := true }

/-- A `Stop` call returns when the loop it waits for has closed `done`.  If that
is not the loop of the last `Start`, a `Start` was called after this `Stop`. -/
def stopReturn (s : State) (l : Nat) : Option State :=
  if l ∈ s.stops ∧ (s.loops l).pc = .done then
    some
      { s with
        stops := s.stops.erase l
        stopReturned := s.stopReturned || decide (l = s.current) }
  else none

def restart (s : State) : State :=
  if s.wantRun then
    match s.proc with
    | none => s.signal
    | some c => (s.kill c).signal
  else s

/-! ## The loop -/

/-- The child is gone, or could not be started. -/
def Loop.gone (loop : Loop) : Loop := { loop with pc := .exited, first := false }

/-- One action of loop `l`. -/
def loopStep (o : Options) (s : State) (l : Nat) (a : Act) : Option State :=
  let loop := s.loops l
  match loop.pc, a with
  -- `wantRun` and the spec are read under one lock
  | .top, .go =>
    if s.wantRun then some (s.setLoop l { loop with pc := .starting, spec := s.spec })
    else some (State.setLoop { s with status := .stopped } l { loop with pc := .closing })
  -- the child runs, and no one but this loop knows it yet
  | .starting, .started =>
    some (State.setLoop
      { s with
        childCount := s.childCount + 1
        children := update s.children s.childCount
          { spec := loop.spec, alive := true } }
      l { loop with pc := .publishing s.childCount })
  | .starting, .startFailed => some (s.setLoop l loop.gone)
  | .publishing c, .go =>
    some (State.setLoop
      { s with
        proc := some c
        status := .running
        restarts := if loop.first then s.restarts else s.restarts + 1 }
      l { loop with pc := .waiting c })
  -- the `select` on the child and the kick channel
  | .waiting c, .exit => if (s.children c).alive then none else some (s.setLoop l loop.gone)
  | .waiting c, .kick =>
    if loop.kick then some (s.setLoop l { loop with pc := .kicked c, kick := false })
    else none
  -- a kick says nothing about its cause: `wantRun` decides
  | .kicked c, .go =>
    if s.wantRun then some (s.setLoop l { loop with pc := .restartWait c })
    else
      some (State.setLoop { s with status := .stopping } l
        { loop with pc := .interrupting c })
  -- `terminate`
  | .interrupting c, .go =>
    some ((s.setChild c { s.children c with interrupted := true }).setLoop l
      { loop with pc := .grace c })
  | .grace c, .exit => if (s.children c).alive then none else some (s.setLoop l loop.gone)
  | .grace c, .timer => some (s.setLoop l { loop with pc := .killing c })
  | .killing c, .go => some ((s.kill c).setLoop l { loop with pc := .killWait c })
  | .killWait c, .exit => if (s.children c).alive then none else some (s.setLoop l loop.gone)
  -- one second after SIGKILL the exit is given up
  | .killWait _, .timer => some (s.setLoop l loop.gone)
  -- "already killed": there is no timer here
  | .restartWait c, .exit =>
    if (s.children c).alive then none
    else some (s.setLoop l { loop.gone with backoff := 0 })
  | .exited, .settle up =>
    some (State.setLoop { s with proc := none } l
      (if s.wantRun then
        { loop with
          pc := .backingOff
          backoff := if up ≥ o.stableAfter then o.minBackoff else loop.backoff }
      else { loop with pc := .leaving }))
  | .leaving, .go =>
    some (State.setLoop { s with status := .stopped } l { loop with pc := .closing })
  | .closing, .go => some (s.setLoop l { loop with pc := .done })
  -- after a restart the delay is zero and there is nothing to wait for
  | .backingOff, .go =>
    some (State.setLoop { s with status := .backoff } l
      (if loop.backoff > 0 then { loop with pc := .sleeping }
      else { loop with pc := .top, backoff := nextBackoff o loop.backoff }))
  | .sleeping, .timer =>
    some (s.setLoop l { loop with pc := .top, backoff := nextBackoff o loop.backoff })
  | .sleeping, .kick =>
    if loop.kick then
      some (s.setLoop l
        { loop with pc := .top, kick := false, backoff := nextBackoff o loop.backoff })
    else none
  | _, _ => none

/-- One atomic action. -/
def step (o : Options) (s : State) : Label → Option State
  | .start => some (start o s)
  | .stop => some (stop s)
  | .stopReturn l => stopReturn s l
  | .restart => some (restart s)
  | .setSpec spec => some { s with spec := spec }
  | .childExit c =>
    if (s.children c).alive then
      some (s.setChild c { s.children c with alive := false })
    else none
  | .loop l a => loopStep o s l a

end StreamHub.Supervisor
