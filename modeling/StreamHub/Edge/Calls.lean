import StreamHub.Edge.Scheduler

/-!
# The steps of the scheduler's calls

`Schedule`, `RetryPending` and `HandleNodeDown` hold the lock of the scheduler; `Revoke` and the
re-offer of a node that registers do not.  Each call reads rows, and then writes and sends from
what it has read, one statement or one frame at a step.  The steps of all calls, the frames of
the edges and the connections interleave in any order, and any statement or write may fail.

What `NodeViews` returns is data of a step: its reads may come between any others, and nothing
below depends on them.  A frame of an edge is handled on the connection that it came on, also
when that connection is gone already.  Frames in flight to an edge may reach it after the master
has dropped the connection, or be lost then; an edge connects again when it has given up the
connection before.  It keeps its workers when it loses a connection and starts or stops one
exactly when a frame says so.

This module has the steps only.  `Acts` says what each of them does, `Revocation` and `Workers`
what holds in every run.
-/

namespace StreamHub.Edge.Calls

open Library Text Transition Function

/-- What a call under the lock has left to do: the rows of `RetryPending`, or the moves of
`HandleNodeDown` away from a node -/
inductive Rest
  | finished
  | retry (todo : List (Assignment × ℕ))
  | down (old : Str) (moves : List (ℕ × Str))

/-- The call under the lock -/
inductive Holder
  /-- The next row or move comes. -/
  | turn (rest : Rest)
  /-- The row is written and read again: `Schedule` behind its INSERT, `HandleNodeDown` behind
  `Reassign`.  Only a push of `Schedule` is marked if it fails. -/
  | fetching (id : ℕ) (node : Str) (marks : Bool) (rest : Rest)
  /-- The assign frame comes. -/
  | pushing (id : ℕ) (a : Assignment) (node : Str) (marks : Bool) (rest : Rest)
  /-- The push has failed and the row is marked next. -/
  | marking (id : ℕ) (node : Str) (rest : Rest)

/-- A call without the lock -/
inductive Call
  /-- `Revoke` behind its read -/
  | revoking (id : ℕ) (node : Str)
  /-- `Revoke` behind its frame -/
  | revoked (id : ℕ)
  /-- `reoffer` with the rows that are left -/
  | reoffering (node : Str) (todo : List (Assignment × ℕ))
  /-- `reoffer` behind a frame -/
  | reoffered (id : ℕ) (node : Str) (todo : List (Assignment × ℕ))

/-- The table, the calls under way, the connections, the frames in flight to each node and the
workers of the edges.  `known` are the nodes that have connected at some time, `registered` those
that have registered on their connection; `downs` are the assignments whose row has become
revoked at some time, and `late` says that an assign frame of one of them was sent afterwards. -/
structure State where
  rows : List Assignment
  rrCursor : ℤ
  holder : Option Holder
  calls : List Call
  known : List Str
  connected : Str → Bool
  registered : Str → Bool
  queue : Str → List Frame
  workers : Str → ℕ → Bool
  downs : ℕ → Bool
  late : Bool

def State.init : State where
  rows := []
  rrCursor := 0
  holder := none
  calls := []
  known := []
  connected := fun _ => false
  registered := fun _ => false
  queue := fun _ => []
  workers := fun _ _ => false
  downs := fun _ => false
  late := false

inductive Label
  /-- `Schedule` up to its INSERT -/
  | schedule (input : ScheduleInput) (views : List SchedNode) (draw : ℚ) (written : Bool)
  | retryRead
  /-- a row of `RetryPending` is placed and reassigned -/
  | retryTurn (views : Option (List SchedNode)) (draw : ℚ) (written : Bool)
  /-- the read of `HandleNodeDown` and its plan -/
  | downRead (node : Str) (views : List SchedNode) (draws : ℕ → ℚ)
  | downTurn (written : Bool)
  | fetch (answered : Bool)
  | push (sent : Bool)
  | mark (written : Bool)
  | release
  | revokeRead (id : ℕ)
  | revokeSend (k : ℕ) (sent : Bool)
  | revokeWrite (k : ℕ) (written : Bool)
  /-- a register frame, up to the read of `reoffer` -/
  | register (node : Str)
  | reofferSend (k : ℕ) (sent : Bool)
  | reofferWrite (k : ℕ) (written : Bool)
  | reofferEnd (k : ℕ)
  /-- an `assignment_status` frame -/
  | status (node : Str) (id : ℕ) (status : Reported) (detail : Option Str)
  | connect (node : Str)
  | disconnect (node : Str)
  /-- the frames in flight on a dropped connection are lost -/
  | lose (node : Str)
  /-- the edge takes the next frame -/
  | deliver (node : Str)
  /-- the master starts again -/
  | restart

/-- The write of `UpdateStatus` -/
def setStatus (status : Status) (detail : Option Str) (a : Assignment) : Assignment :=
  { a with status := status, detail := detail }

/-- The write of `Reassign`, always to `offered` -/
def setNode (node : Str) (a : Assignment) : Assignment :=
  { a with nodeId := node, status := .offered, detail := none }

/-- The write of `UpdateStatusForNode` -/
def setReported (node : Str) (status : Reported) (detail : Option Str) (a : Assignment) :
    Assignment := if a.nodeId = node then setStatus status.status detail a else a

/-- The row that `Schedule` inserts -/
def newRow (input : ScheduleInput) (node : Str) : Assignment :=
  { nodeId := node, app := input.app, pluginId := input.pluginId, streamId := input.streamId,
    config := input.config, status := if node = [] then .pending else .offered, detail := none }

/-- The workers of an edge behind a frame -/
def applyFrame (workers : ℕ → Bool) : Frame → ℕ → Bool
  | .assign id _ => update workers id true
  | .revoke id => update workers id false

namespace State

variable (s : State)

/-- A statement on one row; if it fails nothing changes. -/
def write (written : Bool) (id : ℕ) (f : Assignment → Assignment) : State :=
  if written then { s with rows := s.rows.modify id f } else s

/-- A frame goes out to a node. -/
def enqueue (node : Str) (frame : Frame) : State :=
  { s with queue := update s.queue node (s.queue node ++ [frame]) }

/-- `Send` of an assign frame; if the node is not connected or the write fails it is refused. -/
def sendAssign (node : Str) (id : ℕ) (a : Assignment) (sent : Bool) : Option State :=
  if s.connected node && sent then
    some { s.enqueue node (.assign id a) with late := s.late || s.downs id }
  else none

/-- `Revoke` of the gateway; nobody looks at what it returns. -/
def sendRevoke (node : Str) (id : ℕ) (sent : Bool) : State :=
  if node ≠ [] && s.connected node && sent then s.enqueue node (.revoke id) else s

def hold (h : Holder) : State := { s with holder := some h }

/-- A call begins. -/
def begin (c : Call) : State := { s with calls := s.calls ++ [c] }

/-- A call goes on. -/
def go (k : ℕ) (c : Call) : State := { s with calls := s.calls.set k c }

/-- A call ends. -/
def finish (k : ℕ) : State := { s with calls := s.calls.eraseIdx k }

end State

/-- Where `Schedule` places its work -/
def schedulePlaced (env : Env) (s : State) (input : ScheduleInput) (views : List SchedNode)
    (draw : ℚ) : Str × ℤ :=
  place views ⟨input.policy.getD env.policy, input.req, env.allowCommon, s.rrCursor, draw⟩

/-- Where `RetryPending` places a row -/
def retryPlaced (env : Env) (s : State) (views : List SchedNode) (draw : ℚ) : Str × ℤ :=
  place views ⟨env.policy, none, env.allowCommon, s.rrCursor, draw⟩

/-- What `HandleNodeDown` plans -/
def downPlanned (env : Env) (s : State) (node : Str) (views : List SchedNode) (draws : ℕ → ℚ) :
    List (ℕ × Str) × ℤ :=
  planFailover draws ((Rows.select (activeByNode node) s.rows).map Prod.snd) views
    ⟨env.policy, none, env.allowCommon, s.rrCursor, 0⟩

def schedule (env : Env) (s : State) (input : ScheduleInput) (views : List SchedNode) (draw : ℚ)
    (written : Bool) : State :=
  let placed := schedulePlaced env s input views draw
  let s := { s with rrCursor := placed.2 }
  if written then
    State.hold { s with rows := s.rows ++ [newRow input placed.1] }
      (if placed.1 = [] then .turn .finished else .fetching s.rows.length placed.1 true .finished)
  else s

/-- One turn of `RetryPending`; it gives up if it cannot read the nodes. -/
def retryTurn (env : Env) (s : State) (views : Option (List SchedNode)) (draw : ℚ)
    (written : Bool) (a : Assignment) (id : ℕ) (todo : List (Assignment × ℕ)) : State :=
  match views with
  | none => s.hold (.turn .finished)
  | some views =>
    let placed := retryPlaced env s views draw
    let s := { s with rrCursor := placed.2 }
    if placed.1 = [] then s.hold (.turn (.retry todo))
    else
      (s.write written id (setNode placed.1)).hold
        (.pushing id { a with nodeId := placed.1 } placed.1 true (.retry todo))

def downRead (env : Env) (s : State) (node : Str) (views : List SchedNode) (draws : ℕ → ℚ) :
    State :=
  let planned := downPlanned env s node views draws
  State.hold { s with rrCursor := planned.2 } (.turn (.down node planned.1))

/-- One move of `HandleNodeDown`, up to its write -/
def downTurn (s : State) (written : Bool) (old : Str) (id : ℕ) (node : Str)
    (moves : List (ℕ × Str)) : State :=
  if node = [] then
    (s.write written id (setStatus .pending (some (str "no eligible node for failover")))).hold
      (.turn (.down old moves))
  else (s.write written id (setNode node)).hold (.fetching id node false (.down old moves))

/-- The read behind the write; without the row nothing is sent. -/
def fetch (s : State) (answered : Bool) (id : ℕ) (node : Str) (marks : Bool) (rest : Rest) :
    State :=
  match s.rows[id]? with
  | some a => s.hold (if answered then .pushing id a node marks rest else .turn rest)
  | none => s.hold (.turn rest)

def push (s : State) (sent : Bool) (id : ℕ) (a : Assignment) (node : Str) (marks : Bool)
    (rest : Rest) : State :=
  match s.sendAssign node id a sent with
  | some t => t.hold (.turn rest)
  | none => s.hold (if marks then .marking id node rest else .turn rest)

/-- The write of `Revoke` -/
def revokeWrite (s : State) (k id : ℕ) (written : Bool) : State :=
  { (s.finish k).write written id (setStatus .revoked none) with
    downs := if written && id < s.rows.length then update s.downs id true else s.downs }

def reofferSend (s : State) (k : ℕ) (sent : Bool) (a : Assignment) (id : ℕ) (node : Str)
    (todo : List (Assignment × ℕ)) : State :=
  match s.sendAssign node id a sent with
  | some t => t.go k (.reoffered id node todo)
  | none => s.go k (.reoffering node todo)

/-- Nothing is left to do. -/
def Rest.isDone : Rest → Bool
  | .finished => true
  | .retry todo => todo.isEmpty
  | .down _ moves => moves.isEmpty

def step (env : Env) (s : State) : Label → Option State
  | .schedule input views draw written =>
    match s.holder with
    | none => some (schedule env s input views draw written)
    | some _ => none
  | .retryRead =>
    match s.holder with
    | none => some (s.hold (.turn (.retry (Rows.select pendingUnplaced s.rows))))
    | some _ => none
  | .retryTurn views draw written =>
    match s.holder with
    | some (.turn (.retry ((a, id) :: todo))) =>
      some (retryTurn env s views draw written a id todo)
    | _ => none
  | .downRead node views draws =>
    match s.holder with
    | none => some (downRead env s node views draws)
    | some _ => none
  | .downTurn written =>
    match s.holder with
    | some (.turn (.down old ((id, node) :: moves))) =>
      some (downTurn s written old id node moves)
    | _ => none
  | .fetch answered =>
    match s.holder with
    | some (.fetching id node marks rest) => some (fetch s answered id node marks rest)
    | _ => none
  | .push sent =>
    match s.holder with
    | some (.pushing id a node marks rest) => some (push s sent id a node marks rest)
    | _ => none
  | .mark written =>
    match s.holder with
    | some (.marking id _ rest) =>
      some ((s.write written id (setStatus .pending (some (str "push failed")))).hold
        (.turn rest))
    | _ => none
  | .release =>
    match s.holder with
    | some (.turn rest) => if rest.isDone then some { s with holder := none } else none
    | _ => none
  | .revokeRead id =>
    match s.rows[id]? with
    | some a => some (s.begin (.revoking id a.nodeId))
    | none => none
  | .revokeSend k sent =>
    match s.calls[k]? with
    | some (.revoking id node) => some ((s.sendRevoke node id sent).go k (.revoked id))
    | _ => none
  | .revokeWrite k written =>
    match s.calls[k]? with
    | some (.revoked id) => some (revokeWrite s k id written)
    | _ => none
  | .register node =>
    if s.known.contains node then
      some (State.begin { s with registered := update s.registered node true }
        (.reoffering node (Rows.select (pendingOrOfferedByNode node) s.rows)))
    else none
  | .reofferSend k sent =>
    match s.calls[k]? with
    | some (.reoffering node ((a, id) :: todo)) => some (reofferSend s k sent a id node todo)
    | _ => none
  | .reofferWrite k written =>
    match s.calls[k]? with
    | some (.reoffered id node todo) =>
      some ((s.write written id (setStatus .offered none)).go k (.reoffering node todo))
    | _ => none
  | .reofferEnd k =>
    match s.calls[k]? with
    | some (.reoffering _ []) => some (s.finish k)
    | _ => none
  | .status node id status detail =>
    if s.known.contains node then some (s.write true id (setReported node status detail))
    else none
  | .connect node =>
    -- `Authorize` asks for a node id
    if node = [] then none
    else
      some { s with
        known := node :: s.known
        connected := update s.connected node true
        registered := update s.registered node false
        queue := update s.queue node [] }
  | .disconnect node =>
    if s.connected node then
      some { s with
        connected := update s.connected node false
        registered := update s.registered node false }
    else none
  | .lose node =>
    if s.connected node then none
    else some { s with queue := update s.queue node [] }
  | .deliver node =>
    match s.queue node with
    | frame :: rest =>
      some { s with
        queue := update s.queue node rest
        workers := update s.workers node (applyFrame (s.workers node) frame) }
    | [] => none
  | .restart =>
    some { s with
      rrCursor := 0, holder := none, calls := [], connected := fun _ => false
      registered := fun _ => false }

end StreamHub.Edge.Calls
