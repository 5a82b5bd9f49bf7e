import StreamHub.Streamflow.Runner

/-!
# Runs started by an event

`onEvent` matches an event against the trigger boxes of an app's enabled workflows and
queues a run for every workflow that has one.  All these runs get the same payload
object.  `runAll` is what the workers make of them, one run after the other.

The rate limiter and the queue are asked once for every run; their answers are
parameters.
-/

namespace StreamHub.Streamflow

open Library Text OrderedMap Yamljs

/-! ## Matching -/

def eventNameMatches (js : Js) (pattern : Value) (event : Str) : Bool :=
  let p := js.trimSpace (pattern.text?.getD [])
  if p = [] ∨ p = str "*" ∨ p = str "all" then true
  else if (str ".*").isSuffixOf p then p.dropLast.isPrefixOf event
  else event == p

def extractTags (js : Js) (h : Heap) (payload : Ref) : List Str :=
  (match h.member payload (str "tags") with
    | .arr items => items.map fun v => v.shallow.toText js
    | _ => []) ++
  match h.member payload (str "tag") with
  | .str t => [t]
  | _ => []

/-- The room of a trigger, if it names one, is that of the payload. -/
def roomMatches (js : Js) (cfg : List (Str × Value)) (h : Heap) (payload : Ref) : Bool :=
  let room := js.trimSpace ((get cfg (str "room")).text?.getD [])
  room = [] ∨ ((h.member payload (str "room")).shallow.coalesce (.str [])).toText js = room

/-- One of the tags of a trigger, if it names any, is one of the payload's. -/
def tagsMatch (js : Js) (cfg : List (Str × Value)) (h : Heap) (payload : Ref) : Bool :=
  let want := ((get cfg (str "tags")).items.map fun t => t.toText js).filter (· ≠ [])
  want.isEmpty || want.any fun w => w ∈ extractTags js h payload

/-- The rules of a trigger, if it has any, against a bag of the event and the payload. -/
def predicateMatches (js : Js) (cfg : List (Str × Value)) (event : Str) (h : Heap)
    (payload : Ref) : Option Bool :=
  match get cfg (str "predicate") with
  | .obj pred =>
    if (get pred (str "rules")).items.isEmpty then some true
    else
      let (bag, h) := h.alloc 0 [(str "event", .str event), (str "trigger", .ref payload)]
      evalCondition js 0 h (.ref bag) pred
  | _ => some true

/-- `matchesEventTrigger`; a predicate that does not return does not match. -/
def matchesEventTrigger (js : Js) (cfg : List (Str × Value)) (event : Str) (h : Heap)
    (payload : Ref) : Bool :=
  eventNameMatches js (get cfg (str "event")) event && roomMatches js cfg h payload &&
    tagsMatch js cfg h payload && predicateMatches js cfg event h payload == some true

/-- The loop of `topicMatches`. -/
def topicSegments : List Str → List Str → Bool
  | [], topic => topic.isEmpty
  | seg :: filter, topic =>
    if seg = str "#" ∨ seg = str "*" then true
    else
      match topic with
      | [] => false
      | level :: topic => (seg == str "+" || seg == level) && topicSegments filter topic

def topicMatches (filter topic : Str) : Bool :=
  filter == topic || topicSegments (split 0x2f filter) (split 0x2f topic)

def matchesMqttTrigger (js : Js) (cfg : List (Str × Value)) (h : Heap) (payload : Ref) : Bool :=
  let filter := js.trimSpace ((get cfg (str "topic")).text?.getD [])
  if filter = [] ∨ filter = str "#" ∨ filter = str "*" then true
  else
    match h.member payload (str "topic") with
    | .str topic => topic ≠ [] && topicMatches filter topic
    | _ => false

/-- A trigger box of the event. -/
def triggers (js : Js) (event : Str) (h : Heap) (payload : Ref) (b : Value) : Bool :=
  (boxType b == str "trigger.event" && matchesEventTrigger js (boxConfig b) event h payload) ||
    (boxType b == str "trigger.mqtt" && event == str "iot.data" &&
      matchesMqttTrigger js (boxConfig b) h payload)

/-! ## Queueing -/

/-- A stored workflow; its row numbers its run. -/
structure Workflow where
  row : ℕ
  id : Str
  enabled : Bool
  graph : Value

/-- What an event of an app meets. -/
structure App where
  js : Js
  pluginEnabled : Bool
  workflows : List Workflow
  rows : (workflows.map Workflow.row).Nodup
  /-- the answers of the rate limiter and of the queue -/
  allowRun : Workflow → Bool
  queued : Workflow → Bool
  /-- what surrounds the run of a workflow -/
  env : Workflow → Env

structure Job where
  env : Env
  graph : Value
  triggerBoxID : Str

/-- `ListEnabled` -/
def App.listEnabled (app : App) : List Workflow := app.workflows.filter Workflow.enabled

/-- The run of a workflow that an event starts at a box. -/
def App.job (app : App) (event : Str) (wf : Workflow) (hit : Value) : Job where
  env := { app.env wf with js := app.js, run := wf.row, event := event, workflowID := wf.id }
  graph := wf.graph
  triggerBoxID := boxID hit

/-- The loop over the workflows. -/
def App.enqueueAll (app : App) (event : Str) (h : Heap) (payload : Ref) :
    List Workflow → List Job
  | [] => []
  | wf :: rest =>
    match (normalizeGraph wf.graph).boxes.find? (triggers app.js event h payload) with
    | none => app.enqueueAll event h payload rest
    | some hit =>
      if app.allowRun wf then
        if app.queued wf then app.job event wf hit :: app.enqueueAll event h payload rest
        else app.enqueueAll event h payload rest
      else []

/-- `Service.OnEvent`: the runs it queues. -/
def App.onEvent (app : App) (event : Str) (payload : Value) : List Job :=
  if (str "streamflow.").isPrefixOf event then []
  else if app.pluginEnabled then
    app.enqueueAll event (loadPayload payload).2 (loadPayload payload).1 app.listEnabled
  else []

/-- The app with the workflow of a row alone enabled. -/
def App.only (row : ℕ) (app : App) : App :=
  { app with
    workflows := app.workflows.map fun wf => { wf with enabled := wf.enabled && wf.row == row }
    rows := by
      rw [List.map_map]
      exact app.rows }

/-! ## Running -/

def Job.run (payload : Ref) (h : Heap) (job : Job) : RunState × Finish :=
  execute job.env (some job.graph) job.triggerBoxID payload h

/-- The runs of a list of jobs, one after the other; a crash ends them all. -/
def runAll (payload : Ref) : List Job → Heap → List (RunState × Finish)
  | [], _ => []
  | job :: rest, h =>
    job.run payload h ::
      match (job.run payload h).2 with
      | .crashed => []
      | _ => runAll payload rest (job.run payload h).1.heap

end StreamHub.Streamflow
