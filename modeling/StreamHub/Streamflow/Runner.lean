import StreamHub.Streamflow.Expr
import StreamHub.Streamflow.Secrets
import StreamHub.Streamflow.Walk

/-!
# Runs of workflows

`execute` takes one job to its end: the bag of the run, the walk through the graph,
and what is recorded of every box.  The trigger and logic boxes are modelled as they
are; what the other boxes do is a parameter (`Env.actions`), any function of the config
and the heap.

A box whose output the serializer does not come back from takes the whole process with
it (`BoxError.overflow`).
-/

namespace StreamHub.Streamflow

open Library Text OrderedMap Yamljs

/-- What a box comes to. -/
inductive Outcome
  | done (out : Val) (port : Str)
  | failed (msg : Str)
  | overflow

/-- What does not belong to the workflow. -/
structure Env where
  js : Js
  /-- the number of the run -/
  run : ℕ
  event : Str
  runID : Str
  workflowID : Str
  /-- the plaintexts at the time of a step, if there is a store of secrets -/
  secrets : Option (ℕ → Str → Str)
  /-- the boxes that act on the outside -/
  actions : Str → Option (ℕ → Heap → Ref → List (Str × Value) → Heap × Outcome)
  /-- the deadline has passed before a step, and at the end -/
  expired : ℕ → Bool
  expiredAtEnd : Bool

/-- The maker of the objects of a run; 0 is the event. -/
def Env.owner (env : Env) : ℕ := env.run + 1

inductive Status
  | ok
  | failed
  | skipped
  deriving DecidableEq

/-- `StepRecord`: what is handed to the store. -/
structure StepRecord where
  boxID : Str
  boxType : Str
  status : Status
  input : Value
  output : Value
  error : Option Str
  seq : ℕ
  /-- the plaintexts the box used (kept for the proofs, not in the source) -/
  used : List Str

structure RunState where
  heap : Heap
  steps : List StepRecord
  /-- the members set so far, the heap after each box that ran, and the plaintexts the
  boxes used (kept for the proofs, not in the source) -/
  writes : List Write
  heaps : List Heap
  expanded : List Str

/-- Why a box stops the run. -/
inductive BoxError
  | failed (msg : Str)
  | overflow

/-! ## Boxes -/

/-- `newBag`, with the object of its variables. -/
def newBag (owner : ℕ) (event : Str) (payload : Ref) (h : Heap) : Ref × Heap :=
  (h.alloc owner []).2.alloc owner
    [(str "event", .str event), (str "trigger", .ref payload),
      (str "vars", .ref (h.alloc owner []).1)]

/-- What an executor leaves: the heap, the members it set, and its outcome. -/
structure Effect where
  heap : Heap
  writes : List Write
  outcome : Outcome

def triggerExec (payload : Ref) (h : Heap) : Effect := ⟨h, [], .done (.ref payload) (str "out")⟩

def conditionExec (js : Js) (owner : ℕ) (bag : Ref) (cfg : List (Str × Value)) (h : Heap) :
    Effect :=
  match evalCondition js owner h (.ref bag) cfg with
  | none => ⟨h, [], .overflow⟩
  | some matched =>
    let (out, h) := h.alloc owner [(str "matched", .bool matched)]
    ⟨h, [], .done (.ref out) (if matched then str "true" else str "false")⟩

def switchExec (js : Js) (owner : ℕ) (bag : Ref) (cfg : List (Str × Value)) (h : Heap) : Effect :=
  match evalSwitch js owner h (.ref bag) cfg with
  | none => ⟨h, [], .overflow⟩
  | some port =>
    let value := getPath js h (.ref bag) (((get cfg (str "field")).coalesce (.str [])).toText js)
    let (out, h) := h.alloc owner [(str "port", .str port), (str "value", value)]
    ⟨h, [], .done (.ref out) port⟩

/-- The assignments of a `logic.setvar` box, in their order. -/
def assignments (js : Js) (cfg : List (Str × Value)) : List (Str × Value) :=
  let set := asObject (get cfg (str "set"))
  ((keys set).map fun path => (path, get set path)) ++
    (get cfg (str "assignments")).items.filterMap fun a =>
      let path := js.trimSpace (((field a (str "path")).coalesce (.str [])).toText js)
      if path = [] then none else some (path, field a (str "value"))

/-- The loop over them, with what was applied; nothing if resolving does not return. -/
def applyAssignments (js : Js) (owner : ℕ) (bag : Ref) :
    List (Str × Value) → Heap → List (Str × Val) → List Write →
      Heap × List Write × Option (List (Str × Val))
  | [], h, applied, writes => (h, writes, some applied)
  | (path, value) :: rest, h, applied, writes =>
    match resolveValue js owner (.ref bag) value h with
    | none => (h, writes, none)
    | some (v, h) =>
      applyAssignments js owner bag rest (setPath js owner h bag path v).1 (set path v applied)
        (writes ++ (setPath js owner h bag path v).2)

def setvarExec (js : Js) (owner : ℕ) (bag : Ref) (cfg : List (Str × Value)) (h : Heap) : Effect :=
  match applyAssignments js owner bag (assignments js cfg) h [] [] with
  | (h, writes, none) => ⟨h, writes, .overflow⟩
  | (h, writes, some applied) =>
    let (out, h) := h.alloc owner applied
    ⟨h, writes, .done (.ref out) (str "out")⟩

def triggerTypes : List Str :=
  [str "trigger.event", str "trigger.schedule", str "trigger.mqtt", str "trigger.manual"]

/-- The boxes that stay within the run. -/
def logicTypes : List Str :=
  triggerTypes ++ [str "logic.condition", str "logic.switch", str "logic.setvar"]

/-- A graph of such boxes only. -/
def LogicOnly (g : Graph) : Prop := ∀ b ∈ g.boxes, boxType b ∈ logicTypes

/-- `executors`: the executor of a type, if there is one. -/
def executor (env : Env) (payload bag : Ref) (seq : ℕ) (typ : Str) :
    Option (List (Str × Value) → Heap → Effect) :=
  if typ ∈ triggerTypes then some fun _ h => triggerExec payload h
  else if typ = str "logic.condition" then some (conditionExec env.js env.owner bag)
  else if typ = str "logic.switch" then some (switchExec env.js env.owner bag)
  else if typ = str "logic.setvar" then some (setvarExec env.js env.owner bag)
  else
    (env.actions typ).map fun act cfg h => ⟨(act seq h bag cfg).1, [], (act seq h bag cfg).2⟩

/-! ## Steps -/

/-- The config of a box with its secrets expanded, and the plaintexts used. -/
def expandBox (env : Env) (seq : ℕ) (box : Value) : List (Str × Value) × List Str :=
  match env.secrets with
  | none => (boxConfig box, [])
  | some resolve => expandConfig (resolve seq) (boxConfig box)

/-- The part of a step that belongs to the box. -/
def baseRecord (env : Env) (s : RunState) (box : Value) : StepRecord where
  boxID := boxID box
  boxType := (field box (str "type")).toText env.js
  status := .ok
  input := .obj (boxConfig box)
  output := .undefined
  error := none
  seq := s.steps.length
  used := (expandBox env s.steps.length box).2

/-- A box of a type without executor. -/
def skipBox (env : Env) (s : RunState) (box : Value) : RunState :=
  { s with
    steps := s.steps ++ [{ baseRecord env s box with
      status := .skipped
      input := field box (str "config")
      used := [] }] }

/-- What follows the executor: the output goes into the bag and into the record. -/
def finishBox (env : Env) (bag : Ref) (s : RunState) (box : Value) (effect : Effect) :
    RunState × Except BoxError Str :=
  let used := (expandBox env s.steps.length box).2
  match effect.outcome with
  | .overflow =>
    ({ s with
        heap := effect.heap
        writes := s.writes ++ effect.writes
        heaps := s.heaps ++ [effect.heap]
        expanded := s.expanded ++ used }, .error .overflow)
  | .failed msg =>
    ({ heap := effect.heap
       writes := s.writes ++ effect.writes
       heaps := s.heaps ++ [effect.heap]
       expanded := s.expanded ++ used
       steps := s.steps ++ [{ baseRecord env s box with
          status := .failed
          error := some ((redactSecretValues (.str msg) used).toText env.js) }] },
      .error (.failed msg))
  | .done out port =>
    let h := effect.heap.setMember bag (boxID box) out
    let s' : RunState :=
      { s with
        heap := h
        writes := s.writes ++ effect.writes ++ [⟨effect.heap, bag, out⟩]
        heaps := s.heaps ++ [h]
        expanded := s.expanded ++ used }
    match h.snapshot out with
    | none => (s', .error .overflow)
    | some tree =>
      ({ s' with
          steps := s.steps ++ [{ baseRecord env s box with
            output := redactSecretValues tree used }] }, .ok port)

/-- The `exec` of a run. -/
def execBox (env : Env) (payload bag : Ref) (s : RunState) (box : Value) :
    RunState × Except BoxError Str :=
  match ((field box (str "type")).text?).bind (executor env payload bag s.steps.length) with
  | none => (skipBox env s box, .ok (str "out"))
  | some exec => finishBox env bag s box (exec (expandBox env s.steps.length box).1 s.heap)

lemma mem_logicTypes {typ : Str} : typ ∈ logicTypes ↔ typ ∈ triggerTypes ∨
    typ = str "logic.condition" ∨ typ = str "logic.switch" ∨ typ = str "logic.setvar" := by
  rw [logicTypes, List.mem_append]
  simp only [List.mem_cons, List.not_mem_nil, or_false]

lemma executor_cases {env : Env} {payload bag : Ref} {seq : ℕ} {typ : Str}
    {exec : List (Str × Value) → Heap → Effect} (hlogic : typ ∈ logicTypes)
    (hexec : executor env payload bag seq typ = some exec) :
    (exec = fun _ h => triggerExec payload h) ∨ exec = conditionExec env.js env.owner bag ∨
      exec = switchExec env.js env.owner bag ∨ exec = setvarExec env.js env.owner bag := by
  rw [executor] at hexec
  split at hexec
  · exact .inl (Option.some.inj hexec).symm
  split at hexec
  · exact .inr (Or.inl (Option.some.inj hexec).symm)
  split at hexec
  · exact .inr (Or.inr (Or.inl (Option.some.inj hexec).symm))
  split at hexec
  · exact .inr (Or.inr (Or.inr (Option.some.inj hexec).symm))
  rename_i htrigger hcondition hswitch hsetvar
  exact absurd (mem_logicTypes.mp hlogic)
    (not_or.mpr ⟨htrigger, not_or.mpr ⟨hcondition, not_or.mpr ⟨hswitch, hsetvar⟩⟩⟩)

/-- Such a box is not skipped. -/
lemma execBox_of_logic (env : Env) (payload bag : Ref) (s : RunState) {box : Value}
    (hlogic : boxType box ∈ logicTypes) :
    ∃ exec, executor env payload bag s.steps.length (boxType box) = some exec ∧
      execBox env payload bag s box =
        finishBox env bag s box (exec (expandBox env s.steps.length box).1 s.heap) := by
  have hexec : ∃ exec, executor env payload bag s.steps.length (boxType box) = some exec := by
    rw [executor]
    split_ifs with htrigger hcondition hswitch hsetvar
    · exact ⟨_, rfl⟩
    · exact ⟨_, rfl⟩
    · exact ⟨_, rfl⟩
    · exact ⟨_, rfl⟩
    · exact absurd (mem_logicTypes.mp hlogic)
        (not_or.mpr ⟨htrigger, not_or.mpr ⟨hcondition, not_or.mpr ⟨hswitch, hsetvar⟩⟩⟩)
  obtain ⟨exec, hexec⟩ := hexec
  refine ⟨exec, hexec, ?_⟩
  rw [boxType] at hlogic hexec
  cases htext : (field box (str "type")).text? with
  | none =>
    rw [htext] at hlogic
    exact absurd hlogic (by decide)
  | some typ =>
    rw [htext, Option.getD_some] at hexec
    rw [execBox, htext, Option.bind_some, hexec]

/-! ## Runs -/

/-- `maxSteps` -/
def maxSteps : Int := 100

def ctxErr (env : Env) (s : RunState) : Option BoxError :=
  if env.expired s.steps.length then some (.failed (str "context deadline exceeded")) else none

/-- The box a run starts at. -/
def startBox (js : Js) (g : Graph) (triggerBoxID : Str) : Option Value :=
  match (if triggerBoxID = [] then none else g.boxes.find? fun b => boxID b = triggerBoxID) with
  | some b => some b
  | none => findTriggerBox js g fun t => (str "trigger.").isPrefixOf t

/-- How a run ends: what `FinishRun` gets and the payload of `streamflow.run_failed`. -/
inductive Finish
  | ok
  /-- before the walk -/
  | notStarted (error : Str)
  | failed (error : Str) (event : Value)
  /-- the process is gone -/
  | crashed

/-- The end of a run whose walk returned an error. -/
def failRun (env : Env) (err : Str) : Finish :=
  let msg := if env.expiredAtEnd then str "run timed out after 60000ms" else err
  .failed msg (.obj [(str "run", .str env.runID), (str "workflow", .str env.workflowID),
    (str "error", .str msg)])

def finishRun (env : Env) : Except (RunError BoxError) Unit → Finish
  | .ok _ => .ok
  | .error (.graph msg) => failRun env msg
  | .error (.context (.failed msg)) => failRun env msg
  | .error (.exec (.failed msg)) => failRun env msg
  | .error (.context .overflow) => .crashed
  | .error (.exec .overflow) => .crashed

/-- The state a run starts its walk in. -/
def RunState.initial (env : Env) (payload : Ref) (h : Heap) : RunState :=
  let bagged := newBag env.owner env.event payload { h with next := 0 }
  { heap := bagged.2, steps := [], writes := [], heaps := [bagged.2], expanded := [] }

/-- The bag of a run. -/
def bagOf (env : Env) (payload : Ref) (h : Heap) : Ref :=
  (newBag env.owner env.event payload { h with next := 0 }).1

/-- `Runner.Execute`, on the stored graph of the workflow. -/
def execute (env : Env) (graph : Option Value) (triggerBoxID : Str) (payload : Ref) (h : Heap) :
    RunState × Finish :=
  match graph with
  | none => (RunState.initial env payload h, .notStarted (str "workflow not found"))
  | some graph =>
    let g := normalizeGraph graph
    match startBox env.js g triggerBoxID with
    | none => (RunState.initial env payload h, .notStarted (str "no trigger box in workflow"))
    | some start =>
      let run := runGraph env.js (ctxErr env) g (boxID start)
        (execBox env payload (bagOf env payload h)) maxSteps (RunState.initial env payload h)
      (run.1, finishRun env run.2)

/-! ## Small runs -/

/-- A run with nothing around it. -/
def quietEnv : Env where
  js := Js.plain
  run := 0
  event := str "manual"
  runID := str "run"
  workflowID := str "workflow"
  secrets := none
  actions := fun _ => none
  expired := fun _ => false
  expiredAtEnd := false

def Finish.isCrashed : Finish → Bool
  | .crashed => true
  | _ => false

lemma eq_crashed {f : Finish} (hf : f.isCrashed = true) : f = .crashed := by
  cases f with
  | crashed => rfl
  | ok | notStarted error | failed error event => cases hf

/-- A manual trigger, and a box that makes one assignment. -/
def assignGraph (path value : Str) : Value :=
  .obj [(str "boxes", .arr [
      .obj [(str "id", .str (str "t")), (str "type", .str (str "trigger.manual"))],
      .obj [(str "id", .str (str "v")), (str "type", .str (str "logic.setvar")),
        (str "config", .obj [(str "set", .obj [(path, .str value)])])]]),
    (str "edges", .arr [.obj [(str "from", .str (str "t")), (str "to", .str (str "v"))]])]

end StreamHub.Streamflow
