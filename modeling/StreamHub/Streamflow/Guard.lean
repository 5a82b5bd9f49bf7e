import StreamHub.Library.Transition
import StreamHub.Streamflow.Import

/-!
# Execution boxes and who may save them

Boxes that run code are saved by a superadmin only, in an app that the operator allows.  A graph
is checked when it is created, imported or replaced, and a workflow that is switched on again is
checked with the graph that it had when it was read.  An update is a read, a check and one
statement that writes the columns of the patch; other calls run between its read and its write.

`armed_by_superadmin_iff` says exactly which steps break the rule: the write of an update that
only switches on, by somebody who may not, over a row that was replaced or switched off since it
was read.
-/

namespace StreamHub.Streamflow.Guard

open Library Text OrderedMap Yamljs Transition Function

/-- An error with its status. -/
structure Refusal where
  status : ℕ
  message : Str
  deriving DecidableEq

/-- The apps, and the operator's setting `STREAMHUB_STREAMFLOW_DANGEROUS`. -/
structure Deployment where
  js : Js
  apps : List Str
  dangerous : Str

/-- `auth.From`: whether the principal of a call is a superadmin, if there is one. -/
abbrev Caller := Option Bool

/-- `DangerousAllowed` -/
def dangerousAllowed (js : Js) (raw app : Str) : Bool :=
  let set := ((split 0x2c raw).map js.trimSpace).filter (· ≠ [])
  set.contains (str "*") || (app ≠ [] && set.contains app)

/-- `dangerousBoxTypes` -/
def dangerousBoxTypes (graph : Value) : List Str :=
  (((normalizeGraph graph).boxes.map boxType).filter dangerousTypes.contains).dedup.insertionSort
    fun a b => a ≤ b

/-- `guardDangerous` -/
def guardDangerous (d : Deployment) (caller : Caller) (app : Str) (graph : Value) :
    Except Refusal Unit :=
  let types := dangerousBoxTypes graph
  if types = [] then .ok ()
  else if !dangerousAllowed d.js d.dangerous app then
    .error ⟨400, str "execution nodes (" ++ join types (str ", ") ++ str ") are disabled for app '" ++
      app ++ str "' (operator setting STREAMHUB_STREAMFLOW_DANGEROUS)"⟩
  else if caller ≠ some true then
    .error ⟨403, str "execution nodes (" ++ join types (str ", ") ++
      str ") can only be saved by a superadmin"⟩
  else .ok ()

/-! ## The calls -/

/-- A row of `workflows`. -/
structure Workflow where
  name : Str
  enabled : Bool
  graph : Value

def emptyGraph : Value := .obj [(str "boxes", .arr []), (str "edges", .arr [])]

/-- `WorkflowPatch`; a column that is not there is not touched. -/
structure WorkflowPatch where
  name : Option Value
  enabled : Option Value
  graph : Option Value

/-- `requireApp` -/
def requireApp (d : Deployment) (app : Str) : Except Refusal Unit :=
  if app ∈ d.apps then .ok () else .error ⟨404, str "app '" ++ app ++ str "' not found"⟩

/-- The row that `Store.CreateWorkflow` inserts. -/
def newWorkflow (name : Str) (enabled : Option Bool) (graph : Value) : Workflow where
  name := name
  enabled := enabled ≠ some false
  graph := if graph.isNullish then emptyGraph else graph

/-- `CreateWorkflow` -/
def createWorkflow (d : Deployment) (caller : Caller) (app name : Str) (enabled : Option Bool)
    (graph : Value) : Except Refusal Workflow := do
  requireApp d app
  guardDangerous d caller app graph
  return newWorkflow name enabled graph

/-- `ImportWorkflow` -/
def importAs (d : Deployment) (caller : Caller) (app : Str) (raw name : Value) :
    Except Refusal Workflow := do
  requireApp d app
  match importWorkflow d.js raw (str "Imported workflow") with
  | .error e => .error ⟨400, e⟩
  | .ok (parsedName, graph) =>
    guardDangerous d caller app (.obj graph)
    return newWorkflow (importName d.js name parsedName) none (.obj graph)

/-- The check of `UpdateWorkflow`, with the row as it was read -/
def checkUpdate (d : Deployment) (caller : Caller) (app : Str) (p : WorkflowPatch) (read : Workflow) :
    Except Refusal Unit :=
  match p.graph with
  | some graph => guardDangerous d caller app graph
  | none =>
    if p.enabled.any Value.truthy && !read.enabled then guardDangerous d caller app read.graph
    else .ok ()

/-- The statement of `Store.UpdateWorkflow`, and what `scanWorkflow` makes of the graph -/
def applyPatch (js : Js) (p : WorkflowPatch) (w : Workflow) : Workflow where
  name := (p.name.map (Value.toText js)).getD w.name
  enabled := (p.enabled.map Value.truthy).getD w.enabled
  graph :=
    match p.graph with
    | some graph => if graph.isNullish then emptyGraph else graph
    | none => w.graph

/-! ## Interleavings -/

/-- An update between its read and its write. -/
structure Update where
  caller : Caller
  app : Str
  id : Str
  patch : WorkflowPatch
  read : Workflow

/-- The databases of the apps, and the updates that are under way. -/
structure State where
  rows : Str → Str → Option Workflow
  pending : List Update

def State.empty : State := ⟨fun _ _ => none, []⟩

inductive Label
  | create (caller : Caller) (app id name : Str) (enabled : Option Bool) (graph : Value)
  | imported (caller : Caller) (app id : Str) (raw name : Value)
  | read (caller : Caller) (app id : Str) (patch : WorkflowPatch)
  | write (k : ℕ)

def State.put (s : State) (app id : Str) (w : Workflow) : State :=
  { s with rows := update s.rows app (update (s.rows app) id (some w)) }

/-- A new id is one that no row has; a call that is refused changes nothing. -/
def insert (s : State) (app id : Str) (row : Except Refusal Workflow) : Option State :=
  match s.rows app id, row with
  | some _, _ => none
  | none, .error _ => some s
  | none, .ok w => some (s.put app id w)

def step (d : Deployment) (s : State) : Label → Option State
  | .create caller app id name enabled graph =>
    insert s app id (createWorkflow d caller app name enabled graph)
  | .imported caller app id raw name => insert s app id (importAs d caller app raw name)
  | .read caller app id patch =>
    match requireApp d app, s.rows app id with
    | .ok _, some w => some { s with pending := s.pending ++ [⟨caller, app, id, patch, w⟩] }
    | _, _ => some s
  | .write k =>
    match s.pending[k]? with
    | none => none
    | some u =>
      let done := { s with pending := s.pending.eraseIdx k }
      match checkUpdate d u.caller u.app u.patch u.read, s.rows u.app u.id with
      | .ok _, some w => some (done.put u.app u.id (applyPatch d.js u.patch w))
      | _, _ => some done

/-- The caller of a step. -/
def State.caller (s : State) : Label → Caller
  | .create caller .. => caller
  | .imported caller .. => caller
  | .read caller .. => caller
  | .write k => (s.pending[k]?).bind Update.caller

/-! ## Who switches execution boxes on -/

/-- The caller may save execution boxes in the app. -/
def Entitled (d : Deployment) (caller : Caller) (app : Str) : Prop :=
  caller = some true ∧ dangerousAllowed d.js d.dangerous app = true

instance (d : Deployment) (caller : Caller) (app : Str) : Decidable (Entitled d caller app) :=
  inferInstanceAs (Decidable (_ ∧ _))

/-- A workflow that is enabled and has execution boxes. -/
def Workflow.Armed (w : Workflow) : Prop := w.enabled = true ∧ dangerousBoxTypes w.graph ≠ []

instance (w : Workflow) : Decidable w.Armed := inferInstanceAs (Decidable (_ ∧ _))

/-- The row of a workflow is armed. -/
def State.Armed (s : State) (app id : Str) : Prop := ∃ w, s.rows app id = some w ∧ w.Armed

/-- The update only switches on. -/
def WorkflowPatch.onlyEnables (p : WorkflowPatch) : Bool :=
  p.graph.isNone && p.enabled.any Value.truthy

/-- The write of an update that passed its check and only switches on, by a caller who may not
save execution boxes, over a row that has them and is switched off by now. -/
def Stale (d : Deployment) (s : State) (label : Label) : Prop :=
  ∃ k u w, label = .write k ∧ s.pending[k]? = some u ∧ s.rows u.app u.id = some w ∧
    u.patch.onlyEnables = true ∧ ¬Entitled d u.caller u.app ∧
    (u.read.enabled = true ∨ dangerousBoxTypes u.read.graph = []) ∧
    w.enabled = false ∧ dangerousBoxTypes w.graph ≠ []

section Guarded

variable {d : Deployment} {s s' : State} {caller : Caller} {app id : Str} {graph : Value}
variable {w : Workflow} {u : Update}

lemma guardDangerous_ok_iff : guardDangerous d caller app graph = .ok () ↔
    (dangerousBoxTypes graph ≠ [] → Entitled d caller app) := by
  unfold guardDangerous
  dsimp only
  split
  · rename_i hnil
    exact iff_of_true rfl fun hne => absurd hnil hne
  rename_i hne
  split
  · rename_i hallowed
    refine iff_of_false ?_ fun h => ?_
    · intro h
      cases h
    · rw [(h hne).2] at hallowed
      cases hallowed
  · rename_i hallowed
    rw [Bool.not_eq_true', Bool.not_eq_false] at hallowed
    split
    · rename_i hcaller
      refine iff_of_false ?_ fun h => hcaller (h hne).1
      intro h
      cases h
    · rename_i hcaller
      exact iff_of_true rfl fun _ => ⟨not_not.mp hcaller, hallowed⟩

lemma dangerousBoxTypes_orEmpty :
    dangerousBoxTypes (if graph.isNullish then emptyGraph else graph) = dangerousBoxTypes graph := by
  split
  · rename_i hnull
    cases graph with
    | undefined => rfl
    | null => rfl
    | bool b | num n | str t | arr items | obj members => cases hnull
  · rfl

lemma State.armed_put (app' id' : Str) : (s.put app id w).Armed app' id' ↔
    if app' = app ∧ id' = id then w.Armed else s.Armed app' id' := by
  have hrows : (s.put app id w).rows app' id' =
      if app' = app ∧ id' = id then some w else s.rows app' id' := by
    unfold State.put
    dsimp only
    by_cases happ : app' = app
    · subst happ
      rw [update_self]
      by_cases hid : id' = id
      · subst hid
        rw [update_self, if_pos ⟨rfl, rfl⟩]
      · rw [update_of_ne hid, if_neg fun h => hid h.2]
    · rw [update_of_ne happ, if_neg fun h => happ h.1]
  rw [State.Armed, hrows]
  split
  · simp
  · rfl

lemma entitled_of_insert {row : Except Refusal Workflow}
    (hrow : ∀ w, row = .ok w → w.Armed → Entitled d caller app)
    (h : insert s app id row = some s') {app' id' : Str} (harmed : s'.Armed app' id')
    (hbefore : ¬s.Armed app' id') : Entitled d caller app' := by
  unfold insert at h
  split at h
  · cases h
  · cases h
    exact absurd harmed hbefore
  · rename_i w _
    cases h
    rw [State.armed_put] at harmed
    split at harmed
    · rename_i hsame
      rw [hsame.1]
      exact hrow w rfl harmed
    · exact absurd harmed hbefore

lemma newWorkflow_checked {name : Str} {enabled : Option Bool}
    (hguard : guardDangerous d caller app graph = .ok ())
    (harmed : (newWorkflow name enabled graph).Armed) : Entitled d caller app := by
  refine guardDangerous_ok_iff.mp hguard ?_
  have hboxes := harmed.2
  rw [newWorkflow, dangerousBoxTypes_orEmpty] at hboxes
  exact hboxes

lemma createWorkflow_checked {name : Str} {enabled : Option Bool}
    (h : createWorkflow d caller app name enabled graph = .ok w) (harmed : w.Armed) :
    Entitled d caller app := by
  unfold createWorkflow at h
  cases hrequire : requireApp d app with
  | error e =>
    rw [hrequire] at h
    cases h
  | ok _ =>
    rw [hrequire] at h
    cases hguard : guardDangerous d caller app graph with
    | error e =>
      rw [hguard] at h
      cases h
    | ok _ =>
      rw [hguard] at h
      cases h
      exact newWorkflow_checked hguard harmed

lemma importAs_checked {raw name : Value} (h : importAs d caller app raw name = .ok w)
    (harmed : w.Armed) : Entitled d caller app := by
  unfold importAs at h
  cases hrequire : requireApp d app with
  | error e =>
    rw [hrequire] at h
    cases h
  | ok _ =>
    rw [hrequire] at h
    cases himport : importWorkflow d.js raw (str "Imported workflow") with
    | error e =>
      rw [himport] at h
      cases h
    | ok parsed =>
      rw [himport] at h
      obtain ⟨parsedName, members⟩ := parsed
      cases hguard : guardDangerous d caller app (.obj members) with
      | error e =>
        dsimp only at h
        rw [hguard] at h
        cases h
      | ok _ =>
        dsimp only at h
        rw [hguard] at h
        cases h
        exact newWorkflow_checked hguard harmed

/-- An update that passed its check arms a row that was not armed only when the caller may, or
when it only switches on what the check did not see. -/
lemma armed_applyPatch (hcheck : checkUpdate d u.caller u.app u.patch u.read = .ok ())
    (harmed : (applyPatch d.js u.patch w).Armed) (hbefore : ¬w.Armed)
    (hcaller : ¬Entitled d u.caller u.app) : u.patch.onlyEnables = true ∧
      (u.read.enabled = true ∨ dangerousBoxTypes u.read.graph = []) ∧
      w.enabled = false ∧ dangerousBoxTypes w.graph ≠ [] := by
  obtain ⟨henabled, hboxes⟩ := harmed
  unfold checkUpdate at hcheck
  unfold applyPatch at henabled hboxes
  split at hcheck
  · rename_i graph hgraph
    rw [hgraph] at hboxes
    rw [dangerousBoxTypes_orEmpty] at hboxes
    exact absurd (guardDangerous_ok_iff.mp hcheck hboxes) hcaller
  rename_i hgraph
  rw [hgraph] at hboxes
  have hoff : w.enabled = false := Bool.eq_false_iff.mpr fun hon => hbefore ⟨hon, hboxes⟩
  have hon : u.patch.enabled.any Value.truthy = true := by
    cases henable : u.patch.enabled with
    | none =>
      rw [henable] at henabled
      exact absurd (hoff.symm.trans henabled) Bool.false_ne_true
    | some v =>
      rw [henable] at henabled
      exact henabled
  refine ⟨?_, ?_, hoff, hboxes⟩
  · rw [WorkflowPatch.onlyEnables, hgraph, hon]
    rfl
  · split at hcheck
    · by_contra hseen
      rw [not_or] at hseen
      exact hcaller (guardDangerous_ok_iff.mp hcheck hseen.2)
    · rename_i hskipped
      rw [hon, Bool.true_and, Bool.not_eq_true', Bool.not_eq_false] at hskipped
      exact .inl hskipped

lemma not_stale_of_asRead {k : ℕ} (hu : s.pending[k]? = some u) (hw : s.rows u.app u.id = some w)
    (henabled : w.enabled = u.read.enabled) (hgraph : w.graph = u.read.graph) :
    ¬Stale d s (.write k) := by
  rintro ⟨k', u', w', hk, hu', hw', -, -, hseen, hoff, hboxes⟩
  cases hk
  cases hu.symm.trans hu'
  cases hw.symm.trans hw'
  obtain hon | hsafe := hseen
  · exact absurd (hoff.symm.trans (henabled.trans hon)) Bool.false_ne_true
  · exact hboxes (hgraph ▸ hsafe)

/-- A stale write arms its row. -/
lemma armed_of_stale {k : ℕ} (hstep : step d s (.write k) = some s') (hu : s.pending[k]? = some u)
    (hw : s.rows u.app u.id = some w) (henables : u.patch.onlyEnables = true)
    (hseen : u.read.enabled = true ∨ dangerousBoxTypes u.read.graph = [])
    (hboxes : dangerousBoxTypes w.graph ≠ []) : s'.Armed u.app u.id := by
  rw [WorkflowPatch.onlyEnables, Bool.and_eq_true, Option.isNone_iff_eq_none] at henables
  obtain ⟨hgraph, hon⟩ := henables
  have hcheck : checkUpdate d u.caller u.app u.patch u.read = .ok () := by
    unfold checkUpdate
    rw [hgraph]
    dsimp only
    split
    · rename_i hoff
      obtain hread | hsafe := hseen
      · rw [hread, Bool.not_true, Bool.and_false] at hoff
        cases hoff
      · exact guardDangerous_ok_iff.mpr fun hne => absurd hsafe hne
    · rfl
  have harmed : (applyPatch d.js u.patch w).Armed := by
    refine ⟨?_, ?_⟩
    · cases hv : u.patch.enabled with
      | none =>
        rw [hv] at hon
        cases hon
      | some v =>
        rw [hv] at hon
        rw [applyPatch, hv]
        exact hon
    · rw [applyPatch, hgraph]
      exact hboxes
  rw [step, hu] at hstep
  dsimp only at hstep
  rw [hcheck, hw] at hstep
  cases hstep
  rw [State.armed_put, if_pos ⟨rfl, rfl⟩]
  exact harmed

end Guarded

/-- In any state, so at each step of any interleaving: whoever makes a write that leaves a
workflow armed that was not armed before is a superadmin in an app that the operator allows, if
and only if the write is not a stale one. -/
theorem armed_by_superadmin_iff (d : Deployment) {s s' : State} {label : Label}
    (hstep : step d s label = some s') :
    (∀ app id, s'.Armed app id → ¬s.Armed app id → Entitled d (s.caller label) app) ↔
      ¬Stale d s label := by
  constructor
  · rintro hentitled ⟨k, u, w, rfl, hu, hw, henables, hcaller, hseen, hoff, hboxes⟩
    have harmed := armed_of_stale hstep hu hw henables hseen hboxes
    have hbefore : ¬s.Armed u.app u.id := by
      rintro ⟨w', hw', hon, -⟩
      cases hw.symm.trans hw'
      exact absurd (hoff.symm.trans hon) Bool.false_ne_true
    have hentitled := hentitled u.app u.id harmed hbefore
    rw [State.caller, hu] at hentitled
    exact hcaller hentitled
  · intro hfresh app id harmed hbefore
    cases label with
    | create caller app₀ id₀ name enabled graph =>
      exact entitled_of_insert (fun w => createWorkflow_checked) hstep harmed hbefore
    | imported caller app₀ id₀ raw name =>
      exact entitled_of_insert (fun w => importAs_checked) hstep harmed hbefore
    | read caller app₀ id₀ patch =>
      unfold step at hstep
      dsimp only at hstep
      split at hstep
      · cases hstep
        exact absurd harmed hbefore
      · cases hstep
        exact absurd harmed hbefore
    | write k =>
      unfold step at hstep
      dsimp only at hstep
      split at hstep
      · cases hstep
      rename_i u hu
      split at hstep
      · rename_i w hcheck hw
        cases hstep
        rw [State.armed_put] at harmed
        split at harmed
        · rename_i hsame
          obtain ⟨rfl, rfl⟩ := hsame
          have hoff : ¬w.Armed := fun hw' => hbefore ⟨w, hw, hw'⟩
          rw [State.caller, hu]
          by_contra hcaller
          obtain ⟨henables, hseen, hrow⟩ := armed_applyPatch hcheck harmed hoff hcaller
          exact hfresh ⟨k, u, w, rfl, hu, hw, henables, hcaller, hseen, hrow⟩
        · exact absurd harmed hbefore
      · cases hstep
        exact absurd harmed hbefore

/-- Execution boxes are allowed in one app. -/
def liveOnly : Deployment := ⟨Js.plain, [str "live"], str "live"⟩

def shellGraph : Value :=
  .obj [(str "boxes", .arr [.obj [(str "id", .str (str "a")), (str "type", .str (str "action.shell"))]]),
    (str "edges", .arr [])]

def switchOn : WorkflowPatch := ⟨none, some (.bool true), none⟩

def draw : WorkflowPatch := ⟨none, none, some shellGraph⟩

/-- A workflow without boxes is created switched off; a tenant begins to switch it on. -/
def switching : List Label :=
  [.create (some false) (str "live") (str "w") (str "flow") (some false) emptyGraph,
    .read (some false) (str "live") (str "w") switchOn]

/-- A superadmin draws an execution box in between. -/
def drawing : List Label := switching ++ [.read (some true) (str "live") (str "w") draw, .write 1]

/-- The state behind some steps of the deployment. -/
def stateAfter (labels : List Label) : State :=
  (execute (step liveOnly) State.empty labels).getD State.empty

/-- Nobody was in between: the write is not stale, and arms nothing. -/
theorem armed_by_superadmin_alone :
    execute (step liveOnly) State.empty switching = some (stateAfter switching) ∧
      ∀ app id, (stateAfter (switching ++ [.write 0])).Armed app id →
        ¬(stateAfter switching).Armed app id →
          Entitled liveOnly ((stateAfter switching).caller (.write 0)) app := by
  have hstep : step liveOnly (stateAfter switching) (.write 0) =
      some (stateAfter (switching ++ [.write 0])) := rfl
  exact ⟨rfl, (armed_by_superadmin_iff liveOnly hstep).mpr (not_stale_of_asRead rfl rfl rfl rfl)⟩

/-- The tenant switches on the execution box of the superadmin. -/
theorem tenant_arms_workflow :
    execute (step liveOnly) State.empty drawing = some (stateAfter drawing) ∧
      step liveOnly (stateAfter drawing) (.write 0) = some (stateAfter (drawing ++ [.write 0])) ∧
      (stateAfter drawing).caller (.write 0) = some false ∧
      (stateAfter (drawing ++ [.write 0])).Armed (str "live") (str "w") ∧
      ¬(stateAfter drawing).Armed (str "live") (str "w") := by
  refine ⟨rfl, rfl, rfl, ?_, ?_⟩
  · exact ⟨⟨str "flow", true, shellGraph⟩, rfl, by decide⟩
  · rintro ⟨w, hw, harmed⟩
    cases hw
    exact absurd harmed (by decide)

end StreamHub.Streamflow.Guard
