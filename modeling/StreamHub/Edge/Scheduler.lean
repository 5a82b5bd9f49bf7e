import StreamHub.Edge.Logic
import StreamHub.Library.Rows
import StreamHub.Library.Transition
import StreamHub.Yamljs.Value

/-!
# The edge scheduler

The table of assignments, the nodes and their connections, and the calls of the scheduler and
the gateway that place work: `Schedule`, `RetryPending`, `HandleNodeDown`, `Revoke`, the re-offer
of a node that registers and the status frames of the edges.  A call is one step; what its
statements and pushes come to is data of the step (`Outcome`).

An assignment is pending with or without a node.  `RetryPending` only reads those without one,
but a push that fails and a failover that finds no node leave the assignment with the node it
had.  A pass next to a healthy edge leaves nothing pending exactly if no pending assignment has
a node (`retryPending_leaves_none_iff`).
-/

namespace StreamHub.Edge

open Library Text Transition Yamljs List Function

inductive Status
  | pending
  | offered
  | running
  | stopped
  | failed
  | revoked
  deriving DecidableEq

/-- A row of `edge_assignments`; its id is its place in the table. -/
structure Assignment where
  nodeId : Str
  app : Str
  pluginId : Str
  streamId : Option Str
  config : List (Str × Value)
  status : Status
  detail : Option Str

/-- A row of `nodes`; any type but `edge` is common. -/
structure NodeRow where
  id : Str
  type : NodeType
  weight : Option ℚ
  status : Str
  grid : Option GridCaps
  deriving DecidableEq

/-- What the master sends about an assignment -/
inductive Frame
  | assign (id : ℕ) (a : Assignment)
  | revoke (id : ℕ)

/-- The tables, the connections with the time of their acceptance, the last disconnects, the
cursor of the round robin and what was sent to whom.  `Authorize` asks for a node id, so only
nodes with one are connected. -/
structure State where
  rows : List Assignment
  nodes : List NodeRow
  conns : Str → Option ℤ
  lastDisconnect : Str → Option ℤ
  rrCursor : ℤ
  sent : List (Str × Frame)
  named : conns [] = none

def State.init : State := ⟨[], [], fun _ => none, fun _ => none, 0, [], rfl⟩

/-- `defaultPolicy` and `allowCommon` of the environment -/
structure Env where
  policy : Policy
  allowCommon : Bool

/-- What the statements and pushes for one assignment come to: `NodeViews` and its counts, the
first write, the read behind it, the push, the second write, and what `Rand` returns. -/
structure Outcome where
  views : Bool
  counted : Str → Bool
  write : Bool
  fetched : Bool
  push : Bool
  mark : Bool
  draw : ℚ

lemma update_none_of_none {conns : Str → Option ℤ} {nodeId : Str} (h : conns nodeId = none)
    (other : Str) : update conns other none nodeId = none := by
  by_cases heq : nodeId = other
  · rw [heq, update_self]
  · rw [update_of_ne heq, h]

/-- `FailbackGrace`, in nanoseconds -/
def failbackGrace : ℤ := 60000000000

namespace State

variable (s : State)

/-- `eligibleConnected` -/
def eligibleConnected (now : ℤ) (nodeId : Str) : Bool :=
  match s.conns nodeId with
  | none => false
  | some since => (s.lastDisconnect nodeId).isNone || failbackGrace ≤ now - since

/-- `ActiveCountByNode`; a failed read counts nothing. -/
def activeCount (nodeId : Str) : ℕ :=
  s.rows.countP fun a => a.nodeId = nodeId && (a.status = .offered || a.status = .running)

/-- `NodeViews` -/
def nodeViews (now : ℤ) (counted : Str → Bool) : List SchedNode :=
  s.nodes.map fun n =>
    { id := n.id, type := n.type, weight := n.weight.getD 100, status := n.status,
      connected := s.eligibleConnected now n.id, grid := n.grid,
      load := if counted n.id then s.activeCount n.id else 0 }

/-- `UpdateStatus` -/
def updateStatus (id : ℕ) (status : Status) (detail : Option Str) : State :=
  { s with rows := s.rows.modify id fun a => { a with status := status, detail := detail } }

/-- `Reassign` -/
def reassign (id : ℕ) (nodeId : Str) (status : Status) : State :=
  { s with rows := s.rows.modify id fun a =>
      { a with nodeId := nodeId, status := status, detail := none } }

/-- `Send`: the frame goes out if the node is connected and the write succeeds. -/
def send (nodeId : Str) (frame : Frame) (written : Bool) : Option State :=
  if (s.conns nodeId).isSome && written then some { s with sent := s.sent ++ [(nodeId, frame)] }
  else none

/-- The push of a placed assignment; if it fails the row is marked. -/
def offer (nodeId : Str) (id : ℕ) (a : Assignment) (o : Outcome) : State :=
  match s.send nodeId (.assign id a) o.push with
  | some s' => s'
  | none => if o.mark then s.updateStatus id .pending (some (str "push failed")) else s

end State

/-- `ScheduleInput` -/
structure ScheduleInput where
  app : Str
  pluginId : Str
  streamId : Option Str
  config : List (Str × Value)
  policy : Option Policy
  req : Option GridRequirements

/-- `Schedule` -/
def schedule (env : Env) (s : State) (now : ℤ) (input : ScheduleInput) (o : Outcome) : State :=
  if o.views then
    let placed := place (s.nodeViews now o.counted)
      ⟨input.policy.getD env.policy, input.req, env.allowCommon, s.rrCursor, o.draw⟩
    let s := { s with rrCursor := placed.2 }
    if o.write then
      let a : Assignment :=
        { nodeId := placed.1, app := input.app, pluginId := input.pluginId,
          streamId := input.streamId, config := input.config,
          status := if placed.1 = [] then .pending else .offered, detail := none }
      let id := s.rows.length
      let s := { s with rows := s.rows ++ [a] }
      if o.fetched && placed.1 ≠ [] then s.offer placed.1 id a o else s
    else s
  else s

/-- `Revoke` -/
def revoke (s : State) (id : ℕ) (o : Outcome) : State :=
  match s.rows[id]? with
  | none => s
  | some a =>
    if o.fetched then
      let s := if a.nodeId ≠ [] then (s.send a.nodeId (.revoke id) o.push).getD s else s
      if o.write then s.updateStatus id .revoked none else s
    else s

/-- `PendingUnplaced` -/
def pendingUnplaced (a : Assignment) : Bool := a.status = .pending && a.nodeId = []

/-- The loop of `RetryPending` -/
def retryRows (env : Env) (now : ℤ) (o : ℕ → Outcome) : State → List (Assignment × ℕ) → State
  | s, [] => s
  | s, (a, id) :: rest =>
    if (o id).views then
      let placed := place (s.nodeViews now (o id).counted)
        ⟨env.policy, none, env.allowCommon, s.rrCursor, (o id).draw⟩
      let s := { s with rrCursor := placed.2 }
      if placed.1 = [] then retryRows env now o s rest
      else
        let s := if (o id).write then s.reassign id placed.1 .offered else s
        retryRows env now o (s.offer placed.1 id { a with nodeId := placed.1 } (o id)) rest
    else s

/-- `RetryPending` -/
def retryPending (env : Env) (s : State) (now : ℤ) (read : Bool) (o : ℕ → Outcome) : State :=
  if read then retryRows env now o s (Rows.select pendingUnplaced s.rows) else s

/-- `ActiveByNode` -/
def activeByNode (nodeId : Str) (a : Assignment) : Bool :=
  a.nodeId = nodeId && (a.status = .offered || a.status = .running)

/-- One move of `HandleNodeDown` -/
def moveTo (o : ℕ → Outcome) (s : State) (move : ℕ × Str) : State :=
  let out := o move.1
  if move.2 = [] then
    if out.write then
      s.updateStatus move.1 .pending (some (str "no eligible node for failover"))
    else s
  else
    let s := if out.write then s.reassign move.1 move.2 .offered else s
    match s.rows[move.1]? with
    | some a => if out.fetched then (s.send move.2 (.assign move.1 a) out.push).getD s else s
    | none => s

/-- The moves of `HandleNodeDown`, and the cursor behind them -/
def failoverMoves (env : Env) (s : State) (nodeId : Str) (now : ℤ) (counted : Str → Bool)
    (o : ℕ → Outcome) : List (ℕ × Str) × ℤ :=
  planFailover (fun id => (o id).draw) ((Rows.select (activeByNode nodeId) s.rows).map Prod.snd)
    (s.nodeViews now counted) ⟨env.policy, none, env.allowCommon, s.rrCursor, 0⟩

/-- `HandleNodeDown` -/
def handleNodeDown (env : Env) (s : State) (nodeId : Str) (now : ℤ) (read views : Bool)
    (counted : Str → Bool) (o : ℕ → Outcome) : State :=
  if read && views && !(Rows.select (activeByNode nodeId) s.rows).isEmpty then
    let planned := failoverMoves env s nodeId now counted o
    planned.1.foldl (moveTo o) { s with rrCursor := planned.2 }
  else s

/-- `PendingOrOfferedByNode` -/
def pendingOrOfferedByNode (nodeId : Str) (a : Assignment) : Bool :=
  a.nodeId = nodeId && (a.status = .pending || a.status = .offered)

/-- One turn of `reoffer` -/
def reofferRow (nodeId : Str) (o : ℕ → Outcome) (s : State) (row : Assignment × ℕ) : State :=
  match s.send nodeId (.assign row.2 row.1) (o row.2).push with
  | some s' => if (o row.2).mark then s'.updateStatus row.2 .offered none else s'
  | none => s

/-- `reoffer` -/
def reoffer (s : State) (nodeId : Str) (read : Bool) (o : ℕ → Outcome) : State :=
  if read then
    (Rows.select (pendingOrOfferedByNode nodeId) s.rows).foldl (reofferRow nodeId o) s
  else s

/-- The statuses that an `assignment_status` frame may carry -/
inductive Reported
  | running
  | stopped
  | failed
  deriving DecidableEq

def Reported.status : Reported → Status
  | .running => .running
  | .stopped => .stopped
  | .failed => .failed

/-- `UpdateStatusForNode` -/
def updateStatusForNode (s : State) (id : ℕ) (nodeId : Str) (status : Reported)
    (detail : Option Str) : State :=
  { s with rows := s.rows.modify id fun a =>
      if a.nodeId = nodeId then { a with status := status.status, detail := detail } else a }

/-- The calls and the events of a run; `nodes` is any change to the registry of nodes and
`restart` a restart of the master. -/
inductive Label
  | schedule (now : ℤ) (input : ScheduleInput) (o : Outcome)
  | revoke (id : ℕ) (o : Outcome)
  | retryPending (now : ℤ) (read : Bool) (o : ℕ → Outcome)
  | handleNodeDown (nodeId : Str) (now : ℤ) (read views : Bool) (counted : Str → Bool)
      (o : ℕ → Outcome)
  | connect (nodeId : Str) (now : ℤ)
  | disconnect (nodeId : Str) (now : ℤ)
  | register (nodeId : Str) (read : Bool) (o : ℕ → Outcome)
  | status (nodeId : Str) (id : ℕ) (status : Reported) (detail : Option Str)
  | nodes (rows : List NodeRow)
  | restart

def step (env : Env) (s : State) : Label → Option State
  | .schedule now input o => some (schedule env s now input o)
  | .revoke id o => some (revoke s id o)
  | .retryPending now read o => some (retryPending env s now read o)
  | .handleNodeDown nodeId now read views counted o =>
    some (handleNodeDown env s nodeId now read views counted o)
  | .connect nodeId now =>
    if h : nodeId = [] then none
    else
      some { s with
        conns := update s.conns nodeId (some now)
        named := (update_of_ne (Ne.symm h) _ _).trans s.named }
  | .disconnect nodeId now =>
    match s.conns nodeId with
    | none => none
    | some _ =>
      some { s with
        conns := update s.conns nodeId none
        lastDisconnect := update s.lastDisconnect nodeId (some now)
        named := update_none_of_none s.named nodeId }
  | .register nodeId read o =>
    match s.conns nodeId with
    | none => none
    | some _ => some (reoffer s nodeId read o)
  | .status nodeId id status detail =>
    match s.conns nodeId with
    | none => none
    | some _ => some (updateStatusForNode s id nodeId status detail)
  | .nodes rows => some { s with nodes := rows }
  | .restart =>
    some { s with
      conns := fun _ => none, lastDisconnect := fun _ => none, rrCursor := 0, named := rfl }

/-! ## What the calls leave alone -/

/-- The nodes and their connections are the same. -/
structure SameNodes (s t : State) : Prop where
  nodes : t.nodes = s.nodes
  conns : t.conns = s.conns
  lastDisconnect : t.lastDisconnect = s.lastDisconnect

namespace SameNodes

variable {s t : State}

lemma eligibleConnected (h : SameNodes s t) (now : ℤ) (nodeId : Str) :
    t.eligibleConnected now nodeId = s.eligibleConnected now nodeId := by
  rw [State.eligibleConnected, State.eligibleConnected, h.conns, h.lastDisconnect]

end SameNodes

section Same

variable {s t : State} {o : Outcome}

lemma send_eq_some {nodeId : Str} {frame : Frame} {written : Bool}
    (h : s.send nodeId frame written = some t) : (s.conns nodeId).isSome = true ∧ written = true ∧
      t = { s with sent := s.sent ++ [(nodeId, frame)] } := by
  unfold State.send at h
  split at h
  · rename_i hsend
    cases h
    exact ⟨(Bool.and_eq_true_iff.mp hsend).1, (Bool.and_eq_true_iff.mp hsend).2, rfl⟩
  · cases h

lemma send_of_connected {nodeId : Str} (frame : Frame) (hconn : (s.conns nodeId).isSome = true) :
    s.send nodeId frame true = some { s with sent := s.sent ++ [(nodeId, frame)] } := by
  rw [State.send, hconn]
  rfl

lemma rows_send {nodeId : Str} {frame : Frame} {written : Bool}
    (h : s.send nodeId frame written = some t) : t.rows = s.rows := by
  obtain ⟨-, -, rfl⟩ := send_eq_some h
  rfl

end Same

/-! ## Next to a healthy edge -/

/-- Some active edge node is connected, past its grace and without a figure of free VRAM. -/
def Healthy (s : State) (now : ℤ) : Prop :=
  ∃ n ∈ s.nodes, n.type = .edge ∧ n.status = str "active" ∧
    s.eligibleConnected now n.id = true ∧ n.grid.bind GridCaps.vramFreeMb = none

variable {s : State} {now : ℤ}

lemma Healthy.same {t : State} (h : Healthy s now) (hsame : SameNodes s t) : Healthy t now := by
  obtain ⟨n, hn, htype, hstatus, hconnected, hgrid⟩ := h
  refine ⟨n, ?_, htype, hstatus, ?_, hgrid⟩
  · rw [hsame.nodes]
    exact hn
  · rw [hsame.eligibleConnected]
    exact hconnected

lemma isSome_conns_of_eligible {counted : Str → Bool} {req : Option GridRequirements}
    {allowCommon : Bool} {n : SchedNode}
    (hn : n ∈ eligibleNodes (s.nodeViews now counted) req allowCommon) :
    (s.conns n.id).isSome = true := by
  obtain ⟨hview, heligible⟩ := mem_eligibleNodes.mp hn
  obtain ⟨row, -, rfl⟩ := mem_map.mp hview
  have hconnected : s.eligibleConnected now row.id = true := by
    simp only [eligible, Bool.and_eq_true] at heligible
    exact heligible.1.1.1.1
  unfold State.eligibleConnected at hconnected
  split at hconnected
  · cases hconnected
  rename_i since hsince
  exact Option.isSome_iff_exists.mpr ⟨since, hsince⟩

lemma isSome_conns_of_place (s : State) (now : ℤ) (counted : Str → Bool) (o : PlaceOptions)
    (hne : (place (s.nodeViews now counted) o).1 ≠ []) :
    (s.conns (place (s.nodeViews now counted) o).1).isSome = true := by
  rcases place_spec (s.nodeViews now counted) o with ⟨-, hnone⟩ | ⟨n, hn, heq⟩
  · rw [hnone] at hne
    exact absurd rfl hne
  · rw [heq]
    exact isSome_conns_of_eligible hn

lemma place_ne_nil (hhealthy : Healthy s now) (counted : Str → Bool) (policy : Policy)
    (allowCommon : Bool) (cursor : ℤ) (draw : ℚ) :
    (place (s.nodeViews now counted) ⟨policy, none, allowCommon, cursor, draw⟩).1 ≠ [] := by
  obtain ⟨n, hn, htype, hstatus, hconnected, hgrid⟩ := hhealthy
  rcases place_spec (s.nodeViews now counted) ⟨policy, none, allowCommon, cursor, draw⟩ with
    ⟨hempty, -⟩ | ⟨m, hm, heq⟩
  · -- the healthy node is eligible
    have hmem := eq_nil_iff_forall_not_mem.mp hempty
      { id := n.id, type := n.type, weight := n.weight.getD 100, status := n.status,
        connected := s.eligibleConnected now n.id, grid := n.grid,
        load := if counted n.id then s.activeCount n.id else 0 }
    refine absurd (mem_eligibleNodes.mpr ⟨mem_map.mpr ⟨n, hn, rfl⟩, ?_⟩) hmem
    simp [eligible, htype, hstatus, hconnected, passesRequirements, hasCapacity,
      vramMaxStreams, hgrid]
  · rw [heq]
    intro hnil
    have hconn := isSome_conns_of_eligible hm
    rw [hnil, s.named] at hconn
    cases hconn

/-- The statements and the push for an assignment all succeed. -/
structure Outcome.Ok (o : Outcome) : Prop where
  views : o.views = true
  write : o.write = true
  push : o.push = true

variable {o : ℕ → Outcome}

lemma retryRows_cons_of_ok (env : Env) (hhealthy : Healthy s now) (a : Assignment) {id : ℕ}
    (rest : List (Assignment × ℕ)) (hok : (o id).Ok) :
    ∃ s' nodeId, SameNodes s s' ∧ s'.rows = (s.reassign id nodeId .offered).rows ∧
      retryRows env now o s ((a, id) :: rest) = retryRows env now o s' rest := by
  have hne := place_ne_nil hhealthy (o id).counted env.policy env.allowCommon s.rrCursor
    (o id).draw
  have hconn := isSome_conns_of_place _ _ _ _ hne
  rw [retryRows, if_pos hok.views]
  dsimp only
  generalize place (s.nodeViews now (o id).counted) _ = placed at hne hconn ⊢
  rw [if_neg hne, if_pos hok.write, State.offer, hok.push, send_of_connected _ (by exact hconn)]
  refine ⟨_, placed.1, ?_, ?_, rfl⟩
  · exact ⟨rfl, rfl, rfl⟩
  · rfl

lemma retryRows_other (env : Env) (hok : ∀ id, (o id).Ok) {todo : List (Assignment × ℕ)}
    (hhealthy : Healthy s now) {k : ℕ} (hk : k ∉ todo.map Prod.snd) :
    (retryRows env now o s todo).rows[k]? = s.rows[k]? := by
  induction todo generalizing s with
  | nil => rfl
  | cons row rest ih =>
    obtain ⟨a, id⟩ := row
    obtain ⟨s', nodeId, hsame, hrows, heq⟩ := retryRows_cons_of_ok env hhealthy a rest (hok id)
    have hne : id ≠ k := by
      rintro rfl
      simp at hk
    have hrest : k ∉ rest.map Prod.snd := fun hmem => hk (mem_cons_of_mem _ hmem)
    rw [heq, ih (hhealthy.same hsame) hrest, hrows, State.reassign, getElem?_modify_ne _ _ hne]

lemma retryRows_offered {env : Env} (hok : ∀ id, (o id).Ok) {todo : List (Assignment × ℕ)}
    (hnodup : (todo.map Prod.snd).Nodup) (hhealthy : Healthy s now) {k : ℕ}
    (hk : k ∈ todo.map Prod.snd) {a : Assignment}
    (ha : (retryRows env now o s todo).rows[k]? = some a) : a.status = .offered := by
  induction todo generalizing s with
  | nil => cases hk
  | cons row rest ih =>
    obtain ⟨b, id⟩ := row
    obtain ⟨s', nodeId, hsame, hrows, heq⟩ := retryRows_cons_of_ok env hhealthy b rest (hok id)
    obtain ⟨hfresh, hrest⟩ := nodup_cons.mp hnodup
    rw [heq] at ha
    rcases mem_cons.mp hk with rfl | hlater
    · rw [retryRows_other env hok (hhealthy.same hsame) hfresh, hrows] at ha
      obtain ⟨c, -, rfl⟩ := Rows.getElem?_modify_eq_some ha
      rw [if_pos rfl]
    · exact ih hrest (hhealthy.same hsame) hlater ha

section Examples

/-- An active edge node without a figure of VRAM -/
def edgeOne : NodeRow := ⟨str "e1", .edge, none, str "active", none⟩

def roundRobinEnv : Env := ⟨.roundRobin, false⟩

/-- Everything succeeds but perhaps the push. -/
def outcome (push : Bool) : Outcome := ⟨true, fun _ => true, true, true, push, true, 0⟩

lemma outcome_ok : (outcome true).Ok := ⟨rfl, rfl, rfl⟩

/-- Work of one plugin on one stream -/
def counting : ScheduleInput := ⟨str "live", str "counting", some (str "cam"), [], none, none⟩

/-- The node is there and eligible, and so many assignments are pending before and behind a
pass. -/
def passTest (before behind : ℕ) (s : State) : Bool :=
  s.nodes = [edgeOne] && s.eligibleConnected 0 (str "e1") &&
    s.rows.countP (fun a => a.status = .pending) = before &&
    (retryPending roundRobinEnv s 0 true fun _ => outcome true).rows.countP
      (fun a => a.status = .pending) = behind

lemma healthy_of_passTest {before behind : ℕ} {s : State} (h : passTest before behind s = true) :
    Healthy s 0 := by
  simp only [passTest, Bool.and_eq_true, decide_eq_true_eq] at h
  obtain ⟨⟨⟨hnodes, hconnected⟩, -⟩, -⟩ := h
  exact ⟨edgeOne, hnodes ▸ mem_singleton_self edgeOne, rfl, rfl, hconnected, rfl⟩

end Examples

/-- From any state, a pass that succeeds next to a healthy edge leaves no assignment pending
exactly if every assignment that was pending had no node. -/
theorem retryPending_leaves_none_iff (env : Env) (s : State) (now : ℤ) (o : ℕ → Outcome)
    (hhealthy : Healthy s now) (hok : ∀ id, (o id).Ok) :
    (∀ a ∈ (retryPending env s now true o).rows, a.status ≠ .pending) ↔
      ∀ a ∈ s.rows, a.status = .pending → a.nodeId = [] := by
  have hnodup := Rows.nodup_select pendingUnplaced s.rows
  change (∀ a ∈ (retryRows env now o s (Rows.select pendingUnplaced s.rows)).rows, _) ↔ _
  constructor
  · intro hnone a ha hpending
    obtain ⟨k, hk⟩ := getElem?_of_mem ha
    by_contra hplaced
    -- the pass has not read it, so it is still there
    have hunread : k ∉ (Rows.select pendingUnplaced s.rows).map Prod.snd := by
      intro hmem
      obtain ⟨⟨b, k'⟩, hb, rfl⟩ := mem_map.mp hmem
      obtain ⟨hb', hunplaced⟩ := Rows.mem_select.mp hb
      rw [hk] at hb'
      cases hb'
      simp [pendingUnplaced, hplaced] at hunplaced
    have hsame := retryRows_other env hok hhealthy hunread
    exact hnone a (mem_of_getElem? (hsame.trans hk)) hpending
  · intro hunplaced a ha hpending
    obtain ⟨k, hk⟩ := getElem?_of_mem ha
    by_cases hread : k ∈ (Rows.select pendingUnplaced s.rows).map Prod.snd
    · rw [retryRows_offered hok hnodup hhealthy hread hk] at hpending
      cases hpending
    · rw [retryRows_other env hok hhealthy hread] at hk
      refine hread (mem_map.mpr ⟨(a, k), Rows.mem_select.mpr ⟨hk, ?_⟩, rfl⟩)
      simp [pendingUnplaced, hpending, hunplaced a (mem_of_getElem? hk) hpending]

/-- Work that found no node at first is placed by the pass. -/
theorem retryPending_leaves_none_unplaced :
    ∃ s, Reached (step roundRobinEnv) (fun _ _ => true) State.init s ∧
      s.rows.countP (fun a => a.status = .pending) = 1 ∧
      ((∀ a ∈ (retryPending roundRobinEnv s 0 true fun _ => outcome true).rows,
        a.status ≠ .pending) ↔ ∀ a ∈ s.rows, a.status = .pending → a.nodeId = []) := by
  obtain ⟨s, hreached, htest⟩ := exists_reached (step roundRobinEnv) (fun _ _ => true) State.init
    [.schedule 0 counting (outcome true), .nodes [edgeOne], .connect (str "e1") 0]
    (passTest 1 0) (by decide)
  have hhealthy := healthy_of_passTest htest
  simp only [passTest, Bool.and_eq_true, decide_eq_true_eq] at htest
  exact ⟨s, hreached, htest.1.2,
    retryPending_leaves_none_iff roundRobinEnv s 0 _ hhealthy fun _ => outcome_ok⟩

/-- A push to the node fails once: the assignment stays pending, pass after pass. -/
theorem failed_push_stays_pending :
    ∃ s, Reached (step roundRobinEnv) (fun _ _ => true) State.init s ∧ Healthy s 0 ∧
      ¬ ∀ a ∈ (retryPending roundRobinEnv s 0 true fun _ => outcome true).rows,
        a.status ≠ .pending := by
  obtain ⟨s, hreached, htest⟩ := exists_reached (step roundRobinEnv) (fun _ _ => true) State.init
    [.nodes [edgeOne], .connect (str "e1") 0, .schedule 0 counting (outcome false)]
    (passTest 1 1) (by decide)
  refine ⟨s, hreached, healthy_of_passTest htest, ?_⟩
  intro hnone
  simp only [passTest, Bool.and_eq_true, decide_eq_true_eq] at htest
  obtain ⟨a, ha, hpending⟩ := countP_pos_iff.mp (htest.2.symm ▸ Nat.one_pos)
  exact hnone a ha (of_decide_eq_true hpending)

end StreamHub.Edge
