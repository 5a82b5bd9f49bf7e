import StreamHub.Edge.Calls

/-!
# What a step of a call does

A step of `Calls` does one thing to the tables and the edges: it writes a row, sends a frame,
delivers one, or only reads.  `Act` lists these, `Act.run` is what they do, and `Act.Moves` is
how the assignments that calls have in hand change.  `performs_of_step` says that every step is
its act, so the results about whole runs are proved over a dozen acts and never look at the
phases of a call.
-/

namespace StreamHub.Edge

open List Function

/-- Work that is not over -/
def Status.isLive : Status → Bool
  | .pending => true
  | .offered => true
  | .running => true
  | .stopped => false
  | .failed => false
  | .revoked => false

namespace Calls

open Library Text

/-! ## What calls have in hand -/

/-- How a call has an assignment in hand: it may still write or send it out, with the node that
it takes the row to be on; it is `Revoke` behind its read, or `Revoke` behind its frame. -/
inductive Grip
  | live (node : Str)
  | leaving (node : Str)
  | gone
  deriving DecidableEq

def Grip.isLive : Grip → Bool
  | .live _ => true
  | .leaving _ => false
  | .gone => false

def Rest.grips : Rest → List (ℕ × Grip)
  | .finished => []
  | .retry todo => todo.map fun row => (row.2, .live [])
  | .down old moves => moves.map fun move => (move.1, .live old)

def Holder.grips : Holder → List (ℕ × Grip)
  | .turn rest => rest.grips
  | .fetching id node _ rest => (id, .live node) :: rest.grips
  | .pushing id _ node _ rest => (id, .live node) :: rest.grips
  | .marking id node rest => (id, .live node) :: rest.grips

def Call.grips : Call → List (ℕ × Grip)
  | .revoking id node => [(id, .leaving node)]
  | .revoked id => [(id, .gone)]
  | .reoffering node todo => todo.map fun row => (row.2, .live node)
  | .reoffered id node todo => (id, .live node) :: todo.map fun row => (row.2, .live node)

def holderGrips : Option Holder → List (ℕ × Grip)
  | none => []
  | some h => h.grips

/-- All assignments in hand -/
def State.grips (s : State) : List (ℕ × Grip) :=
  holderGrips s.holder ++ s.calls.flatMap Call.grips

lemma grips_of_holder {s : State} {h : Option Holder} (hholder : s.holder = h) :
    s.grips = holderGrips h ++ s.calls.flatMap Call.grips := by rw [State.grips, hholder]

/-! ## Acts -/

/-- The part of a state that acts change -/
structure Tables where
  rows : List Assignment
  known : List Str
  connected : Str → Bool
  queue : Str → List Frame
  workers : Str → ℕ → Bool
  downs : ℕ → Bool
  late : Bool

def State.tables (s : State) : Tables :=
  ⟨s.rows, s.known, s.connected, s.queue, s.workers, s.downs, s.late⟩

inductive Act
  /-- a row is inserted; with a node it is kept in hand -/
  | insert (a : Assignment)
  /-- rows are read and taken in hand -/
  | take (taken : List (ℕ × Grip))
  /-- `Reassign`; if it fails the call goes on as if it had not -/
  | reassign (id : ℕ) (old node : Str) (written : Bool)
  /-- `UpdateStatus` of an assignment that is let go -/
  | mark (id : ℕ) (node : Str) (status : Status) (detail : Option Str)
  /-- an assign frame goes out -/
  | offer (id : ℕ) (node : Str) (a : Assignment)
  /-- `Revoke` is behind its frame, which may not have gone out -/
  | withdraw (id : ℕ) (node : Str) (sent : Bool)
  /-- the row becomes revoked -/
  | retire (id : ℕ)
  /-- `UpdateStatusForNode` -/
  | report (node : Str) (id : ℕ) (status : Reported) (detail : Option Str)
  | connect (node : Str)
  | disconnect (node : Str)
  | lose (node : Str)
  | deliver (node : Str)
  | restart
  /-- nothing but that assignments are let go -/
  | idle

/-- What an act does to the tables -/
def Act.run (T : Tables) : Act → Tables
  | .insert a => { T with rows := T.rows ++ [a] }
  | .take _ => T
  | .reassign id _ node written =>
    if written then { T with rows := T.rows.modify id (setNode node) } else T
  | .mark id _ status detail => { T with rows := T.rows.modify id (setStatus status detail) }
  | .offer id node a =>
    { T with
      queue := update T.queue node (T.queue node ++ [.assign id a])
      late := T.late || T.downs id }
  | .withdraw id node sent =>
    if sent then
      { T with queue := update T.queue node (T.queue node ++ [.revoke id]) }
    else T
  | .retire id =>
    { T with
      rows := T.rows.modify id (setStatus .revoked none)
      downs := if id < T.rows.length then update T.downs id true else T.downs }
  | .report node id status detail =>
    { T with rows := T.rows.modify id (setReported node status detail) }
  | .connect node =>
    { T with
      known := node :: T.known
      connected := update T.connected node true
      queue := update T.queue node [] }
  | .disconnect node => { T with connected := update T.connected node false }
  | .lose node => { T with queue := update T.queue node [] }
  | .deliver node =>
    { T with
      queue := update T.queue node (T.queue node).tail
      workers := update T.workers node
        ((T.queue node).head?.elim (T.workers node) (applyFrame (T.workers node))) }
  | .restart => { T with connected := fun _ => false }
  | .idle => T

/-- What a read says of the row it takes in hand -/
def Grip.Read (rows : List Assignment) (id : ℕ) : Grip → Prop
  | .live node => ∃ a, rows[id]? = some a ∧ a.nodeId = node ∧ a.status.isLive = true
  | .leaving node => ∃ a, rows[id]? = some a ∧ a.nodeId = node
  | .gone => False

/-- How the assignments in hand change from `g` to `g'` in an act -/
def Act.Moves (T : Tables) (g g' : List (ℕ × Grip)) : Act → Prop
  | .insert a =>
    a.status.isLive = true ∧
      g'.Perm ((if a.nodeId = [] then [] else [(T.rows.length, .live a.nodeId)]) ++ g)
  | .take taken =>
    g'.Perm (taken ++ g) ∧ (taken.map Prod.fst).Nodup ∧ ∀ x ∈ taken, x.2.Read T.rows x.1
  | .reassign id old node _ =>
    ∃ others, g.Perm ((id, .live old) :: others) ∧ g'.Perm ((id, .live node) :: others)
  | .mark id node status _ =>
    status.isLive = true ∧ ∃ others, g.Perm ((id, .live node) :: others) ∧ g'.Perm others
  | .offer id node _ => T.connected node = true ∧ (id, .live node) ∈ g ∧ g'.Subperm g
  | .withdraw id node sent =>
    (sent = true → T.connected node = true) ∧
      ∃ others, g.Perm ((id, .leaving node) :: others) ∧ g'.Perm ((id, .gone) :: others)
  | .retire id => ∃ others, g.Perm ((id, .gone) :: others) ∧ g'.Perm others
  | .connect node => node ≠ [] ∧ g' = g
  | .restart => g' = []
  | .idle => g'.Subperm g
  | _ => g' = g

/-- The act of a step -/
def act (env : Env) (s : State) : Label → Act
  | .schedule input views draw written =>
    if written then .insert (newRow input (schedulePlaced env s input views draw).1) else .idle
  | .retryRead => .take ((Rows.select pendingUnplaced s.rows).map fun row => (row.2, .live []))
  | .retryTurn views draw written =>
    match s.holder with
    | some (.turn (.retry ((_, id) :: _))) =>
      match views with
      | some views =>
        if (retryPlaced env s views draw).1 = [] then .idle
        else .reassign id [] (retryPlaced env s views draw).1 written
      | none => .idle
    | _ => .idle
  | .downRead node views draws =>
    .take ((downPlanned env s node views draws).1.map fun move => (move.1, .live node))
  | .downTurn written =>
    match s.holder with
    | some (.turn (.down old ((id, node) :: _))) =>
      if node = [] then
        if written then .mark id old .pending (some (str "no eligible node for failover"))
        else .idle
      else .reassign id old node written
    | _ => .idle
  | .fetch _ => .idle
  | .push sent =>
    match s.holder with
    | some (.pushing id a node _ _) =>
      if s.connected node && sent then .offer id node a else .idle
    | _ => .idle
  | .mark written =>
    match s.holder with
    | some (.marking id node _) =>
      if written then .mark id node .pending (some (str "push failed")) else .idle
    | _ => .idle
  | .release => .idle
  | .revokeRead id =>
    match s.rows[id]? with
    | some a => .take [(id, .leaving a.nodeId)]
    | none => .idle
  | .revokeSend k sent =>
    match s.calls[k]? with
    | some (.revoking id node) => .withdraw id node (node ≠ [] && s.connected node && sent)
    | _ => .idle
  | .revokeWrite k written =>
    match s.calls[k]? with
    | some (.revoked id) => if written then .retire id else .idle
    | _ => .idle
  | .register node =>
    .take ((Rows.select (pendingOrOfferedByNode node) s.rows).map fun row => (row.2, .live node))
  | .reofferSend k sent =>
    match s.calls[k]? with
    | some (.reoffering node ((a, id) :: _)) =>
      if s.connected node && sent then .offer id node a else .idle
    | _ => .idle
  | .reofferWrite k written =>
    match s.calls[k]? with
    | some (.reoffered id node _) => if written then .mark id node .offered none else .idle
    | _ => .idle
  | .reofferEnd _ => .idle
  | .status node id status detail => .report node id status detail
  | .connect node => .connect node
  | .disconnect node => .disconnect node
  | .lose node => .lose node
  | .deliver node => .deliver node
  | .restart => .restart

/-- The step from `s` to `t` is the act. -/
structure Performs (s : State) (act : Act) (t : State) : Prop where
  tables : t.tables = act.run s.tables
  moves : act.Moves s.tables s.grips t.grips

/-! ## The hands of the calls without the lock -/

section Lists

variable {α β : Type*} {f : α → List β} {l : List α} {k : ℕ} {a : α}

lemma flatMap_perm_eraseIdx (h : l[k]? = some a) :
    (l.flatMap f).Perm (f a ++ (l.eraseIdx k).flatMap f) := by
  obtain ⟨hk, rfl⟩ := List.getElem?_eq_some_iff.mp h
  have hperm := (getElem_cons_eraseIdx_perm hk).symm.flatMap_right f
  rwa [flatMap_cons] at hperm

lemma flatMap_set_perm_eraseIdx (h : l[k]? = some a) (b : α) :
    ((l.set k b).flatMap f).Perm (f b ++ (l.eraseIdx k).flatMap f) := by
  obtain ⟨hk, -⟩ := List.getElem?_eq_some_iff.mp h
  have hb : (l.set k b)[k]? = some b := getElem?_set_self hk
  have hperm := flatMap_perm_eraseIdx (f := f) hb
  rwa [eraseIdx_set_eq] at hperm

end Lists

section Grips

variable {s : State} {k : ℕ} {c : Call}

lemma grips_perm (h : s.calls[k]? = some c) : s.grips.Perm (c.grips ++ (s.finish k).grips) := by
  have hcalls := flatMap_perm_eraseIdx (f := Call.grips) h
  exact ((Perm.refl _).append hcalls).trans (perm_append_comm_assoc _ _ _)

lemma grips_go (h : s.calls[k]? = some c) (c' : Call) :
    (s.go k c').grips.Perm (c'.grips ++ (s.finish k).grips) := by
  have hcalls := flatMap_set_perm_eraseIdx (f := Call.grips) h c'
  exact ((Perm.refl _).append hcalls).trans (perm_append_comm_assoc _ _ _)

lemma grips_begin (s : State) (c : Call) : (s.begin c).grips.Perm (c.grips ++ s.grips) := by
  have heq : (s.begin c).grips = s.grips ++ c.grips := by
    simp only [State.grips, State.begin, flatMap_append, flatMap_cons,
      flatMap_nil, append_nil, append_assoc]
  rw [heq]
  exact perm_append_comm

lemma grips_finish_subperm (s : State) (k : ℕ) : (s.finish k).grips.Subperm s.grips :=
  (((eraseIdx_sublist s.calls k).flatMap Call.grips).append_left _).subperm

end Grips

/-! ## Every step is its act -/

lemma fst_planFailover (draws : ℕ → ℚ) (ids : List ℕ) (work : List SchedNode)
    (o : PlaceOptions) : (planFailover draws ids work o).1.map Prod.fst = ids := by
  induction ids generalizing work o with
  | nil => rfl
  | cons id ids ih => rw [planFailover, map_cons, ih]

section Performs

variable {env : Env} {s t : State}

variable {node : Str}

/-- A read of rows: each is taken in hand once. -/
lemma moves_take {p : Assignment → Bool} {T : Tables} {g g' : List (ℕ × Grip)}
    {taken : List (ℕ × Grip)} (hg : g'.Perm (taken ++ g))
    (htaken : taken = ((Rows.select p T.rows).map Prod.snd).map fun id => (id, .live node))
    (hp : ∀ a, p a = true → a.nodeId = node ∧ a.status.isLive = true) :
    (Act.take taken).Moves T g g' := by
  refine ⟨hg, ?_, ?_⟩
  · have hkeys : taken.map Prod.fst = (Rows.select p T.rows).map Prod.snd := by
      rw [htaken, map_map]
      exact map_id _
    rw [hkeys]
    exact Rows.nodup_select p T.rows
  · intro x hx
    rw [htaken] at hx
    obtain ⟨id, hid, rfl⟩ := mem_map.mp hx
    obtain ⟨⟨a, id⟩, hrow, rfl⟩ := mem_map.mp hid
    obtain ⟨ha, hpa⟩ := Rows.mem_select.mp hrow
    exact ⟨a, ha, hp a hpa⟩

lemma pendingUnplaced_spec (a : Assignment) (h : pendingUnplaced a = true) :
    a.nodeId = [] ∧ a.status.isLive = true := by
  simp only [pendingUnplaced, Bool.and_eq_true, decide_eq_true_eq] at h
  rw [h.1]
  exact ⟨h.2, rfl⟩

lemma activeByNode_spec (node : Str) (a : Assignment) (h : activeByNode node a = true) :
    a.nodeId = node ∧ a.status.isLive = true := by
  simp only [activeByNode, Bool.and_eq_true, Bool.or_eq_true, decide_eq_true_eq] at h
  refine ⟨h.1, ?_⟩
  rcases h.2 with hstatus | hstatus
  · rw [hstatus]
    rfl
  · rw [hstatus]
    rfl

lemma pendingOrOfferedByNode_spec (node : Str) (a : Assignment)
    (h : pendingOrOfferedByNode node a = true) : a.nodeId = node ∧ a.status.isLive = true := by
  simp only [pendingOrOfferedByNode, Bool.and_eq_true, Bool.or_eq_true, decide_eq_true_eq] at h
  refine ⟨h.1, ?_⟩
  rcases h.2 with hstatus | hstatus
  · rw [hstatus]
    rfl
  · rw [hstatus]
    rfl

lemma performs_schedule (hholder : s.holder = none) (input : ScheduleInput)
    (views : List SchedNode) (draw : ℚ) (written : Bool) :
    Performs s (act env s (.schedule input views draw written))
      (schedule env s input views draw written) := by
  rw [act, schedule]
  generalize schedulePlaced env s input views draw = placed
  cases written with
  | false => exact ⟨rfl, Subperm.refl _⟩
  | true =>
    refine ⟨rfl, ?_, ?_⟩
    · rw [newRow]
      split <;> rfl
    · rw [grips_of_holder hholder]
      obtain ⟨node, cursor⟩ := placed
      cases node with
      | nil | cons b node => exact .refl _

lemma performs_retryRead (hholder : s.holder = none) : Performs s (act env s .retryRead)
      (s.hold (.turn (.retry (Rows.select pendingUnplaced s.rows)))) := by
  refine ⟨rfl, moves_take ?_ ?_ pendingUnplaced_spec⟩
  · rw [grips_of_holder hholder]
    exact .refl _
  · rw [map_map]
    rfl

variable {a : Assignment} {id : ℕ} {todo : List (Assignment × ℕ)}

lemma performs_retryTurn (hholder : s.holder = some (.turn (.retry ((a, id) :: todo))))
    (views : Option (List SchedNode)) (draw : ℚ) (written : Bool) :
    Performs s (act env s (.retryTurn views draw written))
      (retryTurn env s views draw written a id todo) := by
  cases views with
  | none =>
    rw [act, hholder]
    refine ⟨rfl, ?_⟩
    exact (sublist_append_right _ _).subperm
  | some views =>
    rw [act, hholder, retryTurn]
    dsimp only
    generalize retryPlaced env s views draw = placed
    by_cases hnode : placed.1 = []
    · rw [if_pos hnode, if_pos hnode]
      refine ⟨rfl, ?_⟩
      rw [grips_of_holder hholder]
      exact (sublist_cons_self _ _).subperm
    rw [if_neg hnode, if_neg hnode]
    have hgrips : s.grips.Perm
        ((id, .live []) :: (s.hold (.turn (.retry todo))).grips) := by
      rw [grips_of_holder hholder]
      exact .refl _
    cases written with
    | false | true => exact ⟨rfl, _, hgrips, .refl _⟩

lemma performs_downRead (hholder : s.holder = none) (node : Str) (views : List SchedNode)
    (draws : ℕ → ℚ) :
    Performs s (act env s (.downRead node views draws)) (downRead env s node views draws) := by
  refine ⟨rfl, moves_take ?_ ?_ (activeByNode_spec node)⟩
  · rw [grips_of_holder hholder]
    exact .refl _
  · change _ = ((Rows.select (activeByNode node) s.rows).map Prod.snd).map _
    rw [← fst_planFailover draws ((Rows.select (activeByNode node) s.rows).map Prod.snd) views
      ⟨env.policy, none, env.allowCommon, s.rrCursor, 0⟩, map_map]
    rfl

lemma performs_downTurn {old : Str} {moves : List (ℕ × Str)}
    (hholder : s.holder = some (.turn (.down old ((id, node) :: moves)))) (written : Bool) :
    Performs s (act env s (.downTurn written)) (downTurn s written old id node moves) := by
  have hgrips : s.grips.Perm
      ((id, .live old) :: (s.hold (.turn (.down old moves))).grips) := by
    rw [grips_of_holder hholder]
    exact .refl _
  rw [act, hholder, downTurn]
  dsimp only
  by_cases hnode : node = []
  · rw [if_pos hnode, if_pos hnode]
    cases written with
    | false => exact ⟨rfl, (sublist_cons_self _ _).subperm.trans hgrips.symm.subperm⟩
    | true => exact ⟨rfl, rfl, _, hgrips, .refl _⟩
  · rw [if_neg hnode, if_neg hnode]
    cases written with
    | false | true => exact ⟨rfl, _, hgrips, .refl _⟩

lemma performs_fetch {marks : Bool} {rest : Rest}
    (hholder : s.holder = some (.fetching id node marks rest)) (answered : Bool) :
    Performs s (act env s (.fetch answered)) (fetch s answered id node marks rest) := by
  have hdrop : (s.hold (.turn rest)).grips.Subperm s.grips := by
    rw [grips_of_holder hholder]
    exact (sublist_cons_self _ _).subperm
  rw [fetch]
  split
  · cases answered with
    | false => exact ⟨rfl, hdrop⟩
    | true =>
      refine ⟨rfl, ?_⟩
      rw [grips_of_holder hholder]
      exact Subperm.refl _
  · exact ⟨rfl, hdrop⟩

lemma performs_push {marks : Bool} {rest : Rest}
    (hholder : s.holder = some (.pushing id a node marks rest)) (sent : Bool) :
    Performs s (act env s (.push sent)) (push s sent id a node marks rest) := by
  have hdrop : (s.hold (.turn rest)).grips.Subperm s.grips := by
    rw [grips_of_holder hholder]
    exact (sublist_cons_self _ _).subperm
  have hact : act env s (.push sent) =
      if (s.connected node && sent) = true then .offer id node a else .idle := by
    rw [act, hholder]
  rw [hact, push, State.sendAssign]
  by_cases hsent : (s.connected node && sent) = true
  · rw [if_pos hsent, if_pos hsent]
    refine ⟨rfl, (Bool.and_eq_true_iff.mp hsent).1, ?_, hdrop⟩
    rw [grips_of_holder hholder]
    exact mem_cons_self
  rw [if_neg hsent, if_neg hsent]
  cases marks with
  | false => exact ⟨rfl, hdrop⟩
  | true =>
    refine ⟨rfl, ?_⟩
    rw [grips_of_holder hholder]
    exact Subperm.refl _

lemma performs_mark {rest : Rest} (hholder : s.holder = some (.marking id node rest))
    (written : Bool) : Performs s (act env s (.mark written))
      ((s.write written id (setStatus .pending (some (str "push failed")))).hold
        (.turn rest)) := by
  rw [act, hholder]
  cases written with
  | false =>
    refine ⟨rfl, ?_⟩
    rw [grips_of_holder hholder]
    exact (sublist_cons_self _ _).subperm
  | true =>
    refine ⟨rfl, rfl, (s.hold (.turn rest)).grips, ?_, .refl _⟩
    rw [grips_of_holder hholder]
    exact .refl _

lemma performs_revokeRead (hrow : s.rows[id]? = some a) :
    Performs s (act env s (.revokeRead id)) (s.begin (.revoking id a.nodeId)) := by
  rw [act, hrow]
  refine ⟨rfl, grips_begin s _, nodup_singleton id, ?_⟩
  intro x hx
  rw [mem_singleton.mp hx]
  exact ⟨a, hrow, rfl⟩

lemma performs_revokeSend {k : ℕ} (hcall : s.calls[k]? = some (.revoking id node))
    (sent : Bool) : Performs s (act env s (.revokeSend k sent))
      ((s.sendRevoke node id sent).go k (.revoked id)) := by
  rw [act, hcall, State.sendRevoke]
  dsimp only
  generalize hout : (decide (node ≠ []) && s.connected node && sent) = out
  cases out with
  | false =>
    refine ⟨rfl, ?_, _, grips_perm hcall, grips_go hcall _⟩
    intro hsent
    cases hsent
  | true =>
    have hconnected : s.connected node = true := by
      simp only [Bool.and_eq_true] at hout
      exact hout.1.2
    exact ⟨rfl, fun _ => hconnected, _, grips_perm hcall, grips_go hcall _⟩

lemma performs_revokeWrite {k : ℕ} (hcall : s.calls[k]? = some (.revoked id)) (written : Bool) :
    Performs s (act env s (.revokeWrite k written)) (revokeWrite s k id written) := by
  rw [act, hcall, revokeWrite]
  cases written with
  | false => exact ⟨rfl, grips_finish_subperm s k⟩
  | true =>
    refine ⟨?_, _, grips_perm hcall, .refl _⟩
    simp only [Bool.true_and, decide_eq_true_eq]
    rfl

lemma performs_register (env : Env) (s : State) (node : Str) :
    Performs s (act env s (.register node))
      (State.begin { s with registered := update s.registered node true }
        (.reoffering node (Rows.select (pendingOrOfferedByNode node) s.rows))) := by
  refine ⟨rfl, moves_take (grips_begin _ _) ?_ (pendingOrOfferedByNode_spec node)⟩
  rw [map_map]
  rfl

lemma performs_reofferSend {k : ℕ}
    (hcall : s.calls[k]? = some (.reoffering node ((a, id) :: todo))) (sent : Bool) :
    Performs s (act env s (.reofferSend k sent)) (reofferSend s k sent a id node todo) := by
  have hgrips := grips_perm hcall
  have hact : act env s (.reofferSend k sent) =
      if (s.connected node && sent) = true then .offer id node a else .idle := by rw [act, hcall]
  rw [hact, reofferSend, State.sendAssign]
  by_cases hsent : (s.connected node && sent) = true
  · rw [if_pos hsent, if_pos hsent]
    refine ⟨rfl, (Bool.and_eq_true_iff.mp hsent).1, ?_, ?_⟩
    · exact hgrips.mem_iff.mpr mem_cons_self
    · exact ((grips_go hcall (.reoffered id node todo)).trans hgrips.symm).subperm
  rw [if_neg hsent, if_neg hsent]
  refine ⟨rfl, ?_⟩
  refine ((grips_go hcall _).subperm).trans (Subperm.trans ?_ hgrips.symm.subperm)
  exact (sublist_cons_self _ _).subperm

lemma performs_reofferWrite {k : ℕ} (hcall : s.calls[k]? = some (.reoffered id node todo))
    (written : Bool) : Performs s (act env s (.reofferWrite k written))
      ((s.write written id (setStatus .offered none)).go k (.reoffering node todo)) := by
  have hgrips := grips_perm hcall
  rw [act, hcall]
  cases written with
  | false =>
    refine ⟨rfl, ?_⟩
    refine ((grips_go hcall _).subperm).trans (Subperm.trans ?_ hgrips.symm.subperm)
    exact (sublist_cons_self _ _).subperm
  | true => exact ⟨rfl, rfl, _, hgrips, grips_go hcall _⟩

lemma performs_deliver {frame : Frame} {rest : List Frame}
    (hqueue : s.queue node = frame :: rest) : Performs s (.deliver node)
      { s with
        queue := update s.queue node rest
        workers := update s.workers node (applyFrame (s.workers node) frame) } := by
  refine ⟨?_, rfl⟩
  simp only [Act.run, State.tables, hqueue]
  rfl

/-- Every step does its act and nothing else. -/
lemma performs_of_step {l : Label} (h : step env s l = some t) : Performs s (act env s l) t := by
  cases l <;> rw [step] at h
  -- every step but the restart looks at one part of the state, and goes on in one case only
  case schedule input views draw written =>
    split at h <;> cases h
    next hholder => exact performs_schedule hholder input views draw written
  case retryRead =>
    split at h <;> cases h
    next hholder => exact performs_retryRead hholder
  case retryTurn views draw written =>
    split at h <;> cases h
    next hholder => exact performs_retryTurn hholder views draw written
  case downRead node views draws =>
    split at h <;> cases h
    next hholder => exact performs_downRead hholder node views draws
  case downTurn written =>
    split at h <;> cases h
    next hholder => exact performs_downTurn hholder written
  case fetch answered =>
    split at h <;> cases h
    next hholder => exact performs_fetch hholder answered
  case push sent =>
    split at h <;> cases h
    next hholder => exact performs_push hholder sent
  case mark written =>
    split at h <;> cases h
    next hholder => exact performs_mark hholder written
  case release =>
    split at h
    · rename_i rest hholder
      split at h <;> cases h
      refine ⟨rfl, ?_⟩
      exact (sublist_append_right _ _).subperm
    · cases h
  case revokeRead id =>
    split at h <;> cases h
    next hrow => exact performs_revokeRead hrow
  case revokeSend k sent =>
    split at h <;> cases h
    next hcall => exact performs_revokeSend hcall sent
  case revokeWrite k written =>
    split at h <;> cases h
    next hcall => exact performs_revokeWrite hcall written
  case register node =>
    split at h <;> cases h
    exact performs_register env s node
  case reofferSend k sent =>
    split at h <;> cases h
    next hcall => exact performs_reofferSend hcall sent
  case reofferWrite k written =>
    split at h <;> cases h
    next hcall => exact performs_reofferWrite hcall written
  case reofferEnd k =>
    split at h <;> cases h
    exact ⟨rfl, grips_finish_subperm s k⟩
  case connect node =>
    split at h <;> cases h
    next hne => exact ⟨rfl, hne, rfl⟩
  case status | disconnect | lose =>
    split at h <;> cases h
    exact ⟨rfl, rfl⟩
  case deliver node =>
    split at h <;> cases h
    next hqueue => exact performs_deliver hqueue
  case restart =>
    cases h
    exact ⟨rfl, rfl⟩

end Performs

end Calls
end StreamHub.Edge
