import StreamHub.Library.Text

/-!
# Placement of edge work

The pure part of the edge scheduler: which nodes are eligible for a workload, and which of them
is picked.  A node must be connected, active, of an allowed type, meet the requirements of the
workload and have room for one more stream; a node that reports no figure of free VRAM is
unbounded.

The round robin goes through the eligible nodes in the order of their ids, the weighted policy
draws one of them.  Either way a node is picked if and only if one is eligible (`place_spec`),
and a plan for many workloads fills the nodes before it parks one (`planFailover_settled`).
Figures and weights are exact fractions.
-/

namespace StreamHub.Edge

open Library Text List

inductive Policy
  | roundRobin
  | weighted
  deriving DecidableEq

/-- `nodes.type` as the scheduler reads it -/
inductive NodeType
  | edge
  | common
  deriving DecidableEq

/-- `GridCaps`, the part of it that placement reads -/
structure GridCaps where
  gpu : Bool
  vramGb : Option ℚ
  vramFreeMb : Option ℚ
  capabilities : List Str
  deriving DecidableEq

/-- `SchedNode` -/
structure SchedNode where
  id : Str
  type : NodeType
  weight : ℚ
  status : Str
  connected : Bool
  grid : Option GridCaps
  load : ℕ
  deriving DecidableEq

/-- `plugins.GridRequirements` without the preferred regions, which only rank nodes -/
structure GridRequirements where
  gpu : Bool
  minVramGb : Option ℚ
  capabilities : List Str
  deriving DecidableEq

structure PlaceOptions where
  policy : Policy
  req : Option GridRequirements
  allowCommon : Bool
  cursor : ℤ
  /-- what `Rand` returns -/
  draw : ℚ

def vramReserveMB : ℚ := 500

def vramPerStreamMB : ℚ := 200

/-- `VramMaxStreams`; none is `+Inf`. -/
def vramMaxStreams (n : SchedNode) : Option ℤ :=
  match n.grid.bind GridCaps.vramFreeMb with
  | none => none
  | some free => some ⌊(free - vramReserveMB) / vramPerStreamMB⌋

/-- `HasCapacity` -/
def hasCapacity (n : SchedNode) : Bool :=
  match vramMaxStreams n with
  | none => true
  | some most => (n.load : ℤ) < most

/-- `PassesRequirements`: `MatchGridNode` finds the node alone. -/
def passesRequirements (n : SchedNode) : Option GridRequirements → Bool
  | none => true
  | some req =>
    let gpu := (n.grid.map GridCaps.gpu).getD false
    let vramGb := n.grid.bind GridCaps.vramGb
    let capabilities := (n.grid.map GridCaps.capabilities).getD []
    let minVram := req.minVramGb.filter fun q => 0 < q
    (gpu || !(req.gpu || minVram.isSome)) &&
      minVram.all (fun least => vramGb.any fun q => least ≤ q) &&
      req.capabilities.all fun c => capabilities.contains c

/-- The conditions of `EligibleNodes`, node by node -/
def eligible (req : Option GridRequirements) (allowCommon : Bool) (n : SchedNode) : Bool :=
  n.connected && n.status = str "active" && (n.type = .edge || (allowCommon && n.type = .common)) &&
    passesRequirements n req && hasCapacity n

/-- `EligibleNodes`, sorted by id -/
def eligibleNodes (nodes : List SchedNode) (req : Option GridRequirements) (allowCommon : Bool) :
    List SchedNode :=
  (nodes.filter (eligible req allowCommon)).insertionSort fun a b => ¬ b.id < a.id

/-- `PickRoundRobin` -/
def pickRoundRobin (nodes : List SchedNode) (cursor : ℤ) : Str × ℤ :=
  let n : ℤ := nodes.length
  match nodes[((cursor.tmod n + n).tmod n).toNat]? with
  | none => ([], cursor)
  | some node => (node.id, cursor + 1)

/-- The weights that count: a node with a weight that is not positive has none. -/
def positiveWeight (n : SchedNode) : ℚ := if 0 < n.weight then n.weight else 0

/-- The loop of `PickWeighted`, with the last node behind it -/
def pickByWeight (last : SchedNode) : ℚ → List SchedNode → Str
  | _, [] => last.id
  | r, node :: rest =>
    if r - positiveWeight node < 0 then node.id
    else pickByWeight last (r - positiveWeight node) rest

/-- `PickWeighted` of a list that is not empty -/
def pickWeighted (first : SchedNode) (rest : List SchedNode) (draw : ℚ) : Str :=
  let nodes := first :: rest
  let total := (nodes.map positiveWeight).sum
  if total ≤ 0 then
    ((nodes[⌊draw * nodes.length⌋.toNat % nodes.length]?).getD first).id
  else pickByWeight ((first :: rest).getLastD first) (draw * total) nodes

/-- `Place`: the id of the node, empty if there is none, and the cursor behind it -/
def place (nodes : List SchedNode) (o : PlaceOptions) : Str × ℤ :=
  match eligibleNodes nodes o.req o.allowCommon with
  | [] => ([], o.cursor)
  | first :: rest =>
    match o.policy with
    | .weighted => (pickWeighted first rest o.draw, o.cursor)
    | .roundRobin => pickRoundRobin (first :: rest) o.cursor

/-- The working copy of `PlanFailover` behind a placement -/
def bumpLoad (id : Str) (n : SchedNode) : SchedNode :=
  if n.id = id then { n with load := n.load + 1 } else n

/-- `PlanFailover`: where each orphaned assignment goes, empty to park it.  `draw` is what
`Rand` returns for each of them. -/
def planFailover (draw : ℕ → ℚ) :
    List ℕ → List SchedNode → PlaceOptions → List (ℕ × Str) × ℤ
  | [], _, o => ([], o.cursor)
  | id :: ids, work, o =>
    let placed := place work { o with draw := draw id }
    let work := if placed.1 = [] then work else work.map (bumpLoad placed.1)
    let rest := planFailover draw ids work { o with cursor := placed.2 }
    ((id, placed.1) :: rest.1, rest.2)

/-! ## What is placed where -/

lemma mem_eligibleNodes {nodes : List SchedNode} {req : Option GridRequirements}
    {allowCommon : Bool} {n : SchedNode} :
    n ∈ eligibleNodes nodes req allowCommon ↔ n ∈ nodes ∧ eligible req allowCommon n = true := by
  rw [eligibleNodes, mem_insertionSort, mem_filter]

lemma pickRoundRobin_mem {nodes : List SchedNode} (hne : nodes ≠ []) (cursor : ℤ) :
    ∃ n ∈ nodes, (pickRoundRobin nodes cursor).1 = n.id := by
  have hpos : (0 : ℤ) < nodes.length := by exact_mod_cast length_pos_iff.mpr hne
  -- the index of the source is between zero and the length, whatever the cursor is
  have hindex : ((cursor.tmod nodes.length + nodes.length).tmod nodes.length).toNat <
      nodes.length := by
    have hupper := Int.tmod_lt_of_pos (cursor.tmod nodes.length + nodes.length) hpos
    omega
  refine ⟨_, getElem_mem hindex, ?_⟩
  rw [pickRoundRobin, getElem?_eq_getElem hindex]

lemma pickByWeight_mem (last : SchedNode) (r : ℚ) (nodes : List SchedNode) :
    ∃ n ∈ last :: nodes, pickByWeight last r nodes = n.id := by
  induction nodes generalizing r with
  | nil => exact ⟨last, mem_cons_self, rfl⟩
  | cons node rest ih =>
    rw [pickByWeight]
    split
    · exact ⟨node, by simp, rfl⟩
    obtain ⟨n, hn, heq⟩ := ih (r - positiveWeight node)
    rcases mem_cons.mp hn with rfl | hrest
    · exact ⟨n, mem_cons_self, heq⟩
    · exact ⟨n, by simp [hrest], heq⟩

lemma pickWeighted_mem (first : SchedNode) (rest : List SchedNode) (draw : ℚ) :
    ∃ n ∈ first :: rest, pickWeighted first rest draw = n.id := by
  unfold pickWeighted
  dsimp only
  split
  · refine ⟨_, ?_, rfl⟩
    have hindex : ⌊draw * (first :: rest).length⌋.toNat % (first :: rest).length <
        (first :: rest).length := Nat.mod_lt _ (by simp)
    rw [getElem?_eq_getElem hindex]
    exact getElem_mem hindex
  · have hlast : (first :: rest).getLastD first ∈ first :: rest := by
      exact getLast_mem _
    obtain ⟨n, hn, heq⟩ := pickByWeight_mem ((first :: rest).getLastD first)
      (draw * ((first :: rest).map positiveWeight).sum) (first :: rest)
    refine ⟨n, ?_, heq⟩
    rcases mem_cons.mp hn with rfl | hmem
    · exact hlast
    · exact hmem

/-- A node is placed exactly if one is eligible, and then it is one of those. -/
lemma place_spec (nodes : List SchedNode) (o : PlaceOptions) :
    (eligibleNodes nodes o.req o.allowCommon = [] ∧ place nodes o = ([], o.cursor)) ∨
      ∃ n ∈ eligibleNodes nodes o.req o.allowCommon, (place nodes o).1 = n.id := by
  unfold place
  cases hnodes : eligibleNodes nodes o.req o.allowCommon with
  | nil => exact .inl ⟨rfl, rfl⟩
  | cons first rest =>
    refine .inr ?_
    cases o.policy with
    | weighted => exact pickWeighted_mem first rest o.draw
    | roundRobin => exact pickRoundRobin_mem (cons_ne_nil first rest) o.cursor

/-! ## Failover -/

/-- A node with what a plan places on it -/
def planned (moves : List (ℕ × Str)) (n : SchedNode) : SchedNode :=
  { n with load := n.load + (moves.map Prod.snd).count n.id }

section

variable (req : Option GridRequirements) (allowCommon : Bool)

/-- Work that a plan parks finds no node eligible with what the plan places on it; work that
it moves goes to an eligible node, which has room for all that the plan places on it. -/
def Settled (nodes : List SchedNode) (moves : List (ℕ × Str)) (target : Str) : Prop :=
  (target = [] ∧ ∀ n ∈ nodes, eligible req allowCommon (planned moves n) = false) ∨
    ∃ n ∈ nodes, n.id = target ∧ eligible req allowCommon n = true ∧
      ∀ most ∈ vramMaxStreams n, (planned moves n).load ≤ most

variable {req allowCommon}

lemma bumpLoad_eq (target : Str) (n : SchedNode) :
    bumpLoad target n = { n with load := n.load + if n.id = target then 1 else 0 } := by
  unfold bumpLoad
  split <;> rfl

lemma planned_cons (id : ℕ) (target : Str) (moves : List (ℕ × Str)) (n : SchedNode) :
    planned ((id, target) :: moves) n = planned moves (bumpLoad target n) := by
  rw [bumpLoad_eq]
  simp only [planned, map_cons, count_cons, beq_iff_eq, eq_comm (a := target)]
  congr 1
  omega

/-- A node that is eligible with more work is eligible. -/
lemma eligible_of_load {n : SchedNode} {k : ℕ}
    (h : eligible req allowCommon { n with load := n.load + k } = true) :
    eligible req allowCommon n = true := by
  rw [eligible, Bool.and_eq_true] at h ⊢
  obtain ⟨hother, hroom⟩ := h
  refine ⟨hother, ?_⟩
  unfold hasCapacity at hroom ⊢
  split
  · rfl
  · rename_i most hmost
    have hmost' : vramMaxStreams { n with load := n.load + k } = some most := hmost
    simp only [hmost', decide_eq_true_eq] at hroom ⊢
    omega

/-- What is settled behind a placement is settled in terms of the nodes before it. -/
lemma Settled.cons {nodes : List SchedNode} {moves : List (ℕ × Str)} {placed target : Str} (id : ℕ)
    (h : Settled req allowCommon (nodes.map (bumpLoad placed)) moves target) :
    Settled req allowCommon nodes ((id, placed) :: moves) target := by
  unfold Settled
  simp only [planned_cons]
  rcases h with ⟨hpark, hfull⟩ | ⟨_, hmem, hid, heligible, hroom⟩
  · exact .inl ⟨hpark, fun n hn => hfull _ (mem_map_of_mem hn)⟩
  · obtain ⟨n, hn, rfl⟩ := mem_map.mp hmem
    -- a placement only adds to the load, so the node was eligible before it
    rw [bumpLoad_eq] at hid heligible
    refine .inr ⟨n, hn, hid, eligible_of_load heligible, fun most hmost => hroom most ?_⟩
    rw [bumpLoad_eq]
    exact hmost

end

/-- The last assignment to be placed somewhere is settled. -/
lemma Settled.last {nodes : List SchedNode} {moves : List (ℕ × Str)} {o : PlaceOptions}
    {placed : Str} (hplace : (place nodes o).1 = placed) (hlast : placed ∉ moves.map Prod.snd)
    (id : ℕ) : Settled o.req o.allowCommon nodes ((id, placed) :: moves) placed := by
  subst hplace
  rcases place_spec nodes o with ⟨hnone, hpark⟩ | ⟨n, hn, hid⟩
  · refine .inl ⟨congrArg Prod.fst hpark, fun n hn => Bool.eq_false_iff.mpr fun h => ?_⟩
    have hmem := mem_eligibleNodes.mpr ⟨hn, eligible_of_load h⟩
    rw [hnone] at hmem
    cases hmem
  · obtain ⟨hn, heligible⟩ := mem_eligibleNodes.mp hn
    rw [hid] at hlast ⊢
    refine .inr ⟨n, hn, rfl, heligible, fun most hmost => ?_⟩
    rw [eligible, Bool.and_eq_true, hasCapacity, Option.mem_def.mp hmost] at heligible
    have hroom := of_decide_eq_true heligible.2
    simp only [planned, map_cons, count_cons_self, count_eq_zero_of_not_mem hlast]
    omega

/-- A plan of failover moves work to eligible nodes and none of them gets more than it has room
for, and it parks work only if it fills every node that could take it. -/
theorem planFailover_settled (draw : ℕ → ℚ) (ids : List ℕ) (nodes : List SchedNode)
    (o : PlaceOptions) (hids : ∀ n ∈ nodes, n.id ≠ []) :
    ∀ move ∈ (planFailover draw ids nodes o).1,
      Settled o.req o.allowCommon nodes (planFailover draw ids nodes o).1 move.2 := by
  -- the nodes of the rest of the plan have the first placement in their load
  induction ids generalizing nodes o with
  | nil => simp [planFailover]
  | cons id ids ih =>
    rcases hplace : place nodes { o with draw := draw id } with ⟨placed, cursor⟩
    -- parked work bumps the load of no node
    have hwork : (if placed = [] then nodes else nodes.map (bumpLoad placed)) =
        nodes.map (bumpLoad placed) := by
      split
      · rename_i hpark
        have hsame : ∀ n ∈ nodes, bumpLoad placed n = n := fun n hn => if_neg (hpark ▸ hids n hn)
        rw [map_congr_left hsame, map_id']
      · rfl
    simp only [planFailover, hplace, hwork]
    have hrest := ih (nodes.map (bumpLoad placed)) { o with cursor := cursor }
      (by simpa [bumpLoad_eq] using hids)
    intro move hmove
    rcases mem_cons.mp hmove with rfl | hmove
    · by_cases hmore : placed ∈ (planFailover draw ids (nodes.map (bumpLoad placed))
          { o with cursor := cursor }).1.map Prod.snd
      · obtain ⟨other, hother, rfl⟩ := mem_map.mp hmore
        exact (hrest other hother).cons id
      · exact .last (congrArg Prod.fst hplace) hmore id
    · exact (hrest move hmove).cons id

/-- A node with room for one stream -/
def small : SchedNode :=
  ⟨str "n1", .edge, 1, str "active", true, some ⟨true, none, some 700, []⟩, 0⟩

def twoOnSmall : List (ℕ × Str) :=
  (planFailover (fun _ => 0) [1, 2] [small] ⟨.roundRobin, none, false, 0, 0⟩).1

theorem planFailover_settled_small : twoOnSmall = [(1, str "n1"), (2, [])] ∧
    ∀ move ∈ twoOnSmall, Settled none false [small] twoOnSmall move.2 :=
  ⟨by decide +kernel, planFailover_settled _ _ _ _ (by decide)⟩

end StreamHub.Edge
