import Mathlib.Tactic

/-!
# Depth-first search for a cycle

A directed graph is a list of edges; `search` goes through it from a list of nodes
with three colours, white for a node not seen, grey for one whose successors are
being visited, black for one that is done, and stops at the first edge into a grey
node.  `search_ok_iff` says that it goes through exactly when the graph has no
cycle.

The recursion is bounded by a number of levels; the nodes still white bound how
many it needs (`visit_spec`), so the search itself is total.
-/

namespace StreamHub.Library.Search

open Relation List Function

variable {α : Type*}

inductive Color
  | white
  | grey
  | black
  deriving DecidableEq

/-- What is left of a search: the node an edge leads back to, or the colours. -/
abbrev Outcome (α : Type*) := Except α (α → Color)

section Definitions

variable [DecidableEq α]

def successors (edges : List (α × α)) (v : α) : List α :=
  (edges.filter fun e => e.1 = v).map Prod.snd

/-- Go through the successors of a grey node. -/
def visitAll (visit : (α → Color) → α → Option (Outcome α)) :
    List α → (α → Color) → Option (Outcome α)
  | [], color => some (.ok color)
  | next :: rest, color =>
    match color next with
    | .grey => some (.error next)
    | .black => visitAll visit rest color
    | .white =>
      match visit color next with
      | some (.ok color) => visitAll visit rest color
      | stopped => stopped

/-- Visit a white node; nothing when the levels run out. -/
def visit (edges : List (α × α)) : ℕ → (α → Color) → α → Option (Outcome α)
  | 0, _, _ => none
  | levels + 1, color, node =>
    match visitAll (visit edges levels) (successors edges node)
        (update color node .grey) with
    | some (.ok color) => some (.ok (update color node .black))
    | stopped => stopped

/-- Visit the nodes that are still white, one after another. -/
def visitRoots (visit : (α → Color) → α → Option (Outcome α)) :
    List α → (α → Color) → Option (Outcome α)
  | [], color => some (.ok color)
  | root :: rest, color =>
    if color root = .white then
      match visit color root with
      | some (.ok color) => visitRoots visit rest color
      | stopped => stopped
    else visitRoots visit rest color

/-- Every node the search can come to. -/
def allNodes (nodes : List α) (edges : List (α × α)) : List α := nodes ++ edges.map Prod.snd

def unseen (nodes : Finset α) (color : α → Color) : Finset α :=
  nodes.filter fun v => color v = .white

end Definitions

/-- An edge of the graph. -/
def Edge (edges : List (α × α)) (v w : α) : Prop := (v, w) ∈ edges

/-- What the black nodes satisfy at any time. -/
structure Sound (edges : List (α × α)) (color : α → Color) : Prop where
  closed : ∀ {v w}, color v = .black → Edge edges v w → color w = .black
  acyclic : ∀ {v}, color v = .black → ¬TransGen (Edge edges) v v

/-- The grey nodes stay, white ones may become black. -/
structure Extends (color color' : α → Color) : Prop where
  grey : ∀ v, color' v = .grey ↔ color v = .grey
  black : ∀ {v}, color v = .black → color' v = .black

/-- What a search that had to see `targets` leaves behind. -/
def Explored (edges : List (α × α)) (color : α → Color) (targets : List α) :
    Outcome α → Prop
  | .error v => TransGen (Edge edges) v v
  | .ok color' => Sound edges color' ∧ Extends color color' ∧ ∀ v ∈ targets, color' v = .black

lemma Extends.refl (color : α → Color) : Extends color color := ⟨fun _ => Iff.rfl, fun h => h⟩

lemma Extends.trans {c c' c'' : α → Color} (h : Extends c c') (h' : Extends c' c'') :
    Extends c c'' := ⟨fun v => (h'.grey v).trans (h.grey v), fun hv => h'.black (h.black hv)⟩

lemma Extends.white {c c' : α → Color} (h : Extends c c') {v : α} (hv : c' v = .white) :
    c v = .white := by
  cases hc : c v with
  | white => rfl
  | grey =>
    rw [(h.grey v).mpr hc] at hv
    cases hv
  | black =>
    rw [h.black hc] at hv
    cases hv

lemma Sound.reachable {edges : List (α × α)} {color : α → Color} (h : Sound edges color)
    {v w : α} (hv : color v = .black) (hvw : TransGen (Edge edges) v w) : color w = .black := by
  induction hvw with
  | single hedge => exact h.closed hv hedge
  | tail _ hedge ih => exact h.closed ih hedge

lemma Explored.after {edges : List (α × α)} {c c' : α → Color} (seen : List α) {rest : List α}
    (hext : Extends c c') (hseen : ∀ v ∈ seen, c' v = .black) {outcome : Outcome α}
    (h : Explored edges c' rest outcome) : Explored edges c (seen ++ rest) outcome := by
  cases outcome with
  | error v => exact h
  | ok c'' =>
    obtain ⟨hsound, hext', hrest⟩ := h
    exact ⟨hsound, hext.trans hext',
      forall_mem_append.mpr ⟨fun v hv => hext'.black (hseen v hv), hrest⟩⟩

section Search

variable [DecidableEq α] {edges : List (α × α)} {nodes : Finset α} {color : α → Color}

lemma mem_successors {v w : α} : w ∈ successors edges v ↔ Edge edges v w := by
  simp [successors, Edge]

omit [DecidableEq α] in
lemma unseen_mono {c c' : α → Color} (h : Extends c c') : unseen nodes c' ⊆ unseen nodes c :=
  Finset.monotone_filter_right nodes fun _ _ hv => h.white hv

lemma card_unseen_update {node : α} {levels : ℕ} (hnode : node ∈ nodes)
    (hwhite : color node = .white) (hlevels : (unseen nodes color).card ≤ levels + 1) :
    (unseen nodes (update color node .grey)).card ≤ levels := by
  have hlt : (unseen nodes (update color node .grey)).card < (unseen nodes color).card := by
    apply Finset.card_lt_card
    refine Finset.ssubset_iff_subset_ne.mpr ⟨fun v hv => ?_, fun heq => ?_⟩
    · have hne : v ≠ node := by
        rintro rfl
        simp [unseen] at hv
      simpa [unseen, hne] using hv
    · have hmem : node ∈ unseen nodes color := by simp [unseen, hnode, hwhite]
      rw [← heq] at hmem
      simp [unseen] at hmem
  omega

/-- What a search from one white node does, for a node that all grey ones lead to. -/
def VisitSpec (edges : List (α × α)) (nodes : Finset α) (levels : ℕ)
    (visit : (α → Color) → α → Option (Outcome α)) : Prop :=
  ∀ color node, Sound edges color → color node = .white → node ∈ nodes →
    (∀ v, color v = .grey → TransGen (Edge edges) v node) →
    (unseen nodes color).card ≤ levels →
    ∃ outcome, visit color node = some outcome ∧ Explored edges color [node] outcome

omit [DecidableEq α] in
/-- The loop over the successors of a grey node, or over the roots with no grey node. -/
lemma visitAll_spec {visit : (α → Color) → α → Option (Outcome α)} {levels : ℕ}
    (hvisit : VisitSpec edges nodes levels visit) {targets : List α}
    (htargets : ∀ w ∈ targets, w ∈ nodes) (hsound : Sound edges color)
    (hgrey : ∀ v, color v = .grey → ∀ w ∈ targets, TransGen (Edge edges) v w)
    (hlevels : (unseen nodes color).card ≤ levels) :
    ∃ outcome, visitAll visit targets color = some outcome ∧
      ((∀ v, color v ≠ .grey) → visitRoots visit targets color = some outcome) ∧
      Explored edges color targets outcome := by
  induction targets generalizing color with
  | nil => exact ⟨.ok color, rfl, fun _ => rfl, hsound, Extends.refl color, by simp⟩
  | cons next rest ih =>
    obtain ⟨hnext, hrest⟩ := forall_mem_cons.mp htargets
    have hgrey' := fun v hv w hw => hgrey v hv w (mem_cons_of_mem next hw)
    rw [visitAll, visitRoots]
    cases hcolor : color next with
    | grey =>
      -- the grey node leads to this one, which has an edge back to it
      exact ⟨.error next, rfl, fun hnone => absurd hcolor (hnone next),
        hgrey next hcolor next mem_cons_self⟩
    | black =>
      obtain ⟨outcome, hrun, hroots, hexplored⟩ := ih hrest hsound hgrey' hlevels
      refine ⟨outcome, hrun, hroots, ?_⟩
      exact Explored.after [next] (Extends.refl color) (by simpa using hcolor) hexplored
    | white =>
      obtain ⟨outcome, hrun, hexplored⟩ := hvisit color next hsound hcolor hnext
        (fun v hv => hgrey v hv next mem_cons_self) hlevels
      rw [hrun]
      cases outcome with
      | error v => exact ⟨.error v, rfl, fun _ => rfl, hexplored⟩
      | ok color' =>
        obtain ⟨hsound', hext, hseen⟩ := hexplored
        obtain ⟨outcome, hrun', hroots, hexplored'⟩ := ih hrest hsound'
          (fun v hv => hgrey' v ((hext.grey v).mp hv))
          ((Finset.card_le_card (unseen_mono hext)).trans hlevels)
        exact ⟨outcome, hrun', fun hnone => hroots fun v hv => hnone v ((hext.grey v).mp hv),
          Explored.after [next] hext hseen hexplored'⟩

/-- A grey node becomes black once its successors are. -/
lemma Sound.finish {node : α} (h : Sound edges color) (hgrey : color node = .grey)
    (hsucc : ∀ w ∈ successors edges node, color w = .black) :
    Sound edges (update color node .black) := by
  have hblack : ∀ {w}, color w = .black → update color node .black w = .black := by
    intro w hw
    by_cases hwn : w = node
    · rw [hwn, update_self]
    · rwa [update_of_ne hwn]
  refine ⟨fun {v w} hv hedge => ?_, fun {v} hv hcycle => ?_⟩
  · by_cases hvn : v = node
    · rw [hvn] at hedge
      exact hblack (hsucc w (mem_successors.mpr hedge))
    · rw [update_of_ne hvn] at hv
      exact hblack (h.closed hv hedge)
  · by_cases hvn : v = node
    · -- the first step of the cycle is black, and from there the grey node is reached
      subst hvn
      obtain ⟨w, hedge, hwv⟩ := TransGen.head'_iff.mp hcycle
      have hw := hsucc w (mem_successors.mpr hedge)
      have hv' : color v = .black := by
        rcases reflTransGen_iff_eq_or_transGen.mp hwv with heq | hwv
        · rw [heq]
          exact hw
        · exact h.reachable hw hwv
      rw [hgrey] at hv'
      cases hv'
    · rw [update_of_ne hvn] at hv
      exact h.acyclic hv hcycle

lemma Sound.begin {node : α} (h : Sound edges color) (hwhite : color node = .white) :
    Sound edges (update color node .grey) := by
  have hold : ∀ {v}, update color node .grey v = .black → color v = .black := by
    intro v hv
    have hvn : v ≠ node := by
      rintro rfl
      simp at hv
    rwa [update_of_ne hvn] at hv
  refine ⟨fun {v w} hv hedge => ?_, fun hv => h.acyclic (hold hv)⟩
  have hw := h.closed (hold hv) hedge
  have hwn : w ≠ node := by
    rintro rfl
    rw [hwhite] at hw
    cases hw
  rwa [update_of_ne hwn]

lemma Extends.visited {node : α} {color' : α → Color} (hwhite : color node = .white)
    (h : Extends (update color node .grey) color') : Extends color (update color' node .black) := by
  have hother : ∀ {v}, v ≠ node → update color node .grey v = color v :=
    fun hvn => update_of_ne hvn ..
  refine ⟨fun v => ?_, fun {v} hv => ?_⟩
  · by_cases hvn : v = node
    · simp [hvn, hwhite]
    · rw [update_of_ne hvn, h.grey v, hother hvn]
  · by_cases hvn : v = node
    · rw [hvn, update_self]
    · rw [update_of_ne hvn]
      exact h.black ((hother hvn).trans hv)

/-- As many levels as there are white nodes are enough. -/
lemma visit_spec (hnodes : ∀ v w, Edge edges v w → w ∈ nodes) (levels : ℕ) :
    VisitSpec edges nodes levels (visit edges levels) := by
  induction levels with
  | zero =>
    intro color node _ hwhite hnode _ hlevels
    have hmem : node ∈ unseen nodes color := by simp [unseen, hnode, hwhite]
    rw [Finset.card_eq_zero.mp (Nat.le_zero.mp hlevels)] at hmem
    cases hmem
  | succ levels ih =>
    intro color node hsound hwhite hnode hgrey hlevels
    have htargets : ∀ w ∈ successors edges node, w ∈ nodes := fun w hw =>
      hnodes node w (mem_successors.mp hw)
    have hgrey' : ∀ v, update color node .grey v = .grey →
        ∀ w ∈ successors edges node, TransGen (Edge edges) v w := by
      intro v hv w hw
      by_cases hvn : v = node
      · rw [hvn]
        exact .single (mem_successors.mp hw)
      rw [update_of_ne hvn] at hv
      exact (hgrey v hv).tail (mem_successors.mp hw)
    obtain ⟨outcome, hrun, -, hexplored⟩ := visitAll_spec ih htargets (hsound.begin hwhite)
      hgrey' (card_unseen_update hnode hwhite hlevels)
    rw [visit, hrun]
    cases outcome with
    | error v => exact ⟨.error v, rfl, hexplored⟩
    | ok color' =>
      obtain ⟨hsound', hext, hseen⟩ := hexplored
      have hnode' : color' node = .grey := (hext.grey node).mpr (by simp)
      exact ⟨_, rfl, hsound'.finish hnode' hseen, hext.visited hwhite, by simp⟩

lemma searchLevels_spec (roots : List α) (edges : List (α × α)) :
    ∃ outcome, visitRoots (visit edges (allNodes roots edges).length) roots (fun _ => .white) =
        some outcome ∧ Explored edges (fun _ => .white) roots outcome := by
  have hnodes : ∀ v w, Edge edges v w → w ∈ (allNodes roots edges).toFinset := by
    intro v w hedge
    have hmem : w ∈ edges.map Prod.snd := mem_map.mpr ⟨(v, w), hedge, rfl⟩
    simp only [allNodes, mem_toFinset, mem_append]
    exact .inr hmem
  have hroots : ∀ v ∈ roots, v ∈ (allNodes roots edges).toFinset := fun v hv =>
    mem_toFinset.mpr (mem_append_left _ hv)
  have hsound : Sound edges fun _ => .white := ⟨by simp, by simp⟩
  obtain ⟨outcome, -, hrun, hexplored⟩ := visitAll_spec (visit_spec hnodes _) hroots hsound
    (by simp) ((Finset.card_filter_le _ _).trans (toFinset_card_le _))
  exact ⟨outcome, hrun (by simp), hexplored⟩

/-- Search a graph from the given nodes. -/
def search (roots : List α) (edges : List (α × α)) : Outcome α :=
  (visitRoots (visit edges (allNodes roots edges).length) roots (fun _ => .white)).get (by
    obtain ⟨outcome, hrun, -⟩ := searchLevels_spec roots edges
    rw [hrun]
    rfl)

lemma search_explored (roots : List α) (edges : List (α × α)) :
    Explored edges (fun _ => .white) roots (search roots edges) := by
  obtain ⟨outcome, hrun, hexplored⟩ := searchLevels_spec roots edges
  have hsearch : search roots edges = outcome := by simp only [search, hrun, Option.get_some]
  rw [hsearch]
  exact hexplored

lemma search_ok_iff {roots : List α} {edges : List (α × α)}
    (hroots : ∀ v w, Edge edges v w → v ∈ roots) :
    (∃ color, search roots edges = .ok color) ↔ ∀ v, ¬TransGen (Edge edges) v v := by
  have hexplored := search_explored roots edges
  constructor
  · rintro ⟨color, hok⟩ v hcycle
    rw [hok] at hexplored
    obtain ⟨hsound, -, hseen⟩ := hexplored
    obtain ⟨w, hedge, -⟩ := TransGen.head'_iff.mp hcycle
    exact hsound.acyclic (hseen v (hroots v w hedge)) hcycle
  · intro hacyclic
    cases hrun : search roots edges with
    | ok color => exact ⟨color, rfl⟩
    | error v =>
      rw [hrun] at hexplored
      exact absurd hexplored (hacyclic v)

end Search

end StreamHub.Library.Search
