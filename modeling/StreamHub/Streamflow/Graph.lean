import StreamHub.Library.Search
import StreamHub.Yamljs.Value

/-!
# Workflow graphs

A stored graph is any JSON value; `normalizeGraph` takes its lists of boxes and
edges, which stay values.  An edge names its ends as `box` or `box:port`.
`validateGraph` accepts a graph exactly when it is well formed
(`validateGraph_eq_ok_iff`); the search for a cycle is `Library.Search`.
-/

namespace StreamHub.Streamflow

open Library Text OrderedMap Yamljs
open List hiding get

/-- `Graph` -/
structure Graph where
  boxes : List Value
  edges : List Value

/-- `asObject`: the members of an object, and none for any other value. -/
def asObject : Value → List (Str × Value)
  | .obj m => m
  | _ => []

/-- `field`: undefined for what is not an object. -/
def field (v : Value) (k : Str) : Value :=
  match v with
  | .obj m => get m k
  | _ => .undefined

def normalizeGraph (graph : Value) : Graph where
  boxes := (get (asObject graph) (str "boxes")).items
  edges := (get (asObject graph) (str "edges")).items

def boxID (b : Value) : Str := (field b (str "id")).text?.getD []

def boxType (b : Value) : Str := (field b (str "type")).text?.getD []

def boxConfig (b : Value) : List (Str × Value) := asObject (field b (str "config"))

def endpointText (js : Js) (ep : Value) : Str := (ep.coalesce (.str [])).toText js

def endpointBox (js : Js) (ep : Value) : Str :=
  match cut (str ":") (endpointText js ep) with
  | none => endpointText js ep
  | some (box, _) => box

/-- A port no box returns. -/
def noPort : Str := [0x00]

def endpointPort (js : Js) (ep explicit : Value) (default : Str) : Str :=
  match explicit with
  | .undefined | .str [] =>
    match cut (str ":") (endpointText js ep) with
    | none => default
    | some (_, port) => port
  | .str port => port
  | _ => noPort

def edgeFromBox (js : Js) (e : Value) : Str := endpointBox js (field e (str "from"))

def edgeFromPort (js : Js) (e : Value) : Str :=
  endpointPort js (field e (str "from")) (field e (str "fromPort")) (str "out")

def edgeToBox (js : Js) (e : Value) : Str := endpointBox js (field e (str "to"))

/-! ## Validation -/

/-- The loop over the boxes, with the ids seen so far. -/
def checkBoxes : List Value → List Str → Except Str (List Str)
  | [], ids => .ok ids
  | b :: rest, ids =>
    match (field b (str "id")).text? with
    | none => .error (str "every box needs a non-empty string id")
    | some id =>
      if id = [] then .error (str "every box needs a non-empty string id")
      else if id ∈ ids then .error (str "duplicate box id '" ++ id ++ str "'")
      else checkBoxes rest (id :: ids)

/-- The loop over the edges. -/
def checkEdges (js : Js) (ids : List Str) : List Value → Except Str Unit
  | [] => .ok ()
  | e :: rest =>
    if edgeFromBox js e ∉ ids then
      .error (str "edge from unknown box '" ++ edgeFromBox js e ++ str "'")
    else if edgeToBox js e ∉ ids then
      .error (str "edge to unknown box '" ++ edgeToBox js e ++ str "'")
    else checkEdges js ids rest

/-- The edges that leave a box, by the ids. -/
def adjacency (js : Js) (g : Graph) : List (Str × Str) :=
  (g.edges.map fun e => (edgeFromBox js e, edgeToBox js e)).filter fun e =>
    decide (e.1 ∈ g.boxes.map boxID)

def assertAcyclic (js : Js) (g : Graph) : Except Str Unit :=
  match Search.search (g.boxes.map boxID) (adjacency js g) with
  | .error next => .error (str "cycle through box '" ++ next ++ str "'")
  | .ok _ => .ok ()

def validateGraph (js : Js) (g : Graph) : Except Str Unit :=
  match checkBoxes g.boxes [] with
  | .error err => .error err
  | .ok ids =>
    match checkEdges js ids g.edges with
    | .error err => .error err
    | .ok _ => assertAcyclic js g

/-! ## Well-formed graphs -/

/-- An edge between two ids. -/
def Leads (js : Js) (g : Graph) (id id' : Str) : Prop :=
  ∃ e ∈ g.edges, edgeFromBox js e = id ∧ edgeToBox js e = id'

/-- What a graph has to satisfy. -/
structure WellFormed (js : Js) (g : Graph) : Prop where
  ids : ∀ b ∈ g.boxes, ∃ m id, b = .obj m ∧ get m (str "id") = .str id ∧ id ≠ []
  distinct : (g.boxes.map boxID).Nodup
  sources : ∀ e ∈ g.edges, edgeFromBox js e ∈ g.boxes.map boxID
  targets : ∀ e ∈ g.edges, edgeToBox js e ∈ g.boxes.map boxID
  acyclic : ∀ id, ¬Relation.TransGen (Leads js g) id id

lemma text?_eq_some {v : Value} {s : Str} : v.text? = some s ↔ v = .str s := by
  cases v with
  | str s' | _ => simp [Value.text?]

lemma boxID_of_text {b : Value} {id : Str} (h : (field b (str "id")).text? = some id) :
    boxID b = id := by
  rw [boxID, h]
  rfl

lemma field_eq_str_iff {b : Value} {k s : Str} :
    field b k = .str s ↔ ∃ m, b = .obj m ∧ get m k = .str s := by
  cases b with
  | obj m | _ => simp [field]

lemma checkBoxes_eq_ok_iff {boxes : List Value} {ids ids' : List Str} :
    checkBoxes boxes ids = .ok ids' ↔
      ids' = (boxes.map boxID).reverse ++ ids ∧
        (∀ b ∈ boxes, ∃ m id, b = .obj m ∧ get m (str "id") = .str id ∧ id ≠ []) ∧
        (boxes.map boxID).Nodup ∧ ∀ b ∈ boxes, boxID b ∉ ids := by
  induction boxes generalizing ids with
  | nil =>
    simp only [checkBoxes, Except.ok.injEq, map_nil, reverse_nil, nil_append]
    exact ⟨fun h => ⟨h.symm, by simp⟩, fun h => h.1.symm⟩
  | cons b rest ih =>
    rw [checkBoxes]
    cases hid : (field b (str "id")).text? with
    | none =>
      simp only [reduceCtorEq, false_iff]
      rintro ⟨-, hboxes, -⟩
      obtain ⟨m, id, hb, hget, -⟩ := hboxes b mem_cons_self
      have hfield := text?_eq_some.mpr (field_eq_str_iff.mpr ⟨m, hb, hget⟩)
      rw [hid] at hfield
      cases hfield
    | some id =>
      have hb : boxID b = id := boxID_of_text hid
      have hbox : ∃ m, b = .obj m ∧ get m (str "id") = .str id :=
        field_eq_str_iff.mp (text?_eq_some.mp hid)
      dsimp only
      by_cases hempty : id = []
      · rw [if_pos hempty]
        simp only [reduceCtorEq, false_iff]
        rintro ⟨-, hboxes, -⟩
        obtain ⟨m, id', hm, hget, hne⟩ := hboxes b mem_cons_self
        obtain ⟨m', hm', hget'⟩ := hbox
        rw [hm] at hm'
        cases hm'
        rw [hget] at hget'
        cases hget'
        exact hne hempty
      · rw [if_neg hempty]
        by_cases hseen : id ∈ ids
        · rw [if_pos hseen]
          simp only [reduceCtorEq, false_iff]
          rintro ⟨-, -, -, hfresh⟩
          exact hfresh b mem_cons_self (by rwa [hb])
        rw [if_neg hseen, ih]
        obtain ⟨m, hm, hget⟩ := hbox
        simp only [forall_mem_cons]
        simp only [map_cons, reverse_cons, append_assoc, singleton_append,
          nodup_cons, mem_map, not_exists, not_and, hb, mem_cons, not_or]
        constructor
        · rintro ⟨hids, hboxes, hnodup, hfresh⟩
          exact ⟨hids, ⟨⟨m, id, hm, hget, hempty⟩, hboxes⟩,
            ⟨fun b' hb' => (hfresh b' hb').1, hnodup⟩, hseen, fun b' hb' => (hfresh b' hb').2⟩
        · rintro ⟨hids, ⟨-, hboxes⟩, ⟨hother, hnodup⟩, -, hfresh⟩
          exact ⟨hids, hboxes, hnodup, fun b' hb' => ⟨hother b' hb', hfresh b' hb'⟩⟩

variable {js : Js}

lemma checkEdges_eq_ok_iff {ids : List Str} {edges : List Value} :
    checkEdges js ids edges = .ok () ↔
      ∀ e ∈ edges, edgeFromBox js e ∈ ids ∧ edgeToBox js e ∈ ids := by
  induction edges with
  | nil => simp [checkEdges]
  | cons e rest ih =>
    rw [checkEdges, forall_mem_cons, ← ih]
    by_cases hfrom : edgeFromBox js e ∈ ids
    · rw [if_neg (not_not_intro hfrom)]
      by_cases hto : edgeToBox js e ∈ ids
      · simp [hfrom, hto]
      · simp [hto]
    · simp [hfrom]

variable {g : Graph}

lemma edge_adjacency {id id' : Str} :
    Search.Edge (adjacency js g) id id' ↔ Leads js g id id' ∧ id ∈ g.boxes.map boxID := by
  simp only [Search.Edge, adjacency, mem_filter, mem_map, Prod.mk.injEq, decide_eq_true_eq, Leads]

lemma assertAcyclic_eq_ok_iff (hsources : ∀ e ∈ g.edges, edgeFromBox js e ∈ g.boxes.map boxID) :
    assertAcyclic js g = .ok () ↔ ∀ id, ¬Relation.TransGen (Leads js g) id id := by
  have hedges : Search.Edge (adjacency js g) = Leads js g := by
    funext id id'
    rw [edge_adjacency, eq_iff_iff, and_iff_left_iff_imp]
    rintro ⟨e, he, rfl, -⟩
    exact hsources e he
  have hroots : ∀ id id', Search.Edge (adjacency js g) id id' → id ∈ g.boxes.map boxID :=
    fun id id' h => (edge_adjacency.mp h).2
  rw [← hedges, ← Search.search_ok_iff hroots, assertAcyclic]
  cases Search.search (g.boxes.map boxID) (adjacency js g) with
  | error next => simp
  | ok color => simp

/-- What is known of an accepted graph. -/
lemma WellFormed.of_validateGraph (h : validateGraph js g = .ok ()) : WellFormed js g := by
  rw [validateGraph] at h
  cases hboxes : checkBoxes g.boxes [] with
  | error err =>
    rw [hboxes] at h
    cases h
  | ok ids =>
    rw [hboxes] at h
    dsimp only at h
    obtain ⟨hids, hobjects, hnodup, -⟩ := checkBoxes_eq_ok_iff.mp hboxes
    cases hedges : checkEdges js ids g.edges with
    | error err =>
      rw [hedges] at h
      cases h
    | ok u =>
      rw [hedges] at h
      have hends := checkEdges_eq_ok_iff.mp hedges
      have hmem : ∀ id, id ∈ ids ↔ id ∈ g.boxes.map boxID := by
        intro id
        rw [hids]
        simp
      have hsources := fun e he => (hmem _).mp (hends e he).1
      exact {
        ids := hobjects
        distinct := hnodup
        sources := hsources
        targets := fun e he => (hmem _).mp (hends e he).2
        acyclic := (assertAcyclic_eq_ok_iff hsources).mp h }

lemma WellFormed.validateGraph (h : WellFormed js g) : validateGraph js g = .ok () := by
  have hboxes : checkBoxes g.boxes [] = .ok ((g.boxes.map boxID).reverse ++ []) :=
    checkBoxes_eq_ok_iff.mpr ⟨rfl, h.ids, h.distinct, by simp⟩
  have hedges : checkEdges js ((g.boxes.map boxID).reverse ++ []) g.edges = .ok () := by
    refine checkEdges_eq_ok_iff.mpr fun e he => ?_
    have hfrom := h.sources e he
    have hto := h.targets e he
    simp only [append_nil, mem_reverse]
    exact ⟨hfrom, hto⟩
  rw [Streamflow.validateGraph, hboxes]
  dsimp only
  rw [hedges]
  exact (assertAcyclic_eq_ok_iff h.sources).mpr h.acyclic

/-- A graph is accepted exactly when it is well formed. -/
theorem validateGraph_eq_ok_iff (js : Js) (g : Graph) :
    validateGraph js g = .ok () ↔ WellFormed js g :=
  ⟨WellFormed.of_validateGraph, WellFormed.validateGraph⟩

/-! ## The box a run starts at -/

/-- `findTriggerBox`: a box whose type is preferred, else the first one no edge
leads to, else the first. -/
def findTriggerBox (js : Js) (g : Graph) (prefer : Str → Bool) : Option Value :=
  match g.boxes.find? (fun b => (field b (str "type")).text?.any prefer) with
  | some b => some b
  | none =>
    let targets := g.edges.map (edgeToBox js)
    match g.boxes.find? (fun b => (field b (str "id")).toText js ∉ targets) with
    | some b => some b
    | none => g.boxes.head?

end StreamHub.Streamflow
