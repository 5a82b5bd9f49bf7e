import StreamHub.Streamflow.Portable

/-!
# Imported workflows

`importWorkflow` reads what `exportWorkflow` wrote: it takes the graph and the name,
refuses box types that are not in the catalogue, and validates the graph.

* `importWorkflow_exportWorkflow` - an accepted graph of known boxes comes back, with
  the values of its box configs that the export lists as redacted emptied;
* exporting what was imported gives the same graph, since a stripped config is not
  changed by stripping it again (`exportBox_exportBox`).
-/

namespace StreamHub.Streamflow

open Library Text OrderedMap Yamljs

/-! ## The catalogue -/

/-- The types of `boxes.json`. -/
def boxTypes : List Str :=
  [str "trigger.event", str "trigger.schedule", str "trigger.mqtt", str "trigger.manual",
    str "action.snapshot", str "action.clip", str "action.s3", str "action.http", str "action.ai",
    str "action.emit", str "action.mqtt", str "action.notify", str "action.plugin",
    str "logic.condition", str "logic.delay", str "logic.setvar", str "logic.switch"]

/-- `dangerousTypes`, which are those of `dangerous.json` -/
def dangerousTypes : List Str :=
  [str "action.code", str "action.shell", str "action.ssh", str "action.db"]

def knownTypes : List Str := boxTypes ++ dangerousTypes

/-! ## Import -/

/-- What `%T` prints for a value. -/
def goType : Value → Str
  | .undefined => str "yamljs.undefinedT"
  | .null => str "<nil>"
  | .bool _ => str "bool"
  | .num _ => str "float64"
  | .str _ => str "string"
  | .arr _ => str "[]interface \x7b\x7d"
  | .obj _ => str "*yamljs.Map"

/-- The loop over the boxes: the unknown types, each once, with the keys seen so far. -/
def unknownTypes (js : Js) : List Value → List Str → List Str
  | [], _ => []
  | b :: rest, seen =>
    let raw := field b (str "type")
    let t := raw.toText js
    let key := goType raw ++ str ":" ++ t
    if raw.text?.any (fun t => knownTypes.contains t) then unknownTypes js rest seen
    else if seen.contains key then unknownTypes js rest seen
    else (if raw.isNullish then [] else t) :: unknownTypes js rest (key :: seen)

/-- The name of an import: the trimmed one, unless it is blank or no string. -/
def importName (js : Js) (name : Value) (fallbackName : Str) : Str :=
  match name.text? with
  | none => fallbackName
  | some n => if js.trimSpace n = [] then fallbackName else js.trimSpace n

def importWorkflow (js : Js) (raw : Value) (fallbackName : Str) :
    Except Str (Str × List (Str × Value)) :=
  let o := asObject raw
  let g := normalizeGraph (get o (str "graph"))
  if g.boxes.isEmpty && g.edges.isEmpty then .error (str "workflow has no boxes to import")
  else
    match unknownTypes js g.boxes [] with
    | [] =>
      match validateGraph js g with
      | .error e => .error e
      | .ok _ =>
        .ok (importName js (get o (str "name")) fallbackName,
          [(str "boxes", .arr g.boxes), (str "edges", .arr g.edges)])
    | unknown =>
      .error (str "unknown box type" ++ (if 1 < unknown.length then str "s" else []) ++
        str ": " ++ join unknown (str ", "))

/-- The catalogue knows the type of a box. -/
def Known (b : Value) : Prop := ∃ t ∈ knownTypes, field b (str "type") = .str t

lemma unknownTypes_eq_nil {js : Js} {boxes : List Value} (h : ∀ b ∈ boxes, Known b)
    (seen : List Str) : unknownTypes js boxes seen = [] := by
  induction boxes with
  | nil => rfl
  | cons b rest ih =>
    obtain ⟨⟨t, ht, hfield⟩, hrest⟩ := List.forall_mem_cons.mp h
    have hknown : (field b (str "type")).text?.any (fun t => knownTypes.contains t) = true := by
      rw [hfield]
      simpa [Value.text?] using ht
    rw [unknownTypes, if_pos hknown]
    exact ih hrest

lemma importWorkflow_ok {js : Js} {o : List (Str × Value)} {g : Graph} {fallbackName : Str}
    (hgraph : normalizeGraph (get o (str "graph")) = g) (hboxes : g.boxes ≠ [])
    (hknown : ∀ b ∈ g.boxes, Known b) (hvalid : validateGraph js g = .ok ()) :
    importWorkflow js (.obj o) fallbackName =
      .ok (importName js (get o (str "name")) fallbackName,
        [(str "boxes", .arr g.boxes), (str "edges", .arr g.edges)]) := by
  have hsome : (g.boxes.isEmpty && g.edges.isEmpty) = false := by
    rw [List.isEmpty_eq_false_iff.mpr hboxes, Bool.false_and]
  rw [importWorkflow, asObject, hgraph, hsome, if_neg Bool.false_ne_true,
    unknownTypes_eq_nil hknown]
  rw [hvalid]

/-! ## Stripped boxes -/

section Boxes

variable {js : Js} {m : List (Str × Value)}

/-- The keys of a box config whose values the export empties. -/
def emptiedKeys (js : Js) (b : Value) : List Str :=
  (keys (boxConfig b)).filter fun k => secretish js k (get (boxConfig b) k)

lemma field_exportBox {k : Str} (hk : k ≠ str "config") :
    field (exportBox js (.obj m)) k = field (.obj m) k := by
  rw [exportBox, field, Yamljs.get, lookupOr_set, if_neg hk]
  rfl

lemma boxConfig_exportBox (b : Value) : boxConfig (exportBox js b) =
      build (fun k => if secretish js k (get (boxConfig b) k) then .str [] else get (boxConfig b) k)
        (keys (boxConfig b)) := by
  rw [boxConfig, exportBox, field_set_self]
  rfl

lemma mem_keys_boxConfig_exportBox {b : Value} {k : Str} :
    k ∈ keys (boxConfig (exportBox js b)) ↔ k ∈ keys (boxConfig b) := by
  rw [mem_keys, boxConfig_exportBox, mem_map_fst, lookup_build]
  split
  · rename_i hk
    exact iff_of_true rfl hk
  · rename_i hk
    exact iff_of_false (by simp) hk

lemma get_boxConfig_exportBox {b : Value} {k : Str} (hk : k ∈ keys (boxConfig b)) :
    get (boxConfig (exportBox js b)) k =
      if k ∈ emptiedKeys js b then .str [] else get (boxConfig b) k := by
  rw [boxConfig_exportBox, Yamljs.get, lookupOr, lookup_build, if_pos hk, Option.getD_some]
  by_cases hsecret : secretish js k (get (boxConfig b) k) = true
  · have hmem : k ∈ emptiedKeys js b := List.mem_filter.mpr ⟨hk, hsecret⟩
    rw [if_pos hsecret, if_pos hmem]
  · have hnot : k ∉ emptiedKeys js b := fun hmem => hsecret (List.mem_filter.mp hmem).2
    rw [if_neg hsecret, if_neg hnot]

lemma get_of_mem_emptiedKeys {b : Value} {k : Str} (hk : k ∈ emptiedKeys js b) :
    k ∈ keys (boxConfig b) ∧ ∃ s, get (boxConfig b) k = .str s := by
  obtain ⟨hkey, hsecret⟩ := List.mem_filter.mp hk
  rw [secretish] at hsecret
  split at hsecret
  · cases hsecret
  rename_i s hs
  exact ⟨hkey, s, text?_eq_some.mp hs⟩

lemma boxConfig_exportBox_twice (b : Value) :
    boxConfig (exportBox js (exportBox js b)) = boxConfig (exportBox js b) := by
  have hget : ∀ k ∈ keys (boxConfig b), get (boxConfig (exportBox js b)) k =
      if secretish js k (get (boxConfig b) k) then .str [] else get (boxConfig b) k := by
    intro k hk
    rw [boxConfig_exportBox, Yamljs.get, lookupOr, lookup_build, if_pos hk, Option.getD_some]
  have hkeys : build
      (fun k => if secretish js k (get (boxConfig b) k) then .str [] else get (boxConfig b) k)
      (keys (boxConfig (exportBox js b))) = boxConfig (exportBox js b) := by
    rw [boxConfig_exportBox, keys_build, build_map_fst_build]
  rw [boxConfig_exportBox (exportBox js b)]
  refine (build_congr fun k hk => ?_).trans hkeys
  -- an emptied string stays empty, and every other value was no secret
  rw [hget k (mem_keys_boxConfig_exportBox.mp hk)]
  by_cases hsecret : secretish js k (get (boxConfig b) k) = true
  · rw [if_pos hsecret, ite_self]
  · rw [if_neg hsecret, if_neg hsecret]

lemma exportBox_exportBox : exportBox js (exportBox js (.obj m)) = exportBox js (.obj m) := by
  have hbox : ∀ b, exportBox js b =
      .obj (set (str "config") (.obj (boxConfig (exportBox js b))) (spread b)) := by
    intro b
    rw [boxConfig_exportBox]
    rfl
  have hspread : spread (exportBox js (.obj m)) =
      set (str "config") (.obj (boxConfig (exportBox js (.obj m)))) m := by
    rw [boxConfig_exportBox]
    rfl
  calc exportBox js (exportBox js (.obj m))
      = .obj (set (str "config") (.obj (boxConfig (exportBox js (exportBox js (.obj m)))))
          (spread (exportBox js (.obj m)))) := hbox _
    _ = .obj (set (str "config") (.obj (boxConfig (exportBox js (.obj m)))) m) := by
        rw [boxConfig_exportBox_twice, hspread, set_set]
    _ = exportBox js (.obj m) := (hbox (.obj m)).symm

lemma boxID_exportBox : boxID (exportBox js (.obj m)) = boxID (.obj m) := by
  rw [boxID, boxID, field_exportBox (by decide)]

lemma exportRedactions_eq {id : Str} (hid : get m (str "id") = .str id) :
    exportRedactions js (.obj m) =
      (emptiedKeys js (.obj m)).map fun k => boxID (.obj m) ++ str "." ++ k := by
  have hbox : boxID (.obj m) = id := by
    rw [boxID, field, hid]
    rfl
  have htext : (field (.obj m) (str "id")).toText js = id := by
    rw [field, hid]
    rfl
  rw [exportRedactions, htext, hbox]
  rfl

end Boxes

/-! ## Stripped graphs -/

/-- The graph of an export. -/
def stripGraph (js : Js) (g : Graph) : Graph := ⟨g.boxes.map (exportBox js), g.edges⟩

section Graphs

variable {js : Js} {g : Graph}

section

variable (h : WellFormed js g)

include h

lemma boxes_obj : ∀ b ∈ g.boxes, ∃ m id, b = .obj m ∧
    get m (str "id") = .str id := fun b hb => by
  obtain ⟨m, id, hb, hid, -⟩ := h.ids b hb
  exact ⟨m, id, hb, hid⟩

lemma map_boxID_stripGraph : (stripGraph js g).boxes.map boxID = g.boxes.map boxID := by
  rw [stripGraph, List.map_map]
  refine List.map_congr_left fun b hb => ?_
  obtain ⟨m, id, rfl, -⟩ := boxes_obj h b hb
  exact boxID_exportBox

lemma WellFormed.stripGraph : WellFormed js (stripGraph js g) where
  ids := by
    intro b' hb'
    obtain ⟨b, hb, rfl⟩ := List.mem_map.mp hb'
    obtain ⟨m, id, rfl, hid, hne⟩ := h.ids b hb
    refine ⟨_, id, rfl, ?_, hne⟩
    rw [Yamljs.get, lookupOr_set, if_neg (by decide)]
    exact hid
  distinct := by
    rw [map_boxID_stripGraph h]
    exact h.distinct
  sources := by
    rw [map_boxID_stripGraph h]
    exact h.sources
  targets := by
    rw [map_boxID_stripGraph h]
    exact h.targets
  acyclic := h.acyclic

lemma known_stripGraph (hknown : ∀ b ∈ g.boxes, Known b) :
    ∀ b ∈ (stripGraph js g).boxes, Known b := by
  intro b' hb'
  obtain ⟨b, hb, rfl⟩ := List.mem_map.mp hb'
  obtain ⟨m, id, rfl, -⟩ := boxes_obj h b hb
  obtain ⟨t, ht, hfield⟩ := hknown _ hb
  refine ⟨t, ht, ?_⟩
  rw [field_exportBox (by decide), hfield]

lemma stripGraph_stripGraph : stripGraph js (stripGraph js g) = stripGraph js g := by
  rw [stripGraph, stripGraph]
  congr 1
  rw [List.map_map]
  refine List.map_congr_left fun b hb => ?_
  obtain ⟨m, id, rfl, -⟩ := boxes_obj h b hb
  exact exportBox_exportBox

end

end Graphs

/-- The members of a graph as JSON. -/
def graphMembers (g : Graph) : List (Str × Value) :=
  [(str "boxes", .arr g.boxes), (str "edges", .arr g.edges)]

lemma normalizeGraph_graphMembers (g : Graph) : normalizeGraph (.obj (graphMembers g)) = g := rfl

lemma get_exportWorkflow {js : Js} {name k : Str} {graph : Value} (hk : k ≠ str "redactions") :
    get (exportWorkflow js name graph) k =
      get [(str "streamflow", .num (.finite 1)), (str "name", .str name),
        (str "graph", .obj (graphMembers (stripGraph js (normalizeGraph graph))))] k := by
  rw [exportWorkflow]
  split
  · rfl
  rw [Yamljs.get, lookupOr_set, if_neg hk]
  rfl

lemma redactions_exportWorkflow (js : Js) (name : Str) (graph : Value) :
    (get (exportWorkflow js name graph) (str "redactions")).items =
      ((normalizeGraph graph).boxes.flatMap (exportRedactions js)).map .str := by
  rw [exportWorkflow]
  split
  · rename_i hnone
    rw [hnone]
    rfl
  · rfl

/-- A box that came back, with the keys of its config that were emptied. -/
structure Restored (emptied : List Str) (b b' : Value) : Prop where
  fields : ∀ k, k ≠ str "config" → field b' k = field b k
  names : ∀ k, k ∈ keys (asObject b') ↔ k = str "config" ∨ k ∈ keys (asObject b)
  configKeys : ∀ k, k ∈ keys (boxConfig b') ↔ k ∈ keys (boxConfig b)
  strings : ∀ k ∈ emptied, k ∈ keys (boxConfig b) ∧ ∃ s, get (boxConfig b) k = .str s
  values : ∀ k ∈ keys (boxConfig b),
    get (boxConfig b') k = if k ∈ emptied then .str [] else get (boxConfig b) k

lemma restored_exportBox (js : Js) (m : List (Str × Value)) :
    Restored (emptiedKeys js (.obj m)) (.obj m) (exportBox js (.obj m)) where
  fields k hk := field_exportBox hk
  names k := by
    rw [mem_keys, mem_keys]
    exact mem_map_fst_set
  configKeys k := mem_keys_boxConfig_exportBox
  strings k hk := get_of_mem_emptiedKeys hk
  values k hk := get_boxConfig_exportBox hk

/-- Import undoes export, up to the values the export lists as redacted, and what was
imported is exported as the same graph. -/
theorem importWorkflow_exportWorkflow (js : Js) (name fallbackName : Str) (graph : Value)
    (hvalid : validateGraph js (normalizeGraph graph) = .ok ())
    (hboxes : (normalizeGraph graph).boxes ≠ [])
    (hknown : ∀ b ∈ (normalizeGraph graph).boxes, Known b) (hname : js.trimSpace name ≠ []) :
    ∃ (imported : List (Str × Value)) (emptied : Value → List Str),
      importWorkflow js (.obj (exportWorkflow js name graph)) fallbackName =
        .ok (js.trimSpace name, imported) ∧
      (normalizeGraph (.obj imported)).edges = (normalizeGraph graph).edges ∧
      List.Forall₂ (fun b b' => Restored (emptied b) b b') (normalizeGraph graph).boxes
        (normalizeGraph (.obj imported)).boxes ∧
      (get (exportWorkflow js name graph) (str "redactions")).items =
        (normalizeGraph graph).boxes.flatMap
          (fun b => (emptied b).map fun k => .str (boxID b ++ str "." ++ k)) ∧
      ∀ name', get (exportWorkflow js name' (.obj imported)) (str "graph") =
        get (exportWorkflow js name graph) (str "graph") := by
  have hwell := WellFormed.of_validateGraph hvalid
  have hgraph : normalizeGraph (get (exportWorkflow js name graph) (str "graph")) =
      stripGraph js (normalizeGraph graph) := by
    rw [get_exportWorkflow (by decide)]
    rfl
  have hnamed : importName js (get (exportWorkflow js name graph) (str "name")) fallbackName =
      js.trimSpace name := by
    rw [get_exportWorkflow (by decide)]
    exact if_neg hname
  refine ⟨graphMembers (stripGraph js (normalizeGraph graph)), emptiedKeys js, ?_, rfl, ?_, ?_, ?_⟩
  · rw [importWorkflow_ok hgraph (by simpa [stripGraph] using hboxes)
      (known_stripGraph hwell hknown) hwell.stripGraph.validateGraph, hnamed]
    rfl
  · rw [normalizeGraph_graphMembers, stripGraph, List.forall₂_map_right_iff]
    refine List.forall₂_same.mpr fun b hb => ?_
    obtain ⟨m, id, rfl, -⟩ := boxes_obj hwell b hb
    exact restored_exportBox js m
  · rw [redactions_exportWorkflow, List.map_flatMap]
    refine List.flatMap_congr fun b hb => ?_
    obtain ⟨m, id, rfl, hid⟩ := boxes_obj hwell b hb
    rw [exportRedactions_eq hid, List.map_map]
    rfl
  · intro name'
    rw [get_exportWorkflow (by decide), get_exportWorkflow (by decide),
      normalizeGraph_graphMembers, stripGraph_stripGraph hwell]
    rfl

/-- A request with a key in its config, and the box that starts it. -/
def apiKeyGraph : Value :=
  .obj [(str "boxes", .arr [
      .obj [(str "id", .str (str "t")), (str "type", .str (str "trigger.manual"))],
      .obj [(str "id", .str (str "h")), (str "type", .str (str "action.http")),
        (str "config", .obj [(str "apiKey", .str (str "literal")), (str "n", .num (.finite 5))])]]),
    (str "edges", .arr [.obj [(str "from", .str (str "t")), (str "to", .str (str "h"))]])]

theorem importWorkflow_exportWorkflow_apiKey :
    ∃ imported, importWorkflow Js.plain
        (.obj (exportWorkflow Js.plain (str " Flow ") apiKeyGraph)) (str "Imported workflow") =
      .ok (str "Flow", imported) := by
  have hvalid : validateGraph Js.plain (normalizeGraph apiKeyGraph) = .ok () := by decide +kernel
  have hname : Js.plain.trimSpace (str " Flow ") = str "Flow" := by decide
  have hknown : ∀ b ∈ (normalizeGraph apiKeyGraph).boxes, Known b := by
    refine List.forall_mem_cons.mpr ⟨⟨str "trigger.manual", by decide, rfl⟩, ?_⟩
    exact List.forall_mem_cons.mpr ⟨⟨str "action.http", by decide, rfl⟩, by simp⟩
  obtain ⟨imported, -, himport, -⟩ := importWorkflow_exportWorkflow Js.plain (str " Flow ")
    (str "Imported workflow") apiKeyGraph hvalid (List.cons_ne_nil _ _) hknown
    (by rw [hname]; decide)
  exact ⟨imported, by rw [himport, hname]⟩

end StreamHub.Streamflow
