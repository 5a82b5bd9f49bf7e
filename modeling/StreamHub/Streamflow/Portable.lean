import StreamHub.Streamflow.Graph
import StreamHub.Streamflow.Template

/-!
# Exported workflows

`exportWorkflow` copies a graph and empties the strings of every box config that
look like a secret, by the name of their key or by themselves.  It looks at the
members of a config only: `exportWorkflow_noSecret_iff` says that the export is
free of secrets exactly when no array or object in a config holds one.
-/

namespace StreamHub.Streamflow

open Library Text OrderedMap Yamljs

/-- Letters as `(?i)` compares them: also U+017F is an s and U+212A a k. -/
def foldKey : Str → Str
  | 0xc5 :: 0xbf :: s => 0x73 :: foldKey s
  | 0xe2 :: 0x84 :: 0xaa :: s => 0x6b :: foldKey s
  | b :: s => lowerByte b :: foldKey s
  | [] => []

/-- The alternatives of `sensitiveKeyRe`. -/
def sensitiveWords : List Str :=
  [str "secret", str "token", str "password", str "passwd", str "credential", str "api_key",
    str "api-key", str "apikey", str "access_key", str "access-key", str "accesskey",
    str "private", str "dsn"]

/-- `sensitiveKeyRe` -/
def sensitiveKey (k : Str) : Bool := sensitiveWords.any fun word => contains (foldKey k) word

/-- The beginnings in `literalKeyRe`. -/
def literalStarts : List Str := [str "sk-", str "sk_", str "xox", str "ghp_", str "AKIA"]

/-- `literalKeyRe` -/
def literalKey (s : Str) : Bool :=
  literalStarts.any (fun start => start.isPrefixOf s) ||
    (40 ≤ s.length &&
      s.all fun b => isAlnum b || b == 0x2f || b == 0x2b || b == 0x5f || b == 0x2d)

def looksLiteralSecret (js : Js) (v : Str) : Bool :=
  let s := js.trimSpace v
  if s = [] ∨ contains s opening then false else literalKey s

/-- A string to empty. -/
def secretish (js : Js) (k : Str) (v : Value) : Bool :=
  match v.text? with
  | none => false
  | some s => (sensitiveKey k && !contains s opening) || looksLiteralSecret js s

def stripSecretishConfig (js : Js) (config : Value) (boxID : Str) :
    List (Str × Value) × List Str :=
  let src := asObject config
  (build (fun k => if secretish js k (get src k) then .str [] else get src k) (keys src),
    ((keys src).filter fun k => secretish js k (get src k)).map fun k => boxID ++ str "." ++ k)

/-- A box with its stripped config. -/
def exportBox (js : Js) (b : Value) : Value :=
  .obj (set (str "config")
    (.obj (stripSecretishConfig js (field b (str "config")) ((field b (str "id")).toText js)).1)
    (spread b))

/-- The `<boxId>.<key>` paths of what was emptied. -/
def exportRedactions (js : Js) (b : Value) : List Str :=
  (stripSecretishConfig js (field b (str "config")) ((field b (str "id")).toText js)).2

def exportWorkflow (js : Js) (name : Str) (graph : Value) : List (Str × Value) :=
  let g := normalizeGraph graph
  let redactions := g.boxes.flatMap (exportRedactions js)
  let out : List (Str × Value) := [(str "streamflow", .num (.finite 1)), (str "name", .str name),
    (str "graph", .obj [(str "boxes", .arr (g.boxes.map (exportBox js))),
      (str "edges", .arr g.edges)])]
  if redactions = [] then out else set (str "redactions") (.arr (redactions.map .str)) out

/-! ## Strings at any depth -/

mutual

/-- The strings of a value, each with whether a sensitive key stands above it. -/
def strings (under : Bool) : Value → List (Bool × Str)
  | .str s => [(under, s)]
  | .arr items => stringsItems under items
  | .obj m => stringsMembers under m
  | .undefined => []
  | .null => []
  | .bool _ => []
  | .num _ => []

def stringsItems (under : Bool) : List Value → List (Bool × Str)
  | [] => []
  | v :: rest => strings under v ++ stringsItems under rest

def stringsMembers (under : Bool) : List (Str × Value) → List (Bool × Str)
  | [] => []
  | (k, v) :: rest => strings (under || sensitiveKey k) v ++ stringsMembers under rest

end

/-- No string of a value is a secret. -/
def NoSecret (js : Js) (under : Bool) (v : Value) : Prop :=
  ∀ p ∈ strings under v,
    (p.1 = true → p.2 = [] ∨ contains p.2 opening = true) ∧ looksLiteralSecret js p.2 = false

/-- The box configs of an exported workflow. -/
def exportedConfigs (out : List (Str × Value)) : List Value :=
  (field (get out (str "graph")) (str "boxes")).items.map fun b => field b (str "config")

lemma mem_stringsMembers {under : Bool} {m : List (Str × Value)} {p : Bool × Str} :
    p ∈ stringsMembers under m ↔ ∃ kv ∈ m, p ∈ strings (under || sensitiveKey kv.1) kv.2 := by
  induction m with
  | nil => simp [stringsMembers]
  | cons kv rest ih =>
    simp [stringsMembers, ih]

lemma noSecret_obj {js : Js} {m : List (Str × Value)} :
    NoSecret js false (.obj m) ↔ ∀ kv ∈ m, NoSecret js (sensitiveKey kv.1) kv.2 := by
  simp only [NoSecret, strings, mem_stringsMembers, Bool.false_or]
  constructor
  · intro h kv hkv p hp
    exact h p ⟨kv, hkv, hp⟩
  · rintro h p ⟨kv, hkv, hp⟩
    exact h kv hkv p hp

lemma looksLiteralSecret_nil (js : Js) : looksLiteralSecret js [] = false := by
  simp [looksLiteralSecret, Go.trimSpace, isASCII]

lemma noSecret_nil (js : Js) (under : Bool) : NoSecret js under (.str []) := by
  intro p hp
  rw [strings, List.mem_singleton] at hp
  rw [hp]
  exact ⟨fun _ => .inl rfl, looksLiteralSecret_nil js⟩

lemma noSecret_of_kept {js : Js} {k s : Str} (h : secretish js k (.str s) = false) :
    NoSecret js (sensitiveKey k) (.str s) := by
  intro p hp
  rw [strings, List.mem_singleton] at hp
  rw [hp]
  change ((sensitiveKey k && !contains s opening) || looksLiteralSecret js s) = false at h
  rw [Bool.or_eq_false_iff] at h
  refine ⟨fun hkey => .inr ?_, h.2⟩
  have hfirst := h.1
  rw [show sensitiveKey k = true from hkey] at hfirst
  simpa using hfirst

lemma field_set_self (k : Str) (v : Value) (m : List (Str × Value)) :
    field (.obj (set k v m)) k = v := by rw [field, Yamljs.get, lookupOr_set, if_pos rfl]

lemma exportedConfigs_exportWorkflow (js : Js) (name : Str) (graph : Value) :
    exportedConfigs (exportWorkflow js name graph) =
      (normalizeGraph graph).boxes.map fun b =>
        .obj (stripSecretishConfig js (field b (str "config")) ((field b (str "id")).toText js)).1 := by
  have hgraph : get (exportWorkflow js name graph) (str "graph") =
      .obj [(str "boxes", .arr ((normalizeGraph graph).boxes.map (exportBox js))),
        (str "edges", .arr (normalizeGraph graph).edges)] := by
    rw [exportWorkflow]
    split
    · rfl
    rw [Yamljs.get, lookupOr_set, if_neg (by decide)]
    rfl
  rw [exportedConfigs, hgraph]
  change ((normalizeGraph graph).boxes.map (exportBox js)).map _ = _
  rw [List.map_map]
  refine List.map_congr_left fun b _ => ?_
  exact field_set_self _ _ _

lemma noSecret_strip_iff (js : Js) (config : Value) (id : Str) :
    NoSecret js false (.obj (stripSecretishConfig js config id).1) ↔
      ∀ k ∈ keys (asObject config), (get (asObject config) k).text? = none →
        NoSecret js (sensitiveKey k) (get (asObject config) k) := by
  rw [noSecret_obj]
  constructor
  · intro h k hk htext
    have hkept : secretish js k (get (asObject config) k) = false := by rw [secretish, htext]
    have hmember := h (k, get (asObject config) k)
      (mem_build.mpr ⟨hk, by simp only [hkept, Bool.false_eq_true, if_false]⟩)
    exact hmember
  · rintro h ⟨k, v⟩ hmem
    obtain ⟨hk, hv⟩ := mem_build.mp hmem
    dsimp only at hk hv ⊢
    split at hv
    · rw [hv]
      exact noSecret_nil js _
    rename_i hkept
    rw [hv]
    cases htext : (get (asObject config) k).text? with
    | none => exact h k hk htext
    | some s =>
      rw [text?_eq_some.mp htext] at hkept ⊢
      exact noSecret_of_kept (Bool.not_eq_true _ ▸ hkept)

/-- An export is free of secrets exactly when the arrays and objects of the box
configs are. -/
theorem exportWorkflow_noSecret_iff (js : Js) (name : Str) (graph : Value) :
    (∀ config ∈ exportedConfigs (exportWorkflow js name graph), NoSecret js false config) ↔
      ∀ b ∈ (normalizeGraph graph).boxes, ∀ k ∈ keys (boxConfig b),
        (get (boxConfig b) k).text? = none → NoSecret js (sensitiveKey k) (get (boxConfig b) k) := by
  rw [exportedConfigs_exportWorkflow, List.forall_mem_map]
  exact forall₂_congr fun b _ => noSecret_strip_iff js (field b (str "config")) _

/-- A request whose token is one level down, in its headers. -/
def headerToken : Value :=
  .obj [(str "boxes", .arr [.obj [(str "id", .str (str "call")),
      (str "type", .str (str "action.http")),
      (str "config", .obj [(str "headers", .obj [(str "x-api-token", .str (str "s3cr3t"))])])]]),
    (str "edges", .arr [])]

theorem exportWorkflow_headerToken :
    ¬∀ config ∈ exportedConfigs (exportWorkflow Js.plain (str "call") headerToken),
      NoSecret Js.plain false config := by
  intro h
  have hconfig := h (.obj [(str "headers", .obj [(str "x-api-token", .str (str "s3cr3t"))])])
    (by rw [exportedConfigs_exportWorkflow]; exact List.mem_singleton.mpr rfl)
  have htoken := hconfig (true, str "s3cr3t") (by decide)
  revert htoken
  decide

end StreamHub.Streamflow
