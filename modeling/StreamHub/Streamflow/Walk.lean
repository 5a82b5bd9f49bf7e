import StreamHub.Library.Worklist
import StreamHub.Streamflow.Graph

/-!
# The walk through a workflow

`runGraph` executes the boxes reached from a start box along the ports they return.
What a box does is the argument `exec`, on a state of any type; the context may
stop the walk before a box.  The loop is `Library.Worklist`, with the ids of the
boxes as its nodes.

`runGraph_exactWalk` says what the walk is, for an `exec` whose results may depend
on all calls made before.
-/

namespace StreamHub.Streamflow

open Library Text Yamljs List Worklist

variable {σ ε : Type}

/-- `ExecFunc`: the port that fired; the output is of no use to the walk. -/
abbrev ExecFunc (σ ε : Type) := σ → Value → σ × Except ε Str

/-- The error of a run: a `GraphError`, that of the context, or that of a box. -/
inductive RunError (ε : Type)
  | graph (msg : Str)
  | context (e : ε)
  | exec (e : ε)

/-- The map from ids to boxes; a later box replaces an earlier one. -/
def byID (g : Graph) (id : Str) : Option Value := g.boxes.reverse.find? fun b => boxID b = id

/-- The edges by the ids of their ends and the port. -/
def labelledEdges (js : Js) (g : Graph) : List (Str × Str × Str) :=
  g.edges.map fun e => (edgeFromBox js e, edgeFromPort js e, edgeToBox js e)

/-- The look at the context and the call of `exec`. -/
def runBox (ctxErr : σ → Option ε) (exec : ExecFunc σ ε) (s : σ) (box : Value) :
    σ × Except (RunError ε) Str :=
  match ctxErr s with
  | some e => (s, .error (.context e))
  | none =>
    match exec s box with
    | (s, .error e) => (s, .error (.exec e))
    | (s, .ok port) => (s, .ok port)

/-- `runGraph`, for a number of iterations; `math.Max` of an `int` and 1 is exact for
all step counts a walk can reach. -/
def runGraphWithin (js : Js) (iterations : ℕ) (ctxErr : σ → Option ε) (g : Graph)
    (startBoxID : Str) (exec : ExecFunc σ ε) (maxSteps : Int) (s : σ) :
    Option (σ × Except (RunError ε) Unit) :=
  match validateGraph js g with
  | .error msg => some (s, .error (.graph msg))
  | .ok _ =>
    match byID g startBoxID with
    | none => some (s, .error (.graph (str "start box '" ++ startBoxID ++ str "' not in graph")))
    | some _ =>
      match loop (labelledEdges js g) (byID g) (max 1 maxSteps).toNat
          (runBox ctxErr exec) iterations s [] [startBoxID] with
      | none => none
      | some (s, _, .finished) => some (s, .ok ())
      | some (s, _, .exceeded) =>
        some (s, .error (.graph (str "exceeded max steps (" ++ itoa (max 1 maxSteps) ++
          str ")")))
      | some (s, _, .failed e) => some (s, .error e)

variable (js : Js) (ctxErr : σ → Option ε) (g : Graph) (startBoxID : Str) (exec : ExecFunc σ ε)
  (maxSteps : Int) (s : σ)

/-- Every edge is followed at most once. -/
lemma loop_labelledEdges (limit : ℕ) (s : σ) : ∃ outcome, ∀ n, g.edges.length + 2 ≤ n →
      loop (labelledEdges js g) (byID g) limit (runBox ctxErr exec) n s [] [startBoxID] =
        some outcome := by
  have hbound : [startBoxID].length + (pending (labelledEdges js g) []).length <
      g.edges.length + 2 := by
    simp only [pending, labelledEdges, map_nil, not_mem_nil, not_false_eq_true,
      decide_true, filter_true, length_map, length_singleton]
    omega
  obtain ⟨outcome, hrun⟩ := loop_terminates hbound
  exact ⟨outcome, fun n hn => loop_mono hn hrun⟩

lemma runGraphWithin_eq_some : ∃ outcome, ∀ n, g.edges.length + 2 ≤ n →
      runGraphWithin js n ctxErr g startBoxID exec maxSteps s = some outcome := by
  obtain ⟨⟨t, history, ending⟩, hloop⟩ := loop_labelledEdges js ctxErr g startBoxID exec
    (max 1 maxSteps).toNat s
  unfold runGraphWithin
  cases validateGraph js g with
  | error msg => exact ⟨_, fun _ _ => rfl⟩
  | ok _ =>
    cases byID g startBoxID with
    | none => exact ⟨_, fun _ _ => rfl⟩
    | some b =>
      cases ending with
      | finished | exceeded | failed e => exact ⟨_, fun n hn => by simp only [hloop n hn]; rfl⟩

/-- `runGraph`: the walk ends within two iterations more than there are edges. -/
def runGraph (js : Js) (ctxErr : σ → Option ε) (g : Graph) (startBoxID : Str)
    (exec : ExecFunc σ ε) (maxSteps : Int) (s : σ) : σ × Except (RunError ε) Unit :=
  (runGraphWithin js (g.edges.length + 2) ctxErr g startBoxID exec maxSteps s).get (by
    obtain ⟨outcome, hrun⟩ := runGraphWithin_eq_some js ctxErr g startBoxID exec maxSteps s
    rw [hrun _ le_rfl]
    rfl)

lemma runGraphWithin_eq_runGraph (n : ℕ) (hn : g.edges.length + 2 ≤ n) :
    runGraphWithin js n ctxErr g startBoxID exec maxSteps s =
      some (runGraph js ctxErr g startBoxID exec maxSteps s) := by
  obtain ⟨outcome, hrun⟩ := runGraphWithin_eq_some js ctxErr g startBoxID exec maxSteps s
  rw [hrun n hn, runGraph]
  simp only [hrun _ le_rfl, Option.get_some]

/-! ## Boxes by their ids -/

lemma byID_eq_some {g : Graph} {id : Str} {b : Value} (h : byID g id = some b) :
    b ∈ g.boxes ∧ boxID b = id := by
  have hmem := mem_of_find?_eq_some h
  have hid := find?_some h
  exact ⟨mem_reverse.mp hmem, by simpa using hid⟩

lemma isSome_byID {g : Graph} {id : Str} : (byID g id).isSome ↔ id ∈ g.boxes.map boxID := by
  rw [byID, find?_isSome]
  simp only [mem_reverse, decide_eq_true_eq, mem_map]

lemma mem_labelledEdges {js : Js} {g : Graph} {id port id' : Str} :
    (id, port, id') ∈ labelledEdges js g ↔
      ∃ e ∈ g.edges, edgeFromBox js e = id ∧ edgeFromPort js e = port ∧ edgeToBox js e = id' := by
  simp [labelledEdges]

/-- How a walk through an accepted graph ends, by the ending of its loop. -/
inductive Ends (js : Js) (g : Graph) (maxSteps : Int) {ε : Type} :
    Ending (RunError ε) → Except (RunError ε) Unit → Prop
  | finished : Ends js g maxSteps .finished (.ok ())
  | exceeded : Ends js g maxSteps .exceeded
      (.error (.graph (str "exceeded max steps (" ++ itoa (max 1 maxSteps) ++ str ")")))
  | failed (e : RunError ε) : Ends js g maxSteps (.failed e) (.error e)

/-- The induction over a walk.  `P` relates the state to the boxes that ran, `F` says
what a failing box leaves. -/
lemma runGraph_ended {js : Js} {g : Graph} {startBoxID : Str}
    {s : σ} {P : σ → History Str Str → Prop}
    {F : σ → History Str Str → RunError ε → Prop} (hvalid : validateGraph js g = .ok ())
    (hstart : startBoxID ∈ g.boxes.map boxID) (hinit : P s [])
    (hok : ∀ s history b s' port, P s history → b ∈ g.boxes →
      boxID b ∉ history.map Prod.fst → ctxErr s = none → exec s b = (s', .ok port) →
      P s' (history ++ [(boxID b, port)]))
    (hcontext : ∀ s history e, P s history → ctxErr s = some e → F s history (.context e))
    (hfail : ∀ s history b s' e, P s history → b ∈ g.boxes →
      boxID b ∉ history.map Prod.fst →
      Justified (labelledEdges js g) startBoxID history (boxID b) →
      history.length < (max 1 maxSteps).toNat → ctxErr s = none → exec s b = (s', .error e) →
      F s' history (.exec e)) :
    ∃ history ending,
      Ended (labelledEdges js g) startBoxID (max 1 maxSteps).toNat P F
        ((runGraph js ctxErr g startBoxID exec maxSteps s).1, history, ending) ∧
      Ends js g maxSteps ending (runGraph js ctxErr g startBoxID exec maxSteps s).2 := by
  have hwell := WellFormed.of_validateGraph hvalid
  obtain ⟨⟨t, history, ending⟩, hloop⟩ := loop_labelledEdges js ctxErr g startBoxID exec
    (max 1 maxSteps).toNat s
  have htargets : ∀ e ∈ labelledEdges js g, (byID g e.2.2).isSome := by
    rintro ⟨id, port, id'⟩ he
    obtain ⟨e, hmem, -, -, rfl⟩ := mem_labelledEdges.mp he
    exact isSome_byID.mpr (hwell.targets e hmem)
  have hended : Ended (labelledEdges js g) startBoxID (max 1 maxSteps).toNat P F
      (t, history, ending) := by
    refine loop_ended htargets (isSome_byID.mpr hstart) ?_ ?_
      (Sound.initial _ _) (by simp) hinit (hloop _ le_rfl)
    · intro s history v b s' port hP hb hv hrun
      obtain ⟨hmem, rfl⟩ := byID_eq_some hb
      rw [runBox] at hrun
      split at hrun
      · cases hrun
      rename_i hctx
      split at hrun
      · cases hrun
      rename_i s'' port' hexec
      cases hrun
      exact hok s history b s' port hP hmem hv hctx hexec
    · intro s history v b s' e hP hb hv hjust hlimit hrun
      obtain ⟨hmem, rfl⟩ := byID_eq_some hb
      rw [runBox] at hrun
      split at hrun
      · rename_i e' hctx
        cases hrun
        exact hcontext s history e' hP hctx
      rename_i hctx
      split at hrun
      · rename_i s'' e' hexec
        cases hrun
        exact hfail s history b s' e' hP hmem hv hjust hlimit hctx hexec
      · cases hrun
  have hrun := runGraphWithin_eq_runGraph js ctxErr g startBoxID exec maxSteps s _ le_rfl
  obtain ⟨b, hb⟩ := Option.isSome_iff_exists.mp (isSome_byID.mpr hstart)
  rw [runGraphWithin, hvalid, hb] at hrun
  rw [hloop _ le_rfl] at hrun
  refine ⟨history, ending, ?_⟩
  cases ending with
  | finished =>
    rw [← Option.some.inj hrun]
    exact ⟨hended, .finished⟩
  | exceeded =>
    rw [← Option.some.inj hrun]
    exact ⟨hended, .exceeded⟩
  | failed e =>
    rw [← Option.some.inj hrun]
    exact ⟨hended, .failed e⟩

/-- What is known behind a walk, of any graph: `P` if no box failed, and `F` of the
error else. -/
def Behind (P : σ → Prop) (F : σ → RunError ε → Prop) (s : σ) : Except (RunError ε) Unit → Prop
  | .ok _ => P s
  | .error (.graph _) => P s
  | .error (.context e) => F s (.context e)
  | .error (.exec e) => F s (.exec e)

/-- What every box keeps is kept by the walk. -/
lemma runGraph_behind {P : σ → Prop} {F : σ → RunError ε → Prop} (hinit : P s)
    (hok : ∀ s b s' port, P s → b ∈ g.boxes → exec s b = (s', .ok port) → P s')
    (hcontext : ∀ s e, P s → ctxErr s = some e → F s (.context e))
    (hfail : ∀ s b s' e, P s → b ∈ g.boxes → exec s b = (s', .error e) → F s' (.exec e)) :
    Behind P F (runGraph js ctxErr g startBoxID exec maxSteps s).1
      (runGraph js ctxErr g startBoxID exec maxSteps s).2 := by
  have hrun := runGraphWithin_eq_runGraph js ctxErr g startBoxID exec maxSteps s _ le_rfl
  rw [runGraphWithin] at hrun
  cases hvalid : validateGraph js g with
  | error msg =>
    rw [hvalid] at hrun
    rw [← Option.some.inj hrun]
    exact hinit
  | ok u =>
    cases hstart : byID g startBoxID with
    | none =>
      rw [hvalid, hstart] at hrun
      rw [← Option.some.inj hrun]
      exact hinit
    | some b =>
      obtain ⟨history, ending, hended, hends⟩ := runGraph_ended ctxErr exec maxSteps
        (P := fun s _ => P s)
        (F := fun s _ err => (∀ msg, err ≠ .graph msg) ∧ F s err) hvalid
        (isSome_byID.mp (by rw [hstart]; rfl)) hinit
        (fun s _ b s' port hP hb _ _ hexec => hok s b s' port hP hb hexec)
        (fun s _ e hP hctx => ⟨by simp, hcontext s e hP hctx⟩)
        (fun s _ b s' e hP hb _ _ _ _ hexec => ⟨by simp, hfail s b s' e hP hb hexec⟩)
      generalize runGraph js ctxErr g startBoxID exec maxSteps s = outcome at *
      obtain ⟨t, result⟩ := outcome
      cases hends with
      | finished | exceeded => exact hended.success (by simp)
      | failed err =>
        obtain ⟨hgraph, hF⟩ := hended.failure err rfl
        cases err with
        | graph msg => exact absurd rfl (hgraph msg)
        | context e | exec e => exact hF

/-- Two walks whose states stay related return the same. -/
lemma runGraph_related
    {s t : σ} {R : σ → σ → Prop} (hR : R s t)
    (hctx : ∀ s t, R s t → ctxErr s = ctxErr t)
    (hexec : ∀ s t b, R s t → b ∈ g.boxes →
      (exec s b).2 = (exec t b).2 ∧ R (exec s b).1 (exec t b).1) :
    (runGraph js ctxErr g startBoxID exec maxSteps s).2 =
        (runGraph js ctxErr g startBoxID exec maxSteps t).2 ∧
      R (runGraph js ctxErr g startBoxID exec maxSteps s).1
        (runGraph js ctxErr g startBoxID exec maxSteps t).1 := by
  have hbox : ∀ s t v b, R s t → byID g v = some b →
      (runBox ctxErr exec s b).2 = (runBox ctxErr exec t b).2 ∧
        R (runBox ctxErr exec s b).1 (runBox ctxErr exec t b).1 := by
    intro s t v b hR hb
    obtain ⟨hresult, hstates⟩ := hexec s t b hR (byID_eq_some hb).1
    rw [runBox, runBox, ← hctx s t hR]
    cases ctxErr s with
    | some e => exact ⟨rfl, hR⟩
    | none =>
      generalize exec s b = fired at *
      generalize exec t b = fired' at *
      obtain ⟨s', result⟩ := fired
      obtain ⟨t', result'⟩ := fired'
      cases hresult
      cases result with
      | error e | ok port => exact ⟨rfl, hstates⟩
  have hs := runGraphWithin_eq_runGraph js ctxErr g startBoxID exec maxSteps s _ le_rfl
  have ht := runGraphWithin_eq_runGraph js ctxErr g startBoxID exec maxSteps t _ le_rfl
  rw [runGraphWithin] at hs ht
  cases hvalid : validateGraph js g with
  | error msg =>
    rw [hvalid] at hs ht
    rw [← Option.some.inj hs, ← Option.some.inj ht]
    exact ⟨rfl, hR⟩
  | ok u =>
    rw [hvalid] at hs ht
    cases hstart : byID g startBoxID with
    | none =>
      rw [hstart] at hs ht
      rw [← Option.some.inj hs, ← Option.some.inj ht]
      exact ⟨rfl, hR⟩
    | some b =>
      rw [hstart] at hs ht
      obtain ⟨⟨s', history, ending⟩, hloop⟩ := loop_labelledEdges js ctxErr g startBoxID exec
        (max 1 maxSteps).toNat s
      obtain ⟨t', hloop', hstates⟩ := loop_related hbox hR (hloop _ le_rfl)
      rw [hloop _ le_rfl] at hs
      rw [hloop'] at ht
      cases ending with
      | finished | exceeded | failed e =>
        rw [← Option.some.inj hs, ← Option.some.inj ht]
        exact ⟨rfl, hstates⟩

/-! ## The calls of a walk -/

/-- A call of `exec` and what it returned. -/
structure Call (ε : Type) where
  box : Value
  result : Except ε Str

namespace Call

/-- The id of the box passed. -/
def id (c : Call ε) : Str := boxID c.box

end Call

/-- An `exec` whose results are a function of the calls made before. -/
def recording (exec : List (Call ε) → Value → Except ε Str) : ExecFunc (List (Call ε)) ε :=
  fun calls box => (calls ++ [⟨box, exec calls box⟩], exec calls box)

/-- What a walk is: `calls` are the calls made, `result` is what it returns. -/
structure ExactWalk (js : Js) (g : Graph) (startBoxID : Str) (maxSteps : Int)
    (calls : List (Call ε)) (result : Except (RunError ε) Unit) : Prop where
  /-- boxes of the graph, none twice -/
  boxes : ∀ c ∈ calls, c.box ∈ g.boxes
  distinct : (calls.map Call.id).Nodup
  first : ∀ c rest, calls = c :: rest → c.id = startBoxID
  /-- a later box is the target of an edge that an earlier one fired -/
  later : ∀ before c after, calls = before ++ c :: after → before ≠ [] →
    ∃ e ∈ g.edges, edgeToBox js e = c.id ∧
      ∃ c' ∈ before, edgeFromBox js e = c'.id ∧ c'.result = .ok (edgeFromPort js e)
  /-- a walk without an error is the whole closure -/
  least : result = .ok () →
    IsLeast {S : Set Str | startBoxID ∈ S ∧ ∀ e ∈ g.edges, ∀ c ∈ calls,
        edgeFromBox js e = c.id → c.result = .ok (edgeFromPort js e) → c.id ∈ S →
          edgeToBox js e ∈ S}
      {id | id ∈ calls.map Call.id}
  bounded : (calls.length : Int) ≤ max 1 maxSteps
  /-- an error of a box is the last thing that happens -/
  stops : ∀ before c after e, calls = before ++ c :: after → c.result = .error e →
    after = [] ∧ result = .error (.exec e)

/-- The calls made for a history of the worklist. -/
structure Recorded (g : Graph) (calls : List (Call ε))
    (history : History Str Str) : Prop where
  results : calls.map (fun c => (c.id, c.result)) = history.map fun y => (y.1, .ok y.2)
  boxes : ∀ c ∈ calls, c.box ∈ g.boxes

section Recorded

variable {js : Js} {g : Graph} {startBoxID : Str} {calls : List (Call ε)}
  {history : History Str Str} {queue : List Str}

lemma Recorded.ids (h : Recorded g calls history) : calls.map Call.id = history.map Prod.fst := by
  have hfst := congrArg (map Prod.fst) h.results
  rwa [map_map, map_map] at hfst

lemma Recorded.length (h : Recorded g calls history) : calls.length = history.length := by
  have hlength := congrArg List.length h.results
  simpa using hlength

lemma Recorded.append (h : Recorded g calls history) {b : Value} {port : Str}
    (hb : b ∈ g.boxes) : Recorded g (calls ++ [⟨b, .ok port⟩]) (history ++ [(boxID b, port)]) where
  results := by
    rw [map_append, map_append, h.results]
    rfl
  boxes := forall_mem_append.mpr ⟨h.boxes, forall_mem_singleton.mpr hb⟩

lemma Recorded.split (before : List (Call ε)) {after : List (Call ε)} {c : Call ε}
    (h : Recorded g (before ++ c :: after) history) :
    ∃ history₁ x history₂, history = history₁ ++ x :: history₂ ∧ x.1 = c.id ∧
      c.result = .ok x.2 ∧ Recorded g before history₁ := by
  have hresults := h.results
  rw [map_append] at hresults
  obtain ⟨history₁, tail, hhistory, hbefore, htail⟩ := append_eq_map_iff.mp hresults
  obtain ⟨x, history₂, rfl, hx, -⟩ := map_eq_cons_iff.mp htail
  simp only [Prod.mk.injEq] at hx
  refine ⟨history₁, x, history₂, hhistory, hx.1, hx.2.symm, ⟨hbefore.symm, ?_⟩⟩
  exact fun c hc => h.boxes c (mem_append_left _ hc)

section

variable (h : Recorded g calls history)

include h

lemma Recorded.mem {y : Str × Str} :
    y ∈ history ↔ ∃ c ∈ calls, c.id = y.1 ∧ c.result = .ok y.2 := by
  constructor
  · intro hy
    have hmem : (y.1, Except.ok y.2) ∈ calls.map fun c => (c.id, c.result) := by
      rw [h.results]
      exact mem_map_of_mem hy
    obtain ⟨c, hc, heq⟩ := mem_map.mp hmem
    simp only [Prod.mk.injEq] at heq
    exact ⟨c, hc, heq.1, heq.2⟩
  · rintro ⟨c, hc, hid, hresult⟩
    have hmem : (c.id, c.result) ∈ history.map fun y => (y.1, Except.ok y.2) := by
      rw [← h.results]
      exact mem_map_of_mem hc
    obtain ⟨y', hy', heq⟩ := mem_map.mp hmem
    rw [hid, hresult] at heq
    simp only [Prod.mk.injEq, Except.ok.injEq] at heq
    rwa [← Prod.ext heq.1 heq.2]

lemma Recorded.fired (hhead : ∀ x rest, history = x :: rest → x.1 = startBoxID) {id : Str}
    (hid : id ∉ history.map Prod.fst)
    (hjust : Justified (labelledEdges js g) startBoxID history id) (hne : calls ≠ []) :
    ∃ e ∈ g.edges, edgeToBox js e = id ∧
      ∃ c' ∈ calls, edgeFromBox js e = c'.id ∧ c'.result = .ok (edgeFromPort js e) := by
  rcases hjust with rfl | ⟨y, hy, hedge⟩
  · -- the start runs first, so it is in the history
    cases history with
    | nil =>
      have hlength := h.length
      exact absurd (length_eq_zero_iff.mp hlength) hne
    | cons x rest => exact absurd (by rw [← hhead x rest rfl]; exact mem_cons_self) hid
  · obtain ⟨e, he, hfrom, hport, hto⟩ := mem_labelledEdges.mp hedge
    obtain ⟨c', hc', hid', hresult⟩ := h.mem.mp hy
    exact ⟨e, he, hto, c', hc', hfrom.trans hid'.symm, by rw [hport, hresult]⟩

/-- A walk in which no box failed. -/
lemma ExactWalk.of_recorded {maxSteps : Int} {result : Except (RunError ε) Unit}
    (hsound : Sound (labelledEdges js g) startBoxID history queue)
    (hbounded : history.length ≤ (max 1 maxSteps).toNat) (hqueue : result = .ok () → queue = []) :
    ExactWalk js g startBoxID maxSteps calls result where
  boxes := h.boxes
  distinct := by
    rw [h.ids]
    exact hsound.nodup
  first := by
    rintro c rest rfl
    obtain ⟨history₁, x, history₂, rfl, hx, -, hrec⟩ := Recorded.split [] h
    have hnil : history₁ = [] := length_eq_zero_iff.mp hrec.length.symm
    rw [← hx]
    exact hsound.head (by rw [hnil]; rfl)
  later := by
    rintro before c after rfl hne
    obtain ⟨history₁, x, history₂, rfl, hx, -, hrec⟩ := h.split _
    have hhead : ∀ x' rest, history₁ = x' :: rest → x'.1 = startBoxID := by
      rintro x' rest rfl
      exact hsound.head (cons_append ..)
    have hnodup := hsound.nodup
    rw [map_append, map_cons, nodup_append] at hnodup
    have hfresh : x.1 ∉ history₁.map Prod.fst := fun hmem =>
      hnodup.2.2 x.1 hmem x.1 mem_cons_self rfl
    rw [← hx]
    exact hrec.fired hhead hfresh (hsound.justified history₁ x history₂ rfl) hne
  least := by
    intro hresult
    have hleast := (hqueue hresult ▸ hsound).isLeast
    rw [← h.ids] at hleast
    refine ⟨⟨hleast.1.1, ?_⟩, fun S hS => hleast.2 ⟨hS.1, ?_⟩⟩
    · intro e he c hc hfrom hport hmem
      exact hleast.1.2 (c.id, edgeFromPort js e) (h.mem.mpr ⟨c, hc, rfl, hport⟩) hmem _
        (mem_labelledEdges.mpr ⟨e, he, hfrom, rfl, rfl⟩)
    · intro y hy hmem w hedge
      obtain ⟨e, he, hfrom, hport, rfl⟩ := mem_labelledEdges.mp hedge
      obtain ⟨c, hc, hid, hresult'⟩ := h.mem.mp hy
      exact hS.2 e he c hc (hfrom.trans hid.symm) (by rw [hport, hresult']) (by rwa [hid])
  bounded := by
    have hlength := h.length
    omega
  stops := by
    rintro before c after e rfl herror
    obtain ⟨-, x, -, -, -, hok, -⟩ := h.split _
    rw [herror] at hok
    cases hok

/-- A walk that ends at the failing box of its last call. -/
lemma ExactWalk.of_failed {maxSteps : Int} {b : Value} {e : ε}
    (hsound : Sound (labelledEdges js g) startBoxID history queue)
    (hbounded : history.length < (max 1 maxSteps).toNat) (hb : b ∈ g.boxes)
    (hfresh : boxID b ∉ history.map Prod.fst)
    (hjust : Justified (labelledEdges js g) startBoxID history (boxID b)) :
    ExactWalk js g startBoxID maxSteps (calls ++ [⟨b, .error e⟩]) (.error (.exec e)) := by
  have hbefore : ExactWalk js g startBoxID maxSteps calls (.error (.exec e)) :=
    ExactWalk.of_recorded h hsound (by omega) (by simp)
  -- a call is the failing one, or one before it
  have hsplit : ∀ before {c after}, calls ++ [⟨b, .error e⟩] = before ++ c :: after →
      (before = calls ∧ c = ⟨b, .error e⟩ ∧ after = []) ∨
        ∃ after', calls = before ++ c :: after' := by
    intro before c after heq
    rcases eq_nil_or_concat after with rfl | ⟨after', last, rfl⟩
    · obtain ⟨hcalls, hc⟩ := append_inj' heq rfl
      exact .inl ⟨hcalls.symm, (cons.inj hc).1.symm, rfl⟩
    · rw [concat_eq_append, ← cons_append, ← append_assoc] at heq
      exact .inr ⟨after', (append_inj' heq rfl).1⟩
  exact {
    boxes := forall_mem_append.mpr ⟨h.boxes, forall_mem_singleton.mpr hb⟩
    distinct := by
      rw [map_append, nodup_append]
      refine ⟨hbefore.distinct, by simp, fun id hid id' hid' => ?_⟩
      rw [h.ids] at hid
      simp only [map_cons, map_nil, mem_singleton] at hid'
      rintro rfl
      rw [hid'] at hid
      exact hfresh hid
    first := by
      intro c rest heq
      rcases hsplit [] heq with ⟨hnil, rfl, -⟩ | ⟨after', hcalls⟩
      · have hhistory : history = [] := length_eq_zero_iff.mp (by rw [← h.length, ← hnil]; rfl)
        rcases hjust with hstart | ⟨y, hy, -⟩
        · exact hstart
        rw [hhistory] at hy
        cases hy
      · exact hbefore.first c after' hcalls
    later := by
      intro before c after heq hne
      rcases hsplit _ heq with ⟨rfl, rfl, -⟩ | ⟨after', hcalls⟩
      · exact h.fired (fun x rest heq => hsound.head heq) hfresh hjust hne
      · exact hbefore.later before c after' hcalls hne
    least := by simp
    bounded := by
      have hlength := h.length
      rw [length_append, length_singleton]
      omega
    stops := by
      intro before c after e' heq herror
      rcases hsplit _ heq with ⟨-, rfl, rfl⟩ | ⟨after', hcalls⟩
      · cases herror
        exact ⟨rfl, rfl⟩
      rw [hcalls] at h
      obtain ⟨-, x, -, -, -, hok, -⟩ := h.split _
      rw [herror] at hok
      cases hok }

end

end Recorded

/-- What a box that stops the walk leaves behind. -/
def Stopped (js : Js) (g : Graph) (startBoxID : Str) (limit : ℕ) (calls : List (Call ε))
    (history : History Str Str) : RunError ε → Prop
  | .graph _ => False
  | .context _ => Recorded g calls history
  | .exec e => ∃ before b, calls = before ++ [⟨b, .error e⟩] ∧ Recorded g before history ∧
      b ∈ g.boxes ∧ boxID b ∉ history.map Prod.fst ∧ history.length < limit ∧
      Justified (labelledEdges js g) startBoxID history (boxID b)

/-- The walk is reachability along fired ports, and it ends. -/
theorem runGraph_exactWalk (js : Js) (g : Graph) (startBoxID : Str)
    (exec : List (Call ε) → Value → Except ε Str) (ctxErr : List (Call ε) → Option ε)
    (maxSteps : Int) (hvalid : validateGraph js g = .ok ())
    (hstart : startBoxID ∈ g.boxes.map boxID) :
    ExactWalk js g startBoxID maxSteps
        (runGraph js ctxErr g startBoxID (recording exec) maxSteps []).1
        (runGraph js ctxErr g startBoxID (recording exec) maxSteps []).2 ∧
      ∀ n, g.edges.length + 2 ≤ n →
        runGraphWithin js n ctxErr g startBoxID (recording exec) maxSteps [] =
          some (runGraph js ctxErr g startBoxID (recording exec) maxSteps []) := by
  refine ⟨?_, runGraphWithin_eq_runGraph js ctxErr g startBoxID (recording exec) maxSteps []⟩
  have hwalk := runGraph_ended ctxErr (recording exec) maxSteps (s := []) (P := Recorded g)
    (F := Stopped js g startBoxID (max 1 maxSteps).toNat) hvalid hstart ⟨rfl, by simp⟩
    (by
      intro calls history b calls' port hrec hb _ _ hexec
      obtain ⟨rfl, hresult⟩ := Prod.mk.inj hexec
      rw [hresult]
      exact hrec.append hb)
    (fun calls history e hrec _ => hrec)
    (by
      intro calls history b calls' e hrec hb hfresh hjust hlimit _ hexec
      obtain ⟨rfl, hresult⟩ := Prod.mk.inj hexec
      rw [hresult]
      exact ⟨calls, b, rfl, hrec, hb, hfresh, hlimit, hjust⟩)
  obtain ⟨history, ending, hended, hends⟩ := hwalk
  generalize runGraph js ctxErr g startBoxID (recording exec) maxSteps [] = outcome at *
  obtain ⟨calls, result⟩ := outcome
  obtain ⟨queue, hsound, hqueue⟩ := hended.sound
  cases hends with
  | finished =>
    have hrec := hended.success (by simp)
    exact ExactWalk.of_recorded hrec hsound hended.bounded (fun _ => hqueue _ _ rfl)
  | exceeded =>
    have hrec := hended.success (by simp)
    exact ExactWalk.of_recorded hrec hsound hended.bounded (by simp)
  | failed e =>
    have hstopped := hended.failure e rfl
    cases e with
    | graph msg => exact hstopped.elim
    | context e => exact ExactWalk.of_recorded hstopped hsound hended.bounded (by simp)
    | exec e =>
      obtain ⟨before, b, rfl, hrec, hb, hfresh, hlimit, hjust⟩ := hstopped
      exact ExactWalk.of_failed hrec hsound hlimit hb hfresh hjust

/-- A trigger and a box behind it. -/
def twoBoxes : Graph where
  boxes := [.obj [(str "id", .str (str "a"))], .obj [(str "id", .str (str "b"))]]
  edges := [.obj [(str "from", .str (str "a")), (str "to", .str (str "b"))]]

theorem runGraph_twoBoxes :
    validateGraph Js.plain twoBoxes = .ok () ∧
      ExactWalk Js.plain twoBoxes (str "a") 0
        (runGraph Js.plain (fun _ => none) twoBoxes (str "a")
          (recording fun _ _ => (.ok (str "out") : Except Str Str)) 0 []).1
        (runGraph Js.plain (fun _ => none) twoBoxes (str "a")
          (recording fun _ _ => (.ok (str "out") : Except Str Str)) 0 []).2 :=
  have hvalid : validateGraph Js.plain twoBoxes = .ok () := by decide +kernel
  ⟨hvalid, (runGraph_exactWalk Js.plain twoBoxes (str "a") (fun _ _ => .ok (str "out"))
    (fun _ => none) 0 hvalid (by decide)).1⟩

end StreamHub.Streamflow
