import Mathlib.Tactic

/-!
# A worklist along fired edges

A node is run at most once; what it returns picks, among the labelled edges that
leave it, those whose targets are put on the list.  The list may hold a node
several times.  The loop stops when the list is empty, at the first node that
fails, and before a node too many.

`loop` counts its iterations; the list and the edges whose source has not run bound
them (`loop_terminates`).  `Sound` is the invariant, and what it says at the end is
that the nodes run are the least set that contains the start and is closed under
the fired edges (`Sound.isLeast`).
-/

namespace StreamHub.Library.Worklist

open List Prod

variable {α β ρ ε σ : Type*}

/-- How a walk ends. -/
inductive Ending (ε : Type*)
  | finished
  | exceeded
  | failed (e : ε)

/-- The nodes that ran, with what each returned. -/
abbrev History (α ρ : Type*) := List (α × ρ)

section Definitions

variable [DecidableEq α] [DecidableEq ρ]

/-- The targets of the edges that leave a node by a port. -/
def targets (edges : List (α × ρ × α)) (v : α) (port : ρ) : List α :=
  (edges.filter fun e => e.1 = v ∧ e.2.1 = port).map fun e => e.2.2

/-- The loop; nothing when the iterations run out. -/
def loop (edges : List (α × ρ × α)) (lookup : α → Option β) (limit : ℕ)
    (run : σ → β → σ × Except ε ρ) :
    ℕ → σ → History α ρ → List α → Option (σ × History α ρ × Ending ε)
  | 0, _, _, _ => none
  | _ + 1, s, history, [] => some (s, history, .finished)
  | n + 1, s, history, v :: queue =>
    if v ∈ history.map fst then loop edges lookup limit run n s history queue
    else
      match lookup v with
      | none => loop edges lookup limit run n s history queue
      | some b =>
        if limit < history.length + 1 then some (s, history, .exceeded)
        else
          match run s b with
          | (s, .error e) => some (s, history, .failed e)
          | (s, .ok port) =>
            let history := history ++ [(v, port)]
            loop edges lookup limit run n s history
              (queue ++ (targets edges v port).filter fun w => w ∉ history.map fst)

/-- The edges whose source has not run. -/
def pending (edges : List (α × ρ × α)) (history : History α ρ) : List (α × ρ × α) :=
  edges.filter fun e => e.1 ∉ history.map fst

end Definitions

section Termination

variable [DecidableEq α] [DecidableEq ρ] {edges : List (α × ρ × α)} {lookup : α → Option β}
  {limit : ℕ} {run : σ → β → σ × Except ε ρ}

lemma length_targets_add_pending (edges : List (α × ρ × α)) (history : History α ρ) (v : α)
    (port : ρ) (hv : v ∉ history.map fst) :
    (targets edges v port).length + (pending edges (history ++ [(v, port)])).length ≤
      (pending edges history).length := by
  induction edges with
  | nil => simp [targets, pending]
  | cons e rest ih =>
    simp only [targets, pending, length_map, filter_cons, map_append,
      mem_append, map_cons, map_nil, mem_singleton] at ih ⊢
    by_cases hsource : e.1 = v
    · by_cases hport : e.2.1 = port
      · simp [hsource, hport, hv] at ih ⊢
        omega
      · simp [hsource, hport, hv] at ih ⊢
        omega
    · by_cases hpending : e.1 ∈ history.map fst
      · simp [hsource, hpending] at ih ⊢
        omega
      · simp [hsource, hpending] at ih ⊢
        omega

variable {history : History α ρ}

/-- The list and the pending edges bound the iterations. -/
lemma loop_terminates {n : ℕ} {s : σ} {queue : List α}
    (hn : queue.length + (pending edges history).length < n) :
    ∃ outcome, loop edges lookup limit run n s history queue = some outcome := by
  induction n generalizing s history queue with
  | zero => omega
  | succ n ih =>
    cases queue with
    | nil => exact ⟨_, rfl⟩
    | cons v queue =>
      rw [length_cons] at hn
      rw [loop]
      split
      · exact ih (by omega)
      rename_i hv
      split
      · exact ih (by omega)
      split
      · exact ⟨_, rfl⟩
      split
      · exact ⟨_, rfl⟩
      rename_i port _
      apply ih
      have hbound := length_targets_add_pending edges history v port hv
      have hfilter := length_filter_le
        (fun w => decide (w ∉ (history ++ [(v, port)]).map fst))
        (targets edges v port)
      rw [length_append]
      omega

variable {outcome : σ × History α ρ × Ending ε}

/-- More iterations do not change the outcome. -/
lemma loop_mono {n m : ℕ} (hnm : n ≤ m) {s : σ} {queue : List α}
    (h : loop edges lookup limit run n s history queue = some outcome) :
    loop edges lookup limit run m s history queue = some outcome := by
  induction n generalizing m s history queue with
  | zero => simp [loop] at h
  | succ n ih =>
    obtain ⟨m, rfl⟩ : ∃ m', m = m' + 1 := ⟨m - 1, by omega⟩
    cases queue with
    | nil => exact h
    | cons v queue =>
      rw [loop] at h ⊢
      split at h
      · rename_i hv
        rw [if_pos hv]
        exact ih (by omega) h
      rename_i hv
      rw [if_neg hv]
      split at h
      · exact ih (by omega) h
      split at h
      · rename_i hlimit
        rw [if_pos hlimit]
        exact h
      rename_i hlimit
      rw [if_neg hlimit]
      split at h
      · exact h
      · exact ih (by omega) h

/-- Two loops whose states stay related run the same nodes to the same ending. -/
lemma loop_related {R : σ → σ → Prop}
    (hrun : ∀ s t v b, R s t → lookup v = some b →
      (run s b).2 = (run t b).2 ∧ R (run s b).1 (run t b).1)
    {n : ℕ} {s t : σ} {queue : List α} (hR : R s t)
    (hloop : loop edges lookup limit run n s history queue = some outcome) :
    ∃ t', loop edges lookup limit run n t history queue = some (t', outcome.2) ∧
      R outcome.1 t' := by
  induction n generalizing s t history queue with
  | zero => cases hloop
  | succ n ih =>
    cases queue with
    | nil =>
      cases hloop
      exact ⟨t, rfl, hR⟩
    | cons v queue =>
      rw [loop] at hloop ⊢
      split
      · rename_i hmem
        rw [if_pos hmem] at hloop
        exact ih hR hloop
      rename_i hmem
      rw [if_neg hmem] at hloop
      cases hv : lookup v with
      | none =>
        rw [hv] at hloop
        exact ih hR hloop
      | some b =>
        rw [hv] at hloop
        dsimp only at hloop ⊢
        split
        · rename_i hlimit
          rw [if_pos hlimit] at hloop
          cases hloop
          exact ⟨t, rfl, hR⟩
        rename_i hlimit
        rw [if_neg hlimit] at hloop
        obtain ⟨hresult, hstates⟩ := hrun s t v b hR hv
        generalize run s b = fired at *
        generalize run t b = fired' at *
        obtain ⟨s', result⟩ := fired
        obtain ⟨t', result'⟩ := fired'
        cases hresult
        cases result with
        | error e =>
          cases hloop
          exact ⟨t', rfl, hstates⟩
        | ok port => exact ih hstates hloop

end Termination

/-! ## What a walk keeps -/

/-- A node is on the list for a reason: it is the start, or an edge fired into it. -/
def Justified (edges : List (α × ρ × α)) (start : α) (history : History α ρ) (v : α) : Prop :=
  v = start ∨ ∃ y ∈ history, (y.1, y.2, v) ∈ edges

/-- The invariant of the loop. -/
structure Sound (edges : List (α × ρ × α)) (start : α) (history : History α ρ)
    (queue : List α) : Prop where
  nodup : (history.map fst).Nodup
  justified : ∀ before x after, history = before ++ x :: after → Justified edges start before x.1
  queued : ∀ v ∈ queue, Justified edges start history v
  start : start ∈ history.map fst ∨ start ∈ queue
  closed : ∀ y ∈ history, ∀ w, (y.1, y.2, w) ∈ edges → w ∈ history.map fst ∨ w ∈ queue

section Invariant

variable {edges : List (α × ρ × α)} {start : α} {history : History α ρ}

lemma Sound.initial (edges : List (α × ρ × α)) (start : α) : Sound edges start [] [start] where
  nodup := nodup_nil
  justified := by simp
  queued := by simp [Justified]
  start := by simp
  closed := by simp

lemma Justified.append {v : α} (h : Justified edges start history v) (more : History α ρ) :
    Justified edges start (history ++ more) v :=
  h.imp_right fun ⟨y, hy, hedge⟩ => ⟨y, mem_append_left more hy, hedge⟩

variable {queue : List α}

lemma Sound.head (h : Sound edges start history queue) {x : α × ρ} {rest : History α ρ}
    (heq : history = x :: rest) : x.1 = start := by
  rcases h.justified [] x rest heq with hx | ⟨y, hy, -⟩
  · exact hx
  · cases hy

/-- A node taken from the list that has run before. -/
lemma Sound.skip {v : α} (h : Sound edges start history (v :: queue))
    (hv : v ∈ history.map fst) : Sound edges start history queue := by
  have hkeep : ∀ w, w ∈ history.map fst ∨ w ∈ v :: queue →
      w ∈ history.map fst ∨ w ∈ queue := by
    rintro w (hw | hw)
    · exact .inl hw
    · rcases mem_cons.mp hw with rfl | hw
      · exact .inl hv
      · exact .inr hw
  exact {
    nodup := h.nodup
    justified := h.justified
    queued := fun w hw => h.queued w (mem_cons_of_mem v hw)
    start := hkeep start h.start
    closed := fun y hy w hedge => hkeep w (h.closed y hy w hedge) }

variable [DecidableEq α] [DecidableEq ρ]

lemma mem_targets {v w : α} {port : ρ} : w ∈ targets edges v port ↔ (v, port, w) ∈ edges := by
  simp only [targets, mem_map, mem_filter, decide_eq_true_eq]
  constructor
  · rintro ⟨⟨a, b, c⟩, ⟨hmem, rfl, rfl⟩, rfl⟩
    exact hmem
  · intro hmem
    exact ⟨(v, port, w), ⟨hmem, rfl, rfl⟩, rfl⟩

/-- A node that runs. -/
lemma Sound.step {v : α} {port : ρ} (h : Sound edges start history (v :: queue))
    (hv : v ∉ history.map fst) :
    Sound edges start (history ++ [(v, port)]) (queue ++ (targets edges v port).filter
      fun w => w ∉ (history ++ [(v, port)]).map fst) := by
  have hran : v ∈ (history ++ [(v, port)]).map fst := by simp
  have hkeep : ∀ w, w ∈ history.map fst ∨ w ∈ v :: queue →
      w ∈ (history ++ [(v, port)]).map fst ∨ w ∈ queue ++ (targets edges v port).filter
        fun w => w ∉ (history ++ [(v, port)]).map fst := by
    rintro w (hw | hw)
    · exact .inl (by simp only [map_append, mem_append]; exact .inl hw)
    · rcases mem_cons.mp hw with rfl | hw
      · exact .inl hran
      · exact .inr (mem_append_left _ hw)
  refine { nodup := ?_, justified := ?_, queued := ?_, start := hkeep start h.start, closed := ?_ }
  · rw [map_append]
    exact nodup_append.mpr ⟨h.nodup, by simp, by
      intro a ha b hb
      simp only [map_cons, map_nil, mem_singleton] at hb
      rintro rfl
      exact hv (hb ▸ ha)⟩
  · intro before x after heq
    rcases eq_nil_or_concat after with rfl | ⟨after, last, rfl⟩
    · -- the node that runs now: it was on the list
      obtain ⟨hbefore, hx⟩ := append_inj' heq rfl
      simp only [cons.injEq, and_true] at hx
      rw [← hbefore, ← hx]
      exact h.queued v mem_cons_self
    · rw [concat_eq_append, ← cons_append, ← append_assoc] at heq
      exact h.justified before x after (append_inj' heq rfl).1
  · intro w hw
    rcases mem_append.mp hw with hw | hw
    · exact (h.queued w (mem_cons_of_mem v hw)).append _
    have hedge := mem_targets.mp (mem_filter.mp hw).1
    exact .inr ⟨(v, port), by simp, hedge⟩
  · intro y hy w hedge
    rcases mem_append.mp hy with hy | hy
    · exact hkeep w (h.closed y hy w hedge)
    rw [mem_singleton] at hy
    rw [hy] at hedge
    by_cases hw : w ∈ (history ++ [(v, port)]).map fst
    · exact .inl hw
    refine Or.inr (mem_append_right _ (mem_filter.mpr ⟨mem_targets.mpr hedge, ?_⟩))
    exact decide_eq_true hw

omit [DecidableEq α] [DecidableEq ρ] in
/-- With an empty list, what ran is the least set closed under the fired edges. -/
lemma Sound.isLeast (h : Sound edges start history []) :
    IsLeast {S : Set α | start ∈ S ∧ ∀ y ∈ history, y.1 ∈ S → ∀ w, (y.1, y.2, w) ∈ edges → w ∈ S}
      {v | v ∈ history.map fst} := by
  refine ⟨⟨?_, fun y hy _ w hedge => ?_⟩, ?_⟩
  · simpa using h.start
  · simpa using h.closed y hy w hedge
  · rintro S ⟨hstart, hclosed⟩
    -- by induction on the part of the history that came before
    have hbefore : ∀ after before, history = before ++ after →
        (∀ x ∈ before, x.1 ∈ S) → ∀ x ∈ after, x.1 ∈ S := by
      intro after
      induction after with
      | nil => simp
      | cons x after ih =>
        intro before heq hbefore
        have hx : x.1 ∈ S := by
          rcases h.justified before x after heq with hx | ⟨y, hy, hedge⟩
          · rwa [hx]
          · exact hclosed y (by rw [heq]; exact mem_append_left _ hy) (hbefore y hy) _ hedge
        refine forall_mem_cons.mpr ⟨hx, ih (before ++ [x]) (by simpa using heq) ?_⟩
        exact forall_mem_append.mpr ⟨hbefore, forall_mem_singleton.mpr hx⟩
    intro v hv
    obtain ⟨x, hx, rfl⟩ := mem_map.mp hv
    exact hbefore history [] rfl (by simp) x hx

/-- What is known of a walk that ended: the invariant with what was on the list, the
bound, and a relation between the state and the history that every run keeps. -/
structure Ended (edges : List (α × ρ × α)) (start : α) (limit : ℕ)
    (P : σ → History α ρ → Prop) (F : σ → History α ρ → ε → Prop)
    (outcome : σ × History α ρ × Ending ε) : Prop where
  sound : ∃ queue, Sound edges start outcome.2.1 queue ∧
    (∀ s history, outcome = (s, history, .finished) → queue = [])
  bounded : outcome.2.1.length ≤ limit
  success : (∀ e, outcome.2.2 ≠ .failed e) → P outcome.1 outcome.2.1
  failure : ∀ e, outcome.2.2 = .failed e → F outcome.1 outcome.2.1 e

/-- The induction over a walk.  `P` relates the state to the history, `F` says what a
failing node leaves. -/
lemma loop_ended {lookup : α → Option β} {limit : ℕ} {run : σ → β → σ × Except ε ρ}
    {P : σ → History α ρ → Prop} {F : σ → History α ρ → ε → Prop}
    (htargets : ∀ e ∈ edges, (lookup e.2.2).isSome) (hstart : (lookup start).isSome)
    (hok : ∀ s history v b s' port, P s history → lookup v = some b → v ∉ history.map fst →
      run s b = (s', .ok port) → P s' (history ++ [(v, port)]))
    (hfail : ∀ s history v b s' e, P s history → lookup v = some b → v ∉ history.map fst →
      Justified edges start history v → history.length < limit → run s b = (s', .error e) →
      F s' history e)
    {n : ℕ} {s : σ} (hsound : Sound edges start history queue)
    (hbounded : history.length ≤ limit) (hP : P s history) {outcome : σ × History α ρ × Ending ε}
    (h : loop edges lookup limit run n s history queue = some outcome) :
    Ended edges start limit P F outcome := by
  induction n generalizing s history queue with
  | zero => simp [loop] at h
  | succ n ih =>
    cases queue with
    | nil =>
      cases h
      exact ⟨⟨[], hsound, fun _ _ _ => rfl⟩, hbounded, fun _ => hP, by simp⟩
    | cons v queue =>
      have hknown : (lookup v).isSome := by
        rcases hsound.queued v mem_cons_self with rfl | ⟨y, _, hedge⟩
        · exact hstart
        · exact htargets _ hedge
      rw [loop] at h
      split at h
      · rename_i hv
        exact ih (hsound.skip hv) hbounded hP h
      rename_i hv
      split at h
      · rename_i hnone
        rw [hnone] at hknown
        cases hknown
      rename_i b hb
      split at h
      · cases h
        exact ⟨⟨_, hsound, by simp⟩, hbounded, fun _ => hP, by simp⟩
      split at h
      · rename_i s' e hrun
        cases h
        refine ⟨⟨_, hsound, by simp⟩, hbounded, fun hne => absurd rfl (hne e), ?_⟩
        intro e' he'
        cases he'
        exact hfail s history v b s' e hP hb hv (hsound.queued v mem_cons_self)
          (by omega) hrun
      · rename_i s' port hrun
        exact ih (hsound.step hv)
          (by rw [length_append, length_singleton]; omega)
          (hok s history v b s' port hP hb hv hrun) h

end Invariant

end StreamHub.Library.Worklist
