import Mathlib.Tactic

/-!
# Guarded runs of a transition system

A concurrent component is a partial step function on a state, one label for
every atomic action of one of its parties.  A run takes the steps in any order
the labels say.

`Reached step guard init s` says that `s` is reached from `init` by steps that
all satisfy `guard`; `guard` states what is assumed of the environment or under
which condition a property holds.  `Reached.invariant` is the induction every
safety theorem uses, `Reached.project` carries a run of a composed system over to
a run of one of its components.
-/

namespace StreamHub.Library.Transition

variable {σ ℓ : Type*}

/-- The state behind a list of steps, if they are all enabled. -/
def execute (step : σ → ℓ → Option σ) : σ → List ℓ → Option σ
  | s, [] => some s
  | s, l :: rest =>
    match step s l with
    | none => none
    | some t => execute step t rest

/-- The same, and every step satisfies the guard. -/
def executeWhile (step : σ → ℓ → Option σ) (guard : σ → ℓ → Bool) :
    σ → List ℓ → Option σ
  | s, [] => some s
  | s, l :: rest =>
    if guard s l then
      match step s l with
      | none => none
      | some t => executeWhile step guard t rest
    else none

/-- Reached by steps that all satisfy the guard. -/
inductive Reached (step : σ → ℓ → Option σ) (guard : σ → ℓ → Bool) (init : σ) : σ → Prop
  | start : Reached step guard init init
  | next {s t : σ} {l : ℓ} :
      Reached step guard init s → guard s l = true → step s l = some t →
        Reached step guard init t

variable {step : σ → ℓ → Option σ} {guard : σ → ℓ → Bool} {init s t : σ}

variable {Inv : σ → Prop}

/-- What holds at the start and is kept by every guarded step holds in every
reached state. -/
lemma Reached.invariant (hinit : Inv init)
    (hstep : ∀ s t l, Inv s → guard s l = true → step s l = some t → Inv t)
    (h : Reached step guard init s) : Inv s := by
  induction h with
  | start => exact hinit
  | next _ hguard ht ih => exact hstep _ _ _ ih hguard ht

lemma Reached.executeWhile (hs : Reached step guard init s) {labels : List ℓ}
    (h : executeWhile step guard s labels = some t) : Reached step guard init t := by
  induction labels generalizing s with
  | nil =>
    cases h
    exact hs
  | cons l rest ih =>
    rw [Transition.executeWhile] at h
    split at h
    · rename_i hguard
      split at h
      · cases h
      rename_i u hu
      exact ih (hs.next hguard hu) h
    · cases h

lemma exists_reached (step : σ → ℓ → Option σ) (guard : σ → ℓ → Bool) (init : σ)
    (labels : List ℓ) (p : σ → Bool) (h : (executeWhile step guard init labels).any p = true) :
    ∃ s, Reached step guard init s ∧ p s = true := by
  cases hrun : executeWhile step guard init labels with
  | none =>
    rw [hrun] at h
    cases h
  | some s =>
    rw [hrun] at h
    exact ⟨s, Reached.start.executeWhile hrun, h⟩

lemma execute_invariant {allowed : ℓ → Prop}
    (hstep : ∀ s t l, Inv s → allowed l → step s l = some t → Inv t) {labels : List ℓ}
    (hallowed : ∀ l ∈ labels, allowed l) (hs : Inv s) (h : execute step s labels = some t) :
    Inv t := by
  induction labels generalizing s with
  | nil =>
    cases h
    exact hs
  | cons l rest ih =>
    rw [execute] at h
    split at h
    · cases h
    rename_i u hu
    have hallowed' : ∀ k ∈ rest, allowed k := fun k hk => hallowed k (List.mem_cons_of_mem l hk)
    exact ih hallowed' (hstep s u l hs (hallowed l List.mem_cons_self) hu) h

/-- A run of a composed system is a run of its component `f`: every step of the
system is a guarded step of the component or leaves it alone.  `Inv` is what the
system knows about itself. -/
lemma Reached.project {τ κ : Type*} {part : τ → κ → Option τ} {partGuard : τ → κ → Bool}
    (f : σ → τ) (hinit : Inv init)
    (hstep : ∀ s t l, Inv s → guard s l = true → step s l = some t →
      Inv t ∧ (f t = f s ∨ ∃ k, partGuard (f s) k = true ∧ part (f s) k = some (f t)))
    (h : Reached step guard init s) : Inv s ∧ Reached part partGuard (f init) (f s) := by
  induction h with
  | start => exact ⟨hinit, .start⟩
  | next _ hguard ht ih =>
    obtain ⟨hinv, hreached⟩ := ih
    obtain ⟨hnext, hsame | ⟨k, hk, hpart⟩⟩ := hstep _ _ _ hinv hguard ht
    · exact ⟨hnext, hsame ▸ hreached⟩
    · exact ⟨hnext, hreached.next hk hpart⟩

/-! ## Infinite runs and progress -/

/-- An infinite run; where no label stands, nothing happens. -/
structure Run (step : σ → ℓ → Option σ) (guard : σ → ℓ → Bool) (init : σ) where
  state : ℕ → σ
  label : ℕ → Option ℓ
  starts : state 0 = init
  idle : ∀ n, label n = none → state (n + 1) = state n
  moves : ∀ n l, label n = some l →
    guard (state n) l = true ∧ step (state n) l = some (state (n + 1))

lemma Run.reached (r : Run step guard init) (n : ℕ) : Reached step guard init (r.state n) := by
  induction n with
  | zero =>
    rw [r.starts]
    exact .start
  | succ n ih =>
    cases hl : r.label n with
    | none =>
      rw [r.idle n hl]
      exact ih
    | some l => exact ih.next (r.moves n l hl).1 (r.moves n l hl).2

/-- A run can stay in a reached state for ever. -/
lemma Reached.exists_run (h : Reached step guard init s) :
    ∃ (r : Run step guard init) (n : ℕ), ∀ m, n ≤ m → r.state m = s := by
  induction h with
  | start => exact ⟨⟨fun _ => init, fun _ => none, rfl, by simp, by simp⟩, 0, by simp⟩
  | @next s t l _ hguard ht ih =>
    obtain ⟨r, n, hr⟩ := ih
    -- the run so far, the step at time `n`, and then nothing
    refine ⟨⟨fun m => if m ≤ n then r.state m else t,
      fun m => if m < n then r.label m else if m = n then some l else none, ?_, ?_, ?_⟩,
      n + 1, ?_⟩
    · simpa using r.starts
    · intro m hm
      by_cases hlt : m < n
      · simpa [hlt, hlt.le, Nat.succ_le_of_lt hlt] using r.idle m (by simpa [hlt] using hm)
      have hne : m ≠ n := by
        rintro rfl
        simp at hm
      have hgt : ¬ m ≤ n := by omega
      have hgt' : ¬ m + 1 ≤ n := by omega
      simp [hgt, hgt']
    · intro m k hm
      by_cases hlt : m < n
      · simpa [hlt, hlt.le, Nat.succ_le_of_lt hlt] using
          r.moves m k (by simpa [hlt] using hm)
      by_cases heq : m = n
      · subst heq
        have hk : l = k := by simpa using hm
        subst hk
        simpa [hr m (le_refl m)] using ⟨hguard, ht⟩
      · simp [hlt, heq] at hm
    · intro m hm
      have hgt : ¬ m ≤ n := by omega
      simp [hgt]

/-- A step of `mine` can be taken. -/
def Enabled (step : σ → ℓ → Option σ) (guard : σ → ℓ → Bool) (mine : ℓ → Prop) (s : σ) : Prop :=
  ∃ l t, mine l ∧ guard s l = true ∧ step s l = some t

/-- Weak fairness: steps of `mine` that stay enabled are taken at some time. -/
def Run.Fair (r : Run step guard init) (mine : ℓ → Prop) : Prop :=
  ∀ n, (∀ m, n ≤ m → Enabled step guard mine (r.state m)) →
    ∃ m l, n ≤ m ∧ r.label m = some l ∧ mine l

/-- A run that stays where `mine` is blocked is fair to it. -/
lemma Run.fair_of_blocked (r : Run step guard init) {mine : ℓ → Prop} {n : ℕ}
    (hstays : ∀ m, n ≤ m → r.state m = s) (hblocked : ∀ l, mine l → step s l = none) :
    r.Fair mine := by
  intro k henabled
  obtain ⟨l, t, hmine, -, hstep⟩ := henabled (max k n) (le_max_left k n)
  rw [hstays _ (le_max_right k n), hblocked l hmine] at hstep
  cases hstep

/-- While `Pending` holds and the goal is not there, `mine` is enabled, no step
raises the rank and a step of `mine` lowers it. -/
structure Progress (step : σ → ℓ → Option σ) (guard : σ → ℓ → Bool) (init : σ)
    (mine : ℓ → Prop) (Pending Goal : σ → Prop) (rank : σ → ℕ) : Prop where
  enabled : ∀ s, Reached step guard init s → Pending s → ¬ Goal s → Enabled step guard mine s
  step : ∀ s t l, Reached step guard init s → Pending s → ¬ Goal s → guard s l = true →
    step s l = some t → Goal t ∨ Pending t ∧ rank t ≤ rank s ∧ (mine l → rank t < rank s)

section Progress

variable {mine : ℓ → Prop} {Pending Goal : σ → Prop} {rank : σ → ℕ}

/-- Until the goal is reached, `Pending` lasts and the rank does not grow. -/
lemma Progress.until (hp : Progress step guard init mine Pending Goal rank)
    (r : Run step guard init) {n : ℕ} (hn : Pending (r.state n))
    (hnot : ∀ m, n ≤ m → ¬ Goal (r.state m)) {m : ℕ} (hm : n ≤ m) :
    Pending (r.state m) ∧ rank (r.state m) ≤ rank (r.state n) := by
  induction m, hm using Nat.le_induction with
  | base => exact ⟨hn, le_refl _⟩
  | succ m hm ih =>
    cases hl : r.label m with
    | none =>
      rw [r.idle m hl]
      exact ih
    | some l =>
      obtain ⟨hguard, hstep⟩ := r.moves m l hl
      rcases hp.step _ _ l (r.reached m) ih.1 (hnot m hm) hguard hstep with
        hgoal | ⟨hpending, hle, -⟩
      · exact absurd hgoal (hnot (m + 1) (by omega))
      · exact ⟨hpending, hle.trans ih.2⟩

lemma Progress.leadsTo (hp : Progress step guard init mine Pending Goal rank)
    (r : Run step guard init) (hfair : r.Fair mine) {n : ℕ} (hn : Pending (r.state n)) :
    ∃ m, n ≤ m ∧ Goal (r.state m) := by
  -- induction on the rank at the time of waiting
  induction hk : rank (r.state n) using Nat.strong_induction_on generalizing n with
  | _ k ih =>
    by_contra hnone
    push Not at hnone
    have huntil := fun m (hm : n ≤ m) => hp.until r hn hnone hm
    obtain ⟨m, l, hm, hl, hmine⟩ := hfair n fun m hm =>
      hp.enabled _ (r.reached m) (huntil m hm).1 (hnone m hm)
    obtain ⟨hguard, hstep⟩ := r.moves m l hl
    rcases hp.step _ _ l (r.reached m) (huntil m hm).1 (hnone m hm) hguard hstep with
      hgoal | ⟨hpending, -, hlt⟩
    · exact hnone (m + 1) (by omega) hgoal
    have hsmaller : rank (r.state (m + 1)) < k := by
      rw [← hk]
      exact lt_of_lt_of_le (hlt hmine) (huntil m hm).2
    obtain ⟨j, hj, hgoal⟩ := ih _ hsmaller hpending rfl
    exact hnone j (by omega) hgoal

end Progress

end StreamHub.Library.Transition
