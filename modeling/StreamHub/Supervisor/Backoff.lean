import StreamHub.Supervisor.Loops

/-!
# The delays between restarts

The delays of one loop as a function of its exits: `delay` doubles from `minBackoff` up to
`maxBackoff`, starts again with a stable exit, and is zero for an exit in the Restart branch.
The loop keeps to it (`backoff_eq_delay`) as long as no exit is both; such an exit has the
delay of a stable one (`stable_restart_delayed`).
-/

namespace StreamHub.Supervisor

open Library.Transition Function

/-- An exit that a loop has handled. -/
structure Exit where
  /-- the loop waited for it in the Restart branch -/
  restarted : Bool
  up : Int

variable {o : Options} {s t : State} {l : Nat}

namespace Options

/-- The delay after `k` exits. -/
def capped (o : Options) (k : Nat) : Int := min (o.minBackoff * 2 ^ k) o.maxBackoff

/-- The exits that count for the next delay; the newest is the first. -/
def streak (o : Options) : List Exit → Nat
  | [] => 0
  | e :: es => if e.restarted then 0 else if e.up ≥ o.stableAfter then 1 else streak o es + 1

/-- The delay after the newest exit. -/
def delay (o : Options) : List Exit → Int
  | [] => 0
  | e :: es =>
    if e.restarted then 0
    else if e.up ≥ o.stableAfter then o.capped 0 else o.capped (o.streak es)

end Options

/-- Loop `l` has handled the exits of a list, and `restarted` tells about the round it is in.
Between its steps the others do anything that leaves its place and its backoff. -/
inductive Handled (o : Options) (l : Nat) : State → Bool → List Exit → Prop
  | start {s : State} : s.loops l = { pc := .top, backoff := o.minBackoff } → Handled o l s false []
  | others {s t : State} {restarted : Bool} {es : List Exit} : Handled o l s restarted es →
      (t.loops l).pc = (s.loops l).pc → (t.loops l).backoff = (s.loops l).backoff →
      Handled o l t restarted es
  | settle {s t : State} {restarted : Bool} {es : List Exit} {up : Int} :
      Handled o l s restarted es → loopStep o s l (.settle up) = some t →
      Handled o l t false (⟨restarted, up⟩ :: es)
  | round {s t : State} {restarted : Bool} {es : List Exit} {a : Act} :
      Handled o l s restarted es → (∀ up, a ≠ .settle up) → loopStep o s l a = some t →
      Handled o l t (restarted || (s.loops l).pc matches .restartWait _) es

/-- The backoff of a loop between its exits. -/
def Backed (o : Options) (loop : Loop) (restarted : Bool) (es : List Exit) : Prop :=
  match loop.pc with
  | .exited => loop.backoff = if restarted then 0 else o.capped (o.streak es)
  | .backingOff | .sleeping => restarted = false ∧ loop.backoff = o.delay es
  | .absent | .leaving | .closing | .done => True
  | _ => restarted = false ∧ loop.backoff = o.capped (o.streak es)

section

variable (hmin : 0 < o.minBackoff) (hmax : o.minBackoff ≤ o.maxBackoff)
  (hint : o.maxBackoff < 2 ^ 62)

include hmin hmax hint

lemma nextBackoff_capped (k : Nat) : nextBackoff o (o.capped k) = o.capped (k + 1) := by
  have hpow : 0 < o.minBackoff * 2 ^ k := by positivity
  have hsucc : o.minBackoff * 2 ^ (k + 1) = o.minBackoff * 2 ^ k * 2 := by ring
  unfold nextBackoff Options.capped
  rw [hsucc]
  generalize o.minBackoff * 2 ^ k = b at hpow ⊢
  have hbmod : (min b o.maxBackoff * 2).bmod (2 ^ 64) = min b o.maxBackoff * 2 := by
    rw [Int.bmod_eq_of_le] <;> omega
  dsimp only
  split <;> omega

lemma nextBackoff_delay (es : List Exit) : nextBackoff o (o.delay es) = o.capped (o.streak es) := by
  have hzero : nextBackoff o 0 = o.capped 0 := by simp [nextBackoff, Options.capped, hmax]
  cases es with
  | nil => exact hzero
  | cons e es =>
    rw [Options.delay, Options.streak]
    split
    · exact hzero
    · split <;> exact nextBackoff_capped hmin hmax hint _

lemma Handled.backed {restarted : Bool} {es : List Exit} (h : Handled o l s restarted es)
    (hes : ∀ e ∈ es, e.restarted = true → e.up < o.stableAfter) :
    Backed o (s.loops l) restarted es := by
  induction h with
  | start hloop => simp [Backed, hloop, Options.streak, Options.capped, hmax]
  | others _ hpc hbackoff ih =>
    rw [Backed, hpc, hbackoff]
    exact ih hes
  | @settle s t restarted es up _ hstep ih =>
    have hb := ih fun e he => hes e (List.mem_cons_of_mem _ he)
    have hup : restarted = true → up < o.stableAfter := hes _ List.mem_cons_self
    -- only an exit is settled
    cases hpc : (s.loops l).pc <;> simp only [loopStep, hpc, reduceCtorEq] at hstep
    cases hstep
    simp only [Backed, hpc] at hb
    by_cases hwant : s.wantRun = true
    · cases restarted with
      | false => simp [Backed, hwant, hb, Options.delay, Options.capped, hmax]
      | true => simp [Backed, hwant, hb, Options.delay, hup rfl]
    · simp [Backed, hwant]
  | @round s t restarted es a _ ha hstep ih =>
    have hnext := nextBackoff_delay hmin hmax hint es
    unfold loopStep at hstep
    dsimp only at hstep
    split at hstep <;> (try split at hstep) <;> cases hstep <;>
      simp_all [Backed, Loop.gone, State.kill, State.setChild]

/-- In a loop without a stable exit in the Restart branch, an exit there has no delay; any other
delay doubles from `minBackoff` up to `maxBackoff`. -/
theorem backoff_eq_delay {restarted : Bool} {es : List Exit} (h : Handled o l s restarted es)
    (hes : ∀ e ∈ es, e.restarted = true → e.up < o.stableAfter)
    (hpc : (s.loops l).pc = .backingOff) : (s.loops l).backoff = o.delay es := by
  have hbacked := h.backed hmin hmax hint hes
  rw [Backed, hpc] at hbacked
  exact hbacked.2

end

/-- A first start that fails at once. -/
theorem backoff_eq_delay_first : ∃ s, Handled (Options.defaults {}) 0 s false [⟨false, 5⟩] ∧
    (s.loops 0).backoff = 1000000000 := by
  have hstart := Handled.start (s := start (Options.defaults {}) (newProcess {})) (l := 0) rfl
  have hsettled : Handled _ 0 _ false [⟨false, 5⟩] :=
    .settle (.round (a := .startFailed) (.round (a := .go) hstart nofun rfl) nofun rfl) rfl
  exact ⟨_, hsettled, backoff_eq_delay (by decide) (by decide) (by decide) hsettled (by simp) rfl⟩

/-- A child that `Restart` ends after a stable run is not restarted at once. -/
theorem stable_restart_delayed : ∃ s, execute (step (Options.defaults {})) (newProcess {})
      [.start, .loop 0 .go, .loop 0 .started, .loop 0 .go, .restart, .loop 0 .kick, .loop 0 .go,
        .childExit 0, .loop 0 .exit, .loop 0 (.settle 30000000000)] = some s ∧
    (s.loops 0).pc = .backingOff ∧ (s.loops 0).backoff = 1000000000 := ⟨_, rfl, rfl, rfl⟩

end StreamHub.Supervisor
