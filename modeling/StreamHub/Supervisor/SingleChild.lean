import StreamHub.Supervisor.Loops

/-!
# One child at a time

Under `orderly` (`Start` and `Stop` take effect only while the process is
supervised or every earlier loop has left) a child is alive only while the
current loop holds it, so there is at most one, and none after `Stop`.  Without
it a `Start` during an unfinished `Stop` gives two loops and two children, and a
second `Stop` returns while the first still waits for the child.
-/

namespace StreamHub.Supervisor

open Library.Transition Function

variable {o : Options} {s t : State} {l : Nat} {a : Act} {c : Nat}

/-- The wait after SIGKILL does not run out while the child is alive. -/
def promptKill (s : State) : Label → Bool
  | .loop l .timer =>
    match (s.loops l).pc with
    | .killWait c => !(s.children c).alive
    | _ => true
  | _ => true

/-- `Start` and `Stop` find the process supervised or every earlier loop gone. -/
def orderly (s : State) : Label → Bool
  | .start | .stop => s.wantRun || s.allLeft
  | _ => true

/-! ## Children and the loop that holds them -/

lemma setChild_alive (child : Child) (h : child.alive = (s.children c).alive) (k : Nat) :
    ((s.setChild c child).children k).alive = (s.children k).alive := by
  by_cases hk : k = c
  · subst hk
    simp [h]
  · simp [update_of_ne hk]

lemma restart_alive (s : State) (k : Nat) :
    ((restart s).children k).alive = (s.children k).alive := by
  unfold restart
  split
  · cases s.proc with
    | none => rfl
    | some c => exact setChild_alive { s.children c with killed := true } rfl k
  · rfl

lemma stop_children (s : State) : (stop s).children = s.children := by
  unfold stop
  split <;> rfl

lemma loopStep_children (h : loopStep o s l a = some t) :
    t.childCount = s.childCount ∧ (∀ k, (t.children k).alive = (s.children k).alive) ∨
      (s.loops l).pc = .starting ∧ (t.loops l).pc = .publishing s.childCount ∧
        t.children = update s.children s.childCount
          { spec := (s.loops l).spec, alive := true } := by
  unfold loopStep at h
  dsimp only at h
  split at h <;> (try split at h) <;> cases h
  case h_2 hpc => exact .inr ⟨hpc, by simp, rfl⟩
  -- the two signals: interrupt and kill
  case h_8 | h_11 => exact .inl ⟨rfl, setChild_alive _ rfl⟩
  all_goals exact .inl ⟨rfl, fun _ => rfl⟩

/-- A loop gives up its child only when the child is dead, or when the wait after
SIGKILL runs out. -/
lemma loopStep_child (h : loopStep o s l a = some t) (hprompt : promptKill s (.loop l a) = true)
    (hchild : (s.loops l).pc.child = some c) (hc : (s.children c).alive = true) :
    (t.loops l).pc.child = some c := by
  unfold loopStep at h
  dsimp only at h
  split at h <;> (try split at h) <;> cases h <;> simp_all [Pc.child, promptKill]

lemma Pc.child_left {pc : Pc} (h : pc.left = true) : pc.child = none := by
  cases pc <;> simp_all [Pc.left, Pc.child]

/-! ## The invariant -/

/-- A child that is alive is the one of the current loop; after `Stop` there is
no loop. -/
structure OneChild (s : State) : Prop where
  loops : OneLoop s
  held : ∀ c, (s.children c).alive = true → (s.loops s.current).pc.child = some c
  returned : s.stopReturned = true → s.wantRun = false ∧ ∀ l, (s.loops l).pc.left = true

lemma OneChild.init (spec : Spec) : OneChild (newProcess spec) where
  loops := .init spec
  held := fun _ hc => nomatch hc
  returned := fun h => nomatch h

section

variable (hs : OneChild s)

include hs

lemma OneChild.none_alive (hleft : ∀ l, (s.loops l).pc.left = true) (c : Nat) :
    (s.children c).alive = false := by
  refine Bool.eq_false_of_not_eq_true fun hc => ?_
  have hheld := hs.held c hc
  rw [Pc.child_left (hleft _)] at hheld
  cases hheld

lemma OneChild.start (hguard : orderly s .start = true) : OneChild (start o s) := by
  have hloops : OneLoop (Supervisor.start o s) := hs.loops.start hguard
  refine ⟨hloops, ?_, ?_⟩
  · intro c hc
    unfold Supervisor.start at hc ⊢
    by_cases hwant : s.wantRun = true
    · rw [if_pos hwant] at hc ⊢
      exact hs.held c hc
    -- a new loop is created; the earlier ones have left, and so has their child
    rw [if_neg hwant] at hc
    have hall : s.allLeft = true := by simpa [orderly, hwant] using hguard
    have hdead := hs.none_alive (hs.loops.left hall) c
    rw [hdead] at hc
    cases hc
  · intro h
    unfold Supervisor.start at h
    split at h <;> cases h

lemma OneChild.stop (hguard : orderly s .stop = true) : OneChild (stop s) := by
  have hcurrent : (Supervisor.stop s).current = s.current := by
    unfold Supervisor.stop
    split <;> rfl
  refine ⟨hs.loops.stop, ?_, ?_⟩
  · intro c hc
    rw [stop_children] at hc
    rw [hcurrent, stop_pc]
    exact hs.held c hc
  · intro h
    by_cases hwant : s.wantRun = true
    · -- this Stop waits, and none has returned
      have hret : s.stopReturned = true := by
        unfold Supervisor.stop at h
        rw [if_pos hwant] at h
        exact h
      rw [(hs.returned hret).1] at hwant
      cases hwant
    · have hall : s.allLeft = true := by simpa [orderly, hwant] using hguard
      have hstop : Supervisor.stop s = { s with stopReturned := true } := if_neg hwant
      rw [hstop]
      exact ⟨Bool.eq_false_of_not_eq_true hwant, hs.loops.left hall⟩

lemma OneChild.stopReturn (h : stopReturn s l = some t) : OneChild t := by
  have hloops := hs.loops.stopReturn h
  unfold Supervisor.stopReturn at h
  split at h
  · rename_i hdone
    cases h
    refine ⟨hloops, hs.held, fun hret => ?_⟩
    rcases Bool.or_eq_true_iff.mp hret with hold | hcurrent
    · exact hs.returned hold
    -- the loop of the last Start is done, so every loop has left
    have hl : l = s.current := of_decide_eq_true hcurrent
    refine ⟨hs.loops.stopped (hl ▸ hdone.1), fun k => ?_⟩
    by_contra hk
    have hk' : k = l := by
      rw [hl]
      exact hs.loops.isCurrent k (Bool.eq_false_of_not_eq_true hk)
    apply hk
    change (s.loops k).pc.left = true
    rw [hk', hdone.2]
    rfl
  · cases h

lemma OneChild.restart : OneChild (restart s) := by
  obtain ⟨-, hwant, hcurrent, -, -, hreturned⟩ := restart_callsKept s
  refine ⟨hs.loops.restart, ?_, ?_⟩
  · intro c hc
    rw [restart_alive] at hc
    rw [hcurrent, restart_pc]
    exact hs.held c hc
  · intro h
    rw [hreturned] at h
    refine ⟨hwant.trans (hs.returned h).1, fun l => ?_⟩
    rw [restart_pc]
    exact (hs.returned h).2 l

lemma OneChild.childExit : OneChild (s.setChild c { s.children c with alive := false }) := by
  refine ⟨?_, ?_, hs.returned⟩
  · exact hs.loops.of_same (fun _ => rfl) id rfl rfl (fun l hl => .inl hl) hs.loops.stopped
  · intro k hk
    by_cases hkc : k = c
    · subst hkc
      simp at hk
    · simp only [State.setChild_children, update_of_ne hkc] at hk
      exact hs.held k hk

lemma OneChild.loopStep (hprompt : promptKill s (.loop l a) = true)
    (h : loopStep o s l a = some t) : OneChild t := by
  obtain ⟨⟨-, hwant, hcurrent, -, -, hreturned⟩, hother, -⟩ := loopStep_frame h
  refine ⟨hs.loops.loopStep h, ?_, ?_⟩
  · intro c hc
    rw [hcurrent]
    rcases loopStep_children h with ⟨-, halive⟩ | ⟨hstarting, hpublishing, hchildren⟩
    · rw [halive] at hc
      have hheld := hs.held c hc
      by_cases hl : s.current = l
      · rw [hl] at hheld ⊢
        exact loopStep_child h hprompt hheld hc
      · rwa [hother _ hl]
    · -- the starting loop is the current one and holds no child yet
      have hl : l = s.current := hs.loops.isCurrent l (by rw [hstarting]; rfl)
      rw [← hl, hpublishing]
      by_cases hnew : c = s.childCount
      · rw [hnew]
        rfl
      rw [hchildren, update_of_ne hnew] at hc
      have hheld := hs.held c hc
      rw [← hl, hstarting] at hheld
      cases hheld
  · intro hret
    rw [hreturned] at hret
    rw [hwant]
    exact ⟨(hs.returned hret).1, loopStep_allLeft h (hs.returned hret).2⟩

/-- Every orderly step keeps the invariant. -/
lemma OneChild.step {label : Label} (hprompt : promptKill s label = true)
    (hguard : orderly s label = true) (h : step o s label = some t) : OneChild t := by
  cases label with
  | start =>
    cases h
    exact hs.start hguard
  | stop =>
    cases h
    exact hs.stop hguard
  | stopReturn l => exact hs.stopReturn h
  | restart =>
    cases h
    exact hs.restart
  | setSpec spec =>
    cases h
    have hloops : OneLoop { s with spec := spec } :=
      hs.loops.of_same (fun _ => rfl) id rfl rfl (fun l hl => .inl hl) hs.loops.stopped
    exact ⟨hloops, hs.held, hs.returned⟩
  | childExit c =>
    simp only [Supervisor.step] at h
    split at h <;> cases h
    exact hs.childExit
  | loop l a => exact hs.loopStep hprompt h

end

/-! ## After Stop -/

/-- Nothing runs and nothing will without a new `Start`. -/
structure Quiet (count : Nat) (s : State) : Prop where
  unwanted : s.wantRun = false
  left : ∀ l, (s.loops l).pc.left = true
  dead : ∀ c, (s.children c).alive = false
  count : s.childCount = count

lemma Quiet.loopStep {n : Nat} (hs : Quiet n s) (h : loopStep o s l a = some t) : Quiet n t := by
  rcases loopStep_children h with ⟨hcount, halive⟩ | ⟨hstarting, -, -⟩
  · exact ⟨(loopStep_frame h).calls.wantRun.trans hs.unwanted, loopStep_allLeft h hs.left,
      fun c => (halive c).trans (hs.dead c), hcount.trans hs.count⟩
  · have hleft := hs.left l
    rw [hstarting] at hleft
    cases hleft

lemma Quiet.step {n : Nat} {label : Label} (hs : Quiet n s) (hlabel : label ≠ .start)
    (h : step o s label = some t) : Quiet n t := by
  cases label with
  | start => exact absurd rfl hlabel
  | stop =>
    simp only [Supervisor.step, stop, hs.unwanted, Bool.false_eq_true, if_false] at h
    cases h
    exact ⟨rfl, hs.left, hs.dead, hs.count⟩
  | stopReturn l =>
    simp only [Supervisor.step, stopReturn] at h
    split at h <;> cases h
    exact ⟨hs.unwanted, hs.left, hs.dead, hs.count⟩
  | restart =>
    simp only [Supervisor.step, restart, hs.unwanted, Bool.false_eq_true, if_false] at h
    cases h
    exact hs
  | setSpec spec =>
    cases h
    exact ⟨hs.unwanted, hs.left, hs.dead, hs.count⟩
  | childExit c =>
    simp only [Supervisor.step, hs.dead c, Bool.false_eq_true, if_false] at h
    cases h
  | loop l a => exact hs.loopStep h

lemma OneChild.quiet (hs : OneChild s) (hret : s.stopReturned = true) :
    Quiet s.childCount s where
  unwanted := (hs.returned hret).1
  left := (hs.returned hret).2
  dead := hs.none_alive (hs.returned hret).2
  count := rfl

/-- In every orderly run at most one child is alive, and when a `Stop` has
returned none is alive or started before the next `Start`. -/
theorem orderly_single_child (o : Options) (spec : Spec) (s : State)
    (h : Reached (step o) (fun s label => promptKill s label && orderly s label)
      (newProcess spec) s) :
    (∀ c k, (s.children c).alive = true → (s.children k).alive = true → c = k) ∧
      (s.stopReturned = true → ∀ labels t, Label.start ∉ labels →
        execute (step o) s labels = some t →
          (∀ c, (t.children c).alive = false) ∧ t.childCount = s.childCount) := by
  have hs : OneChild s := h.invariant (.init spec) fun s t label hs hguard hstep =>
    hs.step (Bool.and_eq_true_iff.mp hguard).1 (Bool.and_eq_true_iff.mp hguard).2 hstep
  constructor
  · intro c k hc hk
    exact Option.some.inj ((hs.held c hc).symm.trans (hs.held k hk))
  · intro hret labels t hno hrun
    have hquiet : Quiet s.childCount t :=
      execute_invariant (fun s t label hs hlabel hstep => hs.step hlabel hstep)
        (fun label hlabel heq => hno (heq ▸ hlabel)) (hs.quiet hret) hrun
    exact ⟨hquiet.dead, hquiet.count⟩

/-- `Start`, and the child runs. -/
def launch (l : Nat) : List Label := [.start, .loop l .go, .loop l .started, .loop l .go]

/-- `Stop` of the child `c` of loop `l`, which exits on the interrupt. -/
def stopGracefully (l c : Nat) : List Label :=
  [.stop, .loop l .kick, .loop l .go, .loop l .go, .childExit c, .loop l .exit,
    .loop l (.settle 0), .loop l .go, .loop l .go, .stopReturn l]

/-- A launch and a graceful stop are such a run, to the end of the `Stop`. -/
theorem orderly_single_child_stopped :
    ∃ s, Reached (step (Options.defaults {})) (fun s label => promptKill s label && orderly s label)
      (newProcess {}) s ∧ s.childCount = 1 ∧ s.stopReturned = true ∧
        ∀ c, (s.children c).alive = false := by
  obtain ⟨s, hs, hp⟩ := exists_reached (step (Options.defaults {}))
    (fun s label => promptKill s label && orderly s label) (newProcess {})
    (launch 0 ++ stopGracefully 0 0) (fun s => decide (s.childCount = 1) && s.stopReturned)
    (by decide)
  obtain ⟨hcount, hret⟩ := Bool.and_eq_true_iff.mp hp
  exact ⟨s, hs, of_decide_eq_true hcount, hret,
    ((orderly_single_child _ {} s hs).2 hret [] s (List.not_mem_nil) rfl).1⟩

/-- A `Start` while the loop of the last one still stops its child gives two live
children; a second `Stop` returns while the first still waits for the child. -/
theorem overlapping_calls_break_single_child :
    (∃ s, Reached (step (Options.defaults {})) promptKill (newProcess {}) s ∧
      (s.children 0).alive = true ∧ (s.children 1).alive = true) ∧
    ∃ s, Reached (step (Options.defaults {})) promptKill (newProcess {}) s ∧
      s.stopReturned = true ∧ (s.children 0).alive = true := by
  constructor
  · obtain ⟨s, hs, hp⟩ := exists_reached (step (Options.defaults {})) promptKill (newProcess {})
      (launch 0 ++ [.stop] ++ launch 1)
      (fun s => (s.children 0).alive && (s.children 1).alive) (by decide)
    exact ⟨s, hs, Bool.and_eq_true_iff.mp hp⟩
  · obtain ⟨s, hs, hp⟩ := exists_reached (step (Options.defaults {})) promptKill (newProcess {})
      (launch 0 ++ [.stop, .stop]) (fun s => s.stopReturned && (s.children 0).alive) (by decide)
    exact ⟨s, hs, Bool.and_eq_true_iff.mp hp⟩

end StreamHub.Supervisor
