import StreamHub.Supervisor.SingleChild

/-!
# Restart kills, or the loop waits for ever

A loop that receives a kick while `wantRun` holds takes it for a `Restart` and
waits for its child to exit, "already killed".  That is so when no kick is left
over at the time a child is published (`freshKick`) and loops do not overlap
(`soloStart`): then a kick in the channel of a loop at its child was put there
together with a kill of this child, or by `Stop`.  Otherwise the loop waits for a
child nobody has signalled, and with it the next `Stop`.
-/

namespace StreamHub.Supervisor

open Library.Transition Function

variable {o : Options} {s t : State} {l : Nat} {a : Act} {c : Nat}

/-- A child is published only while the kick channel is empty, or to be stopped. -/
def freshKick (s : State) : Label → Bool
  | .loop l .go =>
    match (s.loops l).pc with
    | .publishing _ => !(s.loops l).kick || !s.wantRun
    | _ => true
  | _ => true

/-! ## What a kick means -/

/-- What the point of a loop says about its kick and its child. -/
def KickMeant (wantRun : Bool) (proc : Option Nat) (children : Nat → Child) (pc : Pc)
    (kick : Bool) : Prop :=
  match pc with
  | .starting | .publishing _ => wantRun = false → kick = true
  | .waiting c =>
    proc = some c ∧ (wantRun = false → kick = true) ∧
      (wantRun = true → kick = true → (children c).killed = true)
  | .kicked c => wantRun = true → (children c).killed = true
  | .restartWait c => (children c).killed = true
  | .grace c | .killing c | .killWait c => (children c).interrupted = true
  | _ => True

/-- Signals are never taken back. -/
structure SignalsKept (children children' : Nat → Child) : Prop where
  killed : ∀ c, (children c).killed = true → (children' c).killed = true
  interrupted : ∀ c, (children c).interrupted = true → (children' c).interrupted = true

lemma SignalsKept.refl (children : Nat → Child) : SignalsKept children children :=
  ⟨fun _ => id, fun _ => id⟩

lemma SignalsKept.update {children : Nat → Child} {child : Child}
    (hkilled : (children c).killed = true → child.killed = true)
    (hinterrupted : (children c).interrupted = true → child.interrupted = true) :
    SignalsKept children (update children c child) := by
  constructor <;> intro k hk
  all_goals
    by_cases hkc : k = c
    · subst hkc
      rw [update_self]
      first
        | exact hkilled hk
        | exact hinterrupted hk
    · rw [update_of_ne hkc]
      exact hk

section KickMeant

variable {wantRun kick : Bool} {proc : Option Nat} {children children' : Nat → Child} {pc : Pc}

lemma KickMeant.mono (h : KickMeant wantRun proc children pc kick)
    (hkept : SignalsKept children children') : KickMeant wantRun proc children' pc kick := by
  cases pc with
  | waiting c =>
    obtain ⟨hproc, hstop, hkill⟩ := h
    exact ⟨hproc, hstop, fun hrun hkick => hkept.killed c (hkill hrun hkick)⟩
  | kicked c => exact fun hrun => hkept.killed c (h hrun)
  | restartWait c => exact hkept.killed c h
  | grace c | killing c | killWait c => exact hkept.interrupted c h
  | _ => exact h

/-- `Stop` leaves a kick to the loop. -/
lemma KickMeant.stop (h : KickMeant wantRun proc children pc kick) :
    KickMeant false proc children pc true := by
  cases pc with
  | starting | publishing c => exact fun _ => rfl
  | waiting c => exact ⟨h.1, fun _ => rfl, fun hrun => nomatch hrun⟩
  | kicked c => exact fun hrun => nomatch hrun
  | _ => exact h

/-- `Restart` leaves a kick and kills the child the loop waits for. -/
lemma KickMeant.restart (h : KickMeant true proc children pc kick)
    (hkept : SignalsKept children children')
    (hkilled : ∀ c, proc = some c → (children' c).killed = true) :
    KickMeant true proc children' pc true := by
  cases pc with
  | starting | publishing c => exact fun hrun => nomatch hrun
  | waiting c => exact ⟨h.1, fun hrun => (nomatch hrun), fun _ _ => hkilled c h.1⟩
  | _ => exact h.mono hkept

end KickMeant

/-- Loops do not overlap, and the kick of the current one is meant. -/
structure Kicks (s : State) : Prop where
  loops : OneLoop s
  meant : KickMeant s.wantRun s.proc s.children (s.loops s.current).pc (s.loops s.current).kick

lemma Kicks.init (spec : Spec) : Kicks (newProcess spec) := ⟨.init spec, trivial⟩

lemma Kicks.start (hs : Kicks s) (hguard : soloStart s .start = true) : Kicks (start o s) := by
  refine ⟨hs.loops.start hguard, ?_⟩
  unfold Supervisor.start
  split
  · exact hs.meant
  · simp [KickMeant]

lemma signal_kick (s : State) : (s.signal.loops s.current).kick = true := by simp [State.signal]

lemma Kicks.stop (hs : Kicks s) : Kicks (stop s) := by
  refine ⟨hs.loops.stop, ?_⟩
  unfold Supervisor.stop
  split
  · rw [signal_pc]
    change KickMeant false s.proc s.children (s.loops s.current).pc
      ((State.signal _).loops s.current).kick
    rw [signal_kick]
    exact hs.meant.stop
  · exact hs.meant

lemma Kicks.restart (hs : Kicks s) : Kicks (restart s) := by
  refine ⟨hs.loops.restart, ?_⟩
  have hmeant := hs.meant
  unfold Supervisor.restart
  split
  · rename_i hwant
    rw [hwant] at hmeant
    cases hproc : s.proc with
    | none =>
      simp only [signal_pc]
      change KickMeant s.wantRun s.proc s.children (s.loops s.current).pc
        (s.signal.loops s.current).kick
      rw [signal_kick, hwant]
      exact hmeant.restart (.refl _) (fun c hc => by rw [hproc] at hc; cases hc)
    | some k =>
      simp only [signal_pc]
      change KickMeant s.wantRun s.proc (s.kill k).children (s.loops s.current).pc
        ((s.kill k).signal.loops s.current).kick
      rw [show ((s.kill k).signal.loops s.current).kick = true from signal_kick (s.kill k), hwant]
      refine hmeant.restart (.update (fun _ => rfl) id) fun c hc => ?_
      rw [hproc] at hc
      cases hc
      simp [State.kill]
  · exact hmeant

lemma loopStep_meant (h : loopStep o s l a = some t) (hguard : freshKick s (.loop l a) = true)
    (hs : KickMeant s.wantRun s.proc s.children (s.loops l).pc (s.loops l).kick) :
    KickMeant t.wantRun t.proc t.children (t.loops l).pc (t.loops l).kick := by
  unfold loopStep at h
  dsimp only at h
  split at h <;> (try split at h) <;> cases h <;>
    simp_all [KickMeant, Loop.gone, freshKick, State.kill]
  -- what is left is the publication of a child
  all_goals rcases hguard with hempty | hunwanted <;> simp_all

lemma Kicks.loopStep (hs : Kicks s) (hguard : freshKick s (.loop l a) = true)
    (h : loopStep o s l a = some t) : Kicks t := by
  refine ⟨hs.loops.loopStep h, ?_⟩
  obtain ⟨⟨-, hwant, hcurrent, -, -, -⟩, hother, hkept⟩ := loopStep_frame h
  rw [hcurrent]
  by_cases hl : l = s.current
  · subst hl
    exact loopStep_meant h hguard hs.meant
  have hleft : (s.loops l).pc.left = true := by
    by_contra hin
    exact hl (hs.loops.isCurrent l (Bool.eq_false_of_not_eq_true hin))
  obtain ⟨hproc, hchildren⟩ := hkept hleft
  rw [hwant, hproc, hchildren, hother _ (Ne.symm hl)]
  exact hs.meant

lemma Kicks.step {label : Label} (hs : Kicks s) (hsolo : soloStart s label = true)
    (hfresh : freshKick s label = true) (h : step o s label = some t) : Kicks t := by
  cases label with
  | start =>
    cases h
    exact hs.start hsolo
  | stop =>
    cases h
    exact hs.stop
  | restart =>
    cases h
    exact hs.restart
  | loop l a => exact hs.loopStep hfresh h
  | stopReturn l =>
    have hloops := hs.loops.stopReturn h
    simp only [Supervisor.step, stopReturn] at h
    split at h <;> cases h
    exact ⟨hloops, hs.meant⟩
  | setSpec spec =>
    have hloops := hs.loops.step hsolo h
    cases h
    exact ⟨hloops, hs.meant⟩
  | childExit c =>
    have hloops := hs.loops.step hsolo h
    simp only [Supervisor.step] at h
    split at h <;> cases h
    exact ⟨hloops, hs.meant.mono (.update id id)⟩

/-! ## A stopping loop gets on -/

/-- How far a loop is from its end once `wantRun` is false. -/
def Pc.rank : Pc → Nat
  | .absent | .done => 0
  | .closing => 1
  | .leaving | .top => 2
  | .exited | .sleeping => 3
  | .backingOff | .restartWait _ | .killWait _ => 4
  | .killing _ => 5
  | .grace _ => 6
  | .interrupting _ => 7
  | .kicked _ => 8
  | .waiting _ => 9
  | .publishing _ => 10
  | .starting => 11

lemma Pc.next_rank {pc : Pc} {wantRun : Bool} (hstop : wantRun = false ∨ pc.left = true)
    (newChild : Nat) : ∀ pc' ∈ pc.next wantRun newChild, pc'.rank < pc.rank := by
  rcases hstop with rfl | hleft
  · cases pc <;> simp [Pc.next, Pc.rank]
  · cases pc <;> simp_all [Pc.next, Pc.rank, Pc.left]

lemma loopStep_rank (h : loopStep o s l a = some t)
    (hstop : s.wantRun = false ∨ (s.loops l).pc.left = true) :
    (t.loops l).pc.rank < (s.loops l).pc.rank := Pc.next_rank hstop _ _ (loopStep_next h)

/-- The loop is done, or its child has been interrupted or killed. -/
def StopSettled (l : Nat) (s : State) : Prop :=
  (s.loops l).pc = .done ∨ ∃ c, (s.loops l).pc.child = some c ∧
    ((s.children c).interrupted = true ∨ (s.children c).killed = true)

/-- A loop a `Stop` waits for is in its body only without `wantRun`. -/
lemma OneLoop.unwanted (hs : OneLoop s) (hl : l ∈ s.stops) :
    s.wantRun = false ∨ (s.loops l).pc.left = true := by
  by_cases hleft : (s.loops l).pc.left = true
  · exact .inr hleft
  have hcurrent := hs.isCurrent l (Bool.eq_false_of_not_eq_true hleft)
  exact .inl (hs.stopped (hcurrent ▸ hl))

/-- A loop a `Stop` waits for can take a step, unless its child was signalled. -/
lemma Kicks.enabled (o : Options) (hs : Kicks s) (hl : l ∈ s.stops) (hnot : ¬ StopSettled l s) :
    ∃ a, freshKick s (.loop l a) = true ∧ (Supervisor.loopStep o s l a).isSome = true := by
  have hmeant : (s.loops l).pc.left = false → s.wantRun = false ∧
      KickMeant false s.proc s.children (s.loops l).pc (s.loops l).kick := by
    intro hin
    have hcurrent := hs.loops.isCurrent l hin
    have hunwanted := hs.loops.stopped (hcurrent ▸ hl)
    have hmeant := hs.meant
    rw [← hcurrent, hunwanted] at hmeant
    exact ⟨hunwanted, hmeant⟩
  -- by the place where the loop is
  have hcreated := hs.loops.created l (hs.loops.stops l hl)
  cases hpc : (s.loops l).pc with
  | absent => exact absurd hpc hcreated
  | done => exact absurd (Or.inl hpc) hnot
  -- these children have been signalled
  | restartWait c =>
    have hkilled : (s.children c).killed = true := by
      simpa [hpc, KickMeant] using (hmeant (by rw [hpc]; rfl)).2
    exact absurd (Or.inr ⟨c, by rw [hpc]; rfl, .inr hkilled⟩) hnot
  | grace c | killing c | killWait c =>
    have hinterrupted : (s.children c).interrupted = true := by
      simpa [hpc, KickMeant] using (hmeant (by rw [hpc]; rfl)).2
    exact absurd (Or.inr ⟨c, by rw [hpc]; rfl, .inl hinterrupted⟩) hnot
  -- the kick of `Stop` is still in the channel
  | waiting c =>
    have hkick := (hmeant (by rw [hpc]; rfl)).2
    rw [hpc] at hkick
    exact ⟨.kick, rfl, by simp [Supervisor.loopStep, hpc, hkick.2.1 rfl]⟩
  | publishing c | top | kicked c =>
    have hunwanted := (hmeant (by rw [hpc]; rfl)).1
    exact ⟨.go, by simp [freshKick, hpc, hunwanted], by simp [Supervisor.loopStep, hpc, hunwanted]⟩
  | starting => exact ⟨.started, rfl, by simp [Supervisor.loopStep, hpc]⟩
  | exited => exact ⟨.settle 0, rfl, by simp [Supervisor.loopStep, hpc]⟩
  | sleeping => exact ⟨.timer, rfl, by simp [Supervisor.loopStep, hpc]⟩
  | interrupting c | leaving | closing | backingOff =>
    exact ⟨.go, by simp [freshKick, hpc], by simp [Supervisor.loopStep, hpc]⟩

/-- Only its own steps move a loop a `Stop` waits for, and the `Stop` goes on
waiting until the loop is done. -/
lemma step_keeps_stop {label : Label} (hs : OneLoop s) (hl : l ∈ s.stops)
    (hdone : (s.loops l).pc ≠ .done) (h : step o s label = some t) :
    l ∈ t.stops ∧ ((t.loops l).pc = (s.loops l).pc ∨ ∃ a, label = .loop l a) := by
  cases label with
  | start =>
    cases h
    have hne : l ≠ s.loopCount := (hs.stops l hl).ne
    unfold start
    split
    · exact ⟨hl, .inl rfl⟩
    · exact ⟨hl, .inl (by simp [update_of_ne hne])⟩
  | stop =>
    cases h
    refine ⟨?_, .inl (stop_pc s l)⟩
    unfold stop
    split
    · exact List.mem_cons_of_mem _ hl
    · exact hl
  | stopReturn k =>
    simp only [step, stopReturn] at h
    split at h
    · rename_i hk
      cases h
      have hne : l ≠ k := by
        rintro rfl
        exact hdone hk.2
      exact ⟨(List.mem_erase_of_ne hne).mpr hl, .inl rfl⟩
    · cases h
  | restart =>
    cases h
    rw [(restart_callsKept s).stops]
    exact ⟨hl, .inl (restart_pc s l)⟩
  | setSpec spec =>
    cases h
    exact ⟨hl, .inl rfl⟩
  | childExit c =>
    simp only [step] at h
    split at h <;> cases h
    exact ⟨hl, .inl rfl⟩
  | loop k a =>
    rw [(loopStep_frame h).calls.stops]
    by_cases hk : l = k
    · subst hk
      exact ⟨hl, .inr ⟨a, rfl⟩⟩
    · exact ⟨hl, .inl (by rw [(loopStep_frame h).others l hk])⟩

/-- The condition of the results below. -/
def restartGuard (s : State) (label : Label) : Bool := soloStart s label && freshKick s label

lemma Kicks.reached (spec : Spec)
    (h : Reached (Supervisor.step o) restartGuard (newProcess spec) s) : Kicks s :=
  h.invariant (.init spec) fun _ _ _ hs hguard hstep =>
    hs.step (Bool.and_eq_true_iff.mp hguard).1 (Bool.and_eq_true_iff.mp hguard).2 hstep

/-- The steps of loop `l`. -/
def ofLoop (l : Nat) (label : Label) : Prop := ∃ a, label = .loop l a

lemma stop_progress (o : Options) (spec : Spec) (l : Nat) :
    Progress (step o) restartGuard (newProcess spec) (ofLoop l) (fun s => l ∈ s.stops)
      (StopSettled l) (fun s => (s.loops l).pc.rank) where
  enabled := by
    intro s hreached hl hnot
    obtain ⟨a, hfresh, hstep⟩ := (Kicks.reached spec hreached).enabled o hl hnot
    obtain ⟨t, ht⟩ := Option.isSome_iff_exists.mp hstep
    exact ⟨.loop l a, t, ⟨a, rfl⟩, by simpa [restartGuard, soloStart] using hfresh, ht⟩
  step := by
    intro s t label hreached hl hnot _ hstep
    have hs := (Kicks.reached spec hreached).loops
    obtain ⟨hmem, hsame⟩ := step_keeps_stop hs hl (fun hdone => hnot (Or.inl hdone)) hstep
    have hmine : ofLoop l label → (t.loops l).pc.rank < (s.loops l).pc.rank := by
      rintro ⟨a, rfl⟩
      exact loopStep_rank hstep (hs.unwanted hl)
    refine Or.inr ⟨hmem, ?_, hmine⟩
    rcases hsame with hsame | hown
    · rw [hsame]
    · exact (hmine hown).le

/-- In every run in which children are published only to a loop without a pending
kick and loops do not overlap, a loop in the Restart branch waits for a killed
child, and a `Stop` comes to its end or to a child that was interrupted or
killed. -/
theorem restart_waits_for_killed (o : Options) (spec : Spec) :
    (∀ s l c, Reached (step o) restartGuard (newProcess spec) s →
      (s.loops l).pc = .restartWait c → (s.children c).killed = true) ∧
    ∀ (r : Run (step o) restartGuard (newProcess spec)) (l n : Nat), r.Fair (ofLoop l) →
      l ∈ (r.state n).stops → ∃ m, n ≤ m ∧ StopSettled l (r.state m) := by
  constructor
  · -- a waiting loop is the current one, and the kick it took was meant
    intro s l c hreached hpc
    have hs := Kicks.reached spec hreached
    have hcurrent : l = s.current := hs.loops.isCurrent l (by rw [hpc]; rfl)
    have hmeant := hs.meant
    rwa [← hcurrent, hpc] at hmeant
  · intro r l n hfair hl
    exact (stop_progress o spec l).leadsTo r hfair hl

lemma loopStep_restartWait (hpc : (s.loops l).pc = .restartWait c)
    (halive : (s.children c).alive = true) : loopStep o s l a = none := by
  cases a <;> simp [loopStep, hpc, halive]

lemma loopStep_done (hpc : (s.loops l).pc = .done) : loopStep o s l a = none := by
  cases a <;> simp [loopStep, hpc]

/-- The loop takes its kick for a `Restart`. -/
def takeKick (l : Nat) : List Label := [.loop l .kick, .loop l .go]

/-- A restart of a running child is such a run, and so is a launch with a stop. -/
theorem restart_waits_for_killed_launch :
    (∃ s, Reached (step (Options.defaults {})) restartGuard (newProcess {}) s ∧
      (s.loops 0).pc = .restartWait 0 ∧ (s.children 0).killed = true) ∧
    ∃ (r : Run (step (Options.defaults {})) restartGuard (newProcess {})) (n : Nat),
      r.Fair (ofLoop 0) ∧ 0 ∈ (r.state n).stops ∧ ∃ m, n ≤ m ∧ StopSettled 0 (r.state m) := by
  constructor
  · obtain ⟨s, hs, hp⟩ := exists_reached (step (Options.defaults {})) restartGuard
      (newProcess {}) (launch 0 ++ .restart :: takeKick 0)
      (fun s => decide ((s.loops 0).pc = .restartWait 0)) (by decide)
    exact ⟨s, hs, of_decide_eq_true hp,
      (restart_waits_for_killed _ {}).1 s 0 0 hs (of_decide_eq_true hp)⟩
  · obtain ⟨s, hs, hp⟩ := exists_reached (step (Options.defaults {})) restartGuard
      (newProcess {}) (launch 0 ++ (stopGracefully 0 0).dropLast)
      (fun s => decide (0 ∈ s.stops ∧ (s.loops 0).pc = .done)) (by decide)
    obtain ⟨hmem, hdone⟩ := of_decide_eq_true hp
    obtain ⟨r, n, hstays⟩ := hs.exists_run
    have hfair : r.Fair (ofLoop 0) := r.fair_of_blocked hstays (by
      rintro label ⟨a, rfl⟩
      exact loopStep_done hdone)
    have hn : 0 ∈ (r.state n).stops := by rwa [hstays n (le_refl n)]
    exact ⟨r, n, hfair, hn, (restart_waits_for_killed _ {}).2 r 0 n hfair hn⟩

/-- A `Restart` between the start of a child and its publication leaves a kick
and kills nothing: the loop waits for the untouched child, and a `Stop` with it,
for ever.  A `Start` behind a `Stop` that has not been noticed yet does the same
without any `Restart`. -/
theorem stale_kick_hangs_stop :
    (∃ (r : Run (step (Options.defaults {})) (fun _ _ => true) (newProcess {})) (n : Nat),
      r.Fair (ofLoop 0) ∧ ∀ m, n ≤ m →
        0 ∈ (r.state m).stops ∧ ((r.state m).loops 0).pc = .restartWait 0 ∧
          (r.state m).children 0 = { alive := true }) ∧
    ∃ s, execute (step (Options.defaults {})) (newProcess {})
        (launch 0 ++ [.stop, .loop 0 .kick, .start, .loop 0 .go]) = some s ∧
      (s.loops 0).pc = .restartWait 0 ∧ s.children 0 = { alive := true } := by
  constructor
  · obtain ⟨s, hs, hp⟩ := exists_reached (step (Options.defaults {})) (fun _ _ => true)
      (newProcess {})
      ([.start, .loop 0 .go, .loop 0 .started, .restart, .loop 0 .go] ++ takeKick 0 ++ [.stop])
      (fun s => decide (0 ∈ s.stops ∧ (s.loops 0).pc = .restartWait 0 ∧
        s.children 0 = { alive := true })) (by decide)
    obtain ⟨hmem, hpc, hchild⟩ := of_decide_eq_true hp
    obtain ⟨r, n, hstays⟩ := hs.exists_run
    refine ⟨r, n, r.fair_of_blocked hstays ?_, fun m hm => ?_⟩
    · rintro label ⟨a, rfl⟩
      exact loopStep_restartWait hpc (by rw [hchild])
    · rw [hstays m hm]
      exact ⟨hmem, hpc, hchild⟩
  · exact ⟨_, rfl, rfl, rfl⟩

end StreamHub.Supervisor
