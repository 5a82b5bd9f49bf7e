import StreamHub.Supervisor.Process

/-!
# One loop at a time

`Start` makes a new loop as soon as `wantRun` is false, also while the loop of an
earlier `Start` has not looked at `wantRun` again.  `soloStart` says that this
does not happen; then at most one loop is in its body at any time, and it is the
one whose channels the `Process` holds.
-/

namespace StreamHub.Supervisor

open Library.Transition Function

variable {o : Options} {s t : State} {l : Nat} {a : Act} {c : Nat}

/-! ## What a step of a loop does -/

namespace State

@[simp] lemma setLoop_loops (s : State) (l : Nat) (loop : Loop) :
    (s.setLoop l loop).loops = update s.loops l loop := rfl

@[simp] lemma setLoop_children (s : State) (l : Nat) (loop : Loop) :
    (s.setLoop l loop).children = s.children := rfl

@[simp] lemma setLoop_proc (s : State) (l : Nat) (loop : Loop) :
    (s.setLoop l loop).proc = s.proc := rfl

@[simp] lemma setLoop_wantRun (s : State) (l : Nat) (loop : Loop) :
    (s.setLoop l loop).wantRun = s.wantRun := rfl

@[simp] lemma setChild_children (s : State) (c : Nat) (child : Child) :
    (s.setChild c child).children = update s.children c child := rfl

/-- The fields only calls write. -/
structure CallsKept (s t : State) : Prop where
  spec : t.spec = s.spec
  wantRun : t.wantRun = s.wantRun
  current : t.current = s.current
  loopCount : t.loopCount = s.loopCount
  stops : t.stops = s.stops
  stopReturned : t.stopReturned = s.stopReturned

lemma CallsKept.refl (s : State) : CallsKept s s := ⟨rfl, rfl, rfl, rfl, rfl, rfl⟩

lemma allLeft_iff : s.allLeft = true ↔ ∀ l < s.loopCount, (s.loops l).pc.left = true := by
  simp [allLeft]

end State

/-- A step of a loop leaves the calls and the other loops alone; a loop that has
left also the children and the published process. -/
structure LoopFrame (l : Nat) (s t : State) : Prop where
  calls : State.CallsKept s t
  others : ∀ k, k ≠ l → t.loops k = s.loops k
  left : (s.loops l).pc.left = true → t.proc = s.proc ∧ t.children = s.children

lemma loopStep_frame (h : loopStep o s l a = some t) : LoopFrame l s t := by
  unfold loopStep at h
  dsimp only at h
  split at h <;> (try split at h) <;> cases h <;>
    exact ⟨⟨rfl, rfl, rfl, rfl, rfl, rfl⟩, fun k hk => update_of_ne hk _ _, by simp_all [Pc.left]⟩

/-- The control flow of a loop: where it can be after one step. -/
def Pc.next (wantRun : Bool) (newChild : Nat) : Pc → List Pc
  | .absent | .done => []
  | .top => if wantRun then [.starting] else [.closing]
  | .starting => [.publishing newChild, .exited]
  | .publishing c => [.waiting c]
  | .waiting c => [.kicked c, .exited]
  | .kicked c => if wantRun then [.restartWait c] else [.interrupting c]
  | .interrupting c => [.grace c]
  | .grace c => [.killing c, .exited]
  | .killing c => [.killWait c]
  | .killWait _ | .restartWait _ => [.exited]
  | .exited => if wantRun then [.backingOff] else [.leaving]
  | .leaving => [.closing]
  | .closing => [.done]
  | .backingOff => [.sleeping, .top]
  | .sleeping => [.top]

lemma loopStep_next (h : loopStep o s l a = some t) :
    (t.loops l).pc ∈ (s.loops l).pc.next s.wantRun s.childCount := by
  unfold loopStep at h
  dsimp only at h
  split at h <;> (try split at h) <;> cases h <;> simp_all [Pc.next, Loop.gone]

/-- Only created loops move, and they stay created. -/
lemma Pc.next_created (pc : Pc) (wantRun : Bool) (newChild : Nat) :
    ∀ pc' ∈ pc.next wantRun newChild, pc ≠ .absent ∧ pc' ≠ .absent := by
  cases pc <;> cases wantRun <;> simp [Pc.next]

lemma Pc.next_left {pc : Pc} (hleft : pc.left = true) (wantRun : Bool) (newChild : Nat) :
    ∀ pc' ∈ pc.next wantRun newChild, pc'.left = true := by
  cases pc <;> simp_all [Pc.next, Pc.left]

lemma loopStep_created (h : loopStep o s l a = some t) :
    (s.loops l).pc ≠ .absent ∧ (t.loops l).pc ≠ .absent :=
  Pc.next_created _ _ _ _ (loopStep_next h)

lemma loopStep_left (h : loopStep o s l a = some t) (hleft : (s.loops l).pc.left = true) :
    (t.loops l).pc.left = true := Pc.next_left hleft _ _ _ (loopStep_next h)

/-- Once every loop has left, they stay away. -/
lemma loopStep_allLeft (h : loopStep o s l a = some t)
    (hall : ∀ k, (s.loops k).pc.left = true) (k : Nat) : (t.loops k).pc.left = true := by
  by_cases hk : k = l
  · subst hk
    exact loopStep_left h (hall k)
  · rw [(loopStep_frame h).others k hk]
    exact hall k

/-! ## What the calls do to loops -/

@[simp] lemma signal_pc (s : State) (k : Nat) : (s.signal.loops k).pc = (s.loops k).pc := by
  by_cases hk : k = s.current
  · subst hk
    simp [State.signal]
  · simp [State.signal, update_of_ne hk]

lemma stop_pc (s : State) (k : Nat) : ((stop s).loops k).pc = (s.loops k).pc := by
  unfold stop
  split
  · exact signal_pc _ k
  · rfl

lemma restart_pc (s : State) (k : Nat) : ((restart s).loops k).pc = (s.loops k).pc := by
  unfold restart
  split
  · cases s.proc <;> exact signal_pc _ k
  · rfl

lemma restart_callsKept (s : State) : State.CallsKept s (restart s) := by
  unfold restart
  split
  · cases s.proc <;> exact ⟨rfl, rfl, rfl, rfl, rfl, rfl⟩
  · exact .refl s

/-! ## The invariant -/

/-- `Start` takes effect only when every earlier loop has left. -/
def soloStart (s : State) : Label → Bool
  | .start => s.wantRun || s.allLeft
  | _ => true

/-- At most the current loop is in its body. -/
structure OneLoop (s : State) : Prop where
  fresh : ∀ l, s.loopCount ≤ l → (s.loops l).pc = .absent
  created : ∀ l < s.loopCount, (s.loops l).pc ≠ .absent
  isCurrent : ∀ l, (s.loops l).pc.left = false → l = s.current
  stops : ∀ l ∈ s.stops, l < s.loopCount
  stopped : s.current ∈ s.stops → s.wantRun = false
  wanted : s.wantRun = true → s.current < s.loopCount

lemma OneLoop.init (spec : Spec) : OneLoop (newProcess spec) where
  fresh := fun _ _ => rfl
  created := fun l hl => absurd hl (Nat.not_lt_zero l)
  isCurrent := fun _ hl => nomatch hl
  stops := fun _ hl => nomatch hl
  stopped := fun hl => nomatch hl
  wanted := fun hwant => nomatch hwant

section

variable (hs : OneLoop s)

include hs

lemma OneLoop.left (hall : s.allLeft = true) (l : Nat) : (s.loops l).pc.left = true := by
  by_cases hl : l < s.loopCount
  · exact State.allLeft_iff.mp hall l hl
  rw [hs.fresh l (by omega)]
  rfl

/-- A step that leaves the loops where they are. -/
lemma OneLoop.of_same (hpc : ∀ l, (t.loops l).pc = (s.loops l).pc)
    (hwant : t.wantRun = true → s.wantRun = true) (hcurrent : t.current = s.current)
    (hcount : t.loopCount = s.loopCount)
    (hstops : ∀ l ∈ t.stops, l ∈ s.stops ∨ l = s.current ∧ s.wantRun = true)
    (hstopped : s.current ∈ t.stops → t.wantRun = false) : OneLoop t where
  fresh := fun l hl => by
    rw [hpc]
    exact hs.fresh l (by omega)
  created := fun l hl => by
    rw [hpc]
    exact hs.created l (by omega)
  isCurrent := fun l hl => by
    rw [hpc] at hl
    rw [hcurrent]
    exact hs.isCurrent l hl
  stops := fun l hl => by
    rw [hcount]
    rcases hstops l hl with hold | ⟨rfl, hwanted⟩
    · exact hs.stops l hold
    · exact hs.wanted hwanted
  stopped := fun hl => hstopped (by rwa [hcurrent] at hl)
  wanted := fun h => by
    rw [hcurrent, hcount]
    exact hs.wanted (hwant h)

lemma OneLoop.of_kept (hpc : ∀ l, (t.loops l).pc = (s.loops l).pc)
    (hkept : State.CallsKept s t) : OneLoop t := by
  obtain ⟨-, hwant, hcurrent, hcount, hstops, -⟩ := hkept
  refine hs.of_same hpc (fun h => hwant ▸ h) hcurrent hcount (fun l hl => .inl (hstops ▸ hl)) ?_
  rw [hwant, hstops]
  exact hs.stopped

lemma OneLoop.start (hguard : soloStart s .start = true) : OneLoop (start o s) := by
  unfold Supervisor.start
  by_cases hwant : s.wantRun = true
  · rw [if_pos hwant]
    exact hs.of_same (fun _ => rfl) id rfl rfl (fun l hl => .inl hl) hs.stopped
  rw [if_neg hwant]
  have hall : s.allLeft = true := by simpa [soloStart, hwant] using hguard
  -- the new loop has an index no one waits for
  have hnew : s.loopCount ∉ s.stops := fun h => absurd (hs.stops _ h) (lt_irrefl _)
  refine ⟨?_, ?_, ?_, ?_, ?_, ?_⟩
  · intro l hl
    have hne : l ≠ s.loopCount := by
      simp only at hl
      omega
    simp only [update_of_ne hne]
    exact hs.fresh l (by simp only at hl; omega)
  · intro l hl
    by_cases hne : l = s.loopCount
    · simp [hne]
    simp only [update_of_ne hne]
    exact hs.created l (by simp only at hl; omega)
  · intro l hl
    by_contra hne
    simp only [update_of_ne hne] at hl
    rw [hs.left hall l] at hl
    cases hl
  · intro l hl
    exact Nat.lt_succ_of_lt (hs.stops l hl)
  · intro hl
    exact absurd hl hnew
  · intro _
    exact Nat.lt_succ_self _

lemma OneLoop.stop : OneLoop (stop s) := by
  by_cases hwant : s.wantRun = true
  · have hstop : Supervisor.stop s =
        State.signal { s with wantRun := false, stops := s.current :: s.stops } := if_pos hwant
    refine hs.of_same (stop_pc s) (fun _ => hwant) (by rw [hstop]; rfl) (by rw [hstop]; rfl) ?_
      (fun _ => by rw [hstop]; rfl)
    rw [hstop]
    intro l hl
    rcases List.mem_cons.mp hl with rfl | hl
    · exact .inr ⟨rfl, hwant⟩
    · exact .inl hl
  · have hstop : Supervisor.stop s = { s with stopReturned := true } := if_neg hwant
    rw [hstop]
    exact hs.of_same (fun _ => rfl) id rfl rfl (fun l hl => .inl hl) hs.stopped

lemma OneLoop.stopReturn (h : stopReturn s l = some t) : OneLoop t := by
  unfold Supervisor.stopReturn at h
  split at h
  · cases h
    exact hs.of_same (fun _ => rfl) id rfl rfl (fun k hk => .inl (List.mem_of_mem_erase hk))
      (fun hmem => hs.stopped (List.mem_of_mem_erase hmem))
  · cases h

lemma OneLoop.restart : OneLoop (restart s) := hs.of_kept (restart_pc s) (restart_callsKept s)

lemma OneLoop.loopStep (h : loopStep o s l a = some t) : OneLoop t := by
  obtain ⟨⟨-, hwant, hcurrent, hcount, hstops, -⟩, hother, -⟩ := loopStep_frame h
  obtain ⟨hbefore, hafter⟩ := loopStep_created h
  have hl : l < s.loopCount := by
    by_contra hge
    exact hbefore (hs.fresh l (by omega))
  refine ⟨?_, ?_, ?_, ?_, ?_, ?_⟩
  · intro k hk
    rw [hother k (by omega)]
    exact hs.fresh k (by omega)
  · intro k hk
    by_cases hkl : k = l
    · rwa [hkl]
    rw [hother k hkl]
    exact hs.created k (by omega)
  · intro k hk
    rw [hcurrent]
    by_cases hkl : k = l
    · -- a loop that is in its body now was so before
      subst hkl
      refine hs.isCurrent k (Bool.eq_false_of_not_eq_true fun hleft => ?_)
      rw [loopStep_left h hleft] at hk
      cases hk
    · rw [hother k hkl] at hk
      exact hs.isCurrent k hk
  · rw [hstops, hcount]
    exact hs.stops
  · rw [hstops, hcurrent, hwant]
    exact hs.stopped
  · rw [hwant, hcurrent, hcount]
    exact hs.wanted

lemma OneLoop.step {label : Label} (hguard : soloStart s label = true)
    (h : step o s label = some t) : OneLoop t := by
  cases label with
  | start =>
    cases h
    exact hs.start hguard
  | stop =>
    cases h
    exact hs.stop
  | stopReturn l => exact hs.stopReturn h
  | restart =>
    cases h
    exact hs.restart
  | setSpec spec =>
    cases h
    exact hs.of_same (fun _ => rfl) id rfl rfl (fun l hl => .inl hl) hs.stopped
  | childExit c =>
    simp only [Supervisor.step] at h
    split at h <;> cases h
    exact hs.of_kept (fun _ => rfl) ⟨rfl, rfl, rfl, rfl, rfl, rfl⟩
  | loop l a => exact hs.loopStep h

end

end StreamHub.Supervisor
