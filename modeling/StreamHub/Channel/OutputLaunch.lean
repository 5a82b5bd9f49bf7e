import StreamHub.Supervisor.SingleChild
import StreamHub.Channel.Ports

/-!
# Launching a streamhub output against stopping it

`resolveLoop` and `stopOutput` of `internal/channel/manager.go` run concurrently
on one `outRT`.  The state has the supervisor of the output, the sinks of the bus
of its channel and the port pool; other outputs add and remove sinks, take and
return ports.  One label is one atomic action of one of the parties.

`resolveLoop` looks at its context for the last time before it persists the
resolution.  A `stopOutput` that runs behind this look finds no sink, no process
and releases the port; then `launchOutput` adds the sink and starts the process.
-/

namespace StreamHub.Channel

open Library.Transition Function Supervisor

/-- The output: its id, its port, whether a resolver is configured, and
`BuildOutput` of a resolved output. -/
structure OutRT (κ : Type) where
  id : String
  port : Nat
  name : String
  hasResolver : Bool := true
  build : κ → Except String Spec

/-- A sink of the bus; `own` if this output runtime registered it. -/
structure Sink where
  port : Nat
  own : Bool
  deriving DecidableEq

/-- Where `resolveLoop` stands. -/
inductive ResolvePc (κ : Type)
  /-- about to call the resolver -/
  | resolving
  /-- the resolver has answered, about to look at the context -/
  | checking (answer : Except String κ)
  /-- in the select of the context and the retry timer -/
  | sleeping
  | persisting (concrete : κ)
  | recordingResolution (concrete : κ)
  /-- in `launchOutput` -/
  | building (concrete : κ)
  | recordingConcrete (concrete : κ) (spec : Spec)
  | settingSpec (spec : Spec)
  | addingSink
  | starting
  | returned
  deriving DecidableEq

/-- Where `stopOutput` stands. -/
inductive StopPc
  | notCalled
  | removingSink
  | stopping
  /-- `proc.Stop` waits for this loop -/
  | waiting (l : Nat)
  | releasing
  | finished
  deriving DecidableEq

structure State (κ : Type) where
  sup : Supervisor.State
  sinks : String → Option Sink
  pool : PortPool
  cancelled : Bool := false
  resolve : ResolvePc κ := .resolving
  delay : Nat := 2000000000
  stop : StopPc := .notCalled
  err : String := ""
  resolution : Option κ := none
  concrete : Option κ := none

/-- What `resolveLoop` does next, where it has a choice. -/
inductive ResolveAct (κ : Type)
  | go
  | answer (result : Except String κ)
  | timer

inductive Label (κ : Type)
  | resolve (a : ResolveAct κ)
  | stop
  /-- the loop, the children and `RestartOutput` -/
  | loop (l : Nat) (a : Act)
  | childExit (c : Nat)
  | restart
  /-- other outputs -/
  | addSink (id : String) (port : Nat)
  | removeSink (id : String)
  | allocate (bindable : Nat → Bool)
  | release (port : Nat)

variable {κ : Type}

/-- Behind `startOutput`: the port is allocated, the supervisor is new. -/
def startOutput (out : OutRT κ) (sinks : String → Option Nat) (pool : PortPool) : State κ where
  sup := newProcess { name := out.name }
  sinks := fun id => (sinks id).map fun port => { port := port, own := false }
  pool := pool

/-- One action of `resolveLoop`. -/
def resolveStep (o : Options) (out : OutRT κ) (s : State κ) (a : ResolveAct κ) :
    Option (State κ) :=
  match s.resolve, a with
  | .resolving, .go =>
    if out.hasResolver then none
    else some { s with err := "no StreamHub resolver configured", resolve := .returned }
  | .resolving, .answer result =>
    if out.hasResolver then some { s with resolve := .checking result } else none
  | .checking (.ok concrete), .go =>
    if s.cancelled then some { s with resolve := .returned }
    else some { s with resolve := .persisting concrete }
  | .checking (.error err), .go =>
    if s.cancelled then some { s with resolve := .returned }
    else some { s with err := "streamhub: " ++ err, resolve := .sleeping }
  | .sleeping, .go => if s.cancelled then some { s with resolve := .returned } else none
  | .sleeping, .timer =>
    some { s with delay := min (s.delay * 2) 60000000000, resolve := .resolving }
  -- the store may have lost the output; `resolveLoop` goes on in any case
  | .persisting concrete, .go => some { s with resolve := .recordingResolution concrete }
  | .recordingResolution concrete, .go =>
    some { s with resolution := some concrete, resolve := .building concrete }
  | .building concrete, .go =>
    match out.build concrete with
    | .error err => some { s with err := err, resolve := .returned }
    | .ok spec => some { s with resolve := .recordingConcrete concrete spec }
  | .recordingConcrete concrete spec, .go =>
    some { s with concrete := some concrete, err := "", resolve := .settingSpec spec }
  | .settingSpec spec, .go =>
    some { s with sup := { s.sup with spec := spec }, resolve := .addingSink }
  | .addingSink, .go =>
    some
      { s with
        sinks := update s.sinks out.id (some { port := out.port, own := true })
        resolve := .starting }
  | .starting, .go => some { s with sup := start o s.sup, resolve := .returned }
  | _, _ => none

/-- One action of `stopOutput`. -/
def stopStep (out : OutRT κ) (s : State κ) : Option (State κ) :=
  match s.stop with
  | .notCalled => some { s with cancelled := true, stop := .removingSink }
  | .removingSink => some { s with sinks := update s.sinks out.id none, stop := .stopping }
  | .stopping =>
    some
      { s with
        sup := stop s.sup
        stop := if s.sup.wantRun then .waiting s.sup.current else .releasing }
  | .waiting l =>
    match stopReturn s.sup l with
    | none => none
    | some sup => some { s with sup := sup, stop := .releasing }
  | .releasing => some { s with pool := s.pool.release out.port, stop := .finished }
  | .finished => none

/-- One action of the supervisor of the output. -/
def supStep (o : Options) (s : State κ) (label : Supervisor.Label) :
    Option (State κ) :=
  match Supervisor.step o s.sup label with
  | none => none
  | some sup => some { s with sup := sup }

/-- One atomic action. -/
def step (o : Options) (out : OutRT κ) (s : State κ) : Label κ → Option (State κ)
  | .resolve a => resolveStep o out s a
  | .stop => stopStep out s
  | .loop l a => supStep o s (.loop l a)
  | .childExit c => supStep o s (.childExit c)
  | .restart => supStep o s .restart
  | .addSink id port =>
    some
      { s with sinks := update s.sinks id (some { port := port, own := false }) }
  | .removeSink id => some { s with sinks := update s.sinks id none }
  | .allocate bindable => some { s with pool := (s.pool.allocate bindable).2 }
  | .release port => some { s with pool := s.pool.release port }

/-! ## The order of launch and stop -/

/-- `AddSink` comes before `RemoveSink` and `proc.Start` before `proc.Stop`; a
killed child exits in time. -/
def launchFirst (s : State κ) : Label κ → Bool
  | .resolve .go =>
    match s.resolve with
    | .addingSink => s.stop = .notCalled || s.stop = .removingSink
    | .starting => s.stop = .notCalled || s.stop = .removingSink || s.stop = .stopping
    | _ => true
  | .loop l a => promptKill s.sup (.loop l a)
  | _ => true

/-- `stopOutput` has removed the sink. -/
def StopPc.pastRemove : StopPc → Bool
  | .notCalled | .removingSink => false
  | _ => true

/-- `stopOutput` has called `proc.Stop`. -/
def StopPc.pastStop : StopPc → Bool
  | .waiting _ | .releasing | .finished => true
  | _ => false

/-- What the two parties know of each other. -/
structure Ordered (out : OutRT κ) (s : State κ) : Prop where
  /-- `proc.Start` is called once -/
  unstarted : s.resolve ≠ .returned → s.sup.loopCount = 0 ∧ s.sup.wantRun = false
  running : s.stop.pastStop = false → s.sup.wantRun = true ∨ s.sup.loopCount = 0
  waits : ∀ l, s.stop = .waiting l → l = s.sup.current
  stopped : s.stop = .releasing ∨ s.stop = .finished → s.sup.stopReturned = true
  removed : s.stop.pastRemove = true → ∀ sink, s.sinks out.id = some sink → sink.own = false

lemma Ordered.init (out : OutRT κ) (sinks : String → Option Nat) (pool : PortPool) :
    Ordered out (startOutput out sinks pool) where
  unstarted := fun _ => ⟨rfl, rfl⟩
  running := fun _ => .inr rfl
  waits := fun _ h => nomatch h
  stopped := fun h => by rcases h with h | h <;> cases h
  removed := fun h => nomatch h

variable {o : Options} {out : OutRT κ} {s t : State κ}

/-- A step that leaves supervisor calls, positions and the sink as they are. -/
lemma Ordered.of_kept (hs : Ordered out s) (hsup : State.CallsKept s.sup t.sup)
    (hresolve : t.resolve ≠ .returned → s.resolve ≠ .returned) (hstop : t.stop = s.stop)
    (hsink : ∀ sink, t.sinks out.id = some sink → sink.own = true →
      s.sinks out.id = some sink ∨ s.stop.pastRemove = false) : Ordered out t := by
  obtain ⟨-, hwant, hcurrent, hcount, -, hreturned⟩ := hsup
  refine ⟨?_, ?_, ?_, ?_, ?_⟩
  · rw [hwant, hcount]
    exact fun h => hs.unstarted (hresolve h)
  · rw [hwant, hcount, hstop]
    exact hs.running
  · rw [hcurrent, hstop]
    exact hs.waits
  · rw [hreturned, hstop]
    exact hs.stopped
  · rw [hstop]
    intro hpast sink hsome
    refine Bool.eq_false_of_not_eq_true fun hown => ?_
    rcases hsink sink hsome hown with hold | hnot
    · rw [hs.removed hpast sink hold] at hown
      cases hown
    · rw [hpast] at hnot
      cases hnot

/-- The supervisor takes an orderly step, or none. -/
def Carried (o : Options) (s t : Supervisor.State) : Prop :=
  t = s ∨ ∃ label,
    (promptKill s label && orderly s label) = true ∧
      Supervisor.step o s label = some t

lemma resolveStep_ordered {a : ResolveAct κ} (hs : Ordered out s)
    (hguard : launchFirst s (.resolve a) = true) (h : resolveStep o out s a = some t) :
    Ordered out t ∧ Carried o s.sup t.sup := by
  unfold resolveStep at h
  split at h
  case h_11 spec hpc =>
    -- SetSpec
    cases h
    have hbefore := hs.unstarted (by rw [hpc]; simp)
    exact ⟨⟨fun _ => hbefore, fun _ => .inr hbefore.1, hs.waits, hs.stopped, hs.removed⟩,
      Or.inr ⟨.setSpec spec, rfl, rfl⟩⟩
  case h_12 hpc =>
    -- AddSink, before the sink is removed
    cases h
    refine ⟨hs.of_kept (.refl _) (by simp [hpc]) rfl fun sink _ _ => .inr ?_, .inl rfl⟩
    rcases hstop : s.stop <;> simp_all [launchFirst, StopPc.pastRemove]
  case h_13 hpc =>
    -- Start, on a supervisor that was never started, before it is stopped
    cases h
    obtain ⟨hcount, hwant⟩ := hs.unstarted (by rw [hpc]; simp)
    have hpast : s.stop.pastStop = false := by
      rcases hstop : s.stop <;> simp_all [launchFirst, StopPc.pastStop]
    have hstart : (start o s.sup).wantRun = true := by simp [start, hwant]
    refine ⟨⟨fun hne => absurd rfl hne, fun _ => .inl hstart, ?_, ?_, hs.removed⟩,
      Or.inr ⟨.start, ?_, rfl⟩⟩
    · intro l hl
      rw [hl] at hpast
      cases hpast
    · intro hl
      rcases hl with hl | hl <;> rw [hl] at hpast <;> cases hpast
    · simp [promptKill, orderly, State.allLeft, hcount]
  -- the other actions are the goroutine's own business
  all_goals
    (try split at h) <;> cases h <;>
      exact ⟨hs.of_kept (.refl _) (by simp_all) rfl (fun _ hsink _ => .inl hsink), .inl rfl⟩

/-- The first half of `Stop`: it waits for the current loop, or there is nothing to
wait for. -/
lemma stop_ordered (hs : Ordered out s) (hstop : s.stop = .stopping) : Ordered out
      { s with
        sup := stop s.sup
        stop := if s.sup.wantRun then .waiting s.sup.current else .releasing } := by
  by_cases hwant : s.sup.wantRun = true
  · refine ⟨?_, ?_, ?_, ?_, fun _ => hs.removed (by rw [hstop]; rfl)⟩
    · intro hne
      rw [(hs.unstarted hne).2] at hwant
      cases hwant
    · simp [hwant, StopPc.pastStop]
    · intro l hl
      simp only [hwant, if_true] at hl
      cases hl
      simp [stop, hwant, State.signal, State.setLoop]
    · intro hl
      simp [hwant] at hl
  · refine ⟨?_, ?_, ?_, ?_, fun _ => hs.removed (by rw [hstop]; rfl)⟩
    · intro hne
      simpa [stop, hwant] using hs.unstarted hne
    · simp [hwant, StopPc.pastStop]
    · intro l hl
      simp [hwant] at hl
    · intro _
      simp [stop, hwant]

lemma stopStep_ordered (hs : Ordered out s) (h : stopStep out s = some t) :
    Ordered out t ∧ Carried o s.sup t.sup := by
  unfold stopStep at h
  split at h
  case h_1 hstop =>
    -- the context is cancelled
    cases h
    exact ⟨⟨hs.unstarted, fun _ => hs.running (by rw [hstop]; rfl), by simp, by simp,
      by simp [StopPc.pastRemove]⟩, .inl rfl⟩
  case h_2 hstop =>
    -- RemoveSink
    cases h
    exact ⟨⟨hs.unstarted, fun _ => hs.running (by rw [hstop]; rfl), by simp, by simp, by simp⟩,
      Or.inl rfl⟩
  case h_3 hstop =>
    -- the first half of Stop
    have hrunning := hs.running (by rw [hstop]; rfl)
    cases h
    refine ⟨stop_ordered hs hstop, .inr ⟨.stop, ?_, rfl⟩⟩
    rcases hrunning with hwant | hcount
    · simp [promptKill, orderly, hwant]
    · simp [promptKill, orderly, State.allLeft, hcount]
  case h_4 l hstop =>
    -- the second half of Stop
    split at h
    · cases h
    rename_i sup hsup
    cases h
    have hl := hs.waits l hstop
    refine ⟨?_, .inr ⟨.stopReturn l, rfl, hsup⟩⟩
    unfold stopReturn at hsup
    split at hsup <;> cases hsup
    exact ⟨hs.unstarted, by simp [StopPc.pastStop], by simp, by simp [hl],
      fun _ => hs.removed (by rw [hstop]; rfl)⟩
  case h_5 hstop =>
    -- the port is released, and only now: the process is gone
    cases h
    exact ⟨⟨hs.unstarted, by simp [StopPc.pastStop], by simp,
      fun _ => hs.stopped (Or.inl hstop), fun _ => hs.removed (by rw [hstop]; rfl)⟩, .inl rfl⟩
  case h_6 => cases h

lemma supStep_ordered {label : Supervisor.Label} (hs : Ordered out s)
    (hprompt : promptKill s.sup label = true)
    (horderly : orderly s.sup label = true)
    (hkept : ∀ u, Supervisor.step o s.sup label = some u → State.CallsKept s.sup u)
    (h : supStep o s label = some t) : Ordered out t ∧ Carried o s.sup t.sup := by
  unfold supStep at h
  split at h
  · cases h
  rename_i sup hsup
  cases h
  exact ⟨hs.of_kept (hkept sup hsup) id rfl (fun _ hsink _ => .inl hsink),
    Or.inr ⟨label, by rw [hprompt, horderly]; rfl, hsup⟩⟩

/-- Every step in order keeps the invariant and is an orderly step of the
supervisor. -/
lemma step_ordered {label : Label κ} (hs : Ordered out s) (hguard : launchFirst s label = true)
    (h : step o out s label = some t) : Ordered out t ∧ Carried o s.sup t.sup := by
  cases label with
  | resolve a => exact resolveStep_ordered hs hguard h
  | stop => exact stopStep_ordered hs h
  | loop l a => exact supStep_ordered hs hguard rfl (fun u hu => (loopStep_frame hu).calls) h
  | childExit c =>
    refine supStep_ordered hs rfl rfl (fun u hu => ?_) h
    simp only [Supervisor.step] at hu
    split at hu <;> cases hu
    exact ⟨rfl, rfl, rfl, rfl, rfl, rfl⟩
  | restart =>
    have hrestart : supStep o s .restart = some t := h
    refine supStep_ordered hs rfl rfl (fun u hu => ?_) hrestart
    cases hu
    exact restart_callsKept s.sup
  | addSink sinkId port =>
    cases h
    refine ⟨hs.of_kept (.refl _) id rfl fun sink hsink hown => .inl ?_, .inl rfl⟩
    by_cases hid : out.id = sinkId
    · -- a sink of another output
      subst hid
      simp only [update_self, Option.some.injEq] at hsink
      subst hsink
      cases hown
    · simpa [update_of_ne hid] using hsink
  | removeSink sinkId =>
    cases h
    refine ⟨hs.of_kept (.refl _) id rfl fun sink hsink _ => .inl ?_, .inl rfl⟩
    by_cases hid : out.id = sinkId
    · subst hid
      simp at hsink
    · simpa [update_of_ne hid] using hsink
  | allocate bindable | release port =>
    cases h
    exact ⟨hs.of_kept (.refl _) id rfl (fun _ hsink _ => .inl hsink), .inl rfl⟩

/-- In every run in which `AddSink` comes before `RemoveSink` and `proc.Start`
before `proc.Stop`, nothing of the output is left when `stopOutput` has finished:
no sink of its own, no process now or later, and so none on a free port. -/
theorem stopOutput_leaves_nothing (o : Options) (out : OutRT κ)
    (sinks : String → Option Nat) (pool : PortPool) (s : State κ)
    (h : Reached (step o out) launchFirst (startOutput out sinks pool) s)
    (hfinished : s.stop = .finished) :
    (∀ sink, s.sinks out.id = some sink → sink.own = false) ∧
      (s.sup.wantRun = false ∧ ∀ c, (s.sup.children c).alive = false) ∧
      ∀ c, (s.sup.children c).alive = true → out.port ∈ s.pool.used := by
  -- seen from the supervisor, the run is one of orderly calls
  have hproject : Ordered out s ∧ Reached (Supervisor.step o)
      (fun s label => promptKill s label && orderly s label)
      (newProcess { name := out.name }) s.sup :=
    h.project State.sup (Ordered.init out sinks pool)
      (fun _ _ _ hs hguard hstep => step_ordered hs hguard hstep)
  obtain ⟨hs, hsup⟩ := hproject
  have hchild : OneChild s.sup := hsup.invariant (.init _) fun _ _ _ hs hguard hstep =>
    hs.step (Bool.and_eq_true_iff.mp hguard).1 (Bool.and_eq_true_iff.mp hguard).2 hstep
  have hquiet := hchild.quiet (hs.stopped (Or.inr hfinished))
  refine ⟨hs.removed (by rw [hfinished]; rfl), ⟨hquiet.unwanted, hquiet.dead⟩, fun c hc => ?_⟩
  rw [hquiet.dead c] at hc
  cases hc

/-- An output on the first port of a pool. -/
def firstOutput : OutRT Unit where
  id := "hub"
  port := 20000
  name := "ch/hub"
  build := fun _ => .ok { name := "ch/hub", path := "ffmpeg" }

def firstPool : PortPool := ((PortPool.new 20000 20099).allocate fun _ => true).2

/-- The resolver answers, and `resolveLoop` finds its context alive. -/
def resolved : List (Label Unit) := [.resolve (.answer (.ok ())), .resolve .go]

/-- The rest of `resolveLoop`, and the supervisor starts the process. -/
def launched : List (Label Unit) :=
  List.replicate 7 (.resolve .go) ++ [.loop 0 .go, .loop 0 .started, .loop 0 .go]

/-- Launched and then stopped. -/
theorem stopOutput_leaves_nothing_launched :
    ∃ s, Reached (step (Options.defaults {}) firstOutput) launchFirst
      (startOutput firstOutput (fun _ => none) firstPool) s ∧ s.stop = .finished ∧
        s.sup.childCount = 1 ∧ s.sup.wantRun = false := by
  obtain ⟨s, hs, hp⟩ := exists_reached (step (Options.defaults {}) firstOutput)
    launchFirst (startOutput firstOutput (fun _ => none) firstPool)
    (resolved ++ launched ++ [.stop, .stop, .stop, .loop 0 .kick, .loop 0 .go, .loop 0 .go,
      .childExit 0, .loop 0 .exit, .loop 0 (.settle 0), .loop 0 .go, .loop 0 .go, .stop, .stop])
    (fun s => decide (s.stop = .finished ∧ s.sup.childCount = 1)) (by decide)
  obtain ⟨hfinished, hcount⟩ := of_decide_eq_true hp
  exact ⟨s, hs, hfinished, hcount,
    (stopOutput_leaves_nothing _ firstOutput _ firstPool s hs hfinished).2.1.1⟩

/-- `stopOutput` between the last look at the context and the launch: the sink is
registered and the process runs on a port the pool takes for free. -/
theorem stopOutput_before_launch :
    ∃ s, Reached (step (Options.defaults {}) firstOutput) (fun _ _ => true)
      (startOutput firstOutput (fun _ => none) firstPool) s ∧
        (s.stop = .finished ∧ s.resolve = .returned) ∧
        s.sinks "hub" = some { port := 20000, own := true } ∧
        (s.sup.children 0).alive = true ∧ 20000 ∉ s.pool.used := by
  obtain ⟨s, hs, hp⟩ := exists_reached (step (Options.defaults {}) firstOutput)
    (fun _ _ => true) (startOutput firstOutput (fun _ => none) firstPool)
    (resolved ++ List.replicate 4 .stop ++ launched)
    (fun s => decide ((s.stop = .finished ∧ s.resolve = .returned) ∧
      s.sinks "hub" = some { port := 20000, own := true } ∧
      (s.sup.children 0).alive = true ∧ 20000 ∉ s.pool.used)) (by decide)
  exact ⟨s, hs, of_decide_eq_true hp⟩

end StreamHub.Channel
