import StreamHub.Library.Text
import StreamHub.Library.Transition

/-!
# The worker of a plugin

`Start` marks the entry of the worker as starting and lets go of the lock; then it reads the
token, starts the process and puts it into the entry.  A goroutine waits for the process and
writes its exit into the same entry.  `Stop` signals the process that the entry has.

So a `Stop` that falls into a `Start` signals nothing, and the exit of an earlier process
that is written during a `Start` lets a second `Start` through.  Where neither happens
(`orderly`) the entry says what is the case (`truthful_of_reached`).
-/

namespace StreamHub.Plugins

open Library Text Transition List

inductive Status
  | running | stopped | crashed | starting
  deriving DecidableEq

/-- How a process ends: with a code or by a signal. -/
inductive Exit
  | code (n : ℤ)
  | signal (name : Str)
  deriving DecidableEq

structure WorkerState where
  status : Status
  pid : Option ℕ
  /-- once it has exited, the code or `null` -/
  exitCode : Option (Option ℤ)
  error : Str
  deriving DecidableEq

structure WorkerEntry where
  state : WorkerState
  cmd : Option ℕ
  ingestToken : Str
  deriving DecidableEq

/-- A process with the token it was started with; `watched` once its goroutine waits for it,
`noticed` once the exit is in the entry. -/
structure Proc where
  token : Str
  told : Bool
  exit : Option Exit
  watched : Bool
  noticed : Bool
  deriving DecidableEq

/-- A `Start` that has marked the entry. -/
inductive Starter
  | marked
  | ready (token : Str)
  | spawned (pid : ℕ)
  deriving DecidableEq

/-- One worker; `stopped` says that `Stop` was called and no `Start` after it. -/
structure State where
  entry : Option WorkerEntry
  procs : List Proc
  starters : List Starter
  stopped : Bool
  deriving DecidableEq

def State.init : State := ⟨none, [], [], false⟩

/-- `running` -/
def Status.isRunning : Status → Bool
  | .running | .starting => true
  | _ => false

namespace State

/-- `Status` -/
def status (s : State) : Status := s.entry.elim .stopped fun e => e.state.status

/-- `IngestToken` -/
def ingestToken (s : State) : Str :=
  s.entry.elim [] fun e => if e.state.status.isRunning then e.ingestToken else []

/-- `Start` up to where it lets go of the lock. -/
def start (token : Str) (s : State) : State :=
  if s.status.isRunning then { s with stopped := false }
  else
    { s with
      entry := some ⟨⟨.starting, none, none, []⟩, s.entry.bind WorkerEntry.cmd, token⟩
      starters := s.starters ++ [.marked]
      stopped := false }

/-- `Stop` -/
def stop (s : State) : State :=
  match s.entry with
  | none => { s with stopped := true }
  | some e =>
    match e.cmd with
    | none => { s with stopped := true }
    | some pid =>
      { s with
        entry := some { e with state := { e.state with status := .stopped } }
        procs := s.procs.modify pid fun q => { q with told := true }
        stopped := true }

end State

/-- The state of the entry after an exit. -/
def WorkerState.exited (st : WorkerState) : Exit → WorkerState
  | .code n =>
    { st with exitCode := some (some n), status := if n = 0 then .stopped else .crashed }
  | .signal _ => { st with exitCode := some none, status := .stopped }

inductive Label
  | start (token : Str)
  | readToken (i : ℕ)
  | spawn (i : ℕ)
  | spawnFails (i : ℕ) (message : Str)
  | record (i : ℕ)
  | exit (pid : ℕ) (how : Exit)
  | notice (pid : ℕ)
  | stop
  deriving DecidableEq

/-- `launch` when the process could not be started. -/
def State.crash (message : Str) (i : ℕ) (e : WorkerEntry) (s : State) : State :=
  { s with
    entry := some { e with state := { e.state with status := .crashed, error := message } }
    starters := s.starters.eraseIdx i }

/-- `launch` puts the process into the entry, and its goroutine waits for it. -/
def State.record (pid i : ℕ) (e : WorkerEntry) (s : State) : State :=
  { s with
    entry := some { e with
      cmd := some pid, state := { e.state with pid := some pid, status := .running } }
    procs := s.procs.modify pid fun q => { q with watched := true }
    starters := s.starters.eraseIdx i }

/-- The goroutine writes the exit into the entry. -/
def State.notice (pid : ℕ) (how : Exit) (e : WorkerEntry) (s : State) : State :=
  { s with
    entry := some { e with
      cmd := if e.cmd = some pid then none else e.cmd, state := e.state.exited how }
    procs := s.procs.modify pid fun q => { q with noticed := true } }

def step (s : State) : Label → Option State
  | .start token => some (s.start token)
  | .readToken i =>
    match s.starters[i]?, s.entry with
    | some .marked, some e => some { s with starters := s.starters.set i (.ready e.ingestToken) }
    | _, _ => none
  | .spawn i =>
    match s.starters[i]? with
    | some (.ready token) =>
      some { s with
        procs := s.procs ++ [⟨token, false, none, false, false⟩]
        starters := s.starters.set i (.spawned s.procs.length) }
    | _ => none
  | .spawnFails i message =>
    match s.starters[i]?, s.entry with
    | some (.ready _), some e => some (s.crash message i e)
    | _, _ => none
  | .record i =>
    match s.starters[i]?, s.entry with
    | some (.spawned pid), some e => some (s.record pid i e)
    | _, _ => none
  | .exit pid how =>
    match s.procs[pid]? with
    | some q =>
      if q.exit = none then
        some { s with procs := s.procs.modify pid fun q => { q with exit := some how } }
      else none
    | none => none
  | .notice pid =>
    match s.procs[pid]?, s.entry with
    | some q, some e =>
      match q.exit with
      | some how => if q.watched && !q.noticed then some (s.notice pid how e) else none
      | none => none
    | _, _ => none
  | .stop => some s.stop

/-! ## What the entry should say -/

/-- The process was started and has neither exited nor been told to terminate. -/
def Proc.runs (q : Proc) : Bool := !q.told && q.exit.isNone

/-- No process is between its start and the entry, and no exit waits to be written. -/
def State.settled (s : State) : Bool :=
  s.procs.all fun q => q.watched && (q.exit.isNone || q.noticed)

structure Truthful (s : State) : Prop where
  one : ∀ (i j : ℕ) (q r : Proc), s.procs[i]? = some q → s.procs[j]? = some r → q.runs = true →
    r.runs = true → i = j
  status : s.settled = true → (s.status = .running ↔ ∃ q ∈ s.procs, q.runs = true)
  token : ∀ q ∈ s.procs, q.runs = true → s.ingestToken = q.token
  stopped : s.stopped = true → ∀ q ∈ s.procs, q.runs = false

/-- A `Start` that goes ahead finds every earlier exit in the entry, and no `Stop` falls into a
`Start`. -/
def orderly (s : State) : Label → Bool
  | .start _ => s.status.isRunning || s.procs.all Proc.noticed
  | .stop => s.starters.isEmpty
  | _ => true

/-! ## Phases of an orderly run -/

/-- All processes but one have their exit in the entry. -/
def Last (procs : List Proc) (pid : ℕ) (q : Proc) : Prop :=
  procs[pid]? = some q ∧ ∀ (i : ℕ) (r : Proc), procs[i]? = some r → i ≠ pid → r.noticed = true

/-- What is noted as an exit is one. -/
def ExitsNoticed (procs : List Proc) : Prop := ∀ q ∈ procs, q.noticed = true → q.exit ≠ none

/-- Where an orderly worker is. -/
inductive Phase (s : State) : Prop
  | idle (hstarters : s.starters = []) (hall : ∀ q ∈ s.procs, q.noticed = true)
      (hentry : ∀ e ∈ s.entry, e.cmd = none ∧ e.state.status.isRunning = false)
  | starting (e : WorkerEntry) (x : Starter) (hentry : s.entry = some e)
      (hstarters : s.starters = [x]) (hall : ∀ q ∈ s.procs, q.noticed = true)
      (hcmd : e.cmd = none) (hstatus : e.state.status = .starting)
      (hx : x = .marked ∨ x = .ready e.ingestToken) (hstopped : s.stopped = false)
  | spawned (e : WorkerEntry) (pid : ℕ) (q : Proc) (hentry : s.entry = some e)
      (hstarters : s.starters = [.spawned pid]) (hlast : Last s.procs pid q)
      (hcmd : e.cmd = none) (hstatus : e.state.status = .starting)
      (hq : q.watched = false ∧ q.noticed = false ∧ q.told = false ∧ q.token = e.ingestToken)
      (hstopped : s.stopped = false)
  | launched (e : WorkerEntry) (pid : ℕ) (q : Proc) (hentry : s.entry = some e)
      (hstarters : s.starters = []) (hlast : Last s.procs pid q)
      (hcmd : e.cmd = some pid) (hq : q.noticed = false)
      (hrunning : q.told = false →
        e.state.status = .running ∧ q.token = e.ingestToken ∧ s.stopped = false)
      (htold : q.told = true → e.state.status = .stopped)

section Procs

variable {procs : List Proc} {pid : ℕ} {q : Proc}

lemma Proc.runs_iff : q.runs = true ↔ q.told = false ∧ q.exit = none := by
  rw [Proc.runs, Bool.and_eq_true, Bool.not_eq_true', Option.isNone_iff_eq_none]

lemma ExitsNoticed.not_runs (h : ExitsNoticed procs) (hq : q ∈ procs)
    (hnoticed : q.noticed = true) : q.runs = false := by
  rw [← Bool.not_eq_true, Proc.runs_iff]
  exact fun hruns => h q hq hnoticed hruns.2

lemma ExitsNoticed.modify (h : ExitsNoticed procs) {f : Proc → Proc}
    (hf : ∀ q, procs[pid]? = some q → (f q).noticed = true → (f q).exit ≠ none) :
    ExitsNoticed (procs.modify pid f) := by
  intro r hr hnoticed
  obtain ⟨i, hi⟩ := mem_iff_getElem?.mp hr
  rw [getElem?_modify, Option.map_eq_map, Option.map_eq_some_iff] at hi
  obtain ⟨q, hq, rfl⟩ := hi
  by_cases hpid : pid = i
  · rw [if_pos hpid] at hnoticed ⊢
    exact hf q (hpid ▸ hq) hnoticed
  · rw [if_neg hpid] at hnoticed ⊢
    exact h q (mem_of_getElem? hq) hnoticed

lemma Last.modify (h : Last procs pid q) (f : Proc → Proc) :
    Last (procs.modify pid f) pid (f q) := by
  refine ⟨?_, fun i r hr hi => ?_⟩
  · rw [getElem?_modify, h.1]
    exact congrArg some (if_pos rfl)
  · rw [getElem?_modify, Option.map_eq_map, Option.map_eq_some_iff] at hr
    obtain ⟨r', hr', rfl⟩ := hr
    rw [if_neg (Ne.symm hi)]
    exact h.2 i r' hr' hi

lemma Last.all_noticed (h : Last procs pid q) (hq : q.noticed = true) :
    ∀ r ∈ procs, r.noticed = true := by
  intro r hr
  obtain ⟨i, hi⟩ := mem_iff_getElem?.mp hr
  by_cases hpid : i = pid
  · rw [hpid, h.1, Option.some.injEq] at hi
    exact hi ▸ hq
  · exact h.2 i r hi hpid

lemma last_append (h : ∀ r ∈ procs, r.noticed = true) (q : Proc) :
    Last (procs ++ [q]) procs.length q := by
  refine ⟨getElem?_concat_length, fun i r hr hi => ?_⟩
  rw [getElem?_append] at hr
  split at hr
  · exact h r (mem_of_getElem? hr)
  rw [getElem?_singleton] at hr
  split at hr
  · omega
  · cases hr

/-- Only the last process can run. -/
lemma Last.eq_of_runs (h : Last procs pid q) (hexits : ExitsNoticed procs) {i : ℕ} {r : Proc}
    (hr : procs[i]? = some r) (hruns : r.runs = true) : i = pid ∧ r = q := by
  have hpid : i = pid := by
    by_contra hi
    have hnot := hexits.not_runs (mem_of_getElem? hr) (h.2 i r hr hi)
    rw [hnot] at hruns
    cases hruns
  rw [hpid, h.1, Option.some.injEq] at hr
  exact ⟨hpid, hr.symm⟩

end Procs

section Truth

variable {s : State}

lemma truthful_of_none (h : ∀ q ∈ s.procs, q.runs = false) (hstatus : s.status ≠ .running) :
    Truthful s where
  one i j q r hq _ hruns _ := by
    rw [h q (mem_of_getElem? hq)] at hruns
    cases hruns
  status _ := by
    refine iff_of_false hstatus ?_
    rintro ⟨q, hq, hruns⟩
    rw [h q hq] at hruns
    cases hruns
  token q hq hruns := by
    rw [h q hq] at hruns
    cases hruns
  stopped _ := h

lemma truthful_of_last {pid : ℕ} {q : Proc} (hlast : Last s.procs pid q)
    (hexits : ExitsNoticed s.procs)
    (hstatus : s.settled = true → (s.status = .running ↔ q.runs = true))
    (hruns : q.runs = true → s.ingestToken = q.token ∧ s.stopped = false) : Truthful s where
  one i j r t hr ht hrunsr hrunst :=
    (hlast.eq_of_runs hexits hr hrunsr).1.trans (hlast.eq_of_runs hexits ht hrunst).1.symm
  status hsettled := by
    rw [hstatus hsettled]
    refine ⟨fun h => ⟨q, mem_of_getElem? hlast.1, h⟩, ?_⟩
    rintro ⟨r, hr, h⟩
    obtain ⟨i, hi⟩ := mem_iff_getElem?.mp hr
    obtain ⟨-, rfl⟩ := hlast.eq_of_runs hexits hi h
    exact h
  token r hr h := by
    obtain ⟨i, hi⟩ := mem_iff_getElem?.mp hr
    obtain ⟨-, rfl⟩ := hlast.eq_of_runs hexits hi h
    exact (hruns h).1
  stopped hstopped r hr := by
    rw [← Bool.not_eq_true]
    intro h
    obtain ⟨i, hi⟩ := mem_iff_getElem?.mp hr
    obtain ⟨-, rfl⟩ := hlast.eq_of_runs hexits hi h
    rw [(hruns h).2] at hstopped
    cases hstopped

lemma truthful_of_phase (hphase : Phase s) (hexits : ExitsNoticed s.procs) : Truthful s := by
  have hentries : ∀ e, s.entry = some e → s.status = e.state.status ∧
      (e.state.status.isRunning = true → s.ingestToken = e.ingestToken) := by
    intro e he
    rw [State.status, State.ingestToken, he]
    exact ⟨rfl, fun h => if_pos h⟩
  cases hphase with
  | idle _ hall hentry =>
    refine truthful_of_none (fun q hq => hexits.not_runs hq (hall q hq)) fun hrunning => ?_
    cases he : s.entry with
    | none =>
      rw [State.status, he] at hrunning
      cases hrunning
    | some e =>
      rw [(hentries e he).1] at hrunning
      have hnot := (hentry e he).2
      rw [hrunning] at hnot
      cases hnot
  | starting e x hentry _ hall _ hstatus _ _ =>
    refine truthful_of_none (fun q hq => hexits.not_runs hq (hall q hq)) ?_
    rw [(hentries e hentry).1, hstatus]
    decide
  | spawned e pid q hentry _ hlast _ hstatus hq hstopped =>
    refine truthful_of_last hlast hexits (fun hsettled => ?_) fun _ => ⟨?_, hstopped⟩
    · have hwatched := all_eq_true.mp hsettled q (mem_of_getElem? hlast.1)
      rw [hq.1] at hwatched
      cases hwatched
    · rw [(hentries e hentry).2 (by rw [hstatus]; rfl), hq.2.2.2]
  | launched e pid q hentry _ hlast _ hq hrunning htold =>
    refine truthful_of_last hlast hexits (fun hsettled => ?_) fun hruns => ?_
    · rw [(hentries e hentry).1, Proc.runs_iff]
      have hexit := all_eq_true.mp hsettled q (mem_of_getElem? hlast.1)
      rw [hq, Bool.or_false, Bool.and_eq_true, Option.isNone_iff_eq_none] at hexit
      cases ht : q.told with
      | true =>
        rw [htold ht]
        exact iff_of_false (by decide) fun h => nomatch h.1
      | false => exact iff_of_true (hrunning ht).1 ⟨rfl, hexit.2⟩
    · obtain ⟨hstatus, htoken, hstopped⟩ := hrunning (Proc.runs_iff.mp hruns).1
      exact ⟨by rw [(hentries e hentry).2 (by rw [hstatus]; rfl), htoken], hstopped⟩

end Truth

/-! ## Steps -/

section Steps

variable {s t : State} {i pid : ℕ}

lemma step_readToken (h : step s (.readToken i) = some t) :
    s.starters[i]? = some .marked ∧ ∃ e, s.entry = some e ∧
      t = { s with starters := s.starters.set i (.ready e.ingestToken) } := by
  rw [step] at h
  split at h
  · cases h
    exact ⟨‹_›, _, ‹_›, rfl⟩
  · cases h

lemma step_spawn (h : step s (.spawn i) = some t) :
    ∃ token, s.starters[i]? = some (.ready token) ∧
      t = { s with
        procs := s.procs ++ [⟨token, false, none, false, false⟩]
        starters := s.starters.set i (.spawned s.procs.length) } := by
  rw [step] at h
  split at h
  · cases h
    exact ⟨_, ‹_›, rfl⟩
  · cases h

lemma step_spawnFails {message : Str} (h : step s (.spawnFails i message) = some t) :
    (∃ token, s.starters[i]? = some (.ready token)) ∧ ∃ e, s.entry = some e ∧
      t = s.crash message i e := by
  rw [step] at h
  split at h
  · cases h
    exact ⟨⟨_, ‹_›⟩, _, ‹_›, rfl⟩
  · cases h

lemma step_record (h : step s (.record i) = some t) :
    ∃ pid e, s.starters[i]? = some (.spawned pid) ∧ s.entry = some e ∧ t = s.record pid i e := by
  rw [step] at h
  split at h
  · cases h
    exact ⟨_, _, ‹_›, ‹_›, rfl⟩
  · cases h

lemma step_exit {how : Exit} (h : step s (.exit pid how) = some t) :
    ∃ q, s.procs[pid]? = some q ∧ q.exit = none ∧
      t = { s with procs := s.procs.modify pid fun q => { q with exit := some how } } := by
  rw [step] at h
  split at h
  · split at h
    · cases h
      exact ⟨_, ‹_›, ‹_›, rfl⟩
    · cases h
  · cases h

lemma step_notice (h : step s (.notice pid) = some t) :
    ∃ q e how, s.procs[pid]? = some q ∧ s.entry = some e ∧ q.exit = some how ∧
      q.watched = true ∧ q.noticed = false ∧ t = s.notice pid how e := by
  rw [step] at h
  split at h
  · split at h
    · split at h
      · rename_i hcond
        rw [Bool.and_eq_true, Bool.not_eq_true'] at hcond
        cases h
        exact ⟨_, _, _, ‹_›, ‹_›, ‹_›, hcond.1, hcond.2, rfl⟩
      · cases h
    · cases h
  · cases h

lemma exitsNoticed_step {l : Label} (hexits : ExitsNoticed s.procs) (h : step s l = some t) :
    ExitsNoticed t.procs := by
  cases l with
  | start token =>
    cases h
    rw [State.start]
    split
    · exact hexits
    · exact hexits
  | readToken i =>
    obtain ⟨_, _, _, rfl⟩ := step_readToken h
    exact hexits
  | spawn i =>
    obtain ⟨token, _, rfl⟩ := step_spawn h
    intro q hq hnoticed
    obtain hold | hnew := mem_append.mp hq
    · exact hexits q hold hnoticed
    rw [mem_singleton.mp hnew] at hnoticed
    cases hnoticed
  | spawnFails i message =>
    obtain ⟨_, _, _, rfl⟩ := step_spawnFails h
    exact hexits
  | record i =>
    obtain ⟨pid, e, _, _, rfl⟩ := step_record h
    exact hexits.modify fun q hq => hexits q (mem_of_getElem? hq)
  | exit pid how =>
    obtain ⟨q, _, _, rfl⟩ := step_exit h
    exact hexits.modify fun q _ _ => Option.some_ne_none how
  | notice pid =>
    obtain ⟨q, e, how, hq, _, hexit, _, _, rfl⟩ := step_notice h
    refine hexits.modify fun r hr _ => ?_
    rw [hq, Option.some.injEq] at hr
    rw [← hr, hexit]
    exact Option.some_ne_none how
  | stop =>
    cases h
    rw [State.stop]
    split
    · exact hexits
    split
    · exact hexits
    · exact hexits.modify fun q hq => hexits q (mem_of_getElem? hq)

lemma getElem?_of_singleton {α : Type} {xs : List α} {x y : α} (hxs : xs = [x])
    (hi : xs[i]? = some y) : i = 0 ∧ y = x := by
  rw [hxs, getElem?_singleton] at hi
  split at hi
  · exact ⟨‹_›, (Option.some.inj hi).symm⟩
  · cases hi

lemma Last.eq_of_unnoticed {procs : List Proc} {q : Proc} (hlast : Last procs pid q) {j : ℕ}
    {r : Proc} (hr : procs[j]? = some r) (hunnoticed : r.noticed = false) : j = pid ∧ r = q := by
  have hj : j = pid := by
    by_contra hj
    have := hlast.2 j r hr hj
    rw [hunnoticed] at this
    cases this
  rw [hj, hlast.1, Option.some.injEq] at hr
  exact ⟨hj, hr.symm⟩

lemma Last.exits {procs : List Proc} {q : Proc} (hlast : Last procs pid q)
    (hexits : ExitsNoticed procs) {j : ℕ} {r : Proc} (hr : procs[j]? = some r)
    (halive : r.exit = none) : j = pid := by
  by_contra hj
  exact hexits r (mem_of_getElem? hr) (hlast.2 j r hr hj) halive

lemma phase_start (hphase : Phase s) {token : Str}
    (hguard : orderly s (.start token) = true) : Phase (s.start token) := by
  rw [orderly, Bool.or_eq_true] at hguard
  rw [State.start]
  cases hphase with
  | idle hstarters hall hentry =>
    have hstatus : s.status.isRunning = false := by
      rw [State.status]
      cases he : s.entry with
      | none => rfl
      | some e => exact (hentry e he).2
    rw [hstatus]
    have hcmd : s.entry.bind WorkerEntry.cmd = none := by
      cases he : s.entry with
      | none => rfl
      | some e => exact (hentry e he).1
    exact .starting _ .marked rfl (by rw [hstarters]; rfl) hall hcmd rfl (.inl rfl) rfl
  | starting e x hentry hstarters hall hcmd hstatus hx _ =>
    rw [State.status, hentry, if_pos (by rw [Option.elim_some, hstatus]; rfl)]
    exact .starting e x rfl hstarters hall hcmd hstatus hx rfl
  | spawned e pid q hentry hstarters hlast hcmd hstatus hq _ =>
    rw [State.status, hentry, if_pos (by rw [Option.elim_some, hstatus]; rfl)]
    exact .spawned e pid q rfl hstarters hlast hcmd hstatus hq rfl
  | launched e pid q hentry hstarters hlast hcmd hq hrunning htold =>
    -- the last process is still to be noticed, so an orderly start is one that is refused
    have hnot : ¬ s.procs.all Proc.noticed = true := by
      intro hall
      have := all_eq_true.mp hall q (mem_of_getElem? hlast.1)
      rw [hq] at this
      cases this
    rw [if_pos (hguard.resolve_right hnot)]
    exact .launched e pid q hentry hstarters hlast hcmd hq
      (fun h => ⟨(hrunning h).1, (hrunning h).2.1, rfl⟩) htold

lemma phase_stop (hphase : Phase s) (hguard : orderly s .stop = true) : Phase s.stop := by
  have hnone : s.starters = [] := List.isEmpty_iff.mp hguard
  rw [State.stop]
  cases hphase with
  | idle hstarters hall hentry =>
    cases he : s.entry with
    | none => exact .idle hstarters hall fun e h => hentry e (he ▸ h)
    | some e =>
      dsimp only
      rw [(hentry e he).1]
      exact .idle hstarters hall fun e' h => hentry e' (he ▸ h)
  | starting e x _ hstarters | spawned e pid q _ hstarters =>
    rw [hnone] at hstarters
    cases hstarters
  | launched e pid q hentry hstarters hlast hcmd hq hrunning htold =>
    rw [hentry]
    dsimp only
    rw [hcmd]
    exact .launched _ pid { q with told := true } rfl hstarters (hlast.modify _) rfl hq
      (fun h => nomatch h) fun _ => rfl

/-- A `Start` that has yet to spawn is the only one. -/
lemma Phase.starting_of_starter (hphase : Phase s) {x : Starter} (hi : s.starters[i]? = some x)
    (hx : ∀ pid, x ≠ .spawned pid) :
    i = 0 ∧ ∃ e, s.entry = some e ∧ s.starters = [x] ∧ (∀ q ∈ s.procs, q.noticed = true) ∧
      e.cmd = none ∧ e.state.status = .starting ∧ (x = .marked ∨ x = .ready e.ingestToken) ∧
      s.stopped = false := by
  cases hphase with
  | idle hstarters | launched _ _ _ _ hstarters =>
    rw [hstarters] at hi
    cases hi
  | spawned _ pid _ _ hstarters => exact absurd (getElem?_of_singleton hstarters hi).2 (hx pid)
  | starting e _ hentry hstarters hall hcmd hstatus hphase hstopped =>
    obtain ⟨rfl, rfl⟩ := getElem?_of_singleton hstarters hi
    exact ⟨rfl, e, hentry, hstarters, hall, hcmd, hstatus, hphase, hstopped⟩

/-- One step of an orderly worker. -/
lemma phase_step {l : Label} (hphase : Phase s) (hexits : ExitsNoticed s.procs)
    (hguard : orderly s l = true) (h : step s l = some t) : Phase t := by
  cases l with
  | start token =>
    cases h
    exact phase_start hphase hguard
  | stop =>
    cases h
    exact phase_stop hphase hguard
  | readToken i =>
    obtain ⟨hi, e', he', rfl⟩ := step_readToken h
    obtain ⟨rfl, e, hentry, hstarters, hall, hcmd, hstatus, -, hstopped⟩ :=
      hphase.starting_of_starter hi nofun
    rw [hentry, Option.some.injEq] at he'
    subst he'
    exact .starting e _ hentry (by rw [hstarters]; rfl) hall hcmd hstatus (.inr rfl) hstopped
  | spawn i =>
    obtain ⟨token, hi, rfl⟩ := step_spawn h
    obtain ⟨rfl, e, hentry, hstarters, hall, hcmd, hstatus, hx, hstopped⟩ :=
      hphase.starting_of_starter hi nofun
    have htoken : token = e.ingestToken := Starter.ready.inj (hx.resolve_left nofun)
    exact .spawned e s.procs.length _ hentry (by rw [hstarters]; rfl) (last_append hall _)
      hcmd hstatus ⟨rfl, rfl, rfl, htoken⟩ hstopped
  | spawnFails i message =>
    obtain ⟨⟨token, hi⟩, e', he', rfl⟩ := step_spawnFails h
    obtain ⟨rfl, e, hentry, hstarters, hall, hcmd, -⟩ := hphase.starting_of_starter hi nofun
    rw [hentry, Option.some.injEq] at he'
    subst he'
    refine .idle (by rw [State.crash, hstarters]; rfl) hall fun e' h' => ?_
    cases h'
    exact ⟨hcmd, rfl⟩
  | record i =>
    obtain ⟨pid', e', hi, he', rfl⟩ := step_record h
    cases hphase with
    | idle hstarters | launched _ _ _ _ hstarters =>
      rw [hstarters] at hi
      cases hi
    | starting e x hentry hstarters hall hcmd hstatus hx hstopped =>
      obtain ⟨-, hx'⟩ := getElem?_of_singleton hstarters hi
      rw [← hx'] at hx
      obtain hx | hx := hx <;> cases hx
    | spawned e pid q hentry hstarters hlast hcmd hstatus hq hstopped =>
      obtain ⟨rfl, hpid⟩ := getElem?_of_singleton hstarters hi
      rw [Starter.spawned.injEq] at hpid
      rw [hentry, Option.some.injEq] at he'
      subst hpid he'
      exact .launched _ pid' { q with watched := true } rfl (by rw [State.record, hstarters]; rfl)
        (hlast.modify _) rfl hq.2.1 (fun _ => ⟨rfl, hq.2.2.2, hstopped⟩)
        fun htold => nomatch hq.2.2.1.symm.trans htold
  | exit pid' how =>
    obtain ⟨r, hr, halive, rfl⟩ := step_exit h
    cases hphase with
    | idle hstarters hall | starting _ _ _ _ hall =>
      have hmem := mem_of_getElem? hr
      exact absurd halive (hexits r hmem (hall r hmem))
    | spawned e pid q hentry hstarters hlast hcmd hstatus hq hstopped =>
      have hpid := hlast.exits hexits hr halive
      subst hpid
      exact .spawned e _ { q with exit := some how } hentry hstarters (hlast.modify _) hcmd
        hstatus hq hstopped
    | launched e pid q hentry hstarters hlast hcmd hq hrunning htold =>
      have hpid := hlast.exits hexits hr halive
      subst hpid
      exact .launched e _ { q with exit := some how } hentry hstarters (hlast.modify _) hcmd hq
        hrunning htold
  | notice pid' =>
    obtain ⟨r, e', how, hr, he', _, hwatched, hunnoticed, rfl⟩ := step_notice h
    cases hphase with
    | idle hstarters hall | starting _ _ _ _ hall =>
      have := hall r (mem_of_getElem? hr)
      rw [hunnoticed] at this
      cases this
    | spawned e pid q hentry hstarters hlast hcmd hstatus hq hstopped =>
      obtain ⟨rfl, rfl⟩ := hlast.eq_of_unnoticed hr hunnoticed
      exact nomatch hq.1.symm.trans hwatched
    | launched e pid q hentry hstarters hlast hcmd hq hrunning htold =>
      obtain ⟨rfl, rfl⟩ := hlast.eq_of_unnoticed hr hunnoticed
      rw [hentry, Option.some.injEq] at he'
      subst he'
      refine .idle hstarters ((hlast.modify _).all_noticed rfl) fun e' h' => ?_
      cases h'
      refine ⟨if_pos hcmd, ?_⟩
      cases how with
      | code n =>
        change (if n = 0 then Status.stopped else .crashed).isRunning = false
        split <;> rfl
      | signal name => rfl

end Steps

/-- In every run without a `Start` that overtakes an exit and a `Stop` that overtakes a `Start`
the entry says what is the case. -/
theorem truthful_of_reached {s : State} (h : Reached step orderly State.init s) : Truthful s := by
  have hinv : Phase s ∧ ExitsNoticed s.procs := by
    induction h with
    | start =>
      exact ⟨.idle rfl (fun q hq => nomatch hq) (fun e he => nomatch he), fun q hq => nomatch hq⟩
    | next _ hguard hstep ih =>
      exact ⟨phase_step ih.1 ih.2 hguard hstep, exitsNoticed_step ih.2 hstep⟩
  exact truthful_of_phase hinv.1 hinv.2

/-- A whole `Start`. -/
def launch (token : Str) : List Label := [.start token, .readToken 0, .spawn 0, .record 0]

/-- A worker is started, exits and is started again. -/
theorem truthful_of_reached_restart :
    ∃ s, Reached step orderly State.init s ∧ s.status = .running ∧ Truthful s := by
  obtain ⟨s, hs, hrunning⟩ := exists_reached step orderly State.init
    (launch (str "a") ++ [.exit 0 (.code 1), .notice 0] ++ launch (str "b"))
    (fun s => s.status = .running) (by decide)
  exact ⟨s, hs, of_decide_eq_true hrunning, truthful_of_reached hs⟩

/-- A `Stop` falls into a `Start` and its process is never told; the exit of an earlier process
is written over the state of the one that runs; or it lets a second `Start` through, and two
processes run. -/
theorem worker_runs_untold :
    (∃ s, Reached step (fun _ _ => true) State.init s ∧
      (s.stopped && s.procs.any Proc.runs) = true) ∧
    (∃ s, Reached step (fun _ _ => true) State.init s ∧
      (s.settled && s.status == .stopped && s.procs.any Proc.runs) = true) ∧
    ∃ s, Reached step (fun _ _ => true) State.init s ∧
      ((s.procs.filter Proc.runs).length == 2) = true :=
  ⟨exists_reached _ _ _ [.start (str "a"), .stop, .readToken 0, .spawn 0, .record 0] _ (by decide),
   exists_reached _ _ _ (launch (str "a") ++ [.stop] ++ launch (str "b") ++
     [.exit 0 (.signal (str "SIGTERM")), .notice 0]) _ (by decide),
   exists_reached _ _ _ (launch (str "a") ++ [.stop, .start (str "b"),
     .exit 0 (.signal (str "SIGTERM")), .notice 0, .start (str "c"), .readToken 0, .readToken 1,
     .spawn 0, .spawn 1, .record 0, .record 0]) _ (by decide)⟩

end StreamHub.Plugins
