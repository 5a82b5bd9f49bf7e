import StreamHub.Library.Transition

/-!
# Stopping a recording while it is split

`StopRecording` and a rotation of the same session, step by step.  A step is one access to the
session or one call of the database or of LiveKit; a call of the rotation may fail once the
context of the session is cancelled.

The rotation makes its new egress the current one of the session in its last step, and
`StopRecording` stops the one that it has read before it cancels anything.  So the new egress
runs on unless it was read, or the rotation could still stop it itself (`stopped_iff`).
-/

namespace StreamHub.Recording.Stopping

open Library Transition

/-- The egress of the current part, and the one that the rotation starts -/
inductive Egress
  | old
  | new
  deriving DecidableEq

/-- What `rotate` does next -/
inductive Rotation
  | lookup
  | loadConfig
  /-- `safeStopEgress` of the current part -/
  | leave
  /-- `StartEgress` of `launchPart` -/
  | start
  | insert
  /-- `safeStopEgress` of the egress whose row was not inserted -/
  | cleanUp
  | assign
  | finished
  deriving DecidableEq

/-- What `StopRecording` does next, with the egress that it read in the session -/
inductive Stop
  | read
  | clear (target : Egress)
  | cancel (target : Egress)
  | ask (target : Egress)
  | returned (target : Egress)
  deriving DecidableEq

/-- `live` says that the session is in the map; `asked` are the egresses that were asked to
stop, and `cleaned` says that the rotation asked the new one. -/
structure State where
  live : Bool
  cancelled : Bool
  current : Egress
  started : Bool
  asked : List Egress
  cleaned : Bool
  rotation : Rotation
  stop : Stop

def State.init : State := ⟨true, false, .old, false, [], false, .lookup, .read⟩

/-- `StopEgress`, unless it fails -/
def State.ask (s : State) (e : Egress) (ok : Bool) : State :=
  if ok then { s with asked := e :: s.asked } else s

/-- A step of `rotate`; `ok` says that the call of the step succeeds. -/
def rotate (s : State) (ok : Bool) : Option State :=
  match s.rotation with
  | .lookup => some { s with rotation := if s.live then .loadConfig else .finished }
  | .loadConfig => some { s with rotation := if ok then .leave else .finished }
  | .leave => some { s.ask s.current ok with rotation := .start }
  | .start => some { s with rotation := if ok then .insert else .finished, started := ok }
  | .insert => some { s with rotation := if ok then .assign else .cleanUp }
  | .cleanUp => some { s.ask .new ok with rotation := .finished, cleaned := s.cleaned || ok }
  | .assign => some { s with rotation := .finished, current := .new }
  | .finished => none

/-- A step of `StopRecording` -/
def stopRecording (s : State) : Option State :=
  match s.stop with
  | .read => some { s with stop := .clear s.current }
  | .clear target => some { s with stop := .cancel target, live := false }
  | .cancel target => some { s with stop := .ask target, cancelled := true }
  | .ask target => some { s.ask target true with stop := .returned target }
  | .returned _ => none

inductive Label
  | rotate (ok : Bool)
  | stop

/-- A call of the rotation fails only with its context cancelled. -/
def step (s : State) : Label → Option State
  | .rotate ok => if ok || s.cancelled then rotate s ok else none
  | .stop => stopRecording s

def Stop.target : Stop → Option Egress
  | read => none
  | clear target => some target
  | cancel target => some target
  | ask target => some target
  | returned target => some target

/-- The old egress is asked to stop by the rotation as long as nothing is cancelled, and by
`StopRecording` unless that read the new one. -/
structure Sound (s : State) : Prop where
  current : s.rotation ≠ .finished → s.current = .old
  uncancelled : s.stop.target = none → s.cancelled = false
  left : s.cancelled = false →
    s.rotation ∈ [.start, .insert, .cleanUp, .assign] ∨ s.current = .new → .old ∈ s.asked
  read : s.stop.target = some .new → .old ∈ s.asked
  returned : ∀ e, s.stop = .returned e → e ∈ s.asked
  cleaned : s.cleaned = true → .new ∈ s.asked
  asked : .new ∈ s.asked → s.cleaned = true ∨ s.stop = .returned .new

section Runs

variable {s t : State}

lemma sound_rotate {ok : Bool} (h : Sound s) (hok : (ok || s.cancelled) = true)
    (hstep : rotate s ok = some t) : Sound t := by
  obtain ⟨hcurrent, huncancelled, hleft, hread, hreturned, hcleaned, hasked⟩ := h
  unfold rotate at hstep
  cases hphase : s.rotation with
  | finished => simp only [hphase, reduceCtorEq] at hstep
  | leave | cleanUp =>
    simp only [hphase, Option.some.injEq] at hstep
    cases ok <;> constructor <;> grind [State.ask]
  | _ =>
    -- nobody is asked to stop
    simp only [hphase, Option.some.injEq] at hstep
    subst hstep
    exact ⟨by grind, huncancelled, by grind, hread, hreturned, hcleaned, hasked⟩

lemma sound_stop (h : Sound s) (hstep : stopRecording s = some t) : Sound t := by
  obtain ⟨hcurrent, huncancelled, hleft, hread, hreturned, hcleaned, hasked⟩ := h
  unfold stopRecording at hstep
  cases hphase : s.stop <;> simp only [hphase, Option.some.injEq, reduceCtorEq] at hstep
  all_goals
    constructor <;> grind [State.ask, Stop.target]

lemma sound_of_reached (h : Reached step (fun _ _ => true) .init s) : Sound s := by
  refine h.invariant ?_ ?_
  · constructor <;> simp [State.init, Stop.target]
  · intro s t l hs _ hstep
    cases l with
    | rotate ok =>
      rw [step] at hstep
      split at hstep
      · rename_i hok
        exact sound_rotate hs hok hstep
      · cases hstep
    | stop => exact sound_stop hs hstep

end Runs

/-- Every egress that was started for the session was asked to stop. -/
def AllAsked (s : State) : Prop := .old ∈ s.asked ∧ (s.started = true → .new ∈ s.asked)

/-- Once `StopRecording` has returned, all was asked to stop exactly if the rotation has started
nothing, or `StopRecording` had read the new egress, or the rotation stopped that when it could
not insert its row. -/
theorem stopped_iff {s : State} {target : Egress}
    (h : Reached step (fun _ _ => true) .init s) (hreturned : s.stop = .returned target) :
    AllAsked s ↔ s.started = false ∨ target = .new ∨ s.cleaned = true := by
  have hs := sound_of_reached h
  have htarget : target ∈ s.asked := hs.returned target hreturned
  have hread : s.stop.target = some target := by rw [hreturned, Stop.target]
  have hold : .old ∈ s.asked := by
    cases target with
    | old => exact htarget
    | new => exact hs.read hread
  constructor
  · rintro ⟨-, hnew⟩
    cases hstarted : s.started with
    | false => exact .inl rfl
    | true =>
      rcases hs.asked (hnew hstarted) with hcleaned | hstop
      · exact .inr (.inr hcleaned)
      rw [hreturned] at hstop
      cases hstop
      exact .inr (.inl rfl)
  · rintro (hnone | rfl | hcleaned)
    · refine ⟨hold, fun hstarted => ?_⟩
      rw [hnone] at hstarted
      cases hstarted
    · exact ⟨hold, fun _ => htarget⟩
    · exact ⟨hold, fun _ => hs.cleaned hcleaned⟩

/-- The rotation, and then the stop -/
def inTurn : List Label := List.replicate 6 (.rotate true) ++ List.replicate 4 .stop

/-- The stop reads the old egress, the rotation goes on to its end. -/
def overlapped : List Label :=
  [.stop] ++ List.replicate 6 (.rotate true) ++ List.replicate 3 .stop

theorem stopped_iff_inTurn :
    ∃ s, Reached step (fun _ _ => true) .init s ∧ s.started = true ∧ AllAsked s := by
  obtain ⟨s, hs, htest⟩ := exists_reached step (fun _ _ => true) .init inTurn
    (fun s => s.started && s.stop = .returned .new) (by decide)
  simp only [Bool.and_eq_true, decide_eq_true_eq] at htest
  exact ⟨s, hs, htest.1, (stopped_iff hs htest.2).mpr (.inr (.inl rfl))⟩

/-- The new egress records on and nobody has asked it to stop. -/
theorem rotated_egress_runs_on :
    ∃ s, Reached step (fun _ _ => true) .init s ∧ s.rotation = .finished ∧
      s.stop = .returned .old ∧ s.started = true ∧ .new ∉ s.asked := by
  obtain ⟨s, hs, htest⟩ := exists_reached step (fun _ _ => true) .init overlapped
    (fun s => s.rotation = .finished && s.stop = .returned .old && s.started && .new ∉ s.asked)
    (by decide)
  simp only [Bool.and_eq_true, decide_eq_true_eq] at htest
  exact ⟨s, hs, htest.1.1.1, htest.1.1.2, htest.1.2, htest.2⟩

end StreamHub.Recording.Stopping
