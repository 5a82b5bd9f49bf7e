import StreamHub.Streamflow.Graph

/-!
# Schedules

`scheduleFor` of a box `trigger.schedule`, and the loop that fires it.  Times and periods are
nanoseconds; `round` is the rounding of a product to a `float64` and `cron` the parser of patterns.
-/

namespace StreamHub.Streamflow

open Library Text Yamljs List

def numCfg (js : Js) (v : Value) (fallback : ℚ) : ℚ :=
  let n : Yamljs.Num :=
    match v with
    | .num x => x
    | .str x => js.stringToNumber x
    | _ => .nan
  match n with
  | .finite q => if 0 ≤ q then q else fallback
  | _ => fallback

/-- A `float64` as an `int64`: towards zero, and the least one out of range. -/
def toInt64 : Yamljs.Num → Int
  | .finite q =>
    let n := if 0 ≤ q then ⌊q⌋ else ⌈q⌉
    if -2 ^ 63 ≤ n ∧ n < 2 ^ 63 then n else -2 ^ 63
  | _ => -2 ^ 63

/-- `scheduleSpec`; the schedule is its function `Next`. -/
structure ScheduleSpec where
  jobID : Str
  app : Str
  workflowID : Str
  boxID : Str
  key : Str
  sched : Int → Int

/-- `everySchedule.Next` -/
def everySchedule (d t : Int) : Int := t + d

def cronPattern (js : Js) (box : Value) : Str :=
  js.trimSpace ((get (boxConfig box) (str "cron")).text?.getD [])

/-- The period `d` of a box without a pattern. -/
def period (js : Js) (round : ℚ → Yamljs.Num) (box : Value) : Yamljs.Num :=
  round (numCfg js (get (boxConfig box) (str "everySeconds")) 0 * 10 ^ 9)

def scheduleFor (js : Js) (round : ℚ → Yamljs.Num) (cron : Str → Option (Int → Int))
    (app workflowID : Str) (box : Value) : Option ScheduleSpec :=
  let jobID := str "sched:" ++ app ++ str ":" ++ workflowID ++ str ":" ++ boxID box
  let spec := ScheduleSpec.mk jobID app workflowID (boxID box)
  if cronPattern js box ≠ [] then
    (cron (cronPattern js box)).map (spec (cronPattern js box))
  else if numCfg js (get (boxConfig box) (str "everySeconds")) 0 ≤ 0 then none
  else
    let d := toInt64 (period js round box)
    some (spec (str "every:" ++ itoa (d.tdiv 1000000)) (everySchedule d))

/-- The times at which `loop` fires from `now` on: not before the next one, and the clock
goes on. -/
inductive Fires (sched : Int → Int) : Int → List Int → Prop
  | stopped (now : Int) : Fires sched now []
  | fired {now t now' : Int} {times : List Int} : sched now ≤ t → t ≤ now' →
      Fires sched now' times → Fires sched now (t :: times)

lemma toInt64_pos_iff {x : Yamljs.Num} : 0 < toInt64 x ↔ ∃ q, x = .finite q ∧ 1 ≤ q ∧ q < 2 ^ 63 := by
  cases x with
  | infinite | nan => simp [toInt64]
  | finite q =>
    have hone : 0 < ⌊q⌋ ↔ 1 ≤ q := Int.floor_pos
    have hrange : ⌊q⌋ < 2 ^ 63 ↔ q < 2 ^ 63 := by
      rw [Int.floor_lt]
      norm_cast
    simp only [Num.finite.injEq, exists_eq_left', ← hone, ← hrange, toInt64]
    split
    · split <;> omega
    rename_i hneg
    have hceil : ⌈q⌉ ≤ 0 := Int.ceil_le.mpr (by simpa using (not_le.mp hneg).le)
    have hfloor := Int.floor_le_ceil q
    split <;> omega

lemma Fires.spaced {d now : Int} {times : List Int} (h : Fires (everySchedule d) now times)
    (hd : 0 < d) : (∀ t ∈ times, now + d ≤ t) ∧ times.Pairwise fun a b => a + d ≤ b := by
  induction h with
  | stopped now => simp
  | fired hnext hclock _ ih =>
    rw [everySchedule] at hnext
    refine ⟨forall_mem_cons.mpr ⟨hnext, fun t ht => ?_⟩, pairwise_cons.mpr ⟨fun t ht => ?_, ih.2⟩⟩
    · have hlater := ih.1 t ht
      omega
    · have hlater := ih.1 t ht
      omega

variable {js : Js} {round : ℚ → Yamljs.Num} {cron : Str → Option (Int → Int)} {app workflowID : Str}
  {box : Value} {spec : ScheduleSpec}

/-- A schedule moves forward exactly if its rounded period is at least a nanosecond and in
range; the loop then fires at most once in a period. -/
theorem schedule_forward_iff (hcron : cronPattern js box = [])
    (h : scheduleFor js round cron app workflowID box = some spec) :
    ((∀ t, t < spec.sched t) ↔ ∃ q, period js round box = .finite q ∧ 1 ≤ q ∧ q < 2 ^ 63) ∧
      ((∀ t, t < spec.sched t) → ∃ d, 0 < d ∧ spec.sched = everySchedule d ∧
        ∀ now times, Fires spec.sched now times → times.Pairwise fun a b => a + d ≤ b) := by
  rw [scheduleFor, if_neg (by simpa using hcron)] at h
  split at h
  · cases h
  cases h
  have hforward : (∀ t, t < everySchedule (toInt64 (period js round box)) t) ↔
      0 < toInt64 (period js round box) := by
    refine ⟨fun hall => ?_, fun hpos t => ?_⟩
    · simpa [everySchedule] using hall 0
    · rw [everySchedule]
      omega
  refine ⟨hforward.trans toInt64_pos_iff, fun hall => ?_⟩
  have hpos := hforward.mp hall
  exact ⟨_, hpos, rfl, fun now times hfires => (hfires.spaced hpos).2⟩

/-- A box whose only setting is the period in seconds. -/
def everyBox (seconds : Value) : Value :=
  .obj [(str "config", .obj [(str "everySeconds", seconds)])]

theorem schedule_forward_minute :
    ∃ spec, scheduleFor Js.plain .finite (fun _ => none) [] [] (everyBox (.str (str "60"))) =
      some spec ∧ ∀ t, t < spec.sched t := by
  obtain ⟨spec, hspec⟩ : ∃ spec, scheduleFor Js.plain .finite (fun _ => none) [] []
    (everyBox (.str (str "60"))) = some spec := ⟨_, rfl⟩
  refine ⟨spec, hspec, (schedule_forward_iff (by decide) hspec).1.mpr ?_⟩
  exact ⟨60 * 10 ^ 9, by decide +kernel, by norm_num, by norm_num⟩

/-- Less than a nanosecond is a period of zero, and too many seconds are a negative one. -/
theorem schedule_stands_still :
    (scheduleFor Js.plain .finite (fun _ => none) [] []
      (everyBox (.num (.finite (1 / 2 ^ 31))))).map (fun spec => spec.sched 0) = some 0 ∧
    (scheduleFor Js.plain .finite (fun _ => none) [] []
      (everyBox (.num (.finite (10 ^ 10))))).map (fun spec => spec.sched 0) = some (-2 ^ 63) := by
  decide +kernel

end StreamHub.Streamflow
