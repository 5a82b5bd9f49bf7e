import StreamHub.Library.Transition
import StreamHub.Channel.AlarmRuns
import StreamHub.Channel.Evaluate

/-!
# Alarms of outputs that come and go

`evaluateAlarms` looks at the outputs that are enabled in the configuration of a
running channel.  An output that is disabled or removed is not looked at again: an
active alarm of it stays, and a condition that was pending counts on when the output
is enabled again.  If an update touches no output with such a condition, the alarms
of outputs are those of enabled outputs, raised after 10 seconds.
-/

namespace StreamHub.Channel

open Library Library.Text Library.Transition List Function Config Manager AlarmBook

/-! ## A running channel -/

/-- An alarm of an output was raised; `since` is since when the output had been enabled
and seen down in every evaluation. -/
structure Raise where
  output : Str
  time : Int
  since : Option Int
  deriving DecidableEq

/-- A running channel with its manager.  `streak`, `evaluated` and `raises` are not in the
source: since when an output has been enabled and seen down in every evaluation,
whether the last step was an evaluation, and the alarms of outputs raised so far. -/
structure Watch where
  rt : ChanRT
  m : Manager
  streak : Str → Option Int := fun _ => none
  evaluated : Bool := false
  raises : List Raise := []

inductive WatchLabel
  | update (ch : Channel)
  | evaluate (now : Int) (cs : ChannelStatus) (ms : MonitorSnapshot)

def enabledIn (ch : Channel) (id : Str) : Bool := ch.outputs.any fun o => o.enabled && o.id == id

namespace Watch

/-- The condition of the alarm of an output at an evaluation. -/
def isDown (grace now : Int) (cs : ChannelStatus) (s : Watch) (id : Str) : Bool :=
  outputDown s.rt.cfg (isWarm grace now s.rt.startedAt) cs id

/-- The streak after an evaluation. -/
def nextStreak (grace now : Int) (cs : ChannelStatus) (s : Watch) (id : Str) : Option Int :=
  if enabledIn s.rt.cfg id && s.isDown grace now cs id then some ((s.streak id).getD now)
  else none

/-- An update by `reconcile`, which keeps the channel enabled, or an evaluation. -/
def step (host : Host) (grace : Int) (s : Watch) : WatchLabel → Option Watch
  | .update ch =>
    if ch.enabled = true ∧ ch.id = s.rt.cfg.id then
      let (rt, m) := updateChannel host ch s.rt s.m
      some { s with
        rt := rt
        m := m
        streak := fun id => if enabledIn ch id then s.streak id else none
        evaluated := false }
    else none
  | .evaluate now cs ms =>
    let alarms := evaluateAlarms grace now cs ms s.rt s.m.alarms
    let raised := (alarms.sent.drop s.m.alarms.sent.length).filter fun e =>
      e.active && e.type == alarmOutputDown
    some { s with
      m := { s.m with alarms := alarms }
      streak := s.nextStreak grace now cs
      evaluated := true
      raises := s.raises ++
        raised.map fun e => ⟨e.output, now, s.nextStreak grace now cs e.output⟩ }

/-- The key of an output's alarm. -/
def outputKeyOf (s : Watch) (id : Str) : Str := akey s.rt.cfg.id alarmOutputDown id

/-- After an evaluation the alarms of outputs are those of enabled outputs. -/
def NoStuckAlarm (s : Watch) : Prop :=
  s.evaluated = true → ∀ e ∈ s.m.alarms.active.entries, e.2.type = alarmOutputDown →
    e.2.channel = s.rt.cfg.id → enabledIn s.rt.cfg e.2.output = true

/-- An output's alarm is raised after 10 seconds of being enabled and seen down. -/
def NoEarlyRaise (s : Watch) : Prop :=
  ∀ r ∈ s.raises, ∃ first, r.since = some first ∧ first ≤ r.time - sec 10

/-- An update disables or removes no output whose alarm is pending or active. -/
def keepsAlarmed (s : Watch) : WatchLabel → Bool
  | .update ch => s.rt.cfg.outputs.all fun o => !o.enabled || enabledIn ch o.id ||
      ((s.m.alarms.since (s.outputKeyOf o.id)).isNone &&
        (s.m.alarms.active.lookup (s.outputKeyOf o.id)).isNone)
  | .evaluate _ _ _ => true

end Watch

/-! ## Keys of one channel -/

lemma akey_eq (ch typ out : Str) : akey ch typ out = ch ++ 0x7c :: (typ ++ 0x7c :: out) := by
  simp [akey, show str "|" = [0x7c] from rfl]

lemma akey_type_injective {ch typ typ' out out' : Str} (htyp : 0x7c ∉ typ) (htyp' : 0x7c ∉ typ')
    (h : akey ch typ out = akey ch typ' out') : typ = typ' ∧ out = out' := by
  rw [akey_eq, akey_eq] at h
  exact append_byte_injective_left htyp htyp' (cons.inj (append_cancel_left h)).2

lemma outputKey_injective {ch out out' : Str}
    (h : akey ch alarmOutputDown out = akey ch alarmOutputDown out') : out = out' :=
  (akey_type_injective (by decide) (by decide) h).2

/-! ## Observations -/

namespace AlarmBook

/-- The condition of an active alarm counts as pending. -/
def Backed (b : AlarmBook) : Prop := ∀ k, (b.active.lookup k).isSome = true → b.since k ≠ none

variable {now hold : Int} {ch typ out msg : Str} {cond : Bool} {value : Rat} {b b' : AlarmBook}

lemma observe_since_eq (hb : b.Backed) : (b.observe now ch typ out cond hold msg value).since =
      update b.since (akey ch typ out)
        (if cond then some ((b.since (akey ch typ out)).getD now) else none) := by
  rw [observe_since_eq_ite]
  split
  · rename_i hactive
    obtain ⟨first, hfirst⟩ := Option.ne_none_iff_exists'.mp (hb _ hactive.2)
    rw [if_pos hactive.1, hfirst, Option.getD_some, ← hfirst, update_eq_self]
  · rfl

lemma observe_since_of_ne {j : Str} (hj : j ≠ akey ch typ out) :
    (b.observe now ch typ out cond hold msg value).since j = b.since j := by
  rw [observe_since_eq_ite]
  split
  · rfl
  · exact update_of_ne hj _ _

lemma observe_active_of_ne {j : Str} (hj : j ≠ akey ch typ out) :
    (b.observe now ch typ out cond hold msg value).active.lookup j = b.active.lookup j := by
  unfold observe
  dsimp only
  split
  · unfold clear
    dsimp only
    split
    · rfl
    · exact AList.lookup_erase_ne hj
  · split
    · rfl
    · split
      · rfl
      · exact AList.lookup_insert_ne hj

lemma Backed.observe (hb : b.Backed) : (b.observe now ch typ out cond hold msg value).Backed := by
  intro j hj
  by_cases hkey : j = akey ch typ out
  · rw [observe_since_eq hb, hkey]
    cases hcond : cond with
    | true => simp
    | false =>
      -- a condition that is gone has no alarm
      have hnone : (b.clear now (akey ch typ out)).active.lookup (akey ch typ out) = none := by
        unfold clear
        dsimp only
        split
        · assumption
        · exact AList.lookup_erase _ _
      rw [hkey, hcond] at hj
      change ((b.clear now (akey ch typ out)).active.lookup (akey ch typ out)).isSome = true at hj
      rw [hnone] at hj
      cases hj
  · rw [observe_active_of_ne hkey] at hj
    rw [observe_since_of_ne hkey]
    exact hb j hj

/-- Observations of other conditions than those of the channel's outputs. -/
structure Aside (ch : Str) (b b' : AlarmBook) : Prop where
  backed : b.Backed → b'.Backed
  since : ∀ o, b'.since (akey ch alarmOutputDown o) = b.since (akey ch alarmOutputDown o)
  sent : ∃ events, b'.sent = b.sent ++ events ∧
    ∀ e ∈ events, e.active = true → e.type ≠ alarmOutputDown
  moves : Moves b b'

lemma Aside.refl (ch : Str) (b : AlarmBook) : Aside ch b b :=
  ⟨id, fun _ => rfl, ⟨[], (append_nil _).symm, by simp⟩, .refl⟩

lemma Aside.trans {b'' : AlarmBook} (h : Aside ch b b') (h' : Aside ch b' b'') :
    Aside ch b b'' := by
  obtain ⟨first, hfirst, hfirst'⟩ := h.sent
  obtain ⟨more, hmore, hmore'⟩ := h'.sent
  refine ⟨h'.backed ∘ h.backed, fun o => (h'.since o).trans (h.since o),
    ⟨first ++ more, ?_, fun e he => ?_⟩, h.moves.trans h'.moves⟩
  · rw [hmore, hfirst, append_assoc]
  · exact (mem_append.mp he).elim (hfirst' e) (hmore' e)

lemma aside_observe (hbar : 0x7c ∉ typ) (htyp : typ ≠ alarmOutputDown) :
    Aside ch b (b.observe now ch typ out cond hold msg value) := by
  obtain ⟨events, hsent, hevents⟩ := b.observe_sent now ch typ out cond hold msg value
  refine ⟨fun hb => hb.observe, fun o => observe_since_of_ne fun hkey => htyp ?_,
    ⟨events, hsent, fun e he hactive => ?_⟩, b.observe_moves now ch typ out cond hold msg value⟩
  · exact (akey_type_injective (by decide) hbar hkey).1.symm
  · rw [(hevents e he hactive).2.2.1]
    exact htyp

lemma aside_observeEngine (now : Int) (c : Channel) (cs : ChannelStatus) :
    Aside c.id b (b.observeEngine now c cs) := aside_observe (by decide) (by decide)

lemma aside_observeBitrate (now : Int) (c : Channel) (warm : Bool) (cs : ChannelStatus) :
    Aside c.id b (b.observeBitrate now c warm cs) := by
  unfold observeBitrate
  split
  · exact .refl _ _
  split
  · exact aside_observe (by decide) (by decide)
  · exact .refl _ _

lemma aside_observeMonitor (now : Int) (c : Channel) (ms : MonitorSnapshot) :
    Aside c.id b (b.observeMonitor now c ms) := by
  unfold observeMonitor
  have hfour : ∀ {black freeze silence loss : Bool} {h₁ h₂ h₃ h₄ : Int} {m₁ m₂ m₃ m₄ : Str}
      {v₁ v₂ v₃ v₄ : Rat}, Aside c.id b
        ((((b.observe now c.id alarmBlack [] black h₁ m₁ v₁).observe now c.id alarmFreeze []
          freeze h₂ m₂ v₂).observe now c.id alarmSilence [] silence h₃ m₃ v₃).observe now c.id
            alarmInputLoss [] loss h₄ m₄ v₄) :=
    (((aside_observe (by decide) (by decide)).trans (aside_observe (by decide) (by decide))).trans
      (aside_observe (by decide) (by decide))).trans (aside_observe (by decide) (by decide))
  dsimp only
  split
  · exact hfour
  split
  · exact hfour.trans (aside_observe (by decide) (by decide))
  · exact hfour

/-! ## The outputs of a channel -/

variable {c : Channel} {warm : Bool} {cs : ChannelStatus}

/-- What an evaluation makes of the pending condition of an output. -/
def nextSince (c : Channel) (warm : Bool) (cs : ChannelStatus) (now : Int) (id : Str)
    (since : Option Int) : Option Int :=
  if outputDown c warm cs id then some (since.getD now) else none

lemma observeOutput_since (hb : b.Backed) (o : Output) (id : Str) :
    (b.observeOutput now c warm cs o).since (akey c.id alarmOutputDown id) =
      if o.enabled && o.id == id then
        nextSince c warm cs now id (b.since (akey c.id alarmOutputDown id))
      else b.since (akey c.id alarmOutputDown id) := by
  unfold observeOutput
  cases henabled : o.enabled with
  | false => rfl
  | true =>
    by_cases hid : o.id = id
    · subst hid
      rw [if_pos rfl, if_pos (by simp), observe_since_eq hb, update_self]
      rfl
    · rw [if_pos rfl, if_neg (by simpa using hid),
        observe_since_of_ne fun hkey => hid (outputKey_injective hkey).symm]

lemma Backed.observeOutput (hb : b.Backed) (o : Output) :
    (b.observeOutput now c warm cs o).Backed := by
  unfold AlarmBook.observeOutput
  split
  · exact hb.observe
  · exact hb

/-- Looking at an output twice does what looking once does. -/
lemma nextSince_nextSince (id : Str) (since : Option Int) :
    nextSince c warm cs now id (nextSince c warm cs now id since) =
      nextSince c warm cs now id since := by
  unfold nextSince
  split <;> simp

lemma observeOutputs_backed (hb : b.Backed) (outputs : List Output) :
    (outputs.foldl (observeOutput now c warm cs) b).Backed := by
  induction outputs generalizing b with
  | nil => exact hb
  | cons o rest ih => exact ih (hb.observeOutput o)

lemma observeOutputs_since (hb : b.Backed) (outputs : List Output) (id : Str) :
    (outputs.foldl (observeOutput now c warm cs) b).since (akey c.id alarmOutputDown id) =
      if outputs.any fun o => o.enabled && o.id == id then
        nextSince c warm cs now id (b.since (akey c.id alarmOutputDown id))
      else b.since (akey c.id alarmOutputDown id) := by
  induction outputs generalizing b with
  | nil => rfl
  | cons o rest ih =>
    rw [foldl_cons, ih (hb.observeOutput o), observeOutput_since hb, any_cons]
    by_cases ho : (o.enabled && o.id == id) = true
    · rw [ho, Bool.true_or, if_pos rfl, nextSince_nextSince, ite_self]
    · rw [if_neg ho, Bool.eq_false_of_not_eq_true ho, Bool.false_or]

/-- A raise among the events of an evaluation of outputs. -/
def IsTimely (c : Channel) (warm : Bool) (cs : ChannelStatus) (now : Int)
    (outputs : List Output) (b : AlarmBook) (e : Event) : Prop :=
  (outputs.any fun o => o.enabled && o.id == e.output) = true ∧
    outputDown c warm cs e.output = true ∧
    (b.since (akey c.id alarmOutputDown e.output)).getD now ≤ now - sec 10

lemma observeOutputs_sent (now : Int) (c : Channel) (warm : Bool) (cs : ChannelStatus)
    (hb : b.Backed) (outputs : List Output) :
    ∃ events, (outputs.foldl (observeOutput now c warm cs) b).sent = b.sent ++ events ∧
      ∀ e ∈ events, e.active = true → IsTimely c warm cs now outputs b e := by
  induction outputs generalizing b with
  | nil => exact ⟨[], (append_nil _).symm, by simp⟩
  | cons o rest ih =>
    obtain ⟨more, hmore, hmore'⟩ := ih (hb.observeOutput o)
    have hfirst : ∃ events, (b.observeOutput now c warm cs o).sent = b.sent ++ events ∧
        ∀ e ∈ events, e.active = true → IsTimely c warm cs now (o :: rest) b e := by
      unfold observeOutput
      split
      · rename_i henabled
        obtain ⟨events, hsent, hevents⟩ := b.observe_sent now c.id alarmOutputDown o.id
          (outputDown c warm cs o.id) (sec 10) _ 0
        refine ⟨events, hsent, fun e he hactive => ?_⟩
        obtain ⟨hdown, -, -, hout, hfirst⟩ := hevents e he hactive
        unfold IsTimely
        rw [hout]
        exact ⟨by simp [henabled], hdown, hfirst⟩
      · exact ⟨[], (append_nil _).symm, by simp⟩
    obtain ⟨first, hfirst, hfirst'⟩ := hfirst
    refine ⟨first ++ more, ?_, fun e he hactive => ?_⟩
    · rw [foldl_cons, hmore, hfirst, append_assoc]
    · rcases mem_append.mp he with he | he
      · exact hfirst' e he hactive
      obtain ⟨henabled, hdown, hsince⟩ := hmore' e he hactive
      refine ⟨by rw [any_cons, henabled, Bool.or_true], hdown, ?_⟩
      rw [observeOutput_since hb] at hsince
      split at hsince
      · rwa [nextSince, if_pos hdown] at hsince
      · exact hsince

lemma observeOutputs_moves (outputs : List Output) (b : AlarmBook) :
    Moves b (outputs.foldl (observeOutput now c warm cs) b) := by
  induction outputs generalizing b with
  | nil => exact .refl
  | cons o rest ih =>
    refine Relation.ReflTransGen.trans ?_ (ih _)
    unfold observeOutput
    split
    · exact b.observe_moves _ _ _ _ _ _ _ _
    · exact .refl

end AlarmBook

/-! ## Evaluations -/

/-- An evaluation looks at other conditions, then at the outputs, then at other
conditions again. -/
lemma evaluateAlarms_split (grace now : Int) (cs : ChannelStatus) (ms : MonitorSnapshot)
    (rt : ChanRT) (b : AlarmBook) : ∃ b', Aside rt.cfg.id b b' ∧
      Aside rt.cfg.id
        (rt.cfg.outputs.foldl
          (observeOutput now rt.cfg (isWarm grace now rt.startedAt) cs) b')
        (evaluateAlarms grace now cs ms rt b) := by
  refine ⟨_, (aside_observeEngine now rt.cfg cs).trans
    (aside_observeBitrate now rt.cfg (isWarm grace now rt.startedAt) cs), ?_⟩
  unfold evaluateAlarms
  split
  · exact aside_observeMonitor now rt.cfg ms
  · exact .refl _ _

/-- What an evaluation does to the alarms of outputs. -/
structure Evaluated (grace now : Int) (cs : ChannelStatus) (rt : ChanRT)
    (b b' : AlarmBook) : Prop where
  backed : b'.Backed
  since : ∀ id, b'.since (akey rt.cfg.id alarmOutputDown id) =
    if enabledIn rt.cfg id then
      nextSince rt.cfg (isWarm grace now rt.startedAt) cs now id
        (b.since (akey rt.cfg.id alarmOutputDown id))
    else b.since (akey rt.cfg.id alarmOutputDown id)
  sent : ∃ events, b'.sent = b.sent ++ events ∧
    ∀ e ∈ events, e.active = true → e.type = alarmOutputDown →
      IsTimely rt.cfg (isWarm grace now rt.startedAt) cs now rt.cfg.outputs b e
  moves : Moves b b'

lemma evaluated (grace now : Int) (cs : ChannelStatus) (ms : MonitorSnapshot)
    (rt : ChanRT) {b : AlarmBook} (hb : b.Backed) :
    Evaluated grace now cs rt b (evaluateAlarms grace now cs ms rt b) := by
  obtain ⟨b', hbefore, hafter⟩ := evaluateAlarms_split grace now cs ms rt b
  have hb' := hbefore.backed hb
  refine ⟨hafter.backed (observeOutputs_backed hb' _), fun id => ?_, ?_, ?_⟩
  · rw [hafter.since, observeOutputs_since hb', hbefore.since]
    rfl
  · obtain ⟨first, hfirst, hfirst'⟩ := hbefore.sent
    obtain ⟨outs, houts, houts'⟩ := observeOutputs_sent now rt.cfg
      (isWarm grace now rt.startedAt) cs hb' rt.cfg.outputs
    obtain ⟨last, hlast, hlast'⟩ := hafter.sent
    refine ⟨first ++ (outs ++ last), by simp [hlast, houts, hfirst], fun e he hactive htype => ?_⟩
    rcases mem_append.mp he with he | he
    · exact absurd htype (hfirst' e he hactive)
    rcases mem_append.mp he with he | he
    · have htimely := houts' e he hactive
      unfold IsTimely at htimely ⊢
      rwa [hbefore.since] at htimely
    · exact absurd htype (hlast' e he hactive)
  · exact hbefore.moves.trans
      ((observeOutputs_moves _ b').trans hafter.moves)

/-! ## Runs -/

/-- What holds as long as updates keep the outputs whose alarm is pending or active. -/
structure InStep (s : Watch) : Prop where
  backed : s.m.alarms.Backed
  consistent : Consistent s.m.alarms
  since : ∀ id, s.m.alarms.since (s.outputKeyOf id) = s.streak id
  enabled : ∀ id, s.streak id ≠ none → enabledIn s.rt.cfg id = true
  timely : s.NoEarlyRaise

lemma InStep.noStuckAlarm {s : Watch} (h : InStep s) : s.NoStuckAlarm := by
  intro _ e he htype hchannel
  have hlookup := AList.mem_lookup_iff.mpr he
  have hkey : s.outputKeyOf e.2.output = e.1 := by
    rw [← h.consistent.keyed e.1 e.2 hlookup, Alarm.key, htype, hchannel]
    rfl
  refine h.enabled e.2.output ?_
  rw [← h.since, hkey]
  exact h.backed e.1 (by rw [hlookup]; rfl)

lemma InStep.update {host : Host} {grace : Int} {s t : Watch} {ch : Channel}
    (h : InStep s) (hguard : s.keepsAlarmed (.update ch) = true)
    (hstep : s.step host grace (.update ch) = some t) : InStep t := by
  rw [Watch.step] at hstep
  split at hstep
  · rename_i hch
    cases hstep
    obtain ⟨hcfg, halarms⟩ := updateChannel_frame host ch s.rt s.m
    -- an output that was seen down is still enabled
    have hkept : ∀ id, s.streak id ≠ none → enabledIn ch id = true := by
      intro id hid
      obtain ⟨o, ho, henabled⟩ := any_eq_true.mp (h.enabled id hid)
      obtain ⟨henabled, hoid⟩ := Bool.and_eq_true_iff.mp henabled
      have hkeeps := all_eq_true.mp hguard o ho
      rw [henabled, eq_of_beq hoid, h.since] at hkeeps
      simpa [hid] using hkeeps
    have hstreak : ∀ id, (if enabledIn ch id then s.streak id else none) = s.streak id := by
      intro id
      by_cases hid : s.streak id = none
      · rw [hid, ite_self]
      · rw [if_pos (hkept id hid)]
    have hkey : ∀ id, akey (updateChannel host ch s.rt s.m).1.cfg.id alarmOutputDown id =
        s.outputKeyOf id := by
      intro id
      rw [hcfg, hch.2]
      rfl
    refine ⟨?_, ?_, fun id => ?_, fun id hid => ?_, h.timely⟩
    · change Backed (updateChannel host ch s.rt s.m).2.alarms
      rw [halarms]
      exact h.backed
    · change Consistent (updateChannel host ch s.rt s.m).2.alarms
      rw [halarms]
      exact h.consistent
    · change (updateChannel host ch s.rt s.m).2.alarms.since
        (akey (updateChannel host ch s.rt s.m).1.cfg.id alarmOutputDown id) =
          if enabledIn ch id then s.streak id else none
      rw [halarms, hkey, hstreak, h.since]
    · change enabledIn (updateChannel host ch s.rt s.m).1.cfg id = true
      rw [hcfg]
      exact hkept id (hstreak id ▸ hid)
  · cases hstep

lemma InStep.evaluate {host : Host} {grace now : Int} {cs : ChannelStatus}
    {ms : MonitorSnapshot} {s t : Watch} (h : InStep s)
    (hstep : s.step host grace (.evaluate now cs ms) = some t) : InStep t := by
  cases hstep
  have hspec := evaluated grace now cs ms s.rt h.backed
  have hsince : ∀ id, (evaluateAlarms grace now cs ms s.rt s.m.alarms).since (s.outputKeyOf id) =
      s.nextStreak grace now cs id := by
    intro id
    rw [Watch.outputKeyOf, hspec.since, ← Watch.outputKeyOf, h.since, Watch.nextStreak]
    by_cases henabled : enabledIn s.rt.cfg id = true
    · rw [henabled, Bool.true_and]
      rfl
    have hnone : s.streak id = none := by
      by_contra hid
      exact henabled (h.enabled id hid)
    rw [hnone, Bool.eq_false_of_not_eq_true henabled, Bool.false_and]
    rfl
  refine ⟨hspec.backed, h.consistent.moves hspec.moves, hsince, fun id hid => ?_, ?_⟩
  · by_contra henabled
    refine hid ?_
    change s.nextStreak grace now cs id = none
    unfold Watch.nextStreak
    rw [Bool.eq_false_of_not_eq_true henabled]
    rfl
  · intro r hr
    rcases mem_append.mp hr with hr | hr
    · exact h.timely r hr
    obtain ⟨e, he, rfl⟩ := mem_map.mp hr
    obtain ⟨hmem, hraise⟩ := mem_filter.mp he
    obtain ⟨hactive, htype⟩ := Bool.and_eq_true_iff.mp hraise
    obtain ⟨events, hsent, hevents⟩ := hspec.sent
    rw [hsent, drop_left] at hmem
    obtain ⟨henabled, hdown, hfirst⟩ := hevents e hmem hactive (eq_of_beq htype)
    refine ⟨(s.streak e.output).getD now, ?_, ?_⟩
    · exact if_pos (Bool.and_eq_true_iff.mpr ⟨henabled, hdown⟩)
    · rw [← h.since]
      exact hfirst

/-- As long as updates disable or remove no output whose alarm is pending or active,
the alarms of outputs are those of enabled outputs, and each was raised after 10
seconds of being enabled and seen down. -/
theorem output_alarms_follow_outputs (host : Host) (grace : Int) (rt : ChanRT)
    (ports : PortPool) (s : Watch)
    (h : Reached (Watch.step host grace) Watch.keepsAlarmed
      { rt := rt, m := { ports := ports } } s) : s.NoStuckAlarm ∧ s.NoEarlyRaise := by
  have hinstep : InStep s := by
    refine Reached.invariant ?_ (fun s t l hs hguard ht => ?_) h
    · refine ⟨fun k hk => ?_, consistent_empty [], fun id => rfl, fun id hid => absurd rfl hid, ?_⟩
      · simp at hk
      · intro r hr
        cases hr
    · cases l with
      | update ch => exact hs.update hguard ht
      | evaluate now cs ms => exact hs.evaluate ht
  exact ⟨hinstep.noStuckAlarm, hinstep.timely⟩

/-! ## An output that is disabled -/

/-- A channel with one output. -/
def newsWith (enabled : Bool) : Channel where
  id := str "news"
  enabled := true
  outputs := [{ id := str "main", enabled := enabled }]

def newsWatch : Watch where
  rt :=
    { cfg := newsWith true
      busPort := 41000
      outs := AList.singleton (str "main")
        { cfg := { id := str "main", enabled := true }, port := 41001 }
      startedAt := 0 }
  m := { ports := PortPool.new 41000 41999 }

/-- The process of the output is not running at a time in seconds. -/
def seenDown (seconds : Int) : WatchLabel :=
  .evaluate (sec seconds)
    { state := .degraded, outputs := [{ id := str "main", state := .backoff }] }
    { videoLive := false, audioLive := false, luma := 0, motion := -1, loudness := none }

/-- The alarm of an output that is disabled stays, and one that is enabled again is
raised at once. -/
theorem output_alarm_stuck_or_early :
    (∃ s, Reached (Watch.step ready (sec 20)) (fun _ _ => true) newsWatch s ∧
      ¬ s.NoStuckAlarm) ∧
    ∃ s, Reached (Watch.step ready (sec 20)) (fun _ _ => true) newsWatch s ∧
      ¬ s.NoEarlyRaise := by
  constructor
  · obtain ⟨s, hs, hp⟩ := exists_reached (Watch.step ready (sec 20)) (fun _ _ => true)
      newsWatch [seenDown 20, seenDown 30, .update (newsWith false), seenDown 31]
      (fun s => decide (s.evaluated = true ∧ ∃ e ∈ s.m.alarms.active.entries,
        e.2.type = alarmOutputDown ∧ e.2.channel = s.rt.cfg.id ∧
          enabledIn s.rt.cfg e.2.output = false))
      (by decide +kernel)
    obtain ⟨hevaluated, e, he, htype, hchannel, hdisabled⟩ := of_decide_eq_true hp
    refine ⟨s, hs, fun hnone => ?_⟩
    rw [hnone hevaluated e he htype hchannel] at hdisabled
    cases hdisabled
  · obtain ⟨s, hs, hp⟩ := exists_reached (Watch.step ready (sec 20)) (fun _ _ => true)
      newsWatch [seenDown 20, .update (newsWith false), .update (newsWith true), seenDown 30]
      (fun s => decide (⟨str "main", sec 30, some (sec 30)⟩ ∈ s.raises)) (by decide +kernel)
    refine ⟨s, hs, fun hearly => ?_⟩
    obtain ⟨first, hfirst, hle⟩ := hearly _ (of_decide_eq_true hp)
    rw [← Option.some.inj hfirst] at hle
    exact absurd hle (by decide)

/-- An alarm of an output that stays enabled. -/
theorem output_alarms_follow_outputs_enabled :
    ∃ s, Reached (Watch.step ready (sec 20)) Watch.keepsAlarmed newsWatch s ∧
      s.raises = [⟨str "main", sec 30, some (sec 20)⟩] ∧ s.NoStuckAlarm ∧ s.NoEarlyRaise := by
  obtain ⟨s, hs, hp⟩ := exists_reached (Watch.step ready (sec 20)) Watch.keepsAlarmed
    newsWatch [seenDown 20, .update { newsWith true with name := str "News" }, seenDown 30]
    (fun s => decide (s.raises = [⟨str "main", sec 30, some (sec 20)⟩])) (by decide +kernel)
  exact ⟨s, hs, of_decide_eq_true hp,
    output_alarms_follow_outputs ready (sec 20) newsWatch.rt (PortPool.new 41000 41999) s hs⟩

end StreamHub.Channel
