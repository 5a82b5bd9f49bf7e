import StreamHub.Channel.Alarms

/-!
# Runs of the alarm book

Every call is a sequence of four kinds of moves.  What the book keeps under each of
them holds after all calls: per key, raise and clear events alternate and the active
alarm is the one raised last.  A raise needs a condition that was seen before, at
least the hold time ago, and never seen false since.
-/

namespace StreamHub.Channel

open Library Library.Text List Function

/-! ## Calls -/

inductive AlarmCall
  | observe (now : Int) (ch typ out : Str) (cond : Bool) (hold : Int) (msg : Str) (value : Rat)
  | clearChannel (now : Int) (ch : Str) (order : List Str)
  | ack (id who : Str)

def AlarmCall.run (b : AlarmBook) : AlarmCall → AlarmBook
  | .observe now ch typ out cond hold msg value => b.observe now ch typ out cond hold msg value
  | .clearChannel now ch order => b.clearChannel now ch order
  | .ack id who => (b.ack id who).2

def AlarmBook.runCalls (b : AlarmBook) (calls : List AlarmCall) : AlarmBook :=
  calls.foldl AlarmCall.run b

/-- The events a call sends. -/
def AlarmCall.events (b : AlarmBook) (c : AlarmCall) : List Event :=
  (c.run b).sent.drop b.sent.length

/-! ## Moves -/

/-- What identifies an alarm in its events. -/
structure AlarmTag where
  id : Str
  channel : Str
  type : Str
  output : Str
  deriving DecidableEq

def Alarm.tag (a : Alarm) : AlarmTag := ⟨a.id, a.channel, a.type, a.output⟩

def Event.tag (e : Event) : AlarmTag := ⟨e.id, e.channel, e.type, e.output⟩

def AlarmTag.key (t : AlarmTag) : Str := akey t.channel t.type t.output

variable (device : Str) (active : Bool) (a : Alarm) (b : AlarmBook)

@[simp] lemma Alarm.tag_event : (a.event device active).tag = a.tag := rfl

@[simp] lemma Alarm.key_event : (a.event device active).key = a.key := rfl

@[simp] lemma Alarm.active_event : (a.event device active).active = active := rfl

/-- One change of the book: a condition starts or ends to be pending, an alarm ends,
an alarm starts, or somebody acknowledges one. -/
inductive Move (b : AlarmBook) : AlarmBook → Prop
  | pends (since : Str → Option Int) : Move b { b with since := since }
  | ends (k : Str) (a : Alarm) (now : Int) (history : List Alarm)
      (hk : b.active.lookup k = some a) :
      Move b { b with
        active := b.active.erase k
        history := history
        sent := b.sent ++ [({ a with clearedAt := some now } : Alarm).event b.device false] }
  | starts (a : Alarm) (now : Int) (history : List Alarm)
      (hk : b.active.lookup a.key = none) (hid : a.id = alarmId now (b.seq + 1)) :
      Move b { b with
        seq := b.seq + 1
        active := b.active.insert a.key a
        history := history
        sent := b.sent ++ [a.event b.device true] }
  | acks (k : Str) (a : Alarm) (who : Str) (hk : b.active.lookup k = some a) :
      Move b { b with active := b.active.insert k { a with acked := true, ackedBy := who } }

abbrev Moves : AlarmBook → AlarmBook → Prop := Relation.ReflTransGen Move

namespace AlarmBook

variable {b : AlarmBook}

lemma clear_moves (now : Int) (k : Str) (b : AlarmBook) : Moves b (b.clear now k) := by
  refine Relation.ReflTransGen.head (Move.pends (update b.since k none)) ?_
  unfold clear
  dsimp only
  split
  · exact .refl
  rename_i a hk
  exact .single (Move.ends k a now _ hk)

lemma raise_move (now : Int) (ch typ out msg : Str) (value : Rat)
    (h : b.active.lookup (akey ch typ out) = none) : Move b (b.raise now ch typ out msg value) :=
  Move.starts (newAlarm now ch typ out msg value (b.seq + 1)) now _ h rfl

lemma observe_moves (now : Int) (ch typ out : Str) (cond : Bool) (hold : Int) (msg : Str)
    (value : Rat) (b : AlarmBook) : Moves b (b.observe now ch typ out cond hold msg value) := by
  unfold observe
  dsimp only
  split
  · exact b.clear_moves now _
  split
  · exact .refl
  rename_i hnone
  refine Relation.ReflTransGen.head (Move.pends
    (update b.since (akey ch typ out) (some ((b.since (akey ch typ out)).getD now)))) ?_
  split
  · exact .refl
  · exact .single (raise_move now ch typ out msg value (Option.not_isSome_iff_eq_none.mp hnone))

/-- Conditions and alarms that ended. -/
structure Clears (b b' : AlarmBook) : Prop where
  moves : Moves b b'
  since : ∀ {j first}, b'.since j = some first → b.since j = some first
  sent : ∃ events, b'.sent = b.sent ++ events ∧ ∀ e ∈ events, e.active = false

lemma Clears.refl (b : AlarmBook) : Clears b b := ⟨.refl, id, [], (append_nil _).symm, by simp⟩

lemma Clears.trans {b' b'' : AlarmBook} (h : Clears b b') (h' : Clears b' b'') :
    Clears b b'' := by
  obtain ⟨first, hfirst, hfirst'⟩ := h.sent
  obtain ⟨more, hmore, hmore'⟩ := h'.sent
  refine ⟨h.moves.trans h'.moves, h.since ∘ h'.since, first ++ more, ?_,
    forall_mem_append.mpr ⟨hfirst', hmore'⟩⟩
  rw [hmore, hfirst, append_assoc]

lemma clear_since (now : Int) (k : Str) (b : AlarmBook) :
    (b.clear now k).since = update b.since k none := by
  unfold clear
  dsimp only
  split <;> rfl

lemma clear_sent (now : Int) (k : Str) (b : AlarmBook) :
    ∃ events, (b.clear now k).sent = b.sent ++ events ∧ ∀ e ∈ events, e.active = false := by
  unfold clear
  dsimp only
  split
  · exact ⟨[], (append_nil _).symm, by simp⟩
  · exact ⟨[_], rfl, by simp⟩

lemma clears_clear (now : Int) (k : Str) (b : AlarmBook) : Clears b (b.clear now k) := by
  refine ⟨b.clear_moves now k, fun {j first} h => ?_, b.clear_sent now k⟩
  rw [clear_since, update_apply] at h
  split at h
  · cases h
  · exact h

/-- The end of a channel raises nothing and makes nothing pending. -/
lemma clears_clearChannel (now : Int) (ch : Str) (order : List Str) (b : AlarmBook) :
    Clears b (b.clearChannel now ch order) := by
  have hforget : Clears b (b.forget ch) := by
    refine ⟨.single (Move.pends _), fun {j first} h => ?_, [], (append_nil _).symm, by simp⟩
    rw [forget] at h
    dsimp only at h
    split at h
    · cases h
    · exact h
  have hkey : ∀ (b : AlarmBook) (k : Str), Clears b (b.clearKey now k) := by
    intro b k
    unfold clearKey
    split
    · exact .refl b
    · exact clears_clear now _ b
  rw [clearChannel]
  generalize inOrder order _ = keys
  induction keys using reverseRecOn with
  | nil => exact hforget
  | append_singleton keys k ih =>
    rw [foldl_concat]
    exact ih.trans (hkey _ k)

lemma ack_moves (id who : Str) (b : AlarmBook) : Moves b (b.ack id who).2 := by
  unfold ack
  split
  · exact .refl
  rename_i e he
  have hmem : e ∈ b.active.entries := mem_of_find?_eq_some he
  exact .single (Move.acks e.1 e.2 who (AList.mem_lookup_iff.mpr hmem))

end AlarmBook

lemma AlarmCall.run_moves (c : AlarmCall) : Moves b (c.run b) := by
  cases c with
  | observe now ch typ out cond hold msg value => exact b.observe_moves _ _ _ _ _ _ _ _
  | clearChannel now ch order => exact (b.clears_clearChannel now ch order).moves
  | ack id who => exact b.ack_moves id who

lemma AlarmBook.runCalls_moves (calls : List AlarmCall) : Moves b (b.runCalls calls) := by
  induction calls generalizing b with
  | nil => exact .refl
  | cons c rest ih => exact (c.run_moves b).trans (ih (c.run b))

/-! ## Raise and clear alternate -/

/-- Events that alternate, starting with a raise; every clear has the tag of the raise
before it.  At the end the alarm of the last raise may be open. -/
inductive Edges : List Event → Option AlarmTag → Prop
  | start : Edges [] none
  | raise {events : List Event} {e : Event} (h : Edges events none) (he : e.active = true) :
      Edges (events ++ [e]) (some e.tag)
  | clear {events : List Event} {e : Event} (h : Edges events (some e.tag))
      (he : e.active = false) : Edges (events ++ [e]) none

variable {events : List Event}

/-- An alarm's events can be picked out by what is in its tag. -/
lemma Edges.filter {current : Option AlarmTag} (h : Edges events current) (p : AlarmTag → Bool) :
    Edges (events.filter fun e => p e.tag) (current.filter p) := by
  induction h with
  | start => exact .start
  | @raise events e _ he ih =>
    rw [filter_append]
    by_cases hp : p e.tag = true
    · rw [filter_cons_of_pos (p := fun e : Event => p e.tag) hp, Option.filter_some_pos hp]
      exact .raise ih he
    · rw [filter_cons_of_neg (p := fun e : Event => p e.tag) hp, filter_nil, append_nil,
        Option.filter_some_neg (Bool.eq_false_of_not_eq_true hp)]
      exact ih
  | @clear events e _ he ih =>
    rw [filter_append]
    by_cases hp : p e.tag = true
    · rw [filter_cons_of_pos (p := fun e : Event => p e.tag) hp]
      rw [Option.filter_some_pos hp] at ih
      exact .clear ih he
    · rw [filter_cons_of_neg (p := fun e : Event => p e.tag) hp, filter_nil, append_nil]
      rw [Option.filter_some_neg (Bool.eq_false_of_not_eq_true hp)] at ih
      exact ih

lemma alarmId_injective {now now' : Int} {n n' : Nat} (h : alarmId now n = alarmId now' n') :
    n = n' := by
  have hid : (str "al-" ++ itoa (now / 1000000000)) ++ 0x2d :: natText n =
      (str "al-" ++ itoa (now' / 1000000000)) ++ 0x2d :: natText n' := by
    have htext : ∀ n : Nat, itoa n = natText n := fun _ => rfl
    simpa [alarmId, htext, show str "-" = [0x2d] from rfl] using h
  exact natText_injective
    (append_byte_injective (minus_not_mem_natText n) (minus_not_mem_natText n') hid).2

/-- What the book keeps. -/
structure Consistent (b : AlarmBook) : Prop where
  keyed : ∀ k a, b.active.lookup k = some a → a.key = k
  edges : ∀ k, Edges (b.sent.filter fun e => e.key == k) ((b.active.lookup k).map Alarm.tag)
  numbered : ∀ e ∈ b.sent, ∃ now n, n ≤ b.seq ∧ e.id = alarmId now n
  distinct : ((b.sent.filter Event.active).map Event.id).Nodup

lemma filter_concat_of_ne {e : Event} {k : Str} (h : e.key ≠ k) :
    (events ++ [e]).filter (fun e => e.key == k) = events.filter fun e => e.key == k := by
  rw [filter_append, filter_cons_of_neg (by simpa using h), filter_nil, append_nil]

lemma filter_concat_of_eq {e : Event} {k : Str} (h : e.key = k) :
    (events ++ [e]).filter (fun e => e.key == k) = (events.filter fun e => e.key == k) ++ [e] := by
  rw [filter_append, filter_cons_of_pos (by simpa using h), filter_nil]

lemma consistent_empty : Consistent { device := device } := by
  refine ⟨fun k a h => ?_, fun k => ?_, fun e he => ?_, ?_⟩
  · simp at h
  · simpa using Edges.start
  · simp at he
  · simp

/-- The end of an alarm. -/
lemma Consistent.ends {b : AlarmBook} (h : Consistent b) {k : Str} {a : Alarm} {now : Int}
    {history : List Alarm} (hk : b.active.lookup k = some a) : Consistent { b with
      active := b.active.erase k
      history := history
      sent := b.sent ++ [({ a with clearedAt := some now } : Alarm).event b.device false] } := by
  have hkey : (({ a with clearedAt := some now } : Alarm).event b.device false).key = k :=
    h.keyed k a hk
  refine ⟨fun j c hj => ?_, fun j => ?_, fun e he => ?_, ?_⟩
  · have hne : j ≠ k := by
      rintro rfl
      simp at hj
    rw [AList.lookup_erase_ne hne] at hj
    exact h.keyed j c hj
  · by_cases hj : j = k
    · subst hj
      have hedges := h.edges j
      rw [hk] at hedges
      rw [filter_concat_of_eq hkey, AList.lookup_erase]
      exact .clear hedges rfl
    · rw [filter_concat_of_ne fun hkj => hj (hkj.symm.trans hkey), AList.lookup_erase_ne hj]
      exact h.edges j
  · rcases mem_append.mp he with he | he
    · exact h.numbered e he
    -- the event has the id of the raise before it
    rw [mem_singleton.mp he]
    have hedges := h.edges k
    rw [hk] at hedges
    generalize hevents : (b.sent.filter fun e => e.key == k) = events at hedges
    generalize hopen : (some a).map Alarm.tag = current at hedges
    cases hedges with
    | start => cases hopen
    | @raise events r _ _ =>
      have hr : r ∈ b.sent := by
        refine mem_of_mem_filter (p := fun e => e.key == k) ?_
        rw [hevents]
        exact mem_append_right events (mem_singleton.mpr rfl)
      obtain ⟨t, n, hn, hid⟩ := h.numbered r hr
      refine ⟨t, n, hn, ?_⟩
      rw [← hid]
      exact congrArg AlarmTag.id (Option.some.inj hopen)
    | clear _ _ => cases hopen
  · rw [filter_append, filter_cons_of_neg (by simp), filter_nil, append_nil]
    exact h.distinct

/-- The start of an alarm. -/
lemma Consistent.starts {b : AlarmBook} (h : Consistent b) {a : Alarm} {now : Int}
    {history : List Alarm} (hk : b.active.lookup a.key = none)
    (hid : a.id = alarmId now (b.seq + 1)) : Consistent { b with
      seq := b.seq + 1
      active := b.active.insert a.key a
      history := history
      sent := b.sent ++ [a.event b.device true] } := by
  refine ⟨fun j c hj => ?_, fun j => ?_, fun e he => ?_, ?_⟩
  · by_cases hne : j = a.key
    · rw [hne, AList.lookup_insert] at hj
      rw [hne, ← Option.some.inj hj]
    · rw [AList.lookup_insert_ne hne] at hj
      exact h.keyed j c hj
  · by_cases hj : j = a.key
    · subst hj
      have hedges := h.edges a.key
      rw [hk] at hedges
      have hkey : (a.event b.device true).key = a.key := rfl
      rw [filter_concat_of_eq hkey, AList.lookup_insert]
      exact .raise hedges rfl
    · rw [filter_concat_of_ne fun hkj => hj hkj.symm, AList.lookup_insert_ne hj]
      exact h.edges j
  · rcases mem_append.mp he with he | he
    · obtain ⟨t, n, hn, hid⟩ := h.numbered e he
      exact ⟨t, n, hn.trans (Nat.le_succ _), hid⟩
    · rw [mem_singleton.mp he]
      exact ⟨now, b.seq + 1, le_refl _, hid⟩
  · rw [filter_append, filter_cons_of_pos rfl, filter_nil, map_append, nodup_append]
    refine ⟨h.distinct, nodup_singleton _, fun id hold other hnew heq => ?_⟩
    -- the new number is larger than all before
    obtain ⟨e, he, rfl⟩ := mem_map.mp hold
    obtain ⟨t, n, hn, hid'⟩ := h.numbered e (mem_of_mem_filter he)
    rw [map_singleton, mem_singleton] at hnew
    have hsame : alarmId t n = alarmId now (b.seq + 1) := by
      rw [← hid', heq, hnew]
      exact hid
    have := alarmId_injective hsame
    omega

lemma Consistent.move {b b' : AlarmBook} (h : Consistent b) (hmove : Move b b') :
    Consistent b' := by
  cases hmove with
  | pends since => exact ⟨h.keyed, h.edges, h.numbered, h.distinct⟩
  | ends k a now history hk => exact h.ends hk
  | starts a now history hk hid => exact h.starts hk hid
  | acks k a who hk =>
    refine ⟨fun j c hj => ?_, fun j => ?_, h.numbered, h.distinct⟩
    · by_cases hne : j = k
      · rw [hne, AList.lookup_insert] at hj
        rw [hne, ← Option.some.inj hj]
        exact h.keyed k a hk
      · rw [AList.lookup_insert_ne hne] at hj
        exact h.keyed j c hj
    · by_cases hne : j = k
      · have hedges := h.edges k
        rw [hk] at hedges
        rw [hne, AList.lookup_insert]
        exact hedges
      · rw [AList.lookup_insert_ne hne]
        exact h.edges j

lemma Consistent.moves {b b' : AlarmBook} (h : Consistent b) (hmoves : Moves b b') :
    Consistent b' := by
  induction hmoves with
  | refl => exact h
  | tail _ hmove ih => exact ih.move hmove

/-! ## Hold times -/

/-- What a call observes: a key, a time, and whether the condition holds. -/
def AlarmCall.observed : AlarmCall → Option (Str × Int × Bool)
  | .observe now ch typ out cond _ _ _ => some (akey ch typ out, now, cond)
  | _ => none

/-- The condition of a key was seen at a time, and not seen false in a later call. -/
def SeenSince (k : Str) (first : Int) (calls : List AlarmCall) : Prop :=
  ∃ before c after, calls = before ++ c :: after ∧ c.observed = some (k, first, true) ∧
    ∀ d ∈ after, ∀ now cond, d.observed = some (k, now, cond) → cond = true

/-- A raise comes from an observation of its condition, which was first seen the hold
time ago or earlier. -/
def RaisedAfterHold (before : List AlarmCall) (c : AlarmCall) (e : Event) : Prop :=
  ∃ now hold msg value first,
    c = .observe now e.channel e.type e.output true hold msg value ∧ first ≤ now - hold ∧
      SeenSince e.key first (before ++ [c])

variable {k : Str} {first : Int} {calls : List AlarmCall} {c : AlarmCall}

lemma SeenSince.concat (h : SeenSince k first calls)
    (hc : ∀ now cond, c.observed = some (k, now, cond) → cond = true) :
    SeenSince k first (calls ++ [c]) := by
  obtain ⟨before, first', after, rfl, hobserved, hafter⟩ := h
  exact ⟨before, first', after ++ [c], by simp, hobserved,
    forall_mem_append.mpr ⟨hafter, forall_mem_singleton.mpr hc⟩⟩

lemma seenSince_last (hc : c.observed = some (k, first, true)) :
    SeenSince k first (calls ++ [c]) := ⟨calls, c, [], rfl, hc, by simp⟩

namespace AlarmBook

/-- Whatever is pending was seen. -/
def Pending (calls : List AlarmCall) (b : AlarmBook) : Prop :=
  ∀ k first, b.since k = some first → SeenSince k first calls

lemma observe_since_eq_ite (now : Int) (ch typ out : Str) (cond : Bool) (hold : Int) (msg : Str)
    (value : Rat) (b : AlarmBook) : (b.observe now ch typ out cond hold msg value).since =
      if cond = true ∧ (b.active.lookup (akey ch typ out)).isSome = true then b.since
      else update b.since (akey ch typ out)
        (if cond then some ((b.since (akey ch typ out)).getD now) else none) := by
  unfold observe
  cases cond with
  | false => simp [clear_since]
  | true =>
    by_cases hactive : (b.active.lookup (akey ch typ out)).isSome = true
    · simp [hactive]
    · simp only [hactive, reduceCtorEq, if_false, and_false, if_true]
      split <;> rfl

/-- What an observation leaves pending. -/
lemma observe_since {now : Int} {ch typ out : Str} {cond : Bool} {hold : Int} {msg : Str}
    {value : Rat} {b : AlarmBook} {j : Str}
    (h : (b.observe now ch typ out cond hold msg value).since j = some first) :
    (j ≠ akey ch typ out ∧ b.since j = some first) ∨
      (j = akey ch typ out ∧ cond = true ∧ (b.since j = some first ∨ first = now)) := by
  rw [observe_since_eq_ite] at h
  by_cases hj : j = akey ch typ out
  · subst hj
    cases cond with
    | false => simp at h
    | true =>
      refine .inr ⟨rfl, rfl, ?_⟩
      split at h
      · exact .inl h
      cases hsince : b.since (akey ch typ out) with
      | none => exact .inr (by simpa [hsince, eq_comm] using h)
      | some t => exact .inl (by simpa [hsince] using h)
  · refine .inl ⟨hj, ?_⟩
    split at h
    · exact h
    · rwa [update_of_ne hj] at h

lemma ack_since (id who : Str) (b : AlarmBook) : (b.ack id who).2.since = b.since := by
  unfold ack
  split <;> rfl

lemma Pending.run {b : AlarmBook} (h : Pending calls b) (c : AlarmCall) :
    Pending (calls ++ [c]) (c.run b) := by
  intro j first hj
  cases c with
  | observe now ch typ out cond hold msg value =>
    rcases observe_since hj with ⟨hother, hold⟩ | ⟨hsame, hcond, hold | hnow⟩
    · refine (h j first hold).concat fun t cond' hobserved => ?_
      exact absurd (congrArg Prod.fst (Option.some.inj hobserved)).symm hother
    · refine (h j first hold).concat fun t cond' hobserved => ?_
      rw [← hcond]
      exact (congrArg (fun o => o.2.2) (Option.some.inj hobserved)).symm
    · rw [hnow, hsame]
      refine seenSince_last ?_
      rw [AlarmCall.observed, hcond]
  | clearChannel now ch order =>
    exact (h j first ((b.clears_clearChannel now ch order).since hj)).concat (by simp [AlarmCall.observed])
  | ack id who =>
    have hold : b.since j = some first := by
      rw [← ack_since id who b]
      exact hj
    exact (h j first hold).concat (by simp [AlarmCall.observed])

lemma pending_runCalls (device : Str) (calls : List AlarmCall) :
    Pending calls (runCalls { device := device } calls) := by
  induction calls using reverseRecOn with
  | nil =>
    intro k first h
    cases h
  | append_singleton calls c ih =>
    rw [runCalls, foldl_append]
    exact ih.run c

end AlarmBook

/-! ## All calls -/

/-- An observation sends nothing, a clear, or a raise after the hold time. -/
lemma AlarmBook.observe_sent (now : Int) (ch typ out : Str) (cond : Bool) (hold : Int) (msg : Str)
    (value : Rat) (b : AlarmBook) :
    ∃ events, (b.observe now ch typ out cond hold msg value).sent = b.sent ++ events ∧
      ∀ e ∈ events, e.active = true → cond = true ∧ e.channel = ch ∧ e.type = typ ∧ e.output = out ∧
        (b.since (akey ch typ out)).getD now ≤ now - hold := by
  unfold observe
  dsimp only
  split
  · obtain ⟨events, hsent, hclear⟩ := b.clear_sent now (akey ch typ out)
    exact ⟨events, hsent, fun e he hactive => by simp [hclear e he] at hactive⟩
  rename_i hcond
  split
  · exact ⟨[], (append_nil _).symm, by simp⟩
  split
  · exact ⟨[], (append_nil _).symm, by simp⟩
  refine ⟨[_], rfl, fun e he _ => ?_⟩
  rw [mem_singleton.mp he]
  exact ⟨by simpa using hcond, rfl, rfl, rfl, by omega⟩

lemma AlarmCall.raisedAfterHold {b : AlarmBook} (hpending : b.Pending calls) {e : Event}
    (he : e ∈ c.events b) (hraise : e.active = true) : RaisedAfterHold calls c e := by
  cases c with
  | observe now ch typ out cond hold msg value =>
    obtain ⟨events, hsent, hevents⟩ := b.observe_sent now ch typ out cond hold msg value
    rw [AlarmCall.events, AlarmCall.run, hsent, drop_left] at he
    obtain ⟨rfl, rfl, rfl, rfl, hfirst⟩ := hevents e he hraise
    refine ⟨now, hold, msg, value, (b.since e.key).getD now, rfl, hfirst, ?_⟩
    cases hsince : b.since e.key with
    | none => exact seenSince_last rfl
    | some first =>
      refine (hpending e.key first hsince).concat fun t cond hobserved => ?_
      exact (congrArg (fun o => o.2.2) (Option.some.inj hobserved)).symm
  | clearChannel now ch order =>
    obtain ⟨events, hsent, hevents⟩ := (b.clears_clearChannel now ch order).sent
    rw [AlarmCall.events, AlarmCall.run, hsent, drop_left] at he
    rw [hevents e he] at hraise
    cases hraise
  | ack id who =>
    have hsent : (b.ack id who).2.sent = b.sent := by
      unfold AlarmBook.ack
      split <;> rfl
    rw [AlarmCall.events, AlarmCall.run, hsent, drop_length] at he
    cases he

/-- The alarm of a channel, type and output. -/
def AlarmBook.alarmOf (ch typ out : Str) (b : AlarmBook) : Option Alarm :=
  (b.active.lookup (akey ch typ out)).filter fun a =>
    a.channel == ch && a.type == typ && a.output == out

def Event.isOf (ch typ out : Str) (e : Event) : Bool :=
  e.channel == ch && e.type == typ && e.output == out

/-- After any calls the events of a channel, type and output alternate, every clear
with the id of the raise before it, and their alarm is active exactly after a raise
(`alarmOf` finds every active alarm); no two raises have the same id; and every
raise has waited for its hold time. -/
theorem alarm_events_alternate (device : Str) (calls : List AlarmCall) :
    (∀ ch typ out, Edges
      ((AlarmBook.runCalls { device := device } calls).sent.filter (Event.isOf ch typ out))
      (((AlarmBook.runCalls { device := device } calls).alarmOf ch typ out).map Alarm.tag)) ∧
    (∀ e ∈ (AlarmBook.runCalls { device := device } calls).active.entries,
      (AlarmBook.runCalls { device := device } calls).alarmOf e.2.channel e.2.type e.2.output =
        some e.2) ∧
    (((AlarmBook.runCalls { device := device } calls).sent.filter Event.active).map
      Event.id).Nodup ∧
    ∀ before c after, calls = before ++ c :: after →
      ∀ e ∈ c.events (AlarmBook.runCalls { device := device } before), e.active = true →
        RaisedAfterHold before c e := by
  have hconsistent := (consistent_empty device).moves
    (AlarmBook.runCalls_moves { device := device } calls)
  refine ⟨fun ch typ out => ?_, fun e he => ?_, hconsistent.distinct, ?_⟩
  · let mine : AlarmTag → Bool := fun t => t.channel == ch && t.type == typ && t.output == out
    have hedges := (hconsistent.edges (akey ch typ out)).filter mine
    have hfilter : ∀ events : List Event,
        (events.filter fun e => e.key == akey ch typ out).filter (fun e => mine e.tag) =
          events.filter (Event.isOf ch typ out) := by
      intro events
      rw [filter_filter]
      refine filter_congr fun e _ => ?_
      by_cases hof : e.isOf ch typ out = true
      · have hkey : e.key = akey ch typ out := by
          simp only [Event.isOf, Bool.and_eq_true, beq_iff_eq] at hof
          rw [Event.key, hof.1.1, hof.1.2, hof.2]
        rw [hof, hkey, beq_self_eq_true, Bool.and_true]
        exact hof
      · rw [Bool.eq_false_of_not_eq_true hof]
        exact Bool.and_eq_false_imp.mpr fun h => absurd h hof
    rw [hfilter, Option.filter_map] at hedges
    exact hedges
  · have hlookup := AList.mem_lookup_iff.mpr he
    have hkey : e.2.key = e.1 := hconsistent.keyed e.1 e.2 hlookup
    unfold AlarmBook.alarmOf
    rw [show akey e.2.channel e.2.type e.2.output = e.1 from hkey, hlookup]
    simp
  · intro before c after _ e he hraise
    exact AlarmCall.raisedAfterHold (AlarmBook.pending_runCalls device before) he hraise

end StreamHub.Channel
