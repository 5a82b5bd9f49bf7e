import StreamHub.Library.Ledger
import StreamHub.Library.Transition
import StreamHub.Notify.Queue

/-!
# No event is lost silently

The queue of the notifier is a ledger: each `Send` call is an offer, delivering
takes, dropping loses.  Every step of every party keeps the ledger balanced, so
in every state the calls are the delivered, the queued and the dropped ones.

`Sound` carries along what the parties know of each other.  It shows that a
`Close` whose drain did not time out finds the queue empty: the dispatcher leaves
a queue behind only when the context is cancelled, and `Close` cancels before the
dispatcher is done only after its timer.
-/

namespace StreamHub.Notify

open Library Library.Transition List

variable {τ : Type} {size : ℕ+} {s t : State τ}

/-- The ledger of the queue. -/
def State.ledger (s : State τ) : Ledger Event := ⟨s.calls, s.delivered, s.queue, s.lost⟩

/-- `Close` has cancelled the context. -/
def Closer.aborted : Closer → Bool
  | .awaiting | .cancelling true | .counting _ | .returned => true
  | _ => false

/-- `Close` has seen the end of a drain in time, or has cleared the queue. -/
def Closer.drained : Closer → Bool
  | .cancelling false | .counting false | .returned => true
  | _ => false

/-- What holds between the steps of a notifier with a queue of `size`. -/
structure Sound (size : ℕ+) (s : State τ) : Prop where
  size : s.queueSize = size
  balanced : s.ledger.Balanced
  dropped : s.dropped = s.lost.length
  bound : s.queue.length ≤ s.queueSize
  closed : s.closed = true ↔ s.closer ≠ .idle
  refusing : s.refusing ≠ [] → s.closed = true
  left : s.dispatcher.left = true → s.cancelled = true ∨ s.closed = true ∧ s.queue = []
  done : s.done = true → s.dispatcher.left = true
  aborted : s.cancelled = true → s.closer.aborted = true
  drained : s.closer.drained = true → s.queue = []

lemma sound_newNotifier (queueSize : ℤ) (host : Text.Str) (targets : τ) :
    Sound (clampSize queueSize) (newNotifier queueSize host targets) where
  size := rfl
  balanced := Ledger.balanced_empty
  dropped := rfl
  bound := Nat.zero_le _
  closed := by simp [newNotifier]
  refusing := fun h => absurd rfl h
  left := by simp [newNotifier, Dispatcher.left]
  done := by simp [newNotifier]
  aborted := by simp [newNotifier]
  drained := fun _ => rfl

/-! ## Send -/

lemma Sound.not_drained (h : Sound size s) (hclosed : s.closed = false) :
    s.closer.drained = false := by
  have hidle : s.closer = .idle := by
    by_contra hne
    rw [h.closed.mpr hne] at hclosed
    cases hclosed
  rw [hidle]
  rfl

lemma Sound.evict (h : Sound size s) : Sound size s.evict := by
  unfold State.evict
  split
  · rename_i hfull
    have hpos : 0 < s.queue.length := s.queueSize.pos.trans_le hfull
    exact
      { h with
        balanced := h.balanced.lose 1
        dropped := by
          change s.dropped + 1 = (s.lost ++ s.queue.take 1).length
          rw [length_append, length_take, h.dropped]
          omega
        bound := by
          have hbound := h.bound
          change (s.queue.drop 1).length ≤ s.queueSize
          rw [length_drop]
          omega
        left := fun hleft => (h.left hleft).imp_right fun hend =>
          ⟨hend.1, by
            rw [hend.2, drop_nil]⟩
        drained := fun hdrained => by
          rw [h.drained hdrained, drop_nil] }
  · exact h

/-- After `evict` there is room. -/
lemma Sound.length_evict_lt (h : Sound size s) : s.evict.queue.length < s.evict.queueSize := by
  have hpos := s.queueSize.pos
  have hbound := h.bound
  unfold State.evict
  split
  · change (s.queue.drop 1).length < s.queueSize
    rw [length_drop]
    omega
  · rename_i hroom
    exact Nat.lt_of_not_le hroom

@[simp]
lemma closed_evict (s : State τ) : s.evict.closed = s.closed := by
  unfold State.evict
  split <;> rfl

section

variable (h : Sound size s)

include h

lemma Sound.push (e : Event) (hclosed : s.closed = false)
    (hroom : s.queue.length < s.queueSize) : Sound size (s.push e) :=
  { h with
    balanced := h.balanced.push e
    bound := by
      change (s.queue ++ [(e, s.calls.length)]).length ≤ s.queueSize
      rw [length_append, length_singleton]
      omega
    left := fun hleft => (h.left hleft).imp_right fun hend => by
      rw [hclosed] at hend
      cases hend.1
    drained := fun hdrained => by
      -- nobody has called `Close` on an open notifier
      have hnot := h.not_drained hclosed
      change s.closer.drained = true at hdrained
      rw [hdrained] at hnot
      cases hnot }

lemma Sound.send (e : Event) : Sound size (s.send e) := by
  unfold State.send
  split
  · rename_i hclosed
    exact { h with refusing := fun _ => hclosed }
  rename_i hclosed
  have hopen : s.evict.closed = false := by
    rw [closed_evict]
    exact Bool.eq_false_iff.mpr hclosed
  exact h.evict.push e hopen h.length_evict_lt

lemma Sound.refuse {i : ℕ} (ht : s.refuse i = some t) : Sound size t := by
  unfold State.refuse at ht
  split at ht
  · cases ht
  rename_i e he
  cases ht
  have hclosed : s.closed = true := h.refusing (by rintro hnil; simp [hnil] at he)
  exact
    { h with
      balanced := h.balanced.refuse e
      dropped := by
        rw [length_append, h.dropped]
        rfl
      refusing := fun _ => hclosed }

/-! ## The dispatcher -/

lemma Sound.done_eq_false (hleft : s.dispatcher.left = false) : s.done = false := by
  cases hdone : s.done with
  | false => rfl
  | true =>
    rw [h.done hdone] at hleft
    cases hleft

lemma Sound.look (htop : s.dispatcher = .top) : Sound size s.look := by
  have hdone := h.done_eq_false (by rw [htop]; rfl)
  unfold State.look
  split
  · rename_i hempty
    split
    · rename_i hclosed
      exact { h with left := fun _ => .inr ⟨hclosed, hempty⟩, done := fun _ => rfl }
    · exact { h with left := by simp [Dispatcher.left], done := by simp [hdone] }
  · rename_i e rest hqueue
    split
    · rename_i hcancelled
      exact { h with left := fun _ => .inl hcancelled, done := fun _ => rfl }
    have hbalanced : s.ledger.take.Balanced := h.balanced.take
    have hbound := h.bound
    rw [hqueue] at hbound
    exact
      { h with
        balanced := by simpa [State.ledger, Ledger.take, hqueue] using hbalanced
        bound := (Nat.le_succ _).trans hbound
        left := by simp [Dispatcher.left]
        done := by simp [hdone]
        drained := fun hdrained => by
          rw [h.drained hdrained] at hqueue
          cases hqueue }

lemma Sound.dispatch (ht : s.dispatch = some t) : Sound size t := by
  unfold State.dispatch at ht
  split at ht
  · rename_i htop
    cases ht
    exact h.look htop
  · rename_i hwaiting
    have hdone := h.done_eq_false (by rw [hwaiting]; rfl)
    split at ht
    · cases ht
      exact { h with left := by simp [Dispatcher.left], done := by simp [hdone] }
    · cases ht
  · rename_i hdelivering
    have hdone := h.done_eq_false (by rw [hdelivering]; rfl)
    cases ht
    exact { h with left := by simp [Dispatcher.left], done := by simp [hdone] }
  · rename_i hleaving
    cases ht
    exact { h with left := fun _ => h.left (by rw [hleaving]; rfl), done := fun _ => rfl }
  · cases ht

lemma Sound.dispatchCancelled (ht : s.dispatchCancelled = some t) : Sound size t := by
  unfold State.dispatchCancelled at ht
  split at ht
  · split at ht
    · rename_i hcancelled
      cases ht
      exact { h with left := fun _ => .inl hcancelled, done := fun _ => rfl }
    · cases ht
  · cases ht

/-! ## Close -/

/-- The context is not cancelled before `Close` cancels it. -/
lemma Sound.cancelled_eq_false (haborted : s.closer.aborted = false) : s.cancelled = false := by
  cases hcancelled : s.cancelled with
  | false => rfl
  | true =>
    rw [h.aborted hcancelled] at haborted
    cases haborted

/-- A dispatcher that is done before `Close` cancels has emptied the queue. -/
lemma Sound.queue_eq_nil (haborted : s.closer.aborted = false)
    (hdone : s.done = true) : s.queue = [] := by
  obtain hcancelled | hend := h.left (h.done hdone)
  · rw [h.cancelled_eq_false haborted] at hcancelled
    cases hcancelled
  · exact hend.2

/-- `Close` moves on: the queue stays, the context may be cancelled. -/
lemma Sound.advance {cancelled wake : Bool} {closer : Closer} (hclosed : s.closed = true)
    (hidle : closer ≠ .idle) (hkept : s.cancelled = true → cancelled = true)
    (haborted : cancelled = true → closer.aborted = true)
    (hdrained : closer.drained = true → s.queue = []) :
    Sound size { s with cancelled := cancelled, wake := wake, closer := closer } :=
  { h with
    closed := ⟨fun _ => hidle, fun _ => hclosed⟩
    left := fun hleft => (h.left hleft).imp_left hkept
    aborted := haborted
    drained := hdrained }

lemma Sound.close (ht : s.close = some t) : Sound size t := by
  have hclosed : s.closer ≠ .idle → s.closed = true := h.closed.mpr
  unfold State.close at ht
  split at ht
  · rename_i hidle
    cases ht
    have hcancelled := h.cancelled_eq_false (by rw [hidle]; rfl)
    exact
      { h with
        closed := by simp
        refusing := fun _ => rfl
        left := fun hleft => (h.left hleft).imp_right fun hend => ⟨rfl, hend.2⟩
        aborted := by simp [hcancelled]
        drained := by simp [Closer.drained] }
  · rename_i hsignalling
    cases ht
    have hcancelled := h.cancelled_eq_false (by rw [hsignalling]; rfl)
    exact h.advance (hclosed (by simp [hsignalling])) (by simp) id (by simp [hcancelled])
      (by simp [Closer.drained])
  · rename_i hdraining
    split at ht
    · -- the drain ended in time: the dispatcher was not cancelled, so it left no queue
      rename_i hdone
      cases ht
      have hearly : s.closer.aborted = false := by rw [hdraining]; rfl
      have hcancelled := h.cancelled_eq_false hearly
      exact h.advance (hclosed (by simp [hdraining])) (by simp) id (by simp [hcancelled])
        fun _ => h.queue_eq_nil hearly hdone
    · cases ht
  · rename_i haborting
    cases ht
    exact h.advance (hclosed (by simp [haborting])) (by simp) (fun _ => rfl) (fun _ => rfl)
      (by simp [Closer.drained])
  · rename_i hawaiting
    split at ht
    · cases ht
      exact h.advance (hclosed (by simp [hawaiting])) (by simp) id (fun _ => rfl)
        (by simp [Closer.drained])
    · cases ht
  · rename_i timedOut hcancelling
    cases ht
    refine h.advance (hclosed (by simp [hcancelling])) (by simp) (fun _ => rfl) (fun _ => rfl) ?_
    -- cancelling does not touch the queue, and after a timeout nothing is said about it
    intro hdrained
    apply h.drained
    rw [hcancelling]
    cases timedOut with
    | false => rfl
    | true => cases hdrained
  · rename_i timedOut hcounting
    cases ht
    have hbalanced : (s.ledger.lose s.queue.length).Balanced := h.balanced.lose _
    exact
      { h with
        balanced := by simpa [State.ledger, Ledger.lose] using hbalanced
        dropped := by
          rw [length_append, h.dropped]
        bound := Nat.zero_le _
        closed := ⟨fun _ => by simp, fun _ => hclosed (by simp [hcounting])⟩
        left := fun hleft => (h.left hleft).imp_right fun hend => ⟨hend.1, rfl⟩
        aborted := fun _ => rfl
        drained := fun _ => rfl }
  · cases ht

lemma Sound.timeout (ht : s.timeout = some t) : Sound size t := by
  unfold State.timeout at ht
  split at ht
  · rename_i hdraining
    cases ht
    have hcancelled := h.cancelled_eq_false (by rw [hdraining]; rfl)
    exact h.advance (h.closed.mpr (by simp [hdraining])) (by simp) id (by simp [hcancelled])
      (by simp [Closer.drained])
  · cases ht

/-! ## Runs -/

/-- Every step of every party keeps `Sound`. -/
lemma Sound.step {l : Label τ} (ht : Notify.step s l = some t) : Sound size t := by
  cases l with
  | send e newID now =>
    cases ht
    exact h.send _
  | signal =>
    simp only [Notify.step] at ht
    split at ht
    · cases ht
    cases ht
    exact { h with }
  | refuse i => exact h.refuse ht
  | update targets | setDevice id =>
    cases ht
    exact { h with }
  | dispatch => exact h.dispatch ht
  | dispatchCancelled => exact h.dispatchCancelled ht
  | close => exact h.close ht
  | timeout => exact h.timeout ht

end

/-- Any step of any party. -/
def anything (_ : State τ) (_ : Label τ) : Bool := true

lemma sound_of_reached {queueSize : ℤ} {host : Text.Str} {targets : τ}
    (h : Reached step anything (newNotifier queueSize host targets) s) :
    Sound (clampSize queueSize) s :=
  h.invariant (sound_newNotifier queueSize host targets) fun _ _ _ hs _ ht => hs.step ht

/-! ## What is dropped -/

/-- The steps that may drop an event, and which: the oldest of a full queue, an
event sent after `Close`, what is queued at the end of a timed-out `Close`. -/
def DropAllowed (s : State τ) (l : Label τ) (d : Event × ℕ) : Prop :=
  match l with
  | .send _ _ _ => s.closed = false ∧ s.queue.length = s.queueSize ∧ s.queue.head? = some d
  | .refuse i => s.closed = true ∧ s.refusing[i]? = some d.1
  | .close => s.closer = .counting true ∧ d ∈ s.queue
  | _ => False

variable {d : Event × ℕ}

lemma Sound.lost_send (h : Sound size s) {e : Event} (hd : d ∈ (s.send e).lost)
    (hnew : d ∉ s.lost) :
    s.closed = false ∧ s.queue.length = s.queueSize ∧ s.queue.head? = some d := by
  unfold State.send at hd
  split at hd
  · exact absurd hd hnew
  rename_i hclosed
  unfold State.evict at hd
  split at hd
  · rename_i hfull
    refine ⟨Bool.eq_false_iff.mpr hclosed, h.bound.antisymm hfull, ?_⟩
    have hfirst : d ∈ s.queue.take 1 := (mem_append.mp hd).resolve_left hnew
    rw [take_one, Option.mem_toList] at hfirst
    exact hfirst
  · exact absurd hd hnew

lemma Sound.lost_refuse (h : Sound size s) {i : ℕ} (ht : s.refuse i = some t) (hd : d ∈ t.lost)
    (hnew : d ∉ s.lost) : s.closed = true ∧ s.refusing[i]? = some d.1 := by
  unfold State.refuse at ht
  split at ht
  · cases ht
  rename_i e he
  cases ht
  have hlast : d ∈ [(e, s.calls.length)] := (mem_append.mp hd).resolve_left hnew
  rw [mem_singleton] at hlast
  rw [hlast]
  exact ⟨h.refusing (by rintro hnil; simp [hnil] at he), he⟩

lemma lost_dispatch (ht : s.dispatch = some t) : t.lost = s.lost := by
  unfold State.dispatch at ht
  split at ht
  · cases ht
    unfold State.look
    split
    · split <;> rfl
    · split <;> rfl
  · split at ht
    · cases ht
      rfl
    · cases ht
  · cases ht
    rfl
  · cases ht
    rfl
  · cases ht

lemma Sound.lost_close (h : Sound size s) (ht : s.close = some t) (hd : d ∈ t.lost)
    (hnew : d ∉ s.lost) : s.closer = .counting true ∧ d ∈ s.queue := by
  unfold State.close at ht
  split at ht
  · cases ht
    exact absurd hd hnew
  · cases ht
    exact absurd hd hnew
  · split at ht
    · cases ht
      exact absurd hd hnew
    · cases ht
  · cases ht
    exact absurd hd hnew
  · split at ht
    · cases ht
      exact absurd hd hnew
    · cases ht
  · cases ht
    exact absurd hd hnew
  · rename_i timedOut hcounting
    cases ht
    have hqueued : d ∈ s.queue := (mem_append.mp hd).resolve_left hnew
    cases timedOut with
    | true => exact ⟨hcounting, hqueued⟩
    | false =>
      -- a drain that ended in time has left nothing
      rw [h.drained (by rw [hcounting]; rfl)] at hqueued
      cases hqueued
  · cases ht

lemma Sound.dropAllowed {l : Label τ} (h : Sound size s) (ht : Notify.step s l = some t)
    (hd : d ∈ t.lost) (hnew : d ∉ s.lost) : DropAllowed s l d := by
  cases l with
  | send e newID now =>
    cases ht
    exact h.lost_send hd hnew
  | signal =>
    simp only [Notify.step] at ht
    split at ht
    · cases ht
    cases ht
    exact absurd hd hnew
  | refuse i => exact h.lost_refuse ht hd hnew
  | update targets | setDevice id =>
    cases ht
    exact absurd hd hnew
  | dispatch =>
    rw [lost_dispatch ht] at hd
    exact absurd hd hnew
  | dispatchCancelled =>
    simp only [Notify.step, State.dispatchCancelled] at ht
    split at ht
    · split at ht
      · cases ht
        exact absurd hd hnew
      · cases ht
    · cases ht
  | close => exact h.lost_close ht hd hnew
  | timeout =>
    simp only [Notify.step, State.timeout] at ht
    split at ht
    · cases ht
      exact absurd hd hnew
    · cases ht

/-- In every run the notifier accounts for every `Send` call: the calls are the
delivered, the queued and the dropped events, each call one of them; no call is
delivered twice, the deliveries are in the order of the calls, the queue keeps its
size, and only the three permitted steps drop an event. -/
theorem notifier_accounts_for_events (queueSize : ℤ) (host : Text.Str) (targets : τ)
    (h : Reached step anything (newNotifier queueSize host targets) s) :
    s.calls.length = s.delivered.length + s.queue.length + s.dropped ∧
      s.dropped = s.lost.length ∧
      (s.delivered ++ s.queue ++ s.lost).Perm s.calls.zipIdx ∧
      (s.closer = .returned → s.queue = []) ∧
      (s.delivered.map Prod.snd).Nodup ∧
      s.delivered.Sublist s.calls.zipIdx ∧
      s.queue.length ≤ clampSize queueSize ∧
      ∀ l t, step s l = some t → ∀ d ∈ t.lost, d ∉ s.lost → DropAllowed s l d := by
  have hsound := sound_of_reached h
  refine ⟨?_, hsound.dropped, hsound.balanced.each, ?_, hsound.balanced.taken_nodup,
    hsound.balanced.taken_sublist, ?_, ?_⟩
  · rw [hsound.dropped]
    exact hsound.balanced.length
  · intro hreturned
    exact hsound.drained (by rw [hreturned]; rfl)
  · rw [← hsound.size]
    exact hsound.bound
  · intro l t ht d hd hnew
    exact hsound.dropAllowed ht hd hnew

/-- The loss of the input of the channel news. -/
def inputLost : Event where
  id := Text.str "al-1-1"
  type := Channel.alarmInputLoss
  severity := Channel.severity Channel.alarmInputLoss
  active := true
  channel := Text.str "news"
  output := []
  message := Text.str "input lost (black + silence: fallback/slate on air)"
  value := 0
  device := []
  time := none

/-- Two events for a queue of one, one of them delivered, and a third after `Close`. -/
def closedRun : List (Label Unit) :=
  [.send inputLost [] 1, .send inputLost [] 2, .dispatch, .dispatch, .close,
    .send inputLost [] 3, .refuse 0, .close, .dispatch, .dispatch, .close, .close, .close]

theorem notifier_accounts_for_events_closed :
    ∃ s : State Unit, Reached step anything (newNotifier 0 [] ()) s ∧
      s.closer = .returned ∧ s.queue = [] ∧ s.dropped = 2 ∧
      s.calls.length = s.delivered.length + 0 + 2 := by
  obtain ⟨s, hreached, hs⟩ := exists_reached step anything (newNotifier 0 [] ()) closedRun
    (fun s => decide (s.closer = .returned ∧ s.dropped = 2)) (by decide +kernel)
  obtain ⟨hreturned, hdropped⟩ := of_decide_eq_true hs
  obtain ⟨hcount, -, -, hempty, -⟩ := notifier_accounts_for_events 0 [] () hreached
  have hqueue := hempty hreturned
  rw [hqueue, hdropped] at hcount
  exact ⟨s, hreached, hreturned, hqueue, hdropped, hcount⟩

end StreamHub.Notify
