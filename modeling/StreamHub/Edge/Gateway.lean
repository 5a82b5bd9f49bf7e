import StreamHub.Library.Text
import StreamHub.Library.Rows
import StreamHub.Library.Transition

/-!
# Connections and requests of the edge gateway

One connection per node: a newer one replaces the older.  Requests to a node wait for a reply
with their id on a channel with room for one value; the channel is an entry of the connection
until a reply takes it out, the request withdraws it or the connection is cleared.

The steps are the critical sections of the gateway's goroutines, what they do with channels
outside of a lock, and the events that start them, in any order.  Connections and requests are
numbered in the order of their creation; the number of a request stands for the uuid of its
frame.  Closing a closed channel and sending on one are panics of the whole server.

Nothing of that happens (`safe_of_reached`): the registered connection of a node is the last
accepted one until that one is closed, a reply is sent at once, and a request returns a value
only if it came from its node.
-/

namespace StreamHub.Edge.Gateway

open Library Text Transition List Function

/-- What a reply frame carries -/
inductive Reply
  | command (ok : Bool) (output : Option Str)
  | logTail (lines : List Str)
  deriving DecidableEq

/-- `Command` or `LogTail` -/
inductive Kind
  | command
  | logTail
  deriving DecidableEq

/-- The type assertion behind a request -/
def Kind.accepts : Kind → Reply → Bool
  | .command, .command _ _ => true
  | .logTail, .logTail _ => true
  | _, _ => false

/-- A channel with room for one value -/
structure Chan where
  buffer : Option Reply
  closed : Bool
  deriving DecidableEq

def Chan.empty : Chan := ⟨none, false⟩

/-- What has become of the entry of a request in `pending` -/
inductive Entry
  | absent
  | present
  /-- `resolve` took it out and is about to send the value. -/
  | taken (v : Reply)
  deriving DecidableEq

/-- Where a request is -/
inductive Phase
  /-- it has the connection -/
  | got
  /-- its entry is in `pending` -/
  | entered
  /-- its frame was sent -/
  | waiting
  /-- its channel was closed, it waits for the timer -/
  | dropped
  /-- it is about to delete its entry -/
  | withdrawing
  | returned (v : Reply)
  | failed
  /-- a reply of the other kind -/
  | crashed
  deriving DecidableEq

structure Request where
  node : Str
  kind : Kind
  conn : ℕ
  phase : Phase
  entry : Entry
  chan : Chan
  deriving DecidableEq

/-- `conn`; `stopped` says that the channel `stop` is closed, `reading` and `pinging` that the
loops run. -/
structure Conn where
  node : Str
  reading : Bool
  pinging : Bool
  missedPongs : ℕ
  closed : Bool
  stopped : Bool
  deriving DecidableEq

/-- A goroutine between two critical sections -/
inductive Task
  /-- `onClose` begins. -/
  | closing (c : ℕ)
  /-- `clear` comes next. -/
  | clearing (c : ℕ)
  deriving DecidableEq

/-- `registered` is the map of the gateway.  The last accepted connection of each node, the
connections that were closed and the reply frames that arrived are kept for the statements. -/
structure State where
  registered : Str → Option ℕ
  conns : List Conn
  tasks : List Task
  requests : List Request
  panicked : Bool
  accepted : Str → Option ℕ
  ended : ℕ → Bool
  arrived : List (ℕ × Str × Reply)

def State.init : State := ⟨fun _ => none, [], [], [], false, fun _ => none, fun _ => false, []⟩

def maxMissedPongs : ℕ := 3

inductive Label
  | accept (node : Str)
  /-- a read of `readLoop` fails -/
  | readFailed (c : ℕ)
  | pingTick (c : ℕ)
  | disconnect (node : Str)
  | shutdown
  /-- the critical section of `onClose` -/
  | drop (k : ℕ)
  | clear (k : ℕ)
  /-- `OnPongReceived` of the socket -/
  | resetPongs (node : Str)
  | pong (c : ℕ)
  /-- the critical section of `resolve` for a reply frame -/
  | frame (c id : ℕ) (v : Reply)
  /-- the send of `resolve` -/
  | reply (id : ℕ)
  | request (node : Str) (kind : Kind)
  | enter (id : ℕ)
  | push (id : ℕ) (sent : Bool)
  | receive (id : ℕ)
  | timeout (id : ℕ)
  | withdraw (id : ℕ)

namespace State

variable (s : State)

def withConn (c : ℕ) (f : Conn → Conn) : State := { s with conns := s.conns.modify c f }

def withRequest (id : ℕ) (f : Request → Request) : State :=
  { s with requests := s.requests.modify id f }

def begin (tasks : List Task) : State := { s with tasks := s.tasks ++ tasks }

def done (k : ℕ) : State := { s with tasks := s.tasks.eraseIdx k }

end State

/-- An entry of the connection -/
def Request.pendingOn (c : ℕ) (r : Request) : Bool := r.conn = c && r.entry = .present

/-- The channel of an abandoned request is closed and its entry deleted. -/
def Request.abandon (c : ℕ) (r : Request) : Request :=
  if r.pendingOn c then { r with entry := .absent, chan := { r.chan with closed := true } } else r

/-- `clear` -/
def clear (s : State) (c : ℕ) : State :=
  match s.conns[c]? with
  | none => s
  | some conn =>
    { s.withConn c fun x => { x with closed := true, stopped := true } with
      requests := s.requests.map (Request.abandon c)
      -- closing a closed channel
      panicked := s.panicked || (!conn.closed && conn.stopped) ||
        s.requests.any fun r => r.pendingOn c && r.chan.closed }

/-- The critical section of `onClose` -/
def drop (s : State) (c : ℕ) : State :=
  match s.conns[c]? with
  | none => s
  | some conn =>
    { s with
      registered :=
        if s.registered conn.node = some c then update s.registered conn.node none
        else s.registered
      ended := update s.ended c true }

def step (s : State) : Label → Option State
  | .accept node =>
    let c := s.conns.length
    let tasks := (s.registered node).toList.map Task.clearing
    some { s.begin tasks with
      conns := s.conns ++ [⟨node, true, true, 0, false, false⟩]
      registered := update s.registered node (some c)
      accepted := update s.accepted node (some c) }
  | .readFailed c =>
    match s.conns[c]? with
    | some conn =>
      if conn.reading then
        some ((s.withConn c fun x => { x with reading := false }).begin [.closing c])
      else none
    | none => none
  | .pingTick c =>
    match s.conns[c]? with
    | some conn =>
      if conn.pinging then
        if conn.closed then some (s.withConn c fun x => { x with pinging := false })
        else if maxMissedPongs ≤ conn.missedPongs then
          some ((s.withConn c fun x => { x with pinging := false }).begin [.closing c])
        else some (s.withConn c fun x => { x with missedPongs := x.missedPongs + 1 })
      else none
    | none => none
  | .disconnect node =>
    match s.registered node with
    | some c => some (s.begin [.closing c])
    | none => none
  | .shutdown =>
    let live := (range s.conns.length).filter fun c =>
      (s.conns[c]?).any fun conn => s.registered conn.node = some c
    some { s.begin (live.map Task.clearing) with
      registered := fun _ => none
      ended := fun c => s.ended c || live.contains c }
  | .drop k =>
    match s.tasks[k]? with
    | some (.closing c) => some ((drop (s.done k) c).begin [.clearing c])
    | _ => none
  | .clear k =>
    match s.tasks[k]? with
    | some (.clearing c) => some (clear (s.done k) c)
    | _ => none
  | .resetPongs node =>
    match s.registered node with
    | some c => some (s.withConn c fun x => { x with missedPongs := 0 })
    | none => some s
  | .pong c => some (s.withConn c fun x => { x with missedPongs := 0 })
  | .frame c id v =>
    match s.conns[c]? with
    | some conn =>
      if conn.reading then
        let s := { s with arrived := (id, conn.node, v) :: s.arrived }
        match s.requests[id]? with
        | some r =>
          if r.pendingOn c then some (s.withRequest id fun r => { r with entry := .taken v })
          else some s
        | none => some s
      else none
    | none => none
  | .reply id =>
    match s.requests[id]? with
    | some r =>
      match r.entry with
      | .taken v =>
        if r.chan.closed then some { s with panicked := true }
        else if r.chan.buffer.isSome then none
        else
          some (s.withRequest id fun r =>
            { r with entry := .absent, chan := { r.chan with buffer := some v } })
      | _ => none
    | none => none
  | .request node kind =>
    match s.registered node with
    | some c => some { s with requests := s.requests ++ [⟨node, kind, c, .got, .absent, .empty⟩] }
    | none => some s
  | .enter id =>
    match s.requests[id]? with
    | some r =>
      if r.phase = .got then
        match s.conns[r.conn]? with
        | some conn =>
          if conn.closed then some (s.withRequest id fun r => { r with phase := .failed })
          else
            some (s.withRequest id fun r => { r with phase := .entered, entry := .present })
        | none => none
      else none
    | none => none
  | .push id sent =>
    match s.requests[id]? with
    | some r =>
      if r.phase = .entered then
        some (s.withRequest id fun r =>
          { r with phase := if sent then .waiting else .withdrawing })
      else none
    | none => none
  | .receive id =>
    match s.requests[id]? with
    | some r =>
      if r.phase = .waiting then
        match r.chan.buffer with
        | some v =>
          some (s.withRequest id fun r =>
            { r with
              phase := if r.kind.accepts v then .returned v else .crashed
              chan := { r.chan with buffer := none } })
        | none =>
          if r.chan.closed then some (s.withRequest id fun r => { r with phase := .dropped })
          else none
      else none
    | none => none
  | .timeout id =>
    match s.requests[id]? with
    | some r =>
      if r.phase = .waiting then some (s.withRequest id fun r => { r with phase := .withdrawing })
      else if r.phase = .dropped then some (s.withRequest id fun r => { r with phase := .failed })
      else none
    | none => none
  | .withdraw id =>
    match s.requests[id]? with
    | some r =>
      if r.phase = .withdrawing then
        some (s.withRequest id fun r =>
          { r with
            phase := .failed
            entry := if r.entry = .present then .absent else r.entry })
      else none
    | none => none

/-! ## What holds in every state -/

namespace State

variable (s : State)

def nodeOf (c : ℕ) : Option Str := (s.conns[c]?).map Conn.node

def closed (c : ℕ) : Bool := (s.conns[c]?).any Conn.closed

end State

/-- A request whose entry is in `pending`, or was taken by a reply, has an open and empty
channel; what is in the channel or was returned came from the node. -/
structure Request.Ok (s : State) (id : ℕ) (r : Request) : Prop where
  conn : s.nodeOf r.conn = some r.node
  present : r.entry = .present → r.chan = .empty ∧ s.closed r.conn = false
  taken : ∀ v, r.entry = .taken v → r.chan = .empty ∧ (id, r.node, v) ∈ s.arrived
  buffered : ∀ v, r.chan.buffer = some v → (id, r.node, v) ∈ s.arrived
  returned : ∀ v, r.phase = .returned v → (id, r.node, v) ∈ s.arrived
  fresh : r.phase = .got → r.entry = .absent ∧ r.chan = .empty

structure Sound (s : State) : Prop where
  requests : ∀ (id : ℕ) (r : Request), s.requests[id]? = some r → r.Ok s id
  stopped : ∀ c ∈ s.conns, c.stopped = c.closed
  registered : ∀ node c, s.registered node = some c →
    s.accepted node = some c ∧ s.nodeOf c = some node
  last : ∀ node c, s.accepted node = some c → s.registered node = some c ∨ s.ended c = true
  panicked : s.panicked = false

lemma sound_init : Sound State.init := by constructor <;> simp [State.init]

/-- No connection is closed and no arrival forgotten. -/
structure Keeps (s t : State) : Prop where
  nodes : ∀ c node, s.nodeOf c = some node → t.nodeOf c = some node
  closed : ∀ c, t.closed c = s.closed c
  arrived : s.arrived ⊆ t.arrived

lemma Request.Ok.keeps {s t : State} {id : ℕ} {r : Request} (h : r.Ok s id) (hk : Keeps s t) :
    r.Ok t id where
  conn := hk.nodes _ _ h.conn
  present hp := ⟨(h.present hp).1, (hk.closed _).trans (h.present hp).2⟩
  taken v hv := ⟨(h.taken v hv).1, hk.arrived (h.taken v hv).2⟩
  buffered v hv := hk.arrived (h.buffered v hv)
  returned v hv := hk.arrived (h.returned v hv)
  fresh := h.fresh

/-- It only reads the connections and the arrivals. -/
lemma Request.Ok.same {s t : State} {id : ℕ} {r : Request} (h : r.Ok s id)
    (hconns : t.conns = s.conns) (harrived : t.arrived = s.arrived) : r.Ok t id := by
  refine h.keeps ⟨fun c node hn => ?_, fun c => ?_, fun x hx => ?_⟩
  · rwa [State.nodeOf, hconns]
  · rw [State.closed, State.closed, hconns]
  · rwa [harrived]

namespace Sound

variable {s : State}

lemma tasks (h : Sound s) (tasks : List Task) : Sound { s with tasks := tasks } where
  requests id r hr := (h.requests id r hr).same rfl rfl
  stopped := h.stopped
  registered := h.registered
  last := h.last
  panicked := h.panicked

lemma begin (h : Sound s) (tasks : List Task) : Sound (s.begin tasks) := h.tasks _

lemma done (h : Sound s) (k : ℕ) : Sound (s.done k) := h.tasks _

lemma withRequest (h : Sound s) {id : ℕ} {r : Request} (hr : s.requests[id]? = some r)
    {f : Request → Request} (hf : r.Ok s id → (f r).Ok s id) : Sound (s.withRequest id f) where
  requests k r' hr' := by
    obtain ⟨b, hb, rfl⟩ := Rows.getElem?_modify_eq_some hr'
    have hold := h.requests k b hb
    split
    · rename_i heq
      subst heq
      obtain rfl : r = b := Option.some.inj (hr.symm.trans hb)
      exact (hf hold).same rfl rfl
    · exact hold.same rfl rfl
  stopped := h.stopped
  registered := h.registered
  last := h.last
  panicked := h.panicked

end Sound

section Conns

variable {s : State} {c : ℕ} {f : Conn → Conn}

lemma nodeOf_withConn (hf : ∀ x, (f x).node = x.node) (k : ℕ) :
    (s.withConn c f).nodeOf k = s.nodeOf k := by
  unfold State.nodeOf State.withConn
  rw [getElem?_modify]
  cases s.conns[k]? with
  | none => rfl
  | some x =>
    by_cases heq : c = k
    · simp [heq, hf]
    · simp [heq]

lemma closed_withConn (hf : ∀ x, (f x).closed = x.closed) (k : ℕ) :
    (s.withConn c f).closed k = s.closed k := by
  unfold State.closed State.withConn
  rw [getElem?_modify]
  cases s.conns[k]? with
  | none => rfl
  | some x =>
    by_cases heq : c = k
    · simp [heq, hf]
    · simp [heq]

lemma sound_withConn (h : Sound s) (hnode : ∀ x, (f x).node = x.node)
    (hclosed : ∀ x, (f x).closed = x.closed) (hstopped : ∀ x, (f x).stopped = x.stopped) :
    Sound (s.withConn c f) where
  requests id r hr := (h.requests id r hr).keeps
    ⟨fun k node hn => (nodeOf_withConn hnode k).trans hn, closed_withConn hclosed, fun _ ha => ha⟩
  stopped x hx := by
    obtain ⟨k, hk⟩ := getElem?_of_mem hx
    obtain ⟨b, hb, rfl⟩ := Rows.getElem?_modify_eq_some hk
    have hold := h.stopped b (mem_of_getElem? hb)
    split
    · rw [hstopped, hclosed, hold]
    · exact hold
  registered node k hk := by
    obtain ⟨haccepted, hnodeOf⟩ := h.registered node k hk
    exact ⟨haccepted, (nodeOf_withConn hnode k).trans hnodeOf⟩
  last := h.last
  panicked := h.panicked

lemma mem_conns_of_nodeOf {node : Str} (h : s.nodeOf c = some node) :
    ∃ conn, s.conns[c]? = some conn ∧ conn.node = node := Option.map_eq_some_iff.mp h

end Conns

/-! ## One lemma for each kind of step -/

section Steps

variable {s t : State} (h : Sound s)

include h

lemma sound_accept (node : Str) (hstep : step s (.accept node) = some t) :
    Sound t := by
  cases hstep
  have hkeeps : ∀ c n, s.nodeOf c = some n →
      ((s.conns ++ [(⟨node, true, true, 0, false, false⟩ : Conn)])[c]?).map Conn.node = some n := by
    intro c n hn
    obtain ⟨conn, hconn, rfl⟩ := mem_conns_of_nodeOf hn
    obtain ⟨hlt, -⟩ := List.getElem?_eq_some_iff.mp hconn
    rw [getElem?_append_left hlt, hconn]
    rfl
  constructor
  · intro id r hr
    refine (h.requests id r hr).keeps ⟨hkeeps, ?_, fun _ ha => ha⟩
    intro c
    change ((s.conns ++ [_])[c]?).any Conn.closed = (s.conns[c]?).any Conn.closed
    rcases Nat.lt_trichotomy c s.conns.length with hlt | rfl | hgt
    · rw [getElem?_append_left hlt]
    · simp
    · rw [getElem?_eq_none (by simpa using hgt), getElem?_eq_none hgt.le]
  · intro x hx
    rcases mem_append.mp hx with hold | hnew
    · exact h.stopped x hold
    · rw [mem_singleton.mp hnew]
  · intro other c hc
    change update s.registered node (some s.conns.length) other = some c at hc
    change update s.accepted node (some s.conns.length) other = some c ∧ _
    by_cases heq : other = node
    · subst heq
      rw [update_self] at hc ⊢
      cases hc
      refine ⟨rfl, ?_⟩
      change ((s.conns ++ [_])[s.conns.length]?).map Conn.node = some other
      rw [getElem?_concat_length]
      rfl
    · rw [update_of_ne heq] at hc ⊢
      obtain ⟨haccepted, hnode⟩ := h.registered other c hc
      exact ⟨haccepted, hkeeps c other hnode⟩
  · intro other c hc
    change update s.accepted node (some s.conns.length) other = some c at hc
    change update s.registered node (some s.conns.length) other = some c ∨ _
    by_cases heq : other = node
    · subst heq
      rw [update_self] at hc ⊢
      exact .inl hc
    · rw [update_of_ne heq] at hc ⊢
      exact h.last other c hc
  · exact h.panicked

lemma sound_drop (c : ℕ) : Sound (drop s c) := by
  unfold drop
  split
  · exact h
  rename_i conn hconn
  constructor
  · intro id r hr
    exact (h.requests id r hr).same rfl rfl
  · exact h.stopped
  · intro node k hk
    refine h.registered node k ?_
    split at hk
    · by_cases heq : node = conn.node
      · simp [heq] at hk
      · simpa [heq] using hk
    · exact hk
  · intro node k hk
    by_cases hended : k = c
    · exact .inr (by simp [hended])
    rcases h.last node k hk with hreg | hend
    · -- only the connection that is dropped leaves the map
      refine .inl ?_
      split
      · rename_i hcurrent
        by_cases heq : node = conn.node
        · subst heq
          rw [hcurrent] at hreg
          exact absurd (Option.some.inj hreg).symm hended
        · simpa [heq] using hreg
      · exact hreg
    · exact .inr (by simp [hended, hend])
  · exact h.panicked

/-- `clear` closes each channel for the first time. -/
lemma sound_clear (c : ℕ) : Sound (clear s c) := by
  unfold clear
  split
  · exact h
  rename_i conn hconn
  have hnodes : ∀ k, (s.withConn c fun x => { x with closed := true, stopped := true }).nodeOf k =
      s.nodeOf k := nodeOf_withConn fun _ => rfl
  constructor
  · intro id r hr
    rw [getElem?_map] at hr
    obtain ⟨b, hb, rfl⟩ := Option.map_eq_some_iff.mp hr
    have hold := h.requests id b hb
    unfold Request.abandon
    split
    · rename_i hpending
      have hpresent : b.entry = .present := by
        simp only [Request.pendingOn, Bool.and_eq_true, decide_eq_true_eq] at hpending
        exact hpending.2
      refine ⟨(hnodes _).trans hold.conn, ?_, ?_, hold.buffered, hold.returned, ?_⟩
      · intro hentry
        cases hentry
      · intro v hentry
        cases hentry
      · intro hgot
        have habsent := (hold.fresh hgot).1
        rw [hpresent] at habsent
        cases habsent
    · rename_i hother
      refine ⟨(hnodes _).trans hold.conn, ?_, hold.taken, hold.buffered, hold.returned, hold.fresh⟩
      intro hpresent
      have hne : c ≠ b.conn := by
        rintro rfl
        simp [Request.pendingOn, hpresent] at hother
      refine ⟨(hold.present hpresent).1, ?_⟩
      have hclosed := (hold.present hpresent).2
      change ((s.conns.modify c _)[b.conn]?).any Conn.closed = false
      rw [getElem?_modify_ne _ _ hne]
      exact hclosed
  · intro x hx
    obtain ⟨k, hk⟩ := getElem?_of_mem hx
    obtain ⟨b, hb, rfl⟩ := Rows.getElem?_modify_eq_some hk
    have hold := h.stopped b (mem_of_getElem? hb)
    split
    · rfl
    · exact hold
  · intro node k hk
    obtain ⟨haccepted, hnode⟩ := h.registered node k hk
    exact ⟨haccepted, (hnodes k).trans hnode⟩
  · exact h.last
  · have hstop := h.stopped conn (mem_of_getElem? hconn)
    have hopen : (s.requests.any fun r => r.pendingOn c && r.chan.closed) = false := by
      rw [any_eq_false]
      intro r hr htest
      obtain ⟨id, hid⟩ := getElem?_of_mem hr
      simp only [Request.pendingOn, Bool.and_eq_true, decide_eq_true_eq] at htest
      have hchan := ((h.requests id r hid).present htest.1.2).1
      rw [hchan] at htest
      exact absurd htest.2 Bool.false_ne_true
    rw [h.panicked, hopen, hstop]
    cases conn.closed <;> rfl

lemma sound_shutdown (hstep : step s .shutdown = some t) : Sound t := by
  cases hstep
  constructor
  · intro id r hr
    exact (h.requests id r hr).same rfl rfl
  · exact h.stopped
  · intro node c hc
    cases hc
  · intro node c hc
    refine .inr ?_
    rcases h.last node c hc with hreg | hend
    · obtain ⟨-, hnode⟩ := h.registered node c hreg
      obtain ⟨conn, hconn, rfl⟩ := mem_conns_of_nodeOf hnode
      obtain ⟨hlt, -⟩ := List.getElem?_eq_some_iff.mp hconn
      have hlive : c ∈ (range s.conns.length).filter fun c =>
          (s.conns[c]?).any fun conn => s.registered conn.node = some c := by
        refine mem_filter.mpr ⟨mem_range.mpr hlt, ?_⟩
        rw [hconn]
        simpa using hreg
      change (s.ended c || List.contains _ c) = true
      rw [contains_iff_mem.mpr hlive, Bool.or_true]
    · simp [hend]
  · exact h.panicked

variable {id : ℕ}

lemma sound_frame {c : ℕ} {v : Reply} (hstep : step s (.frame c id v) = some t) :
    Sound t := by
  rw [step] at hstep
  split at hstep
  · rename_i conn hconn
    split at hstep
    · have harrived : Sound { s with arrived := (id, conn.node, v) :: s.arrived } := by
        refine ⟨?_, h.stopped, h.registered, h.last, h.panicked⟩
        intro k r hr
        exact (h.requests k r hr).keeps
          ⟨fun _ _ hn => hn, fun _ => rfl, fun _ ha => mem_cons_of_mem _ ha⟩
      dsimp only at hstep
      split at hstep
      · rename_i r hr
        split at hstep
        · rename_i hpending
          cases hstep
          refine harrived.withRequest hr fun hold => ?_
          simp only [Request.pendingOn, Bool.and_eq_true, decide_eq_true_eq] at hpending
          obtain ⟨hc, hpresent⟩ := hpending
          refine ⟨hold.conn, ?_, ?_, hold.buffered, hold.returned, ?_⟩
          · intro hentry
            cases hentry
          · intro v' hentry
            cases hentry
            -- the connection that carried the frame is of the node of the request
            have hnode := hold.conn
            change (s.conns[r.conn]?).map Conn.node = some r.node at hnode
            rw [hc, hconn] at hnode
            refine ⟨(hold.present hpresent).1, ?_⟩
            rw [← Option.some.inj hnode]
            exact mem_cons_self
          · intro hgot
            have habsent := (hold.fresh hgot).1
            rw [hpresent] at habsent
            cases habsent
        · cases hstep
          exact harrived
      · cases hstep
        exact harrived
    · cases hstep
  · cases hstep

lemma sound_reply (hstep : step s (.reply id) = some t) : Sound t := by
  rw [step] at hstep
  split at hstep
  · rename_i r hr
    split at hstep
    · rename_i v hentry
      have hold := h.requests id r hr
      have hchan := (hold.taken v hentry).1
      rw [hchan] at hstep
      cases hstep
      refine h.withRequest hr fun _ => ?_
      refine ⟨hold.conn, ?_, ?_, ?_, hold.returned, ?_⟩
      · intro hpresent
        cases hpresent
      · intro v' htaken
        cases htaken
      · intro v' hbuffer
        cases hbuffer
        exact (hold.taken v hentry).2
      · intro hgot
        have habsent := (hold.fresh hgot).1
        rw [hentry] at habsent
        cases habsent
    · cases hstep
  · cases hstep

lemma sound_request {node : Str} {kind : Kind}
    (hstep : step s (.request node kind) = some t) : Sound t := by
  rw [step] at hstep
  split at hstep
  · rename_i c hc
    cases hstep
    refine ⟨?_, h.stopped, h.registered, h.last, h.panicked⟩
    intro id r hr
    rcases Nat.lt_trichotomy id s.requests.length with hlt | rfl | hgt
    · rw [getElem?_append_left hlt] at hr
      exact (h.requests id r hr).same rfl rfl
    · rw [getElem?_concat_length] at hr
      cases hr
      refine ⟨(h.registered node c hc).2, ?_, ?_, ?_, ?_, fun _ => ⟨rfl, rfl⟩⟩
      · intro hpresent
        cases hpresent
      · intro v htaken
        cases htaken
      · intro v hbuffer
        cases hbuffer
      · intro v hreturned
        cases hreturned
    · rw [getElem?_eq_none (by simpa using hgt)] at hr
      cases hr
  · cases hstep
    exact h

lemma sound_enter (hstep : step s (.enter id) = some t) : Sound t := by
  rw [step] at hstep
  split at hstep
  · rename_i r hr
    split at hstep
    · rename_i hgot
      split at hstep
      · rename_i conn hconn
        have hold := h.requests id r hr
        obtain ⟨habsent, hchan⟩ := hold.fresh hgot
        split at hstep
        · cases hstep
          refine h.withRequest hr fun hok => ?_
          refine ⟨hok.conn, hok.present, hok.taken, hok.buffered, ?_, ?_⟩
          · intro v hreturned
            cases hreturned
          · intro hgot'
            cases hgot'
        · rename_i hopen
          cases hstep
          refine h.withRequest hr fun hok => ?_
          refine ⟨hok.conn, ?_, ?_, hok.buffered, ?_, ?_⟩
          · intro _
            refine ⟨hchan, ?_⟩
            change (s.conns[r.conn]?).any Conn.closed = false
            rw [hconn]
            simpa using hopen
          · intro v htaken
            cases htaken
          · intro v hreturned
            cases hreturned
          · intro hgot'
            cases hgot'
      · cases hstep
    · cases hstep
  · cases hstep

/-- A phase behind the beginning, without a value -/
def Phase.isOpen : Phase → Bool
  | .got => false
  | .returned _ => false
  | _ => true

/-- A request goes on without a value: its entry and channel stay. -/
lemma sound_phase {r : Request} (hr : s.requests[id]? = some r) {phase : Phase}
    (hphase : phase.isOpen = true) :
    Sound (s.withRequest id fun r => { r with phase := phase }) := by
  refine h.withRequest hr fun hok => ⟨hok.conn, hok.present, hok.taken, hok.buffered, ?_, ?_⟩
  · rintro v rfl
    cases hphase
  · rintro rfl
    cases hphase

lemma sound_push {sent : Bool} (hstep : step s (.push id sent) = some t) :
    Sound t := by
  rw [step] at hstep
  split at hstep
  · rename_i r hr
    split at hstep
    · cases hstep
      cases sent with
      | true => exact sound_phase h hr rfl
      | false => exact sound_phase h hr rfl
    · cases hstep
  · cases hstep

lemma sound_receive (hstep : step s (.receive id) = some t) : Sound t := by
  rw [step] at hstep
  split at hstep
  · rename_i r hr
    split at hstep
    · split at hstep
      · rename_i v hbuffer
        cases hstep
        refine h.withRequest hr fun hok => ?_
        have harrived := hok.buffered v hbuffer
        refine ⟨hok.conn, ?_, ?_, ?_, ?_, ?_⟩
        · intro hpresent
          have hchan := (hok.present hpresent).1
          rw [hchan] at hbuffer
          cases hbuffer
        · intro v' htaken
          have hchan := (hok.taken v' htaken).1
          rw [hchan] at hbuffer
          cases hbuffer
        · intro v' hempty
          cases hempty
        · intro v' hreturned
          split at hreturned
          · cases hreturned
            exact harrived
          · cases hreturned
        · intro hgot
          split at hgot <;> cases hgot
      · split at hstep
        · cases hstep
          exact sound_phase h hr rfl
        · cases hstep
    · cases hstep
  · cases hstep

lemma sound_timeout (hstep : step s (.timeout id) = some t) : Sound t := by
  rw [step] at hstep
  split at hstep
  · rename_i r hr
    split at hstep
    · cases hstep
      exact sound_phase h hr rfl
    split at hstep
    · cases hstep
      exact sound_phase h hr rfl
    · cases hstep
  · cases hstep

lemma sound_withdraw (hstep : step s (.withdraw id) = some t) : Sound t := by
  rw [step] at hstep
  split at hstep
  · rename_i r hr
    split at hstep
    · cases hstep
      refine h.withRequest hr fun hok => ?_
      refine ⟨hok.conn, ?_, ?_, hok.buffered, ?_, ?_⟩
      · intro hpresent
        split at hpresent
        · cases hpresent
        rename_i hne
        exact absurd hpresent hne
      · intro v htaken
        split at htaken
        · cases htaken
        · exact hok.taken v htaken
      · intro v hreturned
        cases hreturned
      · intro hgot
        cases hgot
    · cases hstep
  · cases hstep

lemma sound_pingTick {c : ℕ} (hstep : step s (.pingTick c) = some t) : Sound t := by
  rw [step] at hstep
  split at hstep
  · split at hstep
    · split at hstep
      · cases hstep
        exact sound_withConn h (fun _ => rfl) (fun _ => rfl) fun _ => rfl
      split at hstep
      · cases hstep
        refine Sound.begin (sound_withConn h ?_ ?_ ?_) _
        all_goals exact fun _ => rfl
      · cases hstep
        exact sound_withConn h (fun _ => rfl) (fun _ => rfl) fun _ => rfl
    · cases hstep
  · cases hstep

end Steps

lemma sound_step {s t : State} {l : Label} (h : Sound s) (hstep : step s l = some t) : Sound t := by
  cases l with
  | accept node => exact sound_accept h node hstep
  | readFailed c =>
    rw [step] at hstep
    split at hstep
    · split at hstep
      · cases hstep
        refine Sound.begin (sound_withConn h ?_ ?_ ?_) _
        all_goals exact fun _ => rfl
      · cases hstep
    · cases hstep
  | pingTick c => exact sound_pingTick h hstep
  | disconnect node =>
    rw [step] at hstep
    split at hstep
    · cases hstep
      exact h.begin _
    · cases hstep
  | shutdown => exact sound_shutdown h hstep
  | drop k =>
    rw [step] at hstep
    split at hstep
    · cases hstep
      exact (sound_drop (h.done k) _).begin _
    · cases hstep
  | clear k =>
    rw [step] at hstep
    split at hstep
    · cases hstep
      exact sound_clear (h.done k) _
    · cases hstep
  | resetPongs node =>
    rw [step] at hstep
    split at hstep
    · cases hstep
      exact sound_withConn h (fun _ => rfl) (fun _ => rfl) fun _ => rfl
    · cases hstep
      exact h
  | pong c =>
    cases hstep
    exact sound_withConn h (fun _ => rfl) (fun _ => rfl) fun _ => rfl
  | frame c id v => exact sound_frame h hstep
  | reply id => exact sound_reply h hstep
  | request node kind => exact sound_request h hstep
  | enter id => exact sound_enter h hstep
  | push id sent => exact sound_push h hstep
  | receive id => exact sound_receive h hstep
  | timeout id => exact sound_timeout h hstep
  | withdraw id => exact sound_withdraw h hstep

/-! ## The result -/

/-- What is promised of the gateway in a state -/
structure Safe (s : State) : Prop where
  /-- A registered connection is the last accepted one of its node … -/
  registered : ∀ node c, s.registered node = some c → s.accepted node = some c
  /-- … and that one is registered until it was closed. -/
  last : ∀ node c, s.accepted node = some c → s.registered node = some c ∨ s.ended c = true
  /-- No channel was closed twice or sent on after it was closed. -/
  channels : s.panicked = false
  /-- A closed connection has no pending entry. -/
  pending : ∀ r ∈ s.requests, r.entry = .present → s.closed r.conn = false
  /-- A reply that was taken can be sent. -/
  sends : ∀ (id : ℕ) (r : Request) (v : Reply), s.requests[id]? = some r → r.entry = .taken v →
    (step s (.reply id)).isSome = true
  /-- A value that was returned arrived with the id of the request from its node. -/
  returned : ∀ (id : ℕ) (r : Request) (v : Reply), s.requests[id]? = some r → r.phase = .returned v →
    (id, r.node, v) ∈ s.arrived

lemma Sound.safe {s : State} (h : Sound s) : Safe s where
  registered node c hc := (h.registered node c hc).1
  last := h.last
  channels := h.panicked
  pending r hr hpresent := by
    obtain ⟨id, hid⟩ := getElem?_of_mem hr
    exact ((h.requests id r hid).present hpresent).2
  sends id r v hr htaken := by
    have hchan := ((h.requests id r hr).taken v htaken).1
    rw [step, hr]
    simp [htaken, hchan, Chan.empty]
  returned id r v hr hreturned := (h.requests id r hr).returned v hreturned

/-- In every interleaving the gateway keeps its promises. -/
theorem safe_of_reached (s : State) (h : Reached step (fun _ _ => true) State.init s) : Safe s :=
  Sound.safe (h.invariant sound_init fun _ _ _ hs _ hstep => sound_step hs hstep)

/-- One request is answered; another one is abandoned when a newer connection of the node
replaces the one it went over. -/
theorem safe_of_reached_replaced :
    ∃ s, Reached step (fun _ _ => true) State.init s ∧
      (s.requests.map Request.phase = [.returned (.command true none), .failed] ∧
        s.registered (str "e1") = some 1) ∧ Safe s := by
  obtain ⟨s, hreached, htest⟩ := exists_reached step (fun _ _ => true) State.init
    [.accept (str "e1"), .request (str "e1") .command, .enter 0, .push 0 true,
      .request (str "e1") .logTail, .enter 1, .push 1 true,
      .frame 0 0 (.command true none), .reply 0, .receive 0,
      .accept (str "e1"), .clear 0, .receive 1, .readFailed 0, .drop 0, .clear 0, .timeout 1]
    (fun s => decide (s.requests.map Request.phase = [.returned (.command true none), .failed] ∧
      s.registered (str "e1") = some 1)) (by decide)
  exact ⟨s, hreached, of_decide_eq_true htest, safe_of_reached s hreached⟩

end StreamHub.Edge.Gateway
