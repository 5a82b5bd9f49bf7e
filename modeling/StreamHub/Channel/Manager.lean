import StreamHub.Library.Assoc
import StreamHub.Config.Store
import StreamHub.Channel.Ports
import StreamHub.Channel.OutputKey
import StreamHub.Channel.Alarms

/-!
# The channel manager

`Manager` of `internal/channel/manager.go`: `SyncAll`, `Sync` and `Shutdown` bring
the running channels in line with the stored configuration.  Modelled are the
configurations, ports and alarms of the running channels; their processes are in
`Supervisor` and `Channel.OutputLaunch`.

What the host answers (whether a port can be bound, whether the bus can listen,
whether an engine and a monitor can be built, what time it is) is given by a `Host`:
the answer to the first question, to the second, and so on.
-/

namespace StreamHub.Channel

open Library Library.Text Config

/-! ## State -/

namespace Manager

/-- A running output; `port` is 0 if none could be allocated. -/
structure OutRT where
  cfg : Output
  port : Nat

/-- A running channel; a tap without a port has port 0.  `buildErr` is empty if the
engine could be built, `mon` says whether the monitor runs. -/
structure ChanRT where
  cfg : Channel
  busPort : Nat
  thumbPort : Nat := 0
  pcmPort : Nat := 0
  mon : Bool := false
  buildErr : Str := []
  outs : AList (fun _ : Str => OutRT) := ∅
  startedAt : Int

end Manager

structure Host where
  bindable : Nat → Nat → Bool
  listens : Nat → Bool
  builds : Nat → Str
  monitors : Nat → Bool
  now : Nat → Int
  order : Nat → List Str := fun _ => []

/-- `asked` counts the questions to the host. -/
structure Manager where
  ports : PortPool
  chans : AList (fun _ : Str => Manager.ChanRT) := ∅
  alarms : AlarmBook := {}
  asked : Nat := 0

/-- What `engineKey` marshals: the part of a channel that needs another engine. -/
def engineKey (ch : Channel) : Channel :=
  { ch with outputs := [], name := [], enabled := false, scte35 := none, alarms := none }

namespace Manager

variable (host : Host)

/-- `Allocate` on the manager's pool. -/
def allocate (m : Manager) : Option Nat × Manager :=
  let (port, ports) := m.ports.allocate (host.bindable m.asked)
  (port, { m with ports := ports, asked := m.asked + 1 })

/-- `Release` on the manager's pool. -/
def release (port : Nat) (m : Manager) : Manager := { m with ports := m.ports.release port }

/-! ## Outputs -/

/-- `startOutput` -/
def startOutput (o : Output) (rt : ChanRT) (m : Manager) : ChanRT × Manager :=
  let (port, m) := m.allocate host
  ({ rt with outs := rt.outs.insert o.id { cfg := o, port := port.getD 0 } }, m)

/-- `stopOutput` -/
def stopOutput (m : Manager) (ort : OutRT) : Manager := m.release ort.port

/-- The enabled outputs by their ids. -/
def wanted (ch : Channel) : AList (fun _ : Str => Output) :=
  ch.outputs.foldl (fun want o => if o.enabled then want.insert o.id o else want) ∅

/-- An output that is to be stopped: no longer wanted, or in another form. -/
def stale (prev ch : Channel) (id : Str) (ort : OutRT) : Bool :=
  match (wanted ch).lookup id with
  | none => true
  | some o => decide (outputKey ch o ≠ outputKey prev ort.cfg)

/-- Start a wanted output that does not run. -/
def ensureOutput (ch : Channel) (state : ChanRT × Manager) (id : Str) : ChanRT × Manager :=
  match (wanted ch).lookup id with
  | none => state
  | some o =>
    if (state.1.outs.lookup id).isSome then state else startOutput host o state.1 state.2

/-- `reconcileOutputs` -/
def reconcileOutputs (prev ch : Channel) (rt : ChanRT) (m : Manager) : ChanRT × Manager :=
  let stop := Assoc.those (stale prev ch) rt.outs
  let rt := { rt with outs := Assoc.without (stale prev ch) rt.outs }
  let m := stop.foldl stopOutput m
  let ids := (wanted ch).keys.insertionSort (· ≤ ·)
  ids.foldl (ensureOutput host ch) (rt, m)

/-! ## Channels -/

/-- `rebuildEngine`, with `restartMonitor` -/
def rebuildEngine (rt : ChanRT) (m : Manager) : ChanRT × Manager :=
  let err := host.builds m.asked
  let rt := { rt with mon := host.monitors m.asked, buildErr := err }
  (if err = [] then { rt with startedAt := host.now m.asked } else rt,
    { m with asked := m.asked + 1 })

/-- `startChannel` -/
def startChannel (ch : Channel) (m : Manager) : Option ChanRT × Manager :=
  match m.allocate host with
  | (none, m) => (none, m)
  | (some port, m) =>
    if host.listens m.asked then
      let now := host.now m.asked
      let m := { m with asked := m.asked + 1 }
      let (thumb, m) := m.allocate host
      let (pcm, m) := m.allocate host
      let rt : ChanRT :=
        { cfg := ch
          busPort := port
          thumbPort := thumb.getD 0
          pcmPort := pcm.getD 0
          startedAt := now }
      let (rt, m) := rebuildEngine host rt m
      let (rt, m) := reconcileOutputs host {} ch rt m
      (some rt, m)
    else (none, { m.release port with asked := m.asked + 1 })

/-- `stopChannel` -/
def stopChannel (m : Manager) (rt : ChanRT) : Manager :=
  let m := (rt.outs.entries.map Sigma.snd).foldl stopOutput m
  let m := (m.release rt.thumbPort).release rt.pcmPort
  let m := { m with
    alarms := m.alarms.clearChannel (host.now m.asked) rt.cfg.id (host.order m.asked)
    asked := m.asked + 1 }
  m.release rt.busPort

/-- `reconcile` of a running channel. -/
def updateChannel (ch : Channel) (rt : ChanRT) (m : Manager) : ChanRT × Manager :=
  let prev := rt.cfg
  let rt := { rt with cfg := ch }
  let (rt, m) :=
    if engineKey prev ≠ engineKey ch ∨ rt.buildErr ≠ [] then rebuildEngine host rt m else (rt, m)
  reconcileOutputs host prev ch rt m

/-- `reconcile` -/
def reconcile (m : Manager) (ch : Channel) : Manager :=
  match m.chans.lookup ch.id with
  | none =>
    if ch.enabled then
      match startChannel host ch m with
      | (none, m) => m
      | (some rt, m) => { m with chans := m.chans.insert ch.id rt }
    else m
  | some rt =>
    if ch.enabled then
      let (rt, m) := updateChannel host ch rt m
      { m with chans := m.chans.insert ch.id rt }
    else stopChannel host { m with chans := m.chans.erase ch.id } rt

/-! ## Calls -/

/-- `SyncAll` -/
def syncAll (cfg : Config) (m : Manager) : Manager :=
  let m := cfg.channels.foldl (reconcile host) m
  let gone : Str → ChanRT → Bool := fun id _ => !cfg.channels.any fun ch => ch.id == id
  (Assoc.those gone m.chans).foldl (stopChannel host)
    { m with chans := Assoc.without gone m.chans }

/-- `Sync` -/
def sync (cfg : Config) (id : Str) (m : Manager) : Manager :=
  match cfg.findChannel id with
  | some ch => m.reconcile host ch
  | none =>
    match m.chans.lookup id with
    | none => m
    | some rt => stopChannel host { m with chans := m.chans.erase id } rt

/-- `Shutdown` -/
def shutdown (m : Manager) : Manager :=
  (m.chans.entries.map Sigma.snd).foldl (stopChannel host) { m with chans := ∅ }

/-! ## What an update leaves alone -/

lemma ensureOutput_frame (ch : Channel) (state : ChanRT × Manager) (id : Str) :
    (ensureOutput host ch state id).1.cfg = state.1.cfg ∧
      (ensureOutput host ch state id).2.alarms = state.2.alarms := by
  unfold ensureOutput
  split
  · exact ⟨rfl, rfl⟩
  · split <;> exact ⟨rfl, rfl⟩

lemma reconcileOutputs_frame (prev ch : Channel) (rt : ChanRT) (m : Manager) :
    (reconcileOutputs host prev ch rt m).1.cfg = rt.cfg ∧
      (reconcileOutputs host prev ch rt m).2.alarms = m.alarms := by
  have hstart : ∀ (ids : List Str) (state : ChanRT × Manager),
      (ids.foldl (ensureOutput host ch) state).1.cfg = state.1.cfg ∧
        (ids.foldl (ensureOutput host ch) state).2.alarms = state.2.alarms := by
    intro ids
    induction ids with
    | nil => exact fun state => ⟨rfl, rfl⟩
    | cons id rest ih =>
      intro state
      have hfirst := ensureOutput_frame host ch state id
      exact ⟨(ih _).1.trans hfirst.1, (ih _).2.trans hfirst.2⟩
  have hstop : ∀ (outs : List OutRT) (m : Manager), (outs.foldl stopOutput m).alarms = m.alarms := by
    intro outs
    induction outs with
    | nil => exact fun m => rfl
    | cons ort rest ih => exact fun m => (ih _).trans rfl
  exact ⟨(hstart _ _).1, (hstart _ _).2.trans (hstop _ _)⟩

/-- An update of a running channel sets its configuration and raises or clears
nothing. -/
lemma updateChannel_frame (ch : Channel) (rt : ChanRT) (m : Manager) :
    (updateChannel host ch rt m).1.cfg = ch ∧
      (updateChannel host ch rt m).2.alarms = m.alarms := by
  unfold updateChannel
  dsimp only
  split
  · obtain ⟨hcfg, halarms⟩ := reconcileOutputs_frame host rt.cfg ch
      (rebuildEngine host { rt with cfg := ch } m).1 (rebuildEngine host { rt with cfg := ch } m).2
    refine ⟨hcfg.trans ?_, halarms⟩
    unfold rebuildEngine
    dsimp only
    split <;> rfl
  · exact reconcileOutputs_frame host rt.cfg ch { rt with cfg := ch } m

/-- A host where everything succeeds. -/
def ready : Host where
  bindable := fun _ _ => true
  listens := fun _ => true
  builds := fun _ => []
  monitors := fun _ => true
  now := fun _ => 0

end Manager

end StreamHub.Channel
