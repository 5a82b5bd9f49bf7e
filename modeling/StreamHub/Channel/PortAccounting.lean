import StreamHub.Channel.Manager

/-!
# Every port is held once

The ports marked in the pool are those of the running channels, each of them once.
While a channel is built up or taken down some ports are in the hands of the caller:
`Accounts` counts them apart from the map.
-/

namespace StreamHub.Channel.Manager

open Library Library.Text PortPool List Assoc Config

/-- The ports of a channel. -/
def ChanRT.held (rt : ChanRT) : Multiset Nat :=
  PortPool.held rt.busPort + PortPool.held rt.thumbPort + PortPool.held rt.pcmPort +
    total (fun ort : OutRT => PortPool.held ort.port) rt.outs

/-- The ports of all channels. -/
def heldPorts (m : Manager) : Multiset Nat := total ChanRT.held m.chans

/-- A manager with these channels in its map and these ports handed out. -/
structure Accounts (m : Manager) (chans : AList fun _ : Str => ChanRT) (ports : Multiset Nat) :
    Prop where
  chans_eq : m.chans = chans
  holds : m.ports.Holds ports

variable {host : Host} {m : Manager} {chans : AList fun _ : Str => ChanRT}
  {x : Multiset Nat} {rt : ChanRT} {ch prev : Channel}

/-! ## Ports and outputs -/

lemma Accounts.allocate (h : m.Accounts chans x) (host : Host) :
    (m.allocate host).2.Accounts chans (PortPool.held ((m.allocate host).1.getD 0) + x) :=
  ⟨h.chans_eq, h.holds.allocate _⟩

lemma Accounts.release {port : Nat} (h : m.Accounts chans (PortPool.held port + x)) :
    (m.release port).Accounts chans x := ⟨h.chans_eq, h.holds.release⟩

lemma Accounts.asked (h : m.Accounts chans x) (n : Nat) :
    ({ m with asked := n } : Manager).Accounts chans x := ⟨h.chans_eq, h.holds⟩

lemma Accounts.startOutput {o : Output} (h : m.Accounts chans (rt.held + x))
    (hnew : rt.outs.lookup o.id = none) : (Manager.startOutput host o rt m).2.Accounts chans
      ((Manager.startOutput host o rt m).1.held + x) := by
  have hallocated := h.allocate host
  have hheld : (Manager.startOutput host o rt m).1.held =
      PortPool.held ((m.allocate host).1.getD 0) + rt.held := by
    unfold Manager.startOutput ChanRT.held
    rw [total_insert, total_erase_of_lookup_eq_none _ hnew]
    exact add_left_comm _ _ _
  rw [hheld, add_assoc]
  exact hallocated

/-- A wanted output is found under its id, and it is enabled. -/
lemma wanted_lookup {id : Str} {o : Output} (h : (wanted ch).lookup id = some o) :
    o.id = id ∧ o.enabled = true ∧ o ∈ ch.outputs := by
  have hfold : ∀ (outputs : List Output) (want : AList fun _ : Str => Output),
      (outputs.foldl (fun want o => if o.enabled then want.insert o.id o else want) want).lookup id
        = some o → want.lookup id = some o ∨ (o.id = id ∧ o.enabled = true ∧ o ∈ outputs) := by
    intro outputs
    induction outputs with
    | nil => exact fun want h => .inl h
    | cons first rest ih =>
      intro want h
      rcases ih _ h with hwant | ⟨hid, henabled, hmem⟩
      · dsimp only at hwant
        split at hwant
        · rename_i hfirst
          by_cases hid : id = first.id
          · rw [hid, AList.lookup_insert] at hwant
            cases hwant
            exact .inr ⟨hid.symm, hfirst, mem_cons_self⟩
          · rw [AList.lookup_insert_ne hid] at hwant
            exact .inl hwant
        · exact .inl hwant
      · exact .inr ⟨hid, henabled, mem_cons_of_mem first hmem⟩
  rcases hfold ch.outputs ∅ h with hempty | hmem
  · simp at hempty
  · exact hmem

lemma Accounts.ensureOutput {state : ChanRT × Manager}
    (h : state.2.Accounts chans (state.1.held + x)) (id : Str) :
    (Manager.ensureOutput host ch state id).2.Accounts chans
      ((Manager.ensureOutput host ch state id).1.held + x) := by
  unfold Manager.ensureOutput
  split
  · exact h
  split
  · exact h
  rename_i o ho hnone
  refine h.startOutput ?_
  rw [(wanted_lookup ho).1]
  exact Option.not_isSome_iff_eq_none.mp hnone

lemma Accounts.ensureOutputs {state : ChanRT × Manager}
    (h : state.2.Accounts chans (state.1.held + x)) (ids : List Str) :
    (ids.foldl (Manager.ensureOutput host ch) state).2.Accounts chans
      ((ids.foldl (Manager.ensureOutput host ch) state).1.held + x) := by
  induction ids generalizing state with
  | nil => exact h
  | cons id rest ih => exact ih (h.ensureOutput id)

lemma Accounts.stopOutputs {outs : List OutRT}
    (h : m.Accounts chans ((outs.map fun ort => PortPool.held ort.port).sum + x)) :
    (outs.foldl stopOutput m).Accounts chans x := by
  induction outs generalizing m with
  | nil => simpa using h
  | cons ort rest ih =>
    rw [map_cons, sum_cons, add_assoc] at h
    exact ih h.release

lemma Accounts.reconcileOutputs (h : m.Accounts chans (rt.held + x)) :
    (Manager.reconcileOutputs host prev ch rt m).2.Accounts chans
      ((Manager.reconcileOutputs host prev ch rt m).1.held + x) := by
  refine Accounts.ensureOutputs (Accounts.stopOutputs ?_) _
  -- the stopped and the kept outputs are all outputs
  have hall := total_those_add (fun ort : OutRT => PortPool.held ort.port) (stale prev ch)
    rt.outs
  unfold ChanRT.held at h ⊢
  rw [← hall] at h
  convert h using 1
  abel

/-! ## Channels -/

lemma held_rebuildEngine (rt : ChanRT) (m : Manager) :
    (rebuildEngine host rt m).1.held = rt.held := by
  unfold Manager.rebuildEngine
  dsimp only
  split <;> rfl

lemma Accounts.rebuildEngine (h : m.Accounts chans (rt.held + x)) :
    (Manager.rebuildEngine host rt m).2.Accounts chans
      ((Manager.rebuildEngine host rt m).1.held + x) := by
  rw [held_rebuildEngine]
  exact h.asked _

lemma Accounts.updateChannel (h : m.Accounts chans (rt.held + x)) (host : Host)
    (ch : Channel) : (Manager.updateChannel host ch rt m).2.Accounts chans
      ((Manager.updateChannel host ch rt m).1.held + x) := by
  unfold Manager.updateChannel
  dsimp only
  split
  · exact Accounts.reconcileOutputs (Accounts.rebuildEngine h)
  · exact Accounts.reconcileOutputs h

lemma Accounts.stopChannel (h : m.Accounts chans (rt.held + x)) (host : Host) :
    (Manager.stopChannel host m rt).Accounts chans x := by
  have houts : m.Accounts chans
      (((rt.outs.entries.map Sigma.snd).map fun ort => PortPool.held ort.port).sum +
        (PortPool.held rt.thumbPort + (PortPool.held rt.pcmPort +
          (PortPool.held rt.busPort + x)))) := by
    unfold ChanRT.held total at h
    rw [map_map, show (fun ort => PortPool.held ort.port) ∘ Sigma.snd =
      fun e : Sigma fun _ : Str => OutRT => PortPool.held e.2.port from rfl]
    convert h using 1
    abel
  have htaps := houts.stopOutputs.release.release
  exact Accounts.release ⟨htaps.chans_eq, htaps.holds⟩

lemma Accounts.stopChannels {rts : List ChanRT}
    (h : m.Accounts chans ((rts.map ChanRT.held).sum + x)) (host : Host) :
    (rts.foldl (Manager.stopChannel host) m).Accounts chans x := by
  induction rts generalizing m with
  | nil => simpa using h
  | cons rt rest ih =>
    rw [map_cons, sum_cons, add_assoc] at h
    exact ih (h.stopChannel host)

/-- A channel that could be started holds its ports; otherwise they are returned. -/
lemma Accounts.startChannel (h : m.Accounts chans x) (host : Host) (ch : Channel) :
    (Manager.startChannel host ch m).2.Accounts chans
      (((Manager.startChannel host ch m).1.elim 0 ChanRT.held) + x) := by
  have hbus := h.allocate host
  unfold Manager.startChannel
  split
  · rename_i m' hallocate
    rw [hallocate] at hbus
    simpa [PortPool.held] using hbus
  rename_i port m' hallocate
  rw [hallocate] at hbus
  split
  · have htaps := ((hbus.asked (m'.asked + 1)).allocate host).allocate host
    refine Accounts.reconcileOutputs (Accounts.rebuildEngine ?_)
    convert htaps using 1
    unfold ChanRT.held
    rw [total_empty, Option.getD_some]
    abel
  · simpa using (hbus.release).asked (m'.asked + 1)

/-! ## Calls -/

/-- Exactly the ports of the running channels are marked, each of them held once. -/
def PortsBalanced (m : Manager) : Prop := m.Accounts m.chans m.heldPorts

lemma PortsBalanced.stopOne {id : Str} (h : m.PortsBalanced) (host : Host)
    (hlookup : m.chans.lookup id = some rt) :
    (Manager.stopChannel host { m with chans := m.chans.erase id } rt).PortsBalanced := by
  have herased : ({ m with chans := m.chans.erase id } : Manager).Accounts
      (m.chans.erase id) (rt.held + total ChanRT.held (m.chans.erase id)) := by
    rw [← total_erase ChanRT.held hlookup]
    exact ⟨rfl, h.holds⟩
  have hstop := herased.stopChannel host
  refine ⟨rfl, ?_⟩
  rw [heldPorts, hstop.chans_eq]
  exact hstop.holds

lemma PortsBalanced.reconcile (h : m.PortsBalanced) (ch : Channel) :
    (m.reconcile host ch).PortsBalanced := by
  unfold Manager.reconcile
  cases hlookup : m.chans.lookup ch.id with
  | none =>
    dsimp only
    split
    · have hstart := Accounts.startChannel h host ch
      split
      · rename_i m' hresult
        rw [hresult] at hstart
        refine ⟨rfl, ?_⟩
        rw [heldPorts, hstart.chans_eq]
        simpa [heldPorts] using hstart.holds
      · rename_i rt m' hresult
        rw [hresult] at hstart
        refine ⟨rfl, ?_⟩
        rw [heldPorts, hstart.chans_eq, total_insert, total_erase_of_lookup_eq_none _ hlookup]
        exact hstart.holds
    · exact h
  | some rt =>
    have hsplit : m.Accounts m.chans (rt.held + total ChanRT.held (m.chans.erase ch.id)) := by
      rw [← total_erase ChanRT.held hlookup]
      exact h
    dsimp only
    split
    · have hupdate := hsplit.updateChannel host ch
      refine ⟨rfl, ?_⟩
      rw [heldPorts, hupdate.chans_eq]
      exact hupdate.holds
    · exact h.stopOne host hlookup

lemma PortsBalanced.reconcileAll (h : m.PortsBalanced) (channels : List Channel) :
    (channels.foldl (Manager.reconcile host) m).PortsBalanced := by
  induction channels generalizing m with
  | nil => exact h
  | cons ch rest ih => exact ih (h.reconcile ch)

lemma PortsBalanced.stopThose (h : m.PortsBalanced) (p : Str → ChanRT → Bool) :
    ((those p m.chans).foldl (stopChannel host)
      { m with chans := without p m.chans }).PortsBalanced := by
  have hout : ({ m with chans := without p m.chans } : Manager).Accounts
      (without p m.chans)
      (((those p m.chans).map ChanRT.held).sum +
        total ChanRT.held (without p m.chans)) := by
    rw [total_those_add]
    exact ⟨rfl, h.holds⟩
  have hstop := hout.stopChannels host
  refine ⟨rfl, ?_⟩
  rw [heldPorts, hstop.chans_eq]
  exact hstop.holds

/-- A call, with the configuration that is stored at its time. -/
inductive Call
  | syncAll (cfg : Config)
  | sync (cfg : Config) (id : Str)
  | shutdown

def Call.run (host : Host) (m : Manager) : Call → Manager
  | .syncAll cfg => m.syncAll host cfg
  | .sync cfg id => m.sync host cfg id
  | .shutdown => m.shutdown host

def runCalls (host : Host) (m : Manager) (calls : List Call) : Manager :=
  calls.foldl (Call.run host) m

lemma PortsBalanced.shutdown (h : m.PortsBalanced) (host : Host) :
    (m.shutdown host).Accounts ∅ 0 := by
  have hout : ({ m with chans := ∅ } : Manager).Accounts ∅
      (((m.chans.entries.map Sigma.snd).map ChanRT.held).sum + 0) := by
    rw [map_map, add_zero]
    exact ⟨rfl, h.holds⟩
  exact hout.stopChannels host

lemma PortsBalanced.run (h : m.PortsBalanced) (host : Host) (c : Call) :
    (c.run host m).PortsBalanced := by
  cases c with
  | syncAll cfg => exact (h.reconcileAll cfg.channels).stopThose _
  | sync cfg id =>
    unfold Call.run Manager.sync
    dsimp only
    split
    · exact h.reconcile _
    split
    · exact h
    rename_i rt hlookup
    exact h.stopOne host hlookup
  | shutdown =>
    have hstop := h.shutdown host
    refine ⟨rfl, ?_⟩
    change (m.shutdown host).ports.Holds (total _ (m.shutdown host).chans)
    rw [hstop.chans_eq]
    exact hstop.holds

lemma portsBalanced_runCalls {lo : Nat} (hlo : 0 < lo) (hi : Nat) (host : Host)
    (calls : List Call) : (runCalls host { ports := PortPool.new lo hi } calls).PortsBalanced := by
  induction calls using reverseRecOn with
  | nil => exact ⟨rfl, PortPool.holds_new hlo⟩
  | append_singleton calls c ih =>
    rw [runCalls, foldl_append]
    exact ih.run host c

/-- The manager of the daemon, for any text in `ENCODERD_PORT_RANGE`. -/
theorem portsBalanced_daemon (range : Str) (host : Host) (calls : List Call) :
    (runCalls host { ports := PortPool.new (parseRange range).1 (parseRange range).2 }
      calls).PortsBalanced := portsBalanced_runCalls (parseRange_pos range) _ host calls

/-- After any calls the ports that are marked in the pool are those of the running
channels, none of them twice, and none is left after a shutdown. -/
theorem ports_are_held (lo hi : Nat) (hlo : 0 < lo) (host : Host) (calls : List Call) :
    (runCalls host { ports := PortPool.new lo hi } calls).ports.used.val =
      (runCalls host { ports := PortPool.new lo hi } calls).heldPorts ∧
    (runCalls host { ports := PortPool.new lo hi } (calls ++ [.shutdown])).ports.used = ∅ := by
  have hbalanced := portsBalanced_runCalls hlo hi host calls
  refine ⟨hbalanced.holds.used, ?_⟩
  rw [runCalls, foldl_append]
  exact Finset.val_eq_zero.mp (hbalanced.shutdown host).holds.used

/-- Two channels, one of them with an output, and then only one of them. -/
def twoThenOne : List Call :=
  let news : Channel :=
    { id := str "news"
      enabled := true
      outputs := [{ id := str "main", enabled := true }] }
  let sport : Channel := { id := str "sport", enabled := true }
  [.syncAll { channels := [news, sport] }, .sync { channels := [news] } (str "sport")]

theorem ports_are_held_two_then_one :
    (runCalls ready { ports := PortPool.new 41000 41999 } twoThenOne).ports.used =
        {41000, 41001, 41002, 41003} ∧
      (runCalls ready { ports := PortPool.new 41000 41999 } twoThenOne).ports.used.val =
        (runCalls ready { ports := PortPool.new 41000 41999 } twoThenOne).heldPorts :=
  ⟨by decide +kernel, (ports_are_held 41000 41999 (by decide) ready twoThenOne).1⟩

end StreamHub.Channel.Manager
