import StreamHub.Edge.Acts

/-!
# Revoked assignments

`Revoke` writes the row without a condition and without the lock, and so does everyone else.
A call that has read the row before may write it and send it out after `Revoke`, and an edge that
started the worker before the revoke frame came reports it as running after.

These are the only ways: in a run where no other call has an assignment in hand when `Revoke`
writes it, and no edge reports one as running behind that, a revoked assignment stays down
(`revoked_stays_down`).
-/

namespace StreamHub.Edge.Calls

open Library Text Transition List Function

/-- `Revoke` writes a row that no other call may still write or send out, and an edge does not
report an assignment of its own as running that was revoked. -/
def Act.undisturbed (T : Tables) (g : List (ℕ × Grip)) : Act → Bool
  | .retire id => g.all fun x => x.1 ≠ id || !x.2.isLive
  | .report node id status _ =>
    status ≠ .running || !T.downs id || !T.rows[id]?.any fun a => a.nodeId = node
  | _ => true

/-- The same for a step -/
def undisturbed (env : Env) (s : State) (l : Label) : Bool :=
  (act env s l).undisturbed s.tables s.grips

/-- What was revoked is over, no call has it in hand and it was not sent out again; and a row
that says so was revoked. -/
structure StaysDown (T : Tables) (g : List (ℕ × Grip)) : Prop where
  ended : ∀ id, T.downs id = true → ∃ a, T.rows[id]? = some a ∧ a.status.isLive = false
  unheld : ∀ id node, T.downs id = true → (id, Grip.live node) ∉ g
  unsent : T.late = false
  marked : ∀ id a, T.rows[id]? = some a → a.status = .revoked → T.downs id = true

namespace StaysDown

variable {T : Tables} {g g' : List (ℕ × Grip)}

lemma regrip (h : StaysDown T g)
    (hg : ∀ id node, (id, Grip.live node) ∈ g' → ∃ node', (id, Grip.live node') ∈ g) :
    StaysDown T g' := by
  refine ⟨h.ended, ?_, h.unsent, h.marked⟩
  intro id node hdown hmem
  obtain ⟨node', hmem'⟩ := hg id node hmem
  exact h.unheld id node' hdown hmem'

lemma subperm (h : StaysDown T g) (hg : g'.Subperm g) : StaysDown T g' :=
  h.regrip fun _ node hmem => ⟨node, hg.subset hmem⟩

/-- A write that revokes nothing, and that starts nothing which was revoked -/
lemma modify (h : StaysDown T g) {id : ℕ} {f : Assignment → Assignment}
    (hf : ∀ a, T.rows[id]? = some a → a.status.isLive = false → T.downs id = true →
      (f a).status.isLive = false)
    (hrevoked : ∀ a, T.rows[id]? = some a → (f a).status = .revoked → a.status = .revoked) :
    StaysDown { T with rows := T.rows.modify id f } g := by
  refine ⟨?_, h.unheld, h.unsent, ?_⟩
  · intro k hdown
    obtain ⟨a, ha, hover⟩ := h.ended k hdown
    by_cases heq : id = k
    · subst heq
      refine ⟨f a, ?_, hf a ha hover hdown⟩
      rw [getElem?_modify_eq, ha]
      rfl
    · refine ⟨a, ?_, hover⟩
      rw [getElem?_modify_ne _ _ heq, ha]
  · intro k b hb hstatus
    obtain ⟨a, ha, rfl⟩ := Rows.getElem?_modify_eq_some hb
    by_cases heq : id = k
    · subst heq
      rw [if_pos rfl] at hstatus
      exact h.marked id a ha (hrevoked a ha hstatus)
    · rw [if_neg heq] at hstatus
      exact h.marked k a ha hstatus

lemma write (h : StaysDown T g) {id : ℕ} {node : Str} (hheld : (id, Grip.live node) ∈ g)
    {f : Assignment → Assignment} (hf : ∀ a, (f a).status.isLive = true) :
    StaysDown { T with rows := T.rows.modify id f } g := by
  refine h.modify ?_ ?_
  · intro a _ _ hdown
    exact absurd hheld (h.unheld id node hdown)
  · intro a _ hstatus
    have hlive := hf a
    rw [hstatus] at hlive
    cases hlive

end StaysDown

section Run

variable {T : Tables} {g g' : List (ℕ × Grip)}

lemma staysDown_insert (h : StaysDown T g) {a : Assignment}
    (hmoves : (Act.insert a).Moves T g g') : StaysDown ((Act.insert a).run T) g' := by
  obtain ⟨hlive, hg⟩ := hmoves
  -- the new row is none of those that were revoked
  have hbound : ∀ id, T.downs id = true → id < T.rows.length := by
    intro id hdown
    obtain ⟨b, hb, -⟩ := h.ended id hdown
    exact (List.getElem?_eq_some_iff.mp hb).1
  refine ⟨?_, ?_, h.unsent, ?_⟩
  · intro id hdown
    obtain ⟨b, hb, hover⟩ := h.ended id hdown
    refine ⟨b, ?_, hover⟩
    change (T.rows ++ [a])[id]? = some b
    rw [getElem?_append_left (hbound id hdown), hb]
  · intro id node hdown hmem
    rcases mem_append.mp (hg.mem_iff.mp hmem) with hnew | hold
    · split at hnew
      · cases hnew
      · have heq : (id, Grip.live node) = (T.rows.length, .live a.nodeId) := mem_singleton.mp hnew
        have hid : id = T.rows.length := congrArg Prod.fst heq
        exact absurd (hbound id hdown) (hid ▸ Nat.lt_irrefl _)
    · exact h.unheld id node hdown hold
  · intro id b hb hstatus
    have hb' : (T.rows ++ [a])[id]? = some b := hb
    rw [getElem?_append] at hb'
    split at hb'
    · exact h.marked id b hb' hstatus
    obtain rfl : a = b := by
      obtain ⟨_, heq⟩ := List.getElem?_eq_some_iff.mp hb'
      rw [getElem_singleton] at heq
      exact heq
    rw [hstatus] at hlive
    cases hlive

lemma staysDown_take (h : StaysDown T g) {taken : List (ℕ × Grip)}
    (hmoves : (Act.take taken).Moves T g g') : StaysDown T g' := by
  obtain ⟨hg, -, hread⟩ := hmoves
  refine ⟨h.ended, ?_, h.unsent, h.marked⟩
  intro id node hdown hmem
  rcases mem_append.mp (hg.mem_iff.mp hmem) with hnew | hold
  · -- a read only takes rows that are not over
    obtain ⟨a, ha, -, hlive⟩ := hread _ hnew
    obtain ⟨b, hb, hover⟩ := h.ended id hdown
    rw [ha] at hb
    cases hb
    rw [hlive] at hover
    cases hover
  · exact h.unheld id node hdown hold

variable {id : ℕ} {node : Str}

section

variable (h : StaysDown T g)

include h

lemma staysDown_reassign {old : Str} {written : Bool}
    (hmoves : (Act.reassign id old node written).Moves T g g') :
    StaysDown ((Act.reassign id old node written).run T) g' := by
  obtain ⟨others, hg, hg'⟩ := hmoves
  have hheld : (id, Grip.live old) ∈ g := hg.mem_iff.mpr mem_cons_self
  have hrun : StaysDown ((Act.reassign id old node written).run T) g := by
    cases written with
    | false => exact h
    | true => exact h.write hheld fun _ => rfl
  refine hrun.regrip ?_
  intro k node' hmem
  rcases mem_cons.mp (hg'.mem_iff.mp hmem) with heq | hother
  · cases heq
    exact ⟨old, hheld⟩
  · exact ⟨node', hg.mem_iff.mpr (mem_cons_of_mem _ hother)⟩

lemma staysDown_mark {status : Status} {detail : Option Str}
    (hmoves : (Act.mark id node status detail).Moves T g g') :
    StaysDown ((Act.mark id node status detail).run T) g' := by
  obtain ⟨hlive, others, hg, hg'⟩ := hmoves
  have hheld : (id, Grip.live node) ∈ g := hg.mem_iff.mpr mem_cons_self
  refine (h.write hheld fun _ => hlive).subperm ?_
  exact hg'.subperm.trans ((sublist_cons_self _ _).subperm.trans hg.symm.subperm)

lemma staysDown_offer {a : Assignment} (hmoves : (Act.offer id node a).Moves T g g') :
    StaysDown ((Act.offer id node a).run T) g' := by
  obtain ⟨-, hheld, hg⟩ := hmoves
  refine StaysDown.subperm ⟨h.ended, h.unheld, ?_, h.marked⟩ hg
  change (T.late || T.downs id) = false
  rw [h.unsent]
  by_contra hdown
  exact h.unheld id node (Bool.eq_true_of_not_eq_false hdown) hheld

lemma staysDown_withdraw {sent : Bool} (hmoves : (Act.withdraw id node sent).Moves T g g') :
    StaysDown ((Act.withdraw id node sent).run T) g' := by
  obtain ⟨-, others, hg, hg'⟩ := hmoves
  have hregrip : StaysDown T g' := by
    refine h.regrip ?_
    intro k node' hmem
    rcases mem_cons.mp (hg'.mem_iff.mp hmem) with heq | hother
    · cases heq
    · exact ⟨node', hg.mem_iff.mpr (mem_cons_of_mem _ hother)⟩
  cases sent with
  | false => exact hregrip
  | true => exact ⟨hregrip.ended, hregrip.unheld, hregrip.unsent, hregrip.marked⟩

lemma staysDown_retire (hmoves : (Act.retire id).Moves T g g')
    (hguard : (Act.retire id).undisturbed T g = true) : StaysDown ((Act.retire id).run T) g' := by
  obtain ⟨others, hg, hg'⟩ := hmoves
  have hsub : g'.Subperm g :=
    hg'.subperm.trans ((sublist_cons_self _ _).subperm.trans hg.symm.subperm)
  have hdowns : ∀ k, ((Act.retire id).run T).downs k = true → k = id ∨ T.downs k = true := by
    intro k hdown
    by_cases heq : k = id
    · exact .inl heq
    refine .inr ?_
    change (if id < T.rows.length then update T.downs id true else T.downs) k =
      true at hdown
    split at hdown
    · rwa [update_of_ne heq] at hdown
    · exact hdown
  refine ⟨?_, ?_, h.unsent, ?_⟩
  · intro k hdown
    change ∃ a, (T.rows.modify id (setStatus .revoked none))[k]? = some a ∧ _
    by_cases heq : k = id
    · subst heq
      change (if k < T.rows.length then update T.downs k true else T.downs) k =
        true at hdown
      have hbound : k < T.rows.length := by
        by_contra hnot
        rw [if_neg hnot] at hdown
        obtain ⟨a, ha, -⟩ := h.ended k hdown
        exact hnot (List.getElem?_eq_some_iff.mp ha).1
      refine ⟨setStatus .revoked none T.rows[k], ?_, rfl⟩
      rw [getElem?_modify_eq, getElem?_eq_getElem hbound]
      rfl
    · obtain ⟨a, ha, hover⟩ := h.ended k ((hdowns k hdown).resolve_left heq)
      exact ⟨a, by rw [getElem?_modify_ne _ _ (Ne.symm heq), ha], hover⟩
  · intro k node hdown hmem
    have hmem' := hsub.subset hmem
    rcases hdowns k hdown with rfl | hold
    · -- nobody else has it in hand
      have hfree := all_eq_true.mp hguard _ hmem'
      simp [Grip.isLive] at hfree
    · exact h.unheld k node hold hmem'
  · intro k b hb hstatus
    obtain ⟨a, ha, rfl⟩ := Rows.getElem?_modify_eq_some hb
    change (if id < T.rows.length then update T.downs id true else T.downs) k = true
    by_cases heq : id = k
    · subst heq
      rw [if_pos (List.getElem?_eq_some_iff.mp ha).1, update_self]
    rw [if_neg heq] at hstatus
    have hmarked := h.marked k a ha hstatus
    split
    · rw [update_of_ne (Ne.symm heq)]
      exact hmarked
    · exact hmarked

lemma staysDown_report {status : Reported} {detail : Option Str}
    (hguard : (Act.report node id status detail).undisturbed T g = true) :
    StaysDown ((Act.report node id status detail).run T) g := by
  refine h.modify ?_ ?_
  · intro a ha hover hdown
    unfold setReported
    split
    · rename_i hnode
      cases status with
      | running => simp [Act.undisturbed, hdown, ha, hnode] at hguard
      | stopped => rfl
      | failed => rfl
    · exact hover
  · intro a _ hstatus
    unfold setReported at hstatus
    split at hstatus
    · cases status <;> cases hstatus
    · exact hstatus

/-- Every act keeps down what was revoked. -/
lemma staysDown_run {act : Act} (hmoves : act.Moves T g g')
    (hguard : act.undisturbed T g = true) : StaysDown (act.run T) g' := by
  cases act with
  | insert a => exact staysDown_insert h hmoves
  | take taken => exact staysDown_take h hmoves
  | reassign id old node written => exact staysDown_reassign h hmoves
  | mark id node status detail => exact staysDown_mark h hmoves
  | offer id node a => exact staysDown_offer h hmoves
  | withdraw id node sent => exact staysDown_withdraw h hmoves
  | retire id => exact staysDown_retire h hmoves hguard
  | report node id status detail =>
    cases hmoves
    exact staysDown_report h hguard
  | connect node =>
    obtain ⟨-, rfl⟩ := hmoves
    exact ⟨h.ended, h.unheld, h.unsent, h.marked⟩
  | disconnect node | lose node | deliver node =>
    cases hmoves
    exact ⟨h.ended, h.unheld, h.unsent, h.marked⟩
  | restart =>
    cases hmoves
    exact ⟨h.ended, fun _ _ _ hmem => not_mem_nil hmem, h.unsent, h.marked⟩
  | idle => exact h.subperm hmoves

end

end Run

lemma staysDown_of_reached {env : Env} {s : State}
    (h : Reached (step env) (undisturbed env) State.init s) : StaysDown s.tables s.grips := by
  have hinit : StaysDown State.init.tables State.init.grips := by
    refine ⟨?_, ?_, rfl, ?_⟩
    · intro id hdown
      cases hdown
    · intro id node hdown
      cases hdown
    · intro id a ha
      cases ha
  refine @Reached.invariant _ _ (step env) (undisturbed env) State.init s
    (fun t => StaysDown t.tables t.grips) hinit ?_ h
  intro s t l hs hguard hstep
  have hperforms := performs_of_step hstep
  rw [hperforms.tables]
  exact staysDown_run hs hperforms.moves hguard

/-- In every run where no other call has an assignment in hand when `Revoke` writes its row, and
where no edge reports a revoked assignment of its own as running, no assign frame is sent for an
assignment behind that write, and its row is never pending, offered or running again. -/
theorem revoked_stays_down (env : Env) (s : State)
    (h : Reached (step env) (undisturbed env) State.init s) :
    s.late = false ∧ ∀ id a, s.rows[id]? = some a →
      (a.status = .revoked → s.downs id = true) ∧
      (s.downs id = true → a.status ≠ .pending ∧ a.status ≠ .offered ∧ a.status ≠ .running) := by
  have hdown := staysDown_of_reached h
  refine ⟨hdown.unsent, fun id a ha => ⟨hdown.marked id a ha, fun hid => ?_⟩⟩
  obtain ⟨b, hb, hover⟩ := hdown.ended id hid
  obtain rfl : a = b := Option.some.inj (ha.symm.trans hb)
  refine ⟨?_, ?_, ?_⟩
  · intro hstatus
    rw [hstatus] at hover
    cases hover
  · intro hstatus
    rw [hstatus] at hover
    cases hover
  · intro hstatus
    rw [hstatus] at hover
    cases hover

section Examples

/-- The views of a node that is connected, and of one that is not -/
def edgeView (id : Str) (connected : Bool) : SchedNode :=
  { id := id, type := .edge, weight := 100, status := str "active", connected := connected,
    grid := none, load := 0 }

/-- A node connects and gets its first assignment; the frame is in flight. -/
def assigned : List Label :=
  [.connect (str "e1"), .register (str "e1"), .reofferEnd 0,
    .schedule counting [edgeView (str "e1") true] 0 true, .fetch true, .push true, .release]

/-- What the row of the first assignment says, and whether it was revoked at some time -/
def firstTest (status : Status) (down : Bool) (s : State) : Bool :=
  s.rows[0]?.any (fun a => a.status = status) && s.downs 0 = down

end Examples

/-- The edge has stopped the worker before the row is written. -/
theorem revoked_stays_down_stopped :
    ∃ s, Reached (step roundRobinEnv) (undisturbed roundRobinEnv) State.init s ∧
      s.downs 0 = true ∧ s.late = false ∧ ∀ id a, s.rows[id]? = some a →
        (a.status = .revoked → s.downs id = true) ∧
        (s.downs id = true →
          a.status ≠ .pending ∧ a.status ≠ .offered ∧ a.status ≠ .running) := by
  obtain ⟨s, hreached, htest⟩ := exists_reached (step roundRobinEnv) (undisturbed roundRobinEnv)
    State.init
    (assigned ++ [.deliver (str "e1"), .status (str "e1") 0 .running none, .revokeRead 0,
      .revokeSend 0 true, .deliver (str "e1"), .revokeWrite 0 true,
      .status (str "e1") 0 .stopped (some (str "revoked")), .retryRead, .release])
    (firstTest .stopped true) (by decide)
  simp only [firstTest, Bool.and_eq_true, decide_eq_true_eq] at htest
  exact ⟨s, hreached, htest.2, revoked_stays_down roundRobinEnv s hreached⟩

/-- The edge starts the worker just before the revoke frame; its report comes behind the write
and the row is running again. -/
theorem late_report_revives_revoked :
    ∃ s, Reached (step roundRobinEnv) (fun _ _ => true) State.init s ∧
      s.downs 0 = true ∧ ∃ a, s.rows[0]? = some a ∧ a.status = .running := by
  obtain ⟨s, hreached, htest⟩ := exists_reached (step roundRobinEnv) (fun _ _ => true) State.init
    (assigned ++ [.deliver (str "e1"), .revokeRead 0, .revokeSend 0 true, .revokeWrite 0 true,
      .status (str "e1") 0 .running none])
    (firstTest .running true) (by decide)
  simp only [firstTest, Bool.and_eq_true, Option.any_eq_true, decide_eq_true_eq] at htest
  exact ⟨s, hreached, htest.2, htest.1⟩

end StreamHub.Edge.Calls
