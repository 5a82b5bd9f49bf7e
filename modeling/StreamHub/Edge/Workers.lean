import StreamHub.Edge.Revocation

/-!
# The workers of the edges

An edge keeps its workers while it is not connected, and when it registers again the master only
sends it more work: nothing tells it what was moved away or revoked meanwhile.  So a failover
from a node that is only unreachable leaves the assignment running twice, and a revoke frame that
is lost leaves a worker of a revoked assignment.

`sound_of_reached` is the joint invariant of the rows and the edges, in runs where neither
happens and no assignment is in the hands of two calls; `workers_follow_rows` is what it says
once everything has settled.
-/

namespace StreamHub.Edge.Calls

open Library Text Transition List Function

/-! ## The workers behind the frames in flight -/

/-- The workers of an edge once it has taken the frames -/
def settle (workers : ℕ → Bool) (queue : List Frame) : ℕ → Bool := queue.foldl applyFrame workers

/-- The frame starts a worker of the assignment. -/
def assigns (id : ℕ) : Frame → Bool
  | .assign k _ => k = id
  | .revoke _ => false

/-- The frame stops one of the workers. -/
def stops (workers : ℕ → Bool) : Frame → Bool
  | .assign _ _ => false
  | .revoke id => workers id

lemma settle_append (workers : ℕ → Bool) (queue : List Frame) (frame : Frame) :
    settle workers (queue ++ [frame]) = applyFrame (settle workers queue) frame := by
  rw [settle, foldl_append]
  rfl

variable {workers : ℕ → Bool} {id : ℕ}

lemma applyFrame_eq_true {frame : Frame} (h : applyFrame workers frame id = true) :
    workers id = true ∨ assigns id frame = true := by
  cases frame with
  | assign k a =>
    by_cases heq : id = k
    · exact .inr (decide_eq_true heq.symm)
    rw [applyFrame, update_of_ne heq] at h
    exact .inl h
  | revoke k =>
    by_cases heq : id = k
    · rw [applyFrame, heq, update_self] at h
      cases h
    · rw [applyFrame, update_of_ne heq] at h
      exact .inl h

lemma settle_eq_false {queue : List Frame} (hworker : workers id = false)
    (hqueue : ∀ frame ∈ queue, assigns id frame = false) : settle workers queue id = false := by
  induction queue generalizing workers with
  | nil => exact hworker
  | cons frame queue ih =>
    refine ih ?_ fun f hf => hqueue f (mem_cons_of_mem _ hf)
    by_contra hrun
    rcases applyFrame_eq_true (Bool.eq_true_of_not_eq_false hrun) with hold | hnew
    · rw [hworker] at hold
      cases hold
    · rw [hqueue frame mem_cons_self] at hnew
      cases hnew

lemma settle_eq_true {queue : List Frame} (hworker : workers id = true)
    (hqueue : ∀ frame ∈ queue, frame ≠ .revoke id) : settle workers queue id = true := by
  induction queue generalizing workers with
  | nil => exact hworker
  | cons frame queue ih =>
    refine ih ?_ fun f hf => hqueue f (mem_cons_of_mem _ hf)
    have hframe := hqueue frame mem_cons_self
    cases frame with
    | assign k a =>
      by_cases heq : id = k
      · rw [applyFrame, heq, update_self]
      · rw [applyFrame, update_of_ne heq, hworker]
    | revoke k =>
      have hne : id ≠ k := fun heq => hframe (heq ▸ rfl)
      rw [applyFrame, update_of_ne hne, hworker]

/-! ## The invariant -/

namespace Tables

variable (T : Tables)

/-- The edge has a worker of the assignment, or a frame that starts one is in flight. -/
def busy (node : Str) (id : ℕ) : Bool := T.workers node id || (T.queue node).any (assigns id)

/-- No edge has a worker of the assignment once it has taken its frames. -/
def Stopped (id : ℕ) : Prop := ∀ node, settle (T.workers node) (T.queue node) id = false

/-- The frames in flight may be lost: none of them stops a worker. -/
def losable (node : Str) : Bool := !(T.queue node).any (stops (T.workers node))

variable {T}

lemma settle_of_not_busy {node : Str} {id : ℕ} (h : T.busy node id = false) :
    settle (T.workers node) (T.queue node) id = false := by
  obtain ⟨hworker, hqueue⟩ := Bool.or_eq_false_iff.mp h
  refine settle_eq_false hworker fun frame hframe => ?_
  exact Bool.eq_false_of_not_eq_true (any_eq_false.mp hqueue frame hframe)

end Tables

/-- What a call knows of an assignment in its hand -/
def Grip.Holds (T : Tables) (id : ℕ) : Grip → Prop
  | .live node => ∃ a, T.rows[id]? = some a ∧ a.nodeId = node ∧ a.status ≠ .revoked
  | .leaving node => ∃ a, T.rows[id]? = some a ∧ a.nodeId = node
  | .gone => (∃ a, T.rows[id]? = some a) ∧ T.Stopped id

lemma Grip.Holds.row {T : Tables} {grip : Grip} (h : grip.Holds T id) :
    ∃ a, T.rows[id]? = some a := by
  cases grip with
  | live node | leaving node =>
    obtain ⟨a, ha, -⟩ := h
    exact ⟨a, ha⟩
  | gone => exact h.1

/-- It holds on where the row is the same and what was stopped stays so. -/
lemma Grip.Holds.mono {T T' : Tables} {grip : Grip} (h : grip.Holds T id)
    (hrow : ∀ a, T.rows[id]? = some a → T'.rows[id]? = some a)
    (hstopped : T.Stopped id → T'.Stopped id) : grip.Holds T' id := by
  cases grip with
  | live node | leaving node =>
    obtain ⟨a, ha, hnode⟩ := h
    exact ⟨a, hrow a ha, hnode⟩
  | gone =>
    obtain ⟨⟨a, ha⟩, hstop⟩ := h
    exact ⟨⟨a, hrow a ha⟩, hstopped hstop⟩

/-- No assignment is in two hands, every call is right about what it has in hand, an edge only
has workers of assignments whose row names it, and revoked assignments are stopped. -/
structure Sound (T : Tables) (g : List (ℕ × Grip)) : Prop where
  nodup : (g.map Prod.fst).Nodup
  held : ∀ x ∈ g, x.2.Holds T x.1
  named : ∀ node, T.connected node = true → node ≠ [] ∧ node ∈ T.known
  placed : ∀ node id, T.busy node id = true →
    node ≠ [] ∧ node ∈ T.known ∧ ∃ a, T.rows[id]? = some a ∧ a.nodeId = node
  revoked : ∀ id a, T.rows[id]? = some a → a.status = .revoked → T.Stopped id

/-- A read takes nothing that another call has in hand; a row is moved, by a write that
succeeds, only away from a node that does not have its worker; and no revoke frame is lost that
stops a worker. -/
def Act.orderly (T : Tables) (g : List (ℕ × Grip)) : Act → Bool
  | .take taken => taken.all fun x => !(g.map Prod.fst).contains x.1
  | .reassign id old node written => written && (node = old || !T.busy old id)
  | .withdraw id node sent => sent || !T.busy node id
  | .connect node => T.losable node
  | .lose node => T.losable node
  | _ => true

/-- The same for a step -/
def orderly (env : Env) (s : State) (l : Label) : Bool := (act env s l).orderly s.tables s.grips

namespace Sound

variable {T : Tables} {g g' : List (ℕ × Grip)}

lemma subperm (h : Sound T g) (hg : g'.Subperm g) : Sound T g' := by
  refine ⟨?_, fun x hx => h.held x (hg.subset hx), h.named, h.placed, h.revoked⟩
  obtain ⟨l, hperm, hsub⟩ := hg
  exact ((hperm.map Prod.fst).nodup_iff).mp (h.nodup.sublist (hsub.map Prod.fst))

lemma perm (h : Sound T g) (hg : g.Perm g') : Sound T g' := h.subperm hg.symm.subperm

lemma eq_of_mem (h : Sound T g) {id : ℕ} {p q : Grip} (hp : (id, p) ∈ g) (hq : (id, q) ∈ g) :
    p = q := congrArg Prod.snd (inj_on_of_nodup_map h.nodup hp hq rfl)

/-- A write that leaves the node as it is and revokes nothing but what is stopped and in no
hand -/
lemma modify (h : Sound T g) {id : ℕ} {f : Assignment → Assignment}
    (hnode : ∀ a, (f a).nodeId = a.nodeId)
    (hrevoked : ∀ a, T.rows[id]? = some a → (f a).status = .revoked →
      a.status = .revoked ∨ T.Stopped id ∧ ∀ node, (id, Grip.live node) ∉ g) :
    Sound { T with rows := T.rows.modify id f } g := by
  -- every row is there, on its node, and what is new about it is that it may be revoked
  have hrow : ∀ k a, T.rows[k]? = some a →
      ∃ b, (T.rows.modify id f)[k]? = some b ∧ b.nodeId = a.nodeId ∧
        (b.status = .revoked → a.status = .revoked ∨
          T.Stopped k ∧ ∀ node, (k, Grip.live node) ∉ g) := by
    intro k a ha
    by_cases heq : id = k
    · subst heq
      refine ⟨f a, ?_, hnode a, hrevoked a ha⟩
      rw [getElem?_modify_eq, ha]
      rfl
    · exact ⟨a, by rw [getElem?_modify_ne _ _ heq, ha], rfl, fun hstatus => .inl hstatus⟩
  refine ⟨h.nodup, ?_, h.named, ?_, ?_⟩
  · intro x hx
    obtain ⟨k, grip⟩ := x
    have hheld := h.held _ hx
    cases grip with
    | live node =>
      obtain ⟨a, ha, ha', hstatus⟩ := hheld
      obtain ⟨b, hb, hb', hb''⟩ := hrow k a ha
      refine ⟨b, hb, hb'.trans ha', fun hrev => ?_⟩
      rcases hb'' hrev with hold | hnew
      · exact hstatus hold
      · exact hnew.2 node hx
    | leaving node =>
      obtain ⟨a, ha, ha'⟩ := hheld
      obtain ⟨b, hb, hb', -⟩ := hrow k a ha
      exact ⟨b, hb, hb'.trans ha'⟩
    | gone =>
      obtain ⟨⟨a, ha⟩, hstopped⟩ := hheld
      obtain ⟨b, hb, -, -⟩ := hrow k a ha
      exact ⟨⟨b, hb⟩, hstopped⟩
  · intro node k hbusy
    obtain ⟨hne, hknown, a, ha, ha'⟩ := h.placed node k hbusy
    obtain ⟨b, hb, hb', -⟩ := hrow k a ha
    exact ⟨hne, hknown, b, hb, hb'.trans ha'⟩
  · intro k b hb hstatus
    obtain ⟨a, ha, -⟩ := Rows.getElem?_modify_eq_some hb
    obtain ⟨b', hb', -, hrev⟩ := hrow k a ha
    obtain rfl : b = b' := Option.some.inj (hb.symm.trans hb')
    rcases hrev hstatus with hold | hnew
    · exact h.revoked k a ha hold
    · exact hnew.1

/-- The frames and the workers change, so that nothing is busy that was not and what was stopped
stays so. -/
lemma edges (h : Sound T g) {T' : Tables} (hrows : T'.rows = T.rows)
    (hnamed : ∀ node, T'.connected node = true → node ≠ [] ∧ node ∈ T'.known)
    (hknown : ∀ node, node ∈ T.known → node ∈ T'.known)
    (hbusy : ∀ node id, T'.busy node id = true → T.busy node id = true)
    (hstopped : ∀ id, T.Stopped id → T'.Stopped id) : Sound T' g := by
  refine ⟨h.nodup, ?_, hnamed, ?_, ?_⟩
  · intro x hx
    refine (h.held x hx).mono (fun a ha => ?_) (hstopped x.1)
    rw [hrows, ha]
  · intro node id hid
    obtain ⟨hne, hmem, hrow⟩ := h.placed node id (hbusy node id hid)
    rw [hrows]
    exact ⟨hne, hknown node hmem, hrow⟩
  · intro id a ha hstatus
    rw [hrows] at ha
    exact hstopped id (h.revoked id a ha hstatus)

end Sound

section Run

variable {T : Tables} {g g' : List (ℕ × Grip)}

lemma sound_insert (h : Sound T g) {a : Assignment} (hmoves : (Act.insert a).Moves T g g') :
    Sound ((Act.insert a).run T) g' := by
  obtain ⟨hlive, hg⟩ := hmoves
  have hstatus : a.status ≠ .revoked := by
    intro hrev
    rw [hrev] at hlive
    cases hlive
  have hlast : (T.rows ++ [a])[T.rows.length]? = some a := by simp
  have hrow : ∀ (k : ℕ) b, T.rows[k]? = some b → (T.rows ++ [a])[k]? = some b := by
    intro k b hb
    rw [getElem?_append_left (List.getElem?_eq_some_iff.mp hb).1, hb]
  have hold : Sound ((Act.insert a).run T) g := by
    refine ⟨h.nodup, ?_, h.named, ?_, ?_⟩
    · exact fun x hx => (h.held x hx).mono (hrow x.1) fun hstop => hstop
    · intro node k hbusy
      obtain ⟨hne, hknown, b, hb, hb'⟩ := h.placed node k hbusy
      exact ⟨hne, hknown, b, hrow k b hb, hb'⟩
    · intro k b hb hrev
      have hb' : (T.rows ++ [a])[k]? = some b := hb
      rw [getElem?_append] at hb'
      split at hb'
      · exact h.revoked k b hb' hrev
      obtain ⟨_, heq⟩ := List.getElem?_eq_some_iff.mp hb'
      rw [getElem_singleton] at heq
      exact absurd (heq ▸ hrev) hstatus
  by_cases hnode : a.nodeId = []
  · rw [if_pos hnode] at hg
    exact hold.perm hg.symm
  rw [if_neg hnode] at hg
  refine Sound.perm ⟨?_, ?_, hold.named, hold.placed, hold.revoked⟩ hg.symm
  · -- the new row is in no other hand
    refine nodup_cons.mpr ⟨?_, h.nodup⟩
    intro hmem
    obtain ⟨x, hx, hid⟩ := mem_map.mp hmem
    obtain ⟨b, hb⟩ := (h.held x hx).row
    rw [hid] at hb
    exact Nat.lt_irrefl _ (List.getElem?_eq_some_iff.mp hb).1
  · intro x hx
    rcases mem_cons.mp hx with rfl | hx
    · exact ⟨a, hlast, rfl, hstatus⟩
    · exact hold.held x hx

lemma sound_take (h : Sound T g) {taken : List (ℕ × Grip)}
    (hmoves : (Act.take taken).Moves T g g') (hguard : (Act.take taken).orderly T g = true) :
    Sound T g' := by
  obtain ⟨hg, hnodup, hread⟩ := hmoves
  refine Sound.perm ⟨?_, ?_, h.named, h.placed, h.revoked⟩ hg.symm
  · rw [map_append]
    refine hnodup.append h.nodup ?_
    intro id hnew hold
    obtain ⟨x, hx, rfl⟩ := mem_map.mp hnew
    have hfree := all_eq_true.mp hguard x hx
    rw [contains_iff_mem.mpr hold] at hfree
    cases hfree
  · intro x hx
    rcases mem_append.mp hx with hnew | hold
    · obtain ⟨id, grip⟩ := x
      have hrow := hread _ hnew
      cases grip with
      | live node =>
        obtain ⟨a, ha, hnode, hlive⟩ := hrow
        refine ⟨a, ha, hnode, fun hrev => ?_⟩
        rw [hrev] at hlive
        cases hlive
      | leaving node => exact hrow
      | gone => exact hrow.elim
    · exact h.held x hold

variable {id : ℕ} {node : Str}

section

variable (h : Sound T g)

include h

lemma sound_reassign {old : Str} {written : Bool}
    (hmoves : (Act.reassign id old node written).Moves T g g')
    (hguard : (Act.reassign id old node written).orderly T g = true) :
    Sound ((Act.reassign id old node written).run T) g' := by
  obtain ⟨others, hg, hg'⟩ := hmoves
  obtain ⟨rfl, hidle⟩ := Bool.and_eq_true_iff.mp hguard
  have hs := h.perm hg
  obtain ⟨hfresh, hnodup⟩ := nodup_cons.mp hs.nodup
  obtain ⟨a, ha, hold, -⟩ := hs.held _ mem_cons_self
  have hself : (T.rows.modify id (setNode node))[id]? = some (setNode node a) := by
    rw [getElem?_modify_eq, ha]
    rfl
  have hother : ∀ k, k ≠ id → (T.rows.modify id (setNode node))[k]? = T.rows[k]? := fun k hk =>
    getElem?_modify_ne _ _ (Ne.symm hk)
  change Sound { T with rows := T.rows.modify id (setNode node) } g'
  refine Sound.perm (g := (id, .live node) :: others)
    ⟨nodup_cons.mpr ⟨hfresh, hnodup⟩, ?_, h.named, ?_, ?_⟩ hg'.symm
  · intro x hx
    rcases mem_cons.mp hx with rfl | hx
    · exact ⟨_, hself, rfl, fun hrev => by cases hrev⟩
    have hne : x.1 ≠ id := fun heq => hfresh (mem_map.mpr ⟨x, hx, heq⟩)
    refine (hs.held x (mem_cons_of_mem _ hx)).mono (fun b hb => ?_) fun hstop => hstop
    exact (hother x.1 hne).trans hb
  · intro node' k hbusy
    obtain ⟨hne, hknown, b, hb, hb'⟩ := h.placed node' k hbusy
    refine ⟨hne, hknown, ?_⟩
    by_cases heq : k = id
    · -- only the node that it is moved from has its worker
      subst heq
      obtain rfl : a = b := Option.some.inj (ha.symm.trans hb)
      obtain rfl : old = node' := hold.symm.trans hb'
      rcases Bool.or_eq_true_iff.mp hidle with hsame | hnot
      · exact ⟨_, hself, of_decide_eq_true hsame⟩
      change T.busy old k = true at hbusy
      rw [hbusy] at hnot
      cases hnot
    · rw [hother k heq]
      exact ⟨b, hb, hb'⟩
  · intro k b hb hrev
    by_cases heq : k = id
    · subst heq
      obtain rfl : setNode node a = b := Option.some.inj (hself.symm.trans hb)
      cases hrev
    · have hb' : T.rows[k]? = some b := (hother k heq).symm.trans hb
      exact h.revoked k b hb' hrev

lemma sound_mark {status : Status} {detail : Option Str}
    (hmoves : (Act.mark id node status detail).Moves T g g') :
    Sound ((Act.mark id node status detail).run T) g' := by
  obtain ⟨hlive, others, hg, hg'⟩ := hmoves
  have hs : Sound T g' :=
    h.subperm (hg'.subperm.trans ((sublist_cons_self _ _).subperm.trans hg.symm.subperm))
  refine hs.modify (fun _ => rfl) ?_
  intro a _ hrev
  have hrev' : status = .revoked := hrev
  rw [hrev'] at hlive
  cases hlive

lemma sound_report (node : Str) (id : ℕ) (status : Reported)
    (detail : Option Str) : Sound ((Act.report node id status detail).run T) g := by
  refine h.modify ?_ ?_
  · intro a
    unfold setReported
    split <;> rfl
  · intro a _ hrev
    unfold setReported at hrev
    split at hrev
    · cases status <;> cases hrev
    · exact .inl hrev

lemma sound_retire (hmoves : (Act.retire id).Moves T g g') : Sound ((Act.retire id).run T) g' := by
  obtain ⟨others, hg, hg'⟩ := hmoves
  have hs := h.perm hg
  obtain ⟨-, hstopped⟩ := hs.held _ mem_cons_self
  have hs' : Sound T g' := hs.subperm (hg'.subperm.trans (sublist_cons_self _ _).subperm)
  have hfree : ∀ node, (id, Grip.live node) ∉ g' := by
    intro node hmem
    have hfresh := (nodup_cons.mp hs.nodup).1
    exact hfresh (mem_map.mpr ⟨_, hg'.mem_iff.mp hmem, rfl⟩)
  have hrow : Sound { T with rows := T.rows.modify id (setStatus .revoked none) } g' :=
    hs'.modify (fun _ => rfl) fun _ _ _ => .inr ⟨hstopped, hfree⟩
  exact ⟨hrow.nodup, hrow.held, hrow.named, hrow.placed, hrow.revoked⟩

lemma sound_offer {a : Assignment}
    (hmoves : (Act.offer id node a).Moves T g g') : Sound ((Act.offer id node a).run T) g' := by
  obtain ⟨hconnected, hheld, hg⟩ := hmoves
  obtain ⟨hne, hknown⟩ := h.named node hconnected
  obtain ⟨b, hb, hnode, hstatus⟩ := h.held _ hheld
  -- only this assignment is busy or runs where it was not
  have hbusy : ∀ node' k, ((Act.offer id node a).run T).busy node' k = true →
      T.busy node' k = true ∨ node' = node ∧ k = id := by
    intro node' k hk
    by_cases heq : node' = node
    · subst heq
      rcases Bool.or_eq_true_iff.mp hk with hworker | hqueue
      · exact .inl (Bool.or_eq_true_iff.mpr (.inl hworker))
      change (update T.queue node' (T.queue node' ++ [.assign id a]) node').any _ =
        true at hqueue
      rw [update_self, any_append] at hqueue
      rcases Bool.or_eq_true_iff.mp hqueue with hold | hnew
      · exact .inl (Bool.or_eq_true_iff.mpr (.inr hold))
      simp only [any_cons, any_nil, Bool.or_false, assigns, decide_eq_true_eq] at hnew
      exact .inr ⟨rfl, hnew.symm⟩
    · refine .inl ?_
      change (T.workers node' k || (update T.queue node _ node').any _) = true at hk
      rwa [update_of_ne heq] at hk
  have hstopped : ∀ k, k ≠ id → T.Stopped k → ((Act.offer id node a).run T).Stopped k := by
    intro k hk hstop node'
    change settle (T.workers node')
      (update T.queue node (T.queue node ++ [.assign id a]) node') k = false
    by_cases heq : node' = node
    · subst heq
      rw [update_self, settle_append, applyFrame, update_of_ne hk]
      exact hstop node'
    · rw [update_of_ne heq]
      exact hstop node'
  refine Sound.subperm ⟨h.nodup, ?_, h.named, ?_, ?_⟩ hg
  · intro x hx
    by_cases heq : x.1 = id
    · obtain ⟨k, grip⟩ := x
      obtain rfl : k = id := heq
      obtain rfl : grip = .live node := h.eq_of_mem hx hheld
      exact ⟨b, hb, hnode, hstatus⟩
    · exact (h.held x hx).mono (fun _ hrow => hrow) (hstopped x.1 heq)
  · intro node' k hk
    rcases hbusy node' k hk with hold | ⟨rfl, rfl⟩
    · exact h.placed node' k hold
    · exact ⟨hne, hknown, b, hb, hnode⟩
  · intro k c hc hrev
    refine hstopped k ?_ (h.revoked k c hc hrev)
    rintro rfl
    obtain rfl : b = c := Option.some.inj (hb.symm.trans hc)
    exact hstatus hrev

/-- A revoke frame starts nothing. -/
lemma sound_enqueue_revoke (node : Str) (id : ℕ) :
    Sound { T with queue := update T.queue node (T.queue node ++ [.revoke id]) } g := by
  refine h.edges rfl h.named (fun _ hmem => hmem) ?_ ?_
  · intro node' k hk
    change (T.workers node' k || (update T.queue node _ node').any _) = true at hk
    by_cases heq : node' = node
    · subst heq
      simpa [Tables.busy, assigns] using hk
    · rwa [update_of_ne heq] at hk
  · intro k hstop node'
    change settle (T.workers node')
      (update T.queue node (T.queue node ++ [.revoke id]) node') k = false
    by_cases heq : node' = node
    · subst heq
      rw [update_self, settle_append, applyFrame]
      by_cases hk : k = id
      · rw [hk, update_self]
      rw [update_of_ne hk]
      exact hstop node'
    · rw [update_of_ne heq]
      exact hstop node'

/-- Only the node that its row names can have a worker of an assignment. -/
lemma Sound.stopped_elsewhere {node' : Str} (hheld : (id, Grip.leaving node) ∈ g)
    (hne : node' ≠ node) : settle (T.workers node') (T.queue node') id = false := by
  refine Tables.settle_of_not_busy (Bool.eq_false_of_not_eq_true fun hbusy => ?_)
  obtain ⟨a, ha, hnode⟩ := h.held _ hheld
  obtain ⟨-, -, b, hb, hnode'⟩ := h.placed node' id hbusy
  obtain rfl : a = b := Option.some.inj (ha.symm.trans hb)
  exact hne (hnode'.symm.trans hnode)

lemma sound_withdraw {sent : Bool} (hmoves : (Act.withdraw id node sent).Moves T g g')
    (hguard : (Act.withdraw id node sent).orderly T g = true) :
    Sound ((Act.withdraw id node sent).run T) g' := by
  obtain ⟨-, others, hg, hg'⟩ := hmoves
  have hheld : (id, Grip.leaving node) ∈ g := hg.mem_iff.mpr mem_cons_self
  have hrun : Sound ((Act.withdraw id node sent).run T) g := by
    cases sent with
    | false => exact h
    | true => exact sound_enqueue_revoke h node id
  have hstopped : ((Act.withdraw id node sent).run T).Stopped id := by
    intro node'
    by_cases heq : node' = node
    · subst heq
      cases sent with
      | false =>
        have hidle : T.busy node' id = false := by simpa [Act.orderly] using hguard
        exact Tables.settle_of_not_busy hidle
      | true =>
        change settle (T.workers node')
          (update T.queue node' (T.queue node' ++ [.revoke id]) node') id = false
        rw [update_self, settle_append, applyFrame, update_self]
    · exact hrun.stopped_elsewhere hheld heq
  have hs := hrun.perm hg
  refine Sound.perm (g := (id, .gone) :: others) ⟨hs.nodup, ?_, hs.named, hs.placed, hs.revoked⟩
    hg'.symm
  intro x hx
  rcases mem_cons.mp hx with rfl | hx
  · exact ⟨(hs.held _ mem_cons_self).row, hstopped⟩
  · exact hs.held x (mem_cons_of_mem _ hx)

/-- Frames are lost, none of which stops a worker. -/
lemma sound_lose (hlosable : T.losable node = true) : Sound ((Act.lose node).run T) g := by
  refine h.edges rfl h.named (fun _ hmem => hmem) ?_ ?_
  · intro node' k hk
    change (T.workers node' k || (update T.queue node [] node').any _) = true at hk
    by_cases heq : node' = node
    · subst heq
      rw [update_self, any_nil, Bool.or_false] at hk
      exact Bool.or_eq_true_iff.mpr (.inl hk)
    · rwa [update_of_ne heq] at hk
  · intro k hstop node'
    change settle (T.workers node') (update T.queue node [] node') k = false
    by_cases heq : node' = node
    · subst heq
      rw [update_self]
      by_contra hrun
      have hworker : T.workers node' k = true := Bool.eq_true_of_not_eq_false hrun
      have hnone : ∀ frame ∈ T.queue node', frame ≠ .revoke k := by
        rintro frame hframe rfl
        have hany : (T.queue node').any (stops (T.workers node')) = true :=
          any_eq_true.mpr ⟨_, hframe, hworker⟩
        rw [Tables.losable, hany] at hlosable
        cases hlosable
      have hsettled := hstop node'
      rw [settle_eq_true hworker hnone] at hsettled
      cases hsettled
    · rw [update_of_ne heq]
      exact hstop node'

lemma sound_connect (hne : node ≠ []) (hlosable : T.losable node = true) :
    Sound ((Act.connect node).run T) g := by
  refine (sound_lose h hlosable).edges rfl ?_ (fun _ hmem => mem_cons_of_mem _ hmem)
    (fun _ _ hbusy => hbusy) fun _ hstop => hstop
  intro node' hconnected
  change update T.connected node true node' = true at hconnected
  by_cases heq : node' = node
  · subst heq
    exact ⟨hne, mem_cons_self⟩
  · rw [update_of_ne heq] at hconnected
    exact ⟨(h.named node' hconnected).1, mem_cons_of_mem _ (h.named node' hconnected).2⟩

lemma sound_disconnect (node : Str) : Sound ((Act.disconnect node).run T) g := by
  refine h.edges rfl ?_ (fun _ hmem => hmem) (fun _ _ hbusy => hbusy) fun _ hstop => hstop
  intro node' hconnected
  change update T.connected node false node' = true at hconnected
  by_cases heq : node' = node
  · rw [heq, update_self] at hconnected
    cases hconnected
  · rw [update_of_ne heq] at hconnected
    exact h.named node' hconnected

/-- The edge takes a frame: what it comes to is the same. -/
lemma sound_deliver (node : Str) : Sound ((Act.deliver node).run T) g := by
  cases hqueue : T.queue node with
  | nil =>
    have hsame : (Act.deliver node).run T = T := by
      simp only [Act.run, hqueue, tail_nil, head?_nil, Option.elim_none, update_eq_self]
      rw [← hqueue, update_eq_self]
    rw [hsame]
    exact h
  | cons frame rest =>
    refine h.edges rfl h.named (fun _ hmem => hmem) ?_ ?_
    · intro node' k hk
      simp only [Tables.busy, Act.run, hqueue, tail_cons, head?_cons, Option.elim_some] at hk ⊢
      by_cases heq : node' = node
      · subst heq
        rw [update_self, update_self] at hk
        rw [hqueue, any_cons]
        rcases Bool.or_eq_true_iff.mp hk with hworker | hlater
        · rcases applyFrame_eq_true hworker with hold | hnew
          · rw [hold, Bool.true_or]
          · rw [hnew, Bool.true_or, Bool.or_true]
        · rw [hlater, Bool.or_true, Bool.or_true]
      · rwa [update_of_ne heq, update_of_ne heq] at hk
    · intro k hstop node'
      simp only [Act.run, hqueue, tail_cons, head?_cons, Option.elim_some]
      by_cases heq : node' = node
      · subst heq
        rw [update_self, update_self]
        have hsettled := hstop node'
        rw [hqueue] at hsettled
        exact hsettled
      · rw [update_of_ne heq, update_of_ne heq]
        exact hstop node'

/-- Every orderly act keeps the invariant. -/
lemma sound_run {act : Act} (hmoves : act.Moves T g g')
    (hguard : act.orderly T g = true) : Sound (act.run T) g' := by
  cases act with
  | insert a => exact sound_insert h hmoves
  | take taken => exact sound_take h hmoves hguard
  | reassign id old node written => exact sound_reassign h hmoves hguard
  | mark id node status detail => exact sound_mark h hmoves
  | offer id node a => exact sound_offer h hmoves
  | withdraw id node sent => exact sound_withdraw h hmoves hguard
  | retire id => exact sound_retire h hmoves
  | report node id status detail =>
    cases hmoves
    exact sound_report h node id status detail
  | connect node =>
    obtain ⟨hne, rfl⟩ := hmoves
    exact sound_connect h hne hguard
  | disconnect node =>
    cases hmoves
    exact sound_disconnect h node
  | lose node =>
    cases hmoves
    exact sound_lose h hguard
  | deliver node =>
    cases hmoves
    exact sound_deliver h node
  | restart =>
    cases hmoves
    refine Sound.edges (h.subperm (nil_subperm)) rfl ?_ (fun _ hmem => hmem)
      (fun _ _ hbusy => hbusy) fun _ hstop => hstop
    intro node hconnected
    cases hconnected
  | idle => exact h.subperm hmoves

end

end Run

lemma sound_of_reached {env : Env} {s : State}
    (h : Reached (step env) (orderly env) State.init s) : Sound s.tables s.grips := by
  have hinit : Sound State.init.tables State.init.grips := by
    refine ⟨nodup_nil, ?_, ?_, ?_, ?_⟩
    · intro x hx
      cases hx
    · intro node hconnected
      cases hconnected
    · intro node id hbusy
      cases hbusy
    · intro id a ha
      cases ha
  refine @Reached.invariant _ _ (step env) (orderly env) State.init s
    (fun t => Sound t.tables t.grips) hinit ?_ h
  intro s t l hs hguard hstep
  have hperforms := performs_of_step hstep
  rw [hperforms.tables]
  exact sound_run hs hperforms.moves hguard

/-- No call is in progress, every node is connected and has registered since it was not, and all
frames have been delivered. -/
def settled (s : State) : Bool :=
  s.holder.isNone && s.calls.isEmpty &&
    s.known.all fun node => s.connected node && s.registered node && (s.queue node).isEmpty

/-- In every run where no read takes an assignment that another call has in hand, rows are only
moved, by writes that succeed, from nodes without their worker, and no revoke frame is lost that
stops a worker: once all has settled an assignment has a worker only on the node that its row
names, so at most on one, and none if its row is revoked. -/
theorem workers_follow_rows (env : Env) (s : State)
    (h : Reached (step env) (orderly env) State.init s) (hsettled : settled s = true) (id : ℕ) :
    (∀ node, s.workers node id = true →
      ∃ a, s.rows[id]? = some a ∧ a.nodeId = node ∧ a.status ≠ .revoked) ∧
    ∀ node node', s.workers node id = true → s.workers node' id = true → node = node' := by
  have hsound := sound_of_reached h
  have hrow : ∀ node, s.workers node id = true →
      ∃ a, s.rows[id]? = some a ∧ a.nodeId = node ∧ a.status ≠ .revoked := by
    intro node hworker
    obtain ⟨-, hknown, a, ha, hnode⟩ :=
      hsound.placed node id (Bool.or_eq_true_iff.mpr (.inl hworker))
    refine ⟨a, ha, hnode, fun hrev => ?_⟩
    have hstopped := hsound.revoked id a ha hrev node
    -- the edge has taken all its frames
    have hempty : s.queue node = [] := by
      have hnode' := all_eq_true.mp (Bool.and_eq_true_iff.mp hsettled).2 node hknown
      exact List.isEmpty_iff.mp (Bool.and_eq_true_iff.mp hnode').2
    change settle (s.workers node) (s.queue node) id = false at hstopped
    rw [hempty] at hstopped
    change s.workers node id = false at hstopped
    rw [hworker] at hstopped
    cases hstopped
  refine ⟨hrow, ?_⟩
  intro node node' hworker hworker'
  obtain ⟨a, ha, hnode, -⟩ := hrow node hworker
  obtain ⟨b, hb, hnode', -⟩ := hrow node' hworker'
  obtain rfl : a = b := Option.some.inj (ha.symm.trans hb)
  exact hnode.symm.trans hnode'

section Examples

/-- All has settled, and these nodes have a worker of the first assignment or not. -/
def workersTest (first second : Bool) (s : State) : Bool :=
  settled s && s.workers (str "e1") 0 = first && s.workers (str "e2") 0 = second

/-- A second node connects. -/
def joined : List Label := [.connect (str "e2"), .register (str "e2"), .reofferEnd 0]

end Examples

/-- The frame is lost with the connection before the edge has it, and the assignment is moved to
another node. -/
theorem workers_follow_rows_moved :
    ∃ s, Reached (step roundRobinEnv) (orderly roundRobinEnv) State.init s ∧
      settled s = true ∧ s.workers (str "e2") 0 = true ∧
      (∀ node, s.workers node 0 = true →
        ∃ a, s.rows[0]? = some a ∧ a.nodeId = node ∧ a.status ≠ .revoked) ∧
      ∀ node node', s.workers node 0 = true → s.workers node' 0 = true → node = node' := by
  obtain ⟨s, hreached, htest⟩ := exists_reached (step roundRobinEnv) (orderly roundRobinEnv)
    State.init
    (assigned ++ joined ++ [.disconnect (str "e1"), .lose (str "e1"),
      .downRead (str "e1") [edgeView (str "e1") false, edgeView (str "e2") true] (fun _ => 0),
      .downTurn true, .fetch true, .push true, .release, .deliver (str "e2"),
      .status (str "e2") 0 .running none, .connect (str "e1"), .register (str "e1"),
      .reofferEnd 0])
    (workersTest false true) (by decide)
  simp only [workersTest, Bool.and_eq_true, decide_eq_true_eq] at htest
  exact ⟨s, hreached, htest.1.1, htest.2, workers_follow_rows roundRobinEnv s hreached htest.1.1 0⟩

/-- The node has its worker and is only unreachable for a while: behind the failover the
assignment runs on two nodes, and nothing stops it on the first. -/
theorem failover_leaves_two_workers :
    ∃ s, Reached (step roundRobinEnv) (fun _ _ => true) State.init s ∧ settled s = true ∧
      s.workers (str "e1") 0 = true ∧ s.workers (str "e2") 0 = true := by
  obtain ⟨s, hreached, htest⟩ := exists_reached (step roundRobinEnv) (fun _ _ => true) State.init
    (assigned ++ joined ++ [.deliver (str "e1"), .status (str "e1") 0 .running none,
      .disconnect (str "e1"),
      .downRead (str "e1") [edgeView (str "e1") false, edgeView (str "e2") true] (fun _ => 0),
      .downTurn true, .fetch true, .push true, .release, .deliver (str "e2"),
      .status (str "e2") 0 .running none, .connect (str "e1"), .register (str "e1"),
      .status (str "e1") 0 .running none, .reofferEnd 0])
    (workersTest true true) (by decide)
  simp only [workersTest, Bool.and_eq_true, decide_eq_true_eq] at htest
  exact ⟨s, hreached, htest.1.1, htest.1.2, htest.2⟩

end StreamHub.Edge.Calls
