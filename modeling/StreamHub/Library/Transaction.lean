import StreamHub.Library.Transition

/-!
# Requests that read, compute and write

A request reads the stored value in one step, computes what to write from it on
its own, and writes in a later step.  `write` may look at the stored value again
and may fail; a failed write leaves the stored value alone.  An answer of the
environment (the disk, a remote party) is part of the label of the write.

If no request reads while another one is between its two steps, the stored value
is that of the successful requests made one after the other (`serial_of_reached`).
-/

namespace StreamHub.Library.Transaction

open Transition Function

variable {σ τ ε ι ω : Type}

/-- Where a request stands. -/
inductive Phase (τ ε : Type)
  | waiting
  | prepared (t : τ)
  | done (result : Except ε Unit)

def Phase.isPrepared : Phase τ ε → Bool
  | .prepared _ => true
  | _ => false

def Phase.succeeded : Phase τ ε → Bool
  | .done (.ok _) => true
  | _ => false

structure State (σ τ ε ι : Type) where
  stored : σ
  phase : ι → Phase τ ε

inductive Label (ι ω : Type)
  | read (i : ι)
  | write (i : ι) (answer : ω)

def start (c : σ) : State σ τ ε ι := { stored := c, phase := fun _ => .waiting }

section System

variable (prepare : ι → σ → Except ε τ) (commit : ι → ω → τ → σ → Except ε σ)

/-- A request made in one step. -/
def attempt (c : σ) (request : ι × ω) : Except ε σ :=
  match prepare request.1 c with
  | .ok t => commit request.1 request.2 t c
  | .error e => .error e

/-- Requests made one after the other, all successful. -/
def serially : σ → List (ι × ω) → Except ε σ
  | c, [] => .ok c
  | c, request :: rest =>
    match attempt prepare commit c request with
    | .ok c => serially c rest
    | .error e => .error e

lemma serially_append {c d : σ} {requests : List (ι × ω)} {request : ι × ω}
    (h : serially prepare commit c requests = .ok d) :
    serially prepare commit c (requests ++ [request]) = attempt prepare commit d request := by
  induction requests generalizing c with
  | nil =>
    cases h
    rw [List.nil_append, serially]
    split
    · rename_i hattempt
      rw [hattempt]
      rfl
    · rename_i hattempt
      rw [hattempt]
  | cons first rest ih =>
    rw [serially] at h
    rw [List.cons_append, serially]
    split at h
    · exact ih h
    · cases h

/-- The stored value is that of the successful requests one after the other, and
whoever has still to write prepared from it, alone. -/
structure Serial (c : σ) (s : State σ τ ε ι) (order : List (ι × ω)) : Prop where
  nodup : (order.map Prod.fst).Nodup
  mem_iff : ∀ i, i ∈ order.map Prod.fst ↔ (s.phase i).succeeded = true
  stored : serially prepare commit c order = .ok s.stored
  prepared : ∀ i t, s.phase i = .prepared t → prepare i s.stored = .ok t
  alone : ∀ i j, (s.phase i).isPrepared = true → (s.phase j).isPrepared = true → i = j

/-- Some order of the successful requests explains the state. -/
def Serializable (c : σ) (s : State σ τ ε ι) : Prop :=
  ∃ order : List (ι × ω), Serial prepare commit c s order

lemma Serial.start {prepare : ι → σ → Except ε τ} {commit : ι → ω → τ → σ → Except ε σ}
    {c : σ} : Serial prepare commit c (Transaction.start c : State σ τ ε ι)
    ([] : List (ι × ω)) := by
  refine ⟨List.nodup_nil, fun i => ?_, rfl, fun i t hi => ?_, fun i j hi => ?_⟩
  · simp [Transaction.start, Phase.succeeded]
  · cases hi
  · cases hi

variable [DecidableEq ι]

def State.setPhase (s : State σ τ ε ι) (i : ι) (p : Phase τ ε) : State σ τ ε ι :=
  { s with phase := update s.phase i p }

/-- The request `i` has written `c`. -/
def State.written (s : State σ τ ε ι) (i : ι) (c : σ) : State σ τ ε ι :=
  { stored := c, phase := update s.phase i (.done (.ok ())) }

/-- One step of a request. -/
def step (s : State σ τ ε ι) : Label ι ω → Option (State σ τ ε ι)
  | .read i =>
    match s.phase i with
    | .waiting =>
      match prepare i s.stored with
      | .ok t => some (s.setPhase i (.prepared t))
      | .error e => some (s.setPhase i (.done (.error e)))
    | _ => none
  | .write i answer =>
    match s.phase i with
    | .prepared t =>
      match commit i answer t s.stored with
      | .ok c => some (s.written i c)
      | .error e => some (s.setPhase i (.done (.error e)))
    | _ => none

/-- No request reads while another one has still to write. -/
def alone [Fintype ι] (s : State σ τ ε ι) : Label ι ω → Bool
  | .read i => decide (∀ j, j ≠ i → (s.phase j).isPrepared = false)
  | .write _ _ => true

variable {prepare commit} {c : σ} {s t : State σ τ ε ι}

variable {order : List (ι × ω)}

/-- A request that ends without success changes nothing of the order. -/
lemma Serial.setPhase (h : Serial prepare commit c s order) {i : ι} {p : Phase τ ε}
    (hbefore : (s.phase i).succeeded = false) (hafter : p.succeeded = false)
    (hprepared : ∀ t, p = .prepared t → prepare i s.stored = .ok t)
    (halone : p.isPrepared = true → ∀ j, j ≠ i → (s.phase j).isPrepared = false) :
    Serial prepare commit c (s.setPhase i p) order := by
  have hphase : ∀ j, j ≠ i → (s.setPhase i p).phase j = s.phase j := fun j hj =>
    update_of_ne hj _ _
  have hself : (s.setPhase i p).phase i = p := update_self _ _ _
  refine ⟨h.nodup, fun j => ?_, h.stored, fun j t hj => ?_, fun j k hj hk => ?_⟩
  · by_cases hji : j = i
    · rw [hji, h.mem_iff, hself, hbefore, hafter]
    · rw [hphase j hji]
      exact h.mem_iff j
  · by_cases hji : j = i
    · rw [hji, hself] at hj
      rw [hji]
      exact hprepared t hj
    · rw [hphase j hji] at hj
      exact h.prepared j t hj
  · by_cases hji : j = i <;> by_cases hki : k = i
    · rw [hji, hki]
    · rw [hji, hself] at hj
      rw [hphase k hki, halone hj k hki] at hk
      cases hk
    · rw [hki, hself] at hk
      rw [hphase j hji, halone hk j hji] at hj
      cases hj
    · rw [hphase j hji] at hj
      rw [hphase k hki] at hk
      exact h.alone j k hj hk

/-- A successful write is the next request of the order. -/
lemma Serial.written (h : Serial prepare commit c s order) {i : ι} {p : τ} {answer : ω} {d : σ}
    (hphase : s.phase i = .prepared p) (hcommit : commit i answer p s.stored = .ok d) :
    Serial prepare commit c (s.written i d) (order ++ [(i, answer)]) := by
  have hnew : i ∉ order.map Prod.fst := by
    rw [h.mem_iff, hphase]
    exact Bool.false_ne_true
  have hself : (s.written i d).phase i = .done (.ok ()) := update_self _ _ _
  have hother : ∀ j, j ≠ i → (s.written i d).phase j = s.phase j := fun j hj =>
    update_of_ne hj _ _
  have hnone : ∀ j, ((s.written i d).phase j).isPrepared = false := by
    intro j
    by_cases hji : j = i
    · rw [hji, hself]
      rfl
    rw [hother j hji]
    by_contra hj
    rw [Bool.not_eq_false] at hj
    exact hji (h.alone j i hj (by rw [hphase]; rfl))
  refine ⟨?_, fun j => ?_, ?_, fun j t hj => ?_, fun j k hj _ => ?_⟩
  · rw [List.map_append, List.nodup_append']
    exact ⟨h.nodup, List.nodup_singleton i, by simpa using hnew⟩
  · rw [List.map_append, List.mem_append, h.mem_iff]
    by_cases hji : j = i
    · rw [hji, hself]
      simp [Phase.succeeded]
    · rw [hother j hji]
      simp [hji]
  · rw [serially_append prepare commit h.stored, attempt, h.prepared i p hphase]
    exact hcommit
  · have hj' := hnone j
    rw [hj] at hj'
    cases hj'
  · rw [hnone j] at hj
    cases hj

lemma Serial.step [Fintype ι] (h : Serial prepare commit c s order) {l : Label ι ω}
    (hguard : Transaction.alone s l = true)
    (hstep : Transaction.step prepare commit s l = some t) : Serializable prepare commit c t := by
  cases l with
  | read i =>
    have halone : ∀ j, j ≠ i → (s.phase j).isPrepared = false := of_decide_eq_true hguard
    rw [Transaction.step] at hstep
    split at hstep
    · rename_i hwaiting
      split at hstep <;> cases hstep
      · rename_i p hprepare
        refine ⟨order, h.setPhase (by rw [hwaiting]; rfl) rfl ?_ fun _ => halone⟩
        rintro _ ⟨⟩
        exact hprepare
      · exact ⟨order, h.setPhase (by rw [hwaiting]; rfl) rfl (by simp) (by simp [Phase.isPrepared])⟩
    · cases hstep
  | write i answer =>
    rw [Transaction.step] at hstep
    split at hstep
    · rename_i p hprepared
      split at hstep <;> cases hstep
      · rename_i d hcommit
        exact ⟨_, h.written hprepared hcommit⟩
      · exact ⟨order, h.setPhase (by rw [hprepared]; rfl) rfl (by simp) (by simp [Phase.isPrepared])⟩
    · cases hstep

lemma serial_of_reached [Fintype ι]
    (h : Reached (Transaction.step prepare commit) Transaction.alone (Transaction.start c) s) :
    Serializable prepare commit c s := by
  refine h.invariant ⟨[], Serial.start⟩ ?_
  rintro s t l ⟨order, hs⟩ hguard hstep
  exact hs.step hguard hstep

end System

end StreamHub.Library.Transaction
