import StreamHub.Library.Text
import StreamHub.Library.Transition

/-!
# Sessions and the cache in front of them

A session is a row of the database; a lookup that finds the row live puts it in a cache for ten
seconds.  Revoking a session or pinning a tenant on it changes the row and then removes the cache
entry.  Each call is a sequence of steps, one for each statement and one for each use of the
cache, and the steps of different calls interleave with any readings of the clock.

A lookup, or the creation of a session, that read the row before a change may put it in the
cache after the call that made the change has returned, and is believed for ten seconds.  In
runs where no cache entry comes that late every lookup that begins after such a return reports
the change (`reports_of_reached`).
-/

namespace StreamHub.Authn

open Library Text Transition List Function

/-- A row of `sessions`.  `pins` are the tenants that were pinned on it, the last one first. -/
structure Row where
  user : Str
  revoked : Bool
  pins : List Str
  deriving DecidableEq

/-- `activeSession`, with the pins of the row that it was made from -/
structure Entry where
  expires : Int
  pins : List Str
  deriving DecidableEq

/-- `tenant_id`; none is pinned at first. -/
def tenantOf (pins : List Str) : Str := pins.headD []

/-- What had returned when a lookup began: a revocation of the session, and how many pins. -/
structure Begun where
  ended : Bool
  pinned : ℕ
  deriving DecidableEq

/-- A call between two of its steps. -/
inductive Call
  /-- `Create` behind its INSERT -/
  | created (sid : Str)
  /-- `Lookup` that found nothing in the cache -/
  | missed (sid : Str) (begun : Begun)
  /-- `Lookup` behind its query, with the row if there was one -/
  | fetched (sid : Str) (begun : Begun) (row : Option Row)
  /-- `SetTenant` behind its UPDATE, with the number of pins if a row was changed -/
  | pinned (sid : Str) (count : Option ℕ)
  /-- `Revoke` behind its UPDATE, which marked the session or not -/
  | revoked (sid : Str) (marked : Bool)
  /-- `RevokeOthers` behind its UPDATE, with the sessions that were marked -/
  | revokedOthers (exceptSID : Str) (marked : Str → Bool)

/-- What a lookup returned. -/
structure Report where
  sid : Str
  begun : Begun
  live : Bool
  pins : List Str
  deriving DecidableEq

/-- The tenant that the lookup returned. -/
def Report.tenant (r : Report) : Str := tenantOf r.pins

/-- The table, the cache, the calls under way; the sessions whose revocation has returned, how
many pins of each have, and what lookups have reported. -/
structure State where
  rows : Str → Option Row
  active : Str → Option Entry
  calls : List Call
  ended : Str → Bool
  pinned : Str → ℕ
  reports : List Report

def State.empty : State := ⟨fun _ => none, fun _ => none, [], fun _ => false, fun _ => 0, []⟩

/-- `activeCacheTTL`, in nanoseconds -/
def activeCacheTTL : Int := 10000000000

inductive Label
  | create (user sid : Str)
  | lookup (sid : Str) (now : Int)
  | query (k : ℕ) (answered : Bool)
  | fill (k : ℕ) (now : Int)
  | setTenant (user sid tenant : Str) (answered : Bool)
  | revoke (user sid : Str) (answered : Bool)
  | revokeOthers (user exceptSID : Str) (answered : Bool)
  | clear (k : ℕ)

namespace State

variable (s : State)

def call (c : Call) : State := { s with calls := s.calls ++ [c] }

def done (k : ℕ) : State := { s with calls := s.calls.eraseIdx k }

def report (r : Report) : State := { s with reports := s.reports ++ [r] }

def cache (sid : Str) (e : Option Entry) : State :=
  { s with active := Function.update s.active sid e }

/-- `UPDATE sessions SET …` of one live session of the user -/
def update (user sid : Str) (f : Row → Row) : Option State :=
  match s.rows sid with
  | some row =>
    if row.user = user ∧ row.revoked = false then
      some { s with rows := Function.update s.rows sid (some (f row)) }
    else none
  | none => none

/-- The live sessions of the user but one -/
def others (user exceptSID : Str) (sid : Str) : Bool :=
  (s.rows sid).any (fun row => row.user = user && !row.revoked) && sid ≠ exceptSID

end State

def Row.revoke (row : Row) : Row := { row with revoked := true }

def Row.pin (tenant : Str) (row : Row) : Row := { row with pins := tenant :: row.pins }

/-- `UPDATE sessions SET revoked_at …` of all of them -/
def State.revokeOthers (s : State) (user exceptSID : Str) (sid : Str) : Option Row :=
  if s.others user exceptSID sid = true then (s.rows sid).map Row.revoke else s.rows sid

/-- The second part of `Create` and the third of `Lookup`, which returns. -/
def fill (s : State) (k : ℕ) (now : Int) : Option State :=
  match s.calls[k]? with
  | some (.created sid) => some ((s.done k).cache sid (some ⟨now + activeCacheTTL, []⟩))
  | some (.fetched sid begun row) =>
    match row with
    | none => some (((s.done k).cache sid none).report ⟨sid, begun, false, []⟩)
    | some row =>
      if row.revoked then
        some (((s.done k).cache sid none).report ⟨sid, begun, false, row.pins⟩)
      else
        some (((s.done k).cache sid (some ⟨now + activeCacheTTL, row.pins⟩)).report
          ⟨sid, begun, true, row.pins⟩)
  | _ => none

/-- The second part of `SetTenant`, `Revoke` and `RevokeOthers`, which returns. -/
def clear (s : State) (k : ℕ) : Option State :=
  match s.calls[k]? with
  | some (.pinned sid count) =>
    some { (s.done k).cache sid none with
      pinned := update s.pinned sid (max (s.pinned sid) (count.getD 0)) }
  | some (.revoked sid marked) =>
    some { (s.done k).cache sid none with
      ended := update s.ended sid (s.ended sid || marked) }
  | some (.revokedOthers exceptSID marked) =>
    some { s.done k with
      active := fun sid => if sid = exceptSID ∧ exceptSID ≠ [] then s.active sid else none
      ended := fun sid => s.ended sid || marked sid }
  | _ => none

def step (s : State) : Label → Option State
  | .create user sid =>
    match s.rows sid with
    | some _ => none
    | none =>
      if sid = [] then none
      else
        some (State.call { s with
          rows := update s.rows sid (some ⟨user, false, []⟩) } (.created sid))
  | .lookup sid now =>
    let begun : Begun := ⟨s.ended sid, s.pinned sid⟩
    if sid = [] then some (s.report ⟨sid, begun, false, []⟩)
    else
      match s.active sid with
      | some e =>
        if now < e.expires then some (s.report ⟨sid, begun, true, e.pins⟩)
        else some (s.call (.missed sid begun))
      | none => some (s.call (.missed sid begun))
  | .query k answered =>
    match s.calls[k]? with
    | some (.missed sid begun) =>
      some ((s.done k).call (.fetched sid begun (if answered then s.rows sid else none)))
    | _ => none
  | .fill k now => fill s k now
  | .setTenant user sid tenant answered =>
    if answered then
      match s.update user sid (Row.pin tenant) with
      | some s' => some (s'.call (.pinned sid ((s'.rows sid).map fun row => row.pins.length)))
      | none => some (s.call (.pinned sid none))
    else some s
  | .revoke user sid answered =>
    match if answered then s.update user sid Row.revoke else none with
    | some s' => some (s'.call (.revoked sid true))
    | none => some (s.call (.revoked sid false))
  | .revokeOthers user exceptSID answered =>
    if answered then
      some (State.call { s with rows := s.revokeOthers user exceptSID }
        (.revokedOthers exceptSID (s.others user exceptSID)))
    else some (s.call (.revokedOthers exceptSID fun _ => false))
  | .clear k => clear s k

/-! ## When lookups are right -/

/-- What a lookup reports is not from before what had returned when it began. -/
structure Report.Right (r : Report) : Prop where
  live : r.live = true → r.begun.ended = false
  tenant : r.live = true → r.begun.pinned ≤ r.pins.length

/-- Nothing is put in the cache that was read before a change whose call has returned. -/
def timely (s : State) : Label → Bool
  | .fill k _ =>
    match s.calls[k]? with
    | some (.created sid) => !s.ended sid && s.pinned sid == 0
    | some (.fetched sid _ (some row)) =>
      row.revoked || (!s.ended sid && s.pinned sid ≤ row.pins.length)
    | _ => true
  | _ => true

/-! ## What the calls under way know -/

namespace State

variable (s : State)

/-- `revoked_at` of the row is set. -/
def isRevoked (sid : Str) : Bool := (s.rows sid).any Row.revoked

/-- How many tenants were pinned on the row. -/
def pinCount (sid : Str) : ℕ := ((s.rows sid).map fun row => row.pins.length).getD 0

end State

/-- Rows only change forwards: a revocation is never undone and a pin never forgotten. -/
structure Later (s t : State) : Prop where
  revoked : ∀ sid, s.isRevoked sid = true → t.isRevoked sid = true
  pins : ∀ sid, s.pinCount sid ≤ t.pinCount sid

lemma Later.of_rows {s t : State} (h : t.rows = s.rows) : Later s t := by
  constructor
  · intro sid hs
    rw [State.isRevoked, h]
    exact hs
  · intro sid
    rw [State.pinCount, State.pinCount, h]

/-- A row that is written in place, revoked only further and with the pins it had. -/
lemma later_update {s : State} {sid : Str} {row : Row}
    (hrevoked : s.isRevoked sid = true → row.revoked = true)
    (hpins : s.pinCount sid ≤ row.pins.length) :
    Later s { s with rows := update s.rows sid (some row) } := by
  constructor
  · intro other hother
    by_cases heq : other = sid
    · subst heq
      simpa [State.isRevoked] using hrevoked hother
    · simpa [State.isRevoked, heq] using hother
  · intro other
    by_cases heq : other = sid
    · subst heq
      simpa [State.pinCount] using hpins
    · simp [State.pinCount, heq]

lemma update_eq_some {s s' : State} {user sid : Str} {f : Row → Row}
    (h : s.update user sid f = some s') : ∃ row, s.rows sid = some row ∧ row.revoked = false ∧
      s' = { s with rows := update s.rows sid (some (f row)) } := by
  unfold State.update at h
  split at h
  · rename_i row hrow
    split at h
    · rename_i hlive
      cases h
      exact ⟨row, hrow, hlive.2, rfl⟩
    · cases h
  · cases h

/-- What a call carries is not ahead of the table: what it saw returned is there, and so is what
it wrote itself.  A row that was read live knows of everything that had returned by then. -/
def Call.Sound (s : State) : Call → Prop
  | .created _ => True
  | .missed sid begun =>
    (begun.ended = true → s.isRevoked sid = true) ∧ begun.pinned ≤ s.pinCount sid
  | .fetched _ begun row =>
    ∀ r, row = some r → r.revoked = false → begun.ended = false ∧ begun.pinned ≤ r.pins.length
  | .pinned sid count => count.getD 0 ≤ s.pinCount sid
  | .revoked sid marked => marked = true → s.isRevoked sid = true
  | .revokedOthers exceptSID marked =>
    marked exceptSID = false ∧ ∀ sid, marked sid = true → s.isRevoked sid = true

lemma Call.Sound.later {s t : State} {c : Call} (h : c.Sound s) (hlater : Later s t) :
    c.Sound t := by
  cases c with
  | created sid => trivial
  | missed sid begun => exact ⟨fun hb => hlater.revoked sid (h.1 hb), h.2.trans (hlater.pins sid)⟩
  | fetched sid begun row => exact h
  | pinned sid count => exact le_trans h (hlater.pins sid)
  | revoked sid marked => exact fun hm => hlater.revoked sid (h hm)
  | revokedOthers exceptSID marked => exact ⟨h.1, fun sid hm => hlater.revoked sid (h.2 sid hm)⟩

/-- What has returned is in the table, the cache holds nothing older than that, and neither do
the calls under way nor the reports. -/
structure Coherent (s : State) : Prop where
  ended : ∀ sid, s.ended sid = true → s.isRevoked sid = true
  pinned : ∀ sid, s.pinned sid ≤ s.pinCount sid
  active : ∀ sid e, s.active sid = some e → s.ended sid = false ∧ s.pinned sid ≤ e.pins.length
  calls : ∀ c ∈ s.calls, c.Sound s
  reports : ∀ r ∈ s.reports, r.Right

lemma coherent_empty : Coherent State.empty := by constructor <;> simp [State.empty]

namespace Coherent

variable {s : State}

section

variable (h : Coherent s)

include h

lemma call_rows {rows : Str → Option Row} {c : Call} (hlater : Later s { s with rows := rows })
    (hc : c.Sound { s with rows := rows }) : Coherent (State.call { s with rows := rows } c) where
  ended sid hsid := hlater.revoked sid (h.ended sid hsid)
  pinned sid := (h.pinned sid).trans (hlater.pins sid)
  active := h.active
  calls := by
    refine forall_mem_append.mpr ⟨fun d hd => ?_, forall_mem_singleton.mpr hc⟩
    exact (h.calls d hd).later ⟨hlater.revoked, hlater.pins⟩
  reports := h.reports

lemma call {c : Call} (hc : c.Sound s) : Coherent (s.call c) := h.call_rows (Later.of_rows rfl) hc

lemma done (k : ℕ) : Coherent (s.done k) where
  ended := h.ended
  pinned := h.pinned
  active := h.active
  calls c hc := h.calls c (mem_of_mem_eraseIdx hc)
  reports := h.reports

lemma report {r : Report} (hr : r.Right) : Coherent (s.report r) where
  ended := h.ended
  pinned := h.pinned
  active := h.active
  calls := h.calls
  reports := forall_mem_append.mpr ⟨h.reports, forall_mem_singleton.mpr hr⟩

lemma cache {sid : Str} {e : Option Entry}
    (he : ∀ e', e = some e' → s.ended sid = false ∧ s.pinned sid ≤ e'.pins.length) :
    Coherent (s.cache sid e) where
  ended := h.ended
  pinned := h.pinned
  active := by
    intro other e' he'
    by_cases heq : other = sid
    · subst heq
      exact he e' (by simpa [State.cache] using he')
    · exact h.active other e' (by simpa [State.cache, heq] using he')
  calls := h.calls
  reports := h.reports

lemma uncache (sid : Str) : Coherent (s.cache sid none) := h.cache (fun e' he' => by cases he')

end

end Coherent

/-! ## One lemma for each kind of step -/

section Steps

variable {s t : State}

section

variable (h : Coherent s)

include h

lemma coherent_fill {k : ℕ} {now : Int}
    (hguard : timely s (.fill k now) = true) (hfill : fill s k now = some t) : Coherent t := by
  unfold fill at hfill
  unfold timely at hguard
  split at hfill
  · rename_i sid hk
    cases hfill
    simp only [hk, Bool.and_eq_true, Bool.not_eq_true', beq_iff_eq] at hguard
    apply (h.done k).cache
    rintro _ ⟨⟩
    exact ⟨hguard.1, hguard.2.le⟩
  · rename_i sid begun row hk
    have hcall := h.calls _ (mem_of_getElem? hk)
    split at hfill
    · cases hfill
      refine ((h.done k).uncache sid).report ⟨?_, ?_⟩ <;> intro hlive <;> cases hlive
    rename_i row
    split at hfill
    · cases hfill
      refine ((h.done k).uncache sid).report ⟨?_, ?_⟩ <;> intro hlive <;> cases hlive
    rename_i hlive
    cases hfill
    have hlive' : row.revoked = false := by simpa using hlive
    have hright := hcall row rfl hlive'
    simp only [hk, hlive', Bool.false_or, Bool.and_eq_true, Bool.not_eq_true',
      decide_eq_true_eq] at hguard
    refine ((h.done k).cache ?_).report ⟨fun _ => hright.1, fun _ => hright.2⟩
    rintro _ ⟨⟩
    exact hguard
  · cases hfill

/-- When a call that writes returns, what it wrote is in the table and out of the cache. -/
lemma coherent_clear {k : ℕ} (hclear : clear s k = some t) : Coherent t := by
  unfold clear at hclear
  split at hclear
  · rename_i sid count hk
    have hcall := h.calls _ (mem_of_getElem? hk)
    cases hclear
    have hs := (h.done k).uncache sid
    refine ⟨hs.ended, ?_, ?_, hs.calls, hs.reports⟩
    · intro other
      by_cases heq : other = sid
      · subst heq
        simpa using ⟨h.pinned other, hcall⟩
      · change update s.pinned sid _ other ≤ s.pinCount other
        rw [update_of_ne heq]
        exact h.pinned other
    · intro other e he
      by_cases heq : other = sid
      · subst heq
        simp [State.cache] at he
      · change s.ended other = false ∧ update s.pinned sid _ other ≤ e.pins.length
        rw [update_of_ne heq]
        exact hs.active other e he
  · rename_i sid marked hk
    have hcall := h.calls _ (mem_of_getElem? hk)
    cases hclear
    have hs := (h.done k).uncache sid
    refine ⟨?_, hs.pinned, ?_, hs.calls, hs.reports⟩
    · intro other hother
      by_cases heq : other = sid
      · subst heq
        rcases Bool.or_eq_true_iff.mp (by simpa using hother) with hold | hnew
        · exact h.ended other hold
        · exact hcall hnew
      · exact h.ended other (by simpa [heq] using hother)
    · intro other e he
      by_cases heq : other = sid
      · subst heq
        simp [State.cache] at he
      · change update s.ended sid _ other = false ∧ s.pinned other ≤ e.pins.length
        rw [update_of_ne heq]
        exact hs.active other e he
  · rename_i exceptSID marked hk
    have hcall := h.calls _ (mem_of_getElem? hk)
    cases hclear
    have hs := h.done k
    refine ⟨?_, hs.pinned, ?_, hs.calls, hs.reports⟩
    · intro other hother
      rcases Bool.or_eq_true_iff.mp hother with hold | hnew
      · exact h.ended other hold
      · exact hcall.2 other hnew
    · intro other e he
      -- only the session that is excepted stays in the cache, and it was not marked
      dsimp only at he
      split at he
      · rename_i hexcept
        have hactive := h.active other e he
        refine ⟨?_, hactive.2⟩
        change (s.ended other || marked other) = false
        rw [hactive.1, hexcept.1, hcall.1]
        rfl
      · cases he
  · cases hclear

lemma coherent_lookup {sid : Str} {now : Int}
    (hstep : step s (.lookup sid now) = some t) : Coherent t := by
  have hmissed : (Call.missed sid ⟨s.ended sid, s.pinned sid⟩).Sound s :=
    ⟨h.ended sid, h.pinned sid⟩
  rw [step] at hstep
  split at hstep
  · cases hstep
    refine h.report ⟨?_, ?_⟩ <;> intro hlive <;> cases hlive
  split at hstep
  · rename_i e he
    split at hstep
    · cases hstep
      have hactive := h.active sid e he
      exact h.report ⟨fun _ => hactive.1, fun _ => hactive.2⟩
    · cases hstep
      exact h.call hmissed
  · cases hstep
    exact h.call hmissed

lemma coherent_query {k : ℕ} {answered : Bool}
    (hstep : step s (.query k answered) = some t) : Coherent t := by
  rw [step] at hstep
  split at hstep
  · rename_i sid begun hk
    have hcall := h.calls _ (mem_of_getElem? hk)
    cases hstep
    refine (h.done k).call ?_
    intro row hrow hlive
    split at hrow
    · have hcount : s.pinCount sid = row.pins.length := by rw [State.pinCount, hrow]; rfl
      have hrevoked : s.isRevoked sid = false := by
        rw [State.isRevoked, hrow]
        exact hlive
      refine ⟨?_, hcount ▸ hcall.2⟩
      cases hended : begun.ended with
      | false => rfl
      | true =>
        have := hcall.1 hended
        rw [hrevoked] at this
        cases this
    · cases hrow
  · cases hstep

lemma coherent_create {user sid : Str}
    (hstep : step s (.create user sid) = some t) : Coherent t := by
  rw [step] at hstep
  split at hstep
  · cases hstep
  rename_i hnone
  split at hstep
  · cases hstep
  cases hstep
  refine h.call_rows (later_update ?_ ?_) trivial
  · intro hrevoked
    simp [State.isRevoked, hnone] at hrevoked
  · simp [State.pinCount, hnone]

lemma coherent_setTenant {user sid tenant : Str} {answered : Bool}
    (hstep : step s (.setTenant user sid tenant answered) = some t) : Coherent t := by
  rw [step] at hstep
  split at hstep
  · split at hstep
    · rename_i s' hs'
      obtain ⟨row, hrow, hlive, rfl⟩ := update_eq_some hs'
      cases hstep
      refine h.call_rows (later_update ?_ ?_) ?_
      · intro hrevoked
        simp [State.isRevoked, hrow, hlive] at hrevoked
      · simp [State.pinCount, hrow, Row.pin]
      · simp [Call.Sound, State.pinCount]
    · cases hstep
      exact h.call (Nat.zero_le _)
  · cases hstep
    exact h

lemma coherent_revoke {user sid : Str} {answered : Bool}
    (hstep : step s (.revoke user sid answered) = some t) : Coherent t := by
  rw [step] at hstep
  split at hstep
  · rename_i s' hs'
    split at hs'
    · obtain ⟨row, hrow, -, rfl⟩ := update_eq_some hs'
      cases hstep
      refine h.call_rows (later_update ?_ ?_) ?_
      · exact fun _ => rfl
      · simp [State.pinCount, hrow, Row.revoke]
      · simp [Call.Sound, State.isRevoked, Row.revoke]
    · cases hs'
  · cases hstep
    refine h.call ?_
    intro hmarked
    cases hmarked

end

lemma isRevoked_revokeOthers (s : State) (user exceptSID sid : Str) :
    State.isRevoked { s with rows := s.revokeOthers user exceptSID } sid =
      (s.isRevoked sid || s.others user exceptSID sid) := by
  unfold State.isRevoked
  dsimp only
  unfold State.revokeOthers
  split
  · rename_i hother
    cases hrow : s.rows sid with
    | none => simp [State.others, hrow] at hother
    | some row => simp [hother, Row.revoke]
  · rename_i hother
    simp [hother]

lemma coherent_revokeOthers (h : Coherent s) {user exceptSID : Str} {answered : Bool}
    (hstep : step s (.revokeOthers user exceptSID answered) = some t) : Coherent t := by
  rw [step] at hstep
  split at hstep
  · cases hstep
    refine h.call_rows ⟨?_, ?_⟩ ⟨?_, ?_⟩
    · intro sid hsid
      rw [isRevoked_revokeOthers, hsid]
      rfl
    · intro sid
      unfold State.pinCount
      dsimp only
      unfold State.revokeOthers
      split
      · rw [Option.map_map]
        rfl
      · exact le_rfl
    · simp [State.others]
    · intro sid hsid
      rw [isRevoked_revokeOthers, hsid, Bool.or_true]
  · cases hstep
    refine h.call ⟨rfl, ?_⟩
    intro sid hsid
    cases hsid

end Steps

lemma coherent_step {s t : State} {l : Label} (h : Coherent s) (hguard : timely s l = true)
    (hstep : step s l = some t) : Coherent t := by
  cases l with
  | create user sid => exact coherent_create h hstep
  | lookup sid now => exact coherent_lookup h hstep
  | query k answered => exact coherent_query h hstep
  | fill k now => exact coherent_fill h hguard hstep
  | setTenant user sid tenant answered => exact coherent_setTenant h hstep
  | revoke user sid answered => exact coherent_revoke h hstep
  | revokeOthers user exceptSID answered => exact coherent_revokeOthers h hstep
  | clear k => exact coherent_clear h hstep

/-! ## The results -/

/-- In every interleaving without a late fill, no lookup reports a session live that a call had
ended when the lookup began, nor a tenant from before one that had been pinned by then. -/
theorem reports_of_reached (s : State) (h : Reached step timely State.empty s) :
    ∀ r ∈ s.reports, r.Right :=
  Coherent.reports (h.invariant coherent_empty fun _ _ _ => coherent_step)

/-- A session is created, used, moved to a tenant and ended, one call after the other. -/
theorem reports_of_reached_orderly :
    ∃ s, Reached step timely State.empty s ∧
      (s.reports.map fun r => (r.live, r.begun.pinned, r.tenant)) =
        [(true, 0, []), (true, 1, str "team"), (false, 1, str "team")] ∧
      ∀ r ∈ s.reports, r.Right := by
  obtain ⟨s, hreached, htest⟩ := exists_reached step timely State.empty
    [.create (str "ana") (str "s1"), .fill 0 0, .lookup (str "s1") 1,
      .setTenant (str "ana") (str "s1") (str "team") true, .clear 0,
      .lookup (str "s1") 2, .query 0 true, .fill 0 3,
      .revoke (str "ana") (str "s1") true, .clear 0,
      .lookup (str "s1") 4, .query 0 true, .fill 0 5]
    (fun s => decide ((s.reports.map fun r => (r.live, r.begun.pinned, r.tenant)) =
      [(true, 0, []), (true, 1, str "team"), (false, 1, str "team")]))
    (by decide)
  exact ⟨s, hreached, of_decide_eq_true htest, reports_of_reached s hreached⟩

/-- A lookup reads the row live, the session is revoked and the call returns, and then the lookup
fills the cache: the next one finds the session live. -/
theorem late_fill_revives_session :
    ∃ s, Reached step (fun _ _ => true) State.empty s ∧
      ∃ r ∈ s.reports, r.begun.ended = true ∧ r.live = true := by
  obtain ⟨s, hreached, htest⟩ := exists_reached step (fun _ _ => true) State.empty
    [.create (str "ana") (str "s1"), .fill 0 0,
      .lookup (str "s1") 20000000000, .query 0 true,
      .revoke (str "ana") (str "s1") true, .clear 1,
      .fill 0 20000000000, .lookup (str "s1") 21000000000]
    (fun s => s.reports.any fun r => r.begun.ended && r.live) (by decide)
  obtain ⟨r, hr, hlive⟩ := any_eq_true.mp htest
  exact ⟨s, hreached, r, hr, Bool.and_eq_true_iff.mp hlive⟩

end StreamHub.Authn
