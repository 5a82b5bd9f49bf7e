import StreamHub.Auth.Requests

/-!
# Sessions after a password change

A password reset and a change of the own password end the sessions of the user.
A login that has read the old hash creates its session without another look at the
user, so it may do so after the others have ended.  `fresh` is the condition under
which no such session is left, and it is exact.
-/

namespace StreamHub.Auth

open Library Library.Text Library.Transition

/-- No session is left of a login with an older password than that of the latest
completed change. -/
def OldSessionsEnded (s : State) : Prop :=
  ∀ x ∈ s.sessions.m, ∀ version, x.origin = .login version → s.ended x.user ≤ version

/-- A login creates its session only if no change of the password it was verified
against has ended the sessions of its user. -/
def fresh (s : State) : Label → Bool
  | .next i _ =>
    match s.request i with
    | .creating u version => decide (s.ended u.name ≤ version)
    | _ => true
  | _ => true

/-! ## What a step does to the sessions -/

/-- The ways in which a step can change the sessions. -/
inductive SessionEffect (s t : State) (l : Label) : Prop
  | keeps (hfresh : fresh s l = true)
      (hm : ∀ x ∈ t.sessions.m, x.origin = .change ∨
        ∃ y ∈ s.sessions.m, x.user = y.user ∧ x.origin = y.origin)
      (hended : t.ended = s.ended)
  | logsIn (u : User) (version : Nat) (hfresh : fresh s l = decide (s.ended u.name ≤ version))
      (hm : ∀ x ∈ t.sessions.m, (x.user = u.name ∧ x.origin = .login version) ∨ x ∈ s.sessions.m)
      (hnew : ∃ x ∈ t.sessions.m, x.user = u.name ∧ x.origin = .login version)
      (hended : t.ended = s.ended)
  | purges (name : Str) (hfresh : fresh s l = true)
      (hm : ∀ x ∈ t.sessions.m, x ∈ s.sessions.m ∧ x.user ≠ name)
      (hended : ∀ n, n ≠ name → t.ended n = s.ended n)

variable {c : Setup} {a : Outside} {s t : State} {i : Nat} {l : Label}

lemma SessionEffect.same (hfresh : fresh s l = true) (hsessions : t.sessions = s.sessions)
    (hended : t.ended = s.ended) : SessionEffect s t l := by
  refine .keeps hfresh (fun x hx => .inr ⟨x, ?_, rfl, rfl⟩) hended
  rwa [hsessions] at hx

lemma SessionEffect.less (hfresh : fresh s l = true)
    (hm : ∀ x ∈ t.sessions.m, x ∈ s.sessions.m) (hended : t.ended = s.ended) :
    SessionEffect s t l := .keeps hfresh (fun x hx => .inr ⟨x, hm x hx, rfl, rfl⟩) hended

lemma SessionEffect.purge {name : Str} {version : Option Nat} (hfresh : fresh s l = true)
    (p : Progress) : SessionEffect s ((s.purge name version).put i p) l := by
  refine .purges name hfresh (fun x hx => Sessions.mem_deleteUser hx) fun n hn => ?_
  cases version with
  | none => rfl
  | some v => exact Function.update_of_ne hn _ _

lemma loginStep_sessions (h : loginStep c a s i (s.request i) = some t) :
    SessionEffect s t (.next i a) := by
  cases hat : s.request i with
  | creating u version =>
    rw [hat] at h
    cases h
    obtain ⟨rest, hm, hsub, -⟩ := Sessions.create_m c.life s.now (c.sessionKey a.id) u.name
      (.login version) s.sessions
    refine .logsIn u version (by rw [fresh, hat]) (fun x hx => Sessions.mem_create hx) ?_ rfl
    change ∃ x ∈ (s.sessions.create _ _ _ _ _).m, _
    exact ⟨_, List.mem_cons_self, rfl, rfl⟩
  | forgetting r u version =>
    rw [hat] at h
    cases h
    refine .less (by rw [fresh, hat]) (fun x hx => ?_) rfl
    cases hcookie : r.cookie with
    | none => simpa [State.put, hcookie] using hx
    | some cookie =>
      have hdeleted : x ∈ (s.sessions.delete (c.sessionKey cookie)).m := by
        simpa [State.put, hcookie] using hx
      exact Sessions.mem_delete hdeleted
  | verifying r u version =>
    rw [hat, loginStep] at h
    split at h <;> cases h <;> exact .same (by rw [fresh, hat]) rfl rfl
  | checking r | reading r | failing r | succeeding r u version =>
    rw [hat] at h
    cases h
    exact .same (by rw [fresh, hat]) rfl rfl
  | _ =>
    rw [hat] at h
    cases h

lemma patchStep_sessions (h : patchStep c a s i (s.request i) = some t) :
    SessionEffect s t (.next i a) := by
  cases hat : s.request i with
  | purging name changed =>
    rw [hat] at h
    cases h
    exact .purge (by rw [fresh, hat]) _
  | patching name p =>
    rw [hat, patchStep] at h
    dsimp only at h
    split at h
    · cases h
      exact .same (by rw [fresh, hat]) rfl rfl
    split at h
    · cases h
      exact .same (by rw [fresh, hat]) rfl rfl
    · split at h <;> cases h <;> exact .same (by rw [fresh, hat]) rfl rfl
  | _ =>
    rw [hat] at h
    cases h

lemma ownStep_sessions (h : ownStep c a s i (s.request i) = some t) :
    SessionEffect s t (.next i a) := by
  cases hat : s.request i with
  | ownPurging r version =>
    rw [hat] at h
    cases h
    exact .purge (by rw [fresh, hat]) _
  | ownCreating r =>
    rw [hat] at h
    cases h
    refine .keeps (by rw [fresh, hat]) (fun x hx => ?_) rfl
    rcases Sessions.mem_create hx with ⟨-, horigin⟩ | hold
    · exact .inl horigin
    · exact .inr ⟨x, hold, rfl, rfl⟩
  | ownUpdating r hash =>
    rw [hat, ownStep] at h
    dsimp only at h
    split at h <;> cases h <;> exact .same (by rw [fresh, hat]) rfl rfl
  | ownVerifying r u =>
    rw [hat, ownStep] at h
    split at h <;> cases h <;> exact .same (by rw [fresh, hat]) rfl rfl
  | ownChecking r | ownReading r | ownFailing r | ownSucceeding r version =>
    rw [hat] at h
    cases h
    exact .same (by rw [fresh, hat]) rfl rfl
  | _ =>
    rw [hat] at h
    cases h

lemma step_sessions (h : step c s l = some t) : SessionEffect s t l := by
  cases l with
  | tick now =>
    rw [step] at h
    split at h <;> cases h
    exact .same rfl rfl rfl
  | arrive r =>
    cases h
    exact .same rfl rfl rfl
  | visit cookie =>
    cases h
    exact .keeps rfl (fun x hx => .inr (Sessions.mem_get hx)) rfl
  | logout cookie =>
    cases h
    exact .less rfl (fun x hx => Sessions.mem_delete hx) rfl
  | reorder m =>
    rw [step] at h
    split at h <;> cases h
    rename_i hperm
    exact .less rfl (fun x hx => hperm.mem_iff.mp hx) rfl
  | next i a =>
    rcases step_next h with h | h | h
    · exact loginStep_sessions h
    · exact patchStep_sessions h
    · exact ownStep_sessions h

/-! ## The condition -/

/-- A step keeps the property exactly if it is fresh. -/
lemma oldSessionsEnded_step (hs : OldSessionsEnded s) (h : step c s l = some t) :
    OldSessionsEnded t ↔ fresh s l = true := by
  cases step_sessions h with
  | keeps hfresh hm hended =>
    refine iff_of_true (fun x hx version horigin => ?_) hfresh
    rw [hended]
    rcases hm x hx with hchange | ⟨y, hy, huser, hsame⟩
    · rw [hchange] at horigin
      cases horigin
    · rw [huser]
      exact hs y hy version (hsame ▸ horigin)
  | logsIn u version hfresh hm hnew hended =>
    rw [hfresh, decide_eq_true_eq, OldSessionsEnded, hended]
    constructor
    · intro ht
      obtain ⟨x, hx, huser, horigin⟩ := hnew
      exact huser ▸ ht x hx version horigin
    · intro hle x hx v horigin
      rcases hm x hx with ⟨huser, hnow⟩ | hold
      · rw [hnow] at horigin
        cases horigin
        rwa [huser]
      · exact hs x hold v horigin
  | purges name hfresh hm hended =>
    refine iff_of_true (fun x hx version horigin => ?_) hfresh
    obtain ⟨hold, hother⟩ := hm x hx
    rw [hended _ hother]
    exact hs x hold version horigin

/-- As long as all steps are fresh no session of an older password is left, and
a step that is not leaves one. -/
theorem passwordChange_ends_sessions (c : Setup) (store : Store) (now : Int) (s : State)
    (h : Reached (step c) fresh (startState store now) s) :
    OldSessionsEnded s ∧
      ∀ l t, step c s l = some t → (OldSessionsEnded t ↔ fresh s l = true) := by
  have hs : OldSessionsEnded s := by
    refine Reached.invariant ?_ ?_ h
    · intro x hx
      cases hx
    · intro s t l hs hguard hstep
      exact (oldSessionsEnded_step hs hstep).mpr hguard
  exact ⟨hs, fun l t hstep => oldSessionsEnded_step hs hstep⟩

/-! ## A login during a reset -/

/-- The login verifies the first password, and the reset runs before it goes on. -/
def overtakenLogin : List Label :=
  [ .arrive (.login (str "ann") (str "first-password") (str "192.0.2.7") none),
    .next 0 {}, .next 0 {}, .next 0 {},
    .arrive (.patch (str "ann") { password := some (str "second-password") }),
    .next 1 { hash := some (str "second-password") }, .next 1 {},
    .next 0 {}, .next 0 {}, .next 0 { id := str "cookie" } ]

/-- The reset is answered, and there is a session of the login with the password
before it. -/
theorem login_survives_reset :
    ∃ s, Reached (step openSetup) (fun _ _ => true) (startState annStore 0) s ∧
      (s.request 1).status = some 200 ∧
      s.store.getUser ann.name = some { ann with
        passwordHash := str "second-password", mustChangePassword := true } ∧
      ¬ OldSessionsEnded s := by
  obtain ⟨s, hs, hp⟩ := exists_reached (step openSetup) (fun _ _ => true) (startState annStore 0)
    overtakenLogin
    (fun s => decide ((s.request 1).status = some 200 ∧
      s.store.getUser ann.name = some { ann with
        passwordHash := str "second-password", mustChangePassword := true } ∧
      ∃ x ∈ s.sessions.m, x.origin = .login 0 ∧ 0 < s.ended x.user))
    (by decide +kernel)
  obtain ⟨hstatus, huser, x, hx, horigin, hended⟩ := of_decide_eq_true hp
  refine ⟨s, hs, hstatus, huser, fun hnone => ?_⟩
  have := hnone x hx 0 horigin
  omega

/-- A login that comes after the reset is fresh. -/
def laterLogin : List Label :=
  [ .arrive (.patch (str "ann") { password := some (str "second-password") }),
    .next 0 { hash := some (str "second-password") }, .next 0 {},
    .arrive (.login (str "ann") (str "second-password") (str "192.0.2.7") none),
    .next 1 {}, .next 1 {}, .next 1 {}, .next 1 {}, .next 1 {}, .next 1 { id := str "cookie" } ]

theorem passwordChange_ends_sessions_later :
    ∃ s, Reached (step openSetup) fresh (startState annStore 0) s ∧
      s.sessions.m.length = 1 ∧ s.ended ann.name = 1 ∧ OldSessionsEnded s := by
  obtain ⟨s, hs, hp⟩ := exists_reached (step openSetup) fresh (startState annStore 0) laterLogin
    (fun s => decide (s.sessions.m.length = 1 ∧ s.ended ann.name = 1)) (by decide +kernel)
  obtain ⟨hlength, hended⟩ := of_decide_eq_true hp
  exact ⟨s, hs, hlength, hended, (passwordChange_ends_sessions _ _ _ _ hs).1⟩

end StreamHub.Auth
