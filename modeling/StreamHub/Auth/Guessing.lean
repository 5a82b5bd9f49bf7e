import StreamHub.Auth.Requests

/-!
# How many passwords can be guessed

`handleLogin` asks the limiter, compares the password and then records the result,
each under its own lock.  Requests that pass the limiter before the first failure
is recorded are all compared.  If the requests of one user and address do not
overlap in this way, at most five wrong passwords are compared in 15 minutes.
-/

namespace StreamHub.Auth

open Library Library.Text Library.Transition List Function

/-! ## The property -/

def Try.isOf (user ip : Str) (e : Try) : Bool := e.user == user && e.ip == ip

/-- In the 15 minutes from a time on. -/
def Try.isIn (user ip : Str) (start : Int) (e : Try) : Bool :=
  e.isOf user ip && decide (start ≤ e.time ∧ e.time < start + loginWindow)

/-- The tries of a user and address in 15 minutes. -/
def triesFrom (user ip : Str) (start : Int) (tries : List Try) : List Try :=
  tries.filter (Try.isIn user ip start)

/-- Among tries without a success of a user and address, at most 5 of theirs are in
any 15 minutes. -/
def GuessesBounded (tries : List Try) : Prop :=
  ∀ user ip earlier between later, tries = earlier ++ between ++ later →
    (∀ e ∈ between, e.isOf user ip = true → e.right = false) →
    ∀ start, (triesFrom user ip start between).length ≤ 5

def Progress.isOwn : Progress → Bool
  | .ownChecking _ | .ownReading _ | .ownVerifying _ _ | .ownFailing _ | .ownUpdating _ _
  | .ownSucceeding _ _ | .ownPurging _ _ | .ownCreating _ => true
  | _ => false

/-- No password is changed by its owner, and few keys are tracked. -/
def loginsOnly (s : State) : Label → Bool
  | .next i _ => !(s.request i).isOwn && decide (s.limiter.fails.keys.card < maxLimiterKeys)
  | _ => true

/-- The login of a request that has passed the limiter and whose result is not
recorded. -/
def Progress.underway : Progress → Option Login
  | .reading r | .verifying r _ _ | .failing r | .succeeding r _ _ => some r
  | _ => none

/-- The login of a request that has still to do with the limiter. -/
def Progress.login : Progress → Option Login
  | .checking r => some r
  | p => p.underway

def Login.isOf (user ip : Str) (r : Login) : Bool := r.name == user && r.ip == ip

/-- Addresses have no bar, and the limiter is asked for a user and address only when
no other login of theirs is underway. -/
def apart (s : State) : Label → Bool
  | .next i a => loginsOnly s (.next i a) &&
      ((s.request i).login.all fun r => decide (0x7c ∉ r.ip)) &&
      match s.request i with
      | .checking r => decide (∀ j < s.arrived, j ≠ i →
          (s.request j).underway.all (fun q => !q.isOf r.name r.ip) = true)
      | _ => true
  | _ => true

/-! ## Wrong passwords since the last success -/

def wrongStep (user ip : Str) (times : List Int) (e : Try) : List Int :=
  if e.isOf user ip then if e.right then [] else times ++ [e.time] else times

/-- The times of the wrong tries since the last right one. -/
def wrongSince (user ip : Str) (tries : List Try) : List Int := tries.foldl (wrongStep user ip) []

lemma wrongSince_concat (user ip : Str) (tries : List Try) (e : Try) :
    wrongSince user ip (tries ++ [e]) = wrongStep user ip (wrongSince user ip tries) e := by
  rw [wrongSince, foldl_append]
  rfl

lemma foldl_wrongStep {user ip : Str} {tries : List Try}
    (h : ∀ e ∈ tries, e.isOf user ip = true → e.right = false) (times : List Int) :
    tries.foldl (wrongStep user ip) times =
      times ++ (tries.filter (Try.isOf user ip)).map Try.time := by
  induction tries generalizing times with
  | nil => simp
  | cons e rest ih =>
    rw [foldl_cons, ih fun f hf => h f (mem_cons_of_mem e hf), wrongStep]
    by_cases he : e.isOf user ip = true
    · rw [if_pos he, h e mem_cons_self he, filter_cons_of_pos he]
      simp
    · rw [if_neg he, filter_cons_of_neg he]

lemma length_triesFrom_le {user ip : Str} (earlier : List Try) {between : List Try}
    {start now : Int} (h : ∀ e ∈ between, e.isOf user ip = true → e.right = false)
    (hnow : now < start + loginWindow) : (triesFrom user ip start between).length ≤
      (Window.live loginWindow now (wrongSince user ip (earlier ++ between))).length := by
  rw [wrongSince, foldl_append, foldl_wrongStep h, Window.live, filter_append,
    length_append, filter_map, length_map, filter_filter]
  refine le_trans ?_ (Nat.le_add_left _ _)
  refine (monotone_filter_right between fun e he => ?_).length_le
  obtain ⟨hof, hstart⟩ := Bool.and_eq_true_iff.mp he
  have hfrom := (of_decide_eq_true hstart).1
  exact Bool.and_eq_true_iff.mpr ⟨decide_eq_true (by omega), hof⟩

/-- A further try that is not the sixth one in its window. -/
lemma GuessesBounded.concat {tries : List Try} {e : Try} (h : GuessesBounded tries)
    (hnew : (Window.live loginWindow e.time (wrongSince e.user e.ip tries)).length < 5) :
    GuessesBounded (tries ++ [e]) := by
  intro user ip earlier between later hsplit hwrong start
  rcases eq_nil_or_concat later with rfl | ⟨later, f, rfl⟩
  · rw [append_nil] at hsplit
    rcases eq_nil_or_concat between with rfl | ⟨between, f, rfl⟩
    · simp [triesFrom]
    rw [concat_eq_append, ← append_assoc] at hsplit
    obtain ⟨htries, hf⟩ := append_inj' hsplit rfl
    cases singleton_inj.mp hf
    rw [concat_eq_append] at hwrong ⊢
    have hbefore : ∀ f ∈ between, f.isOf user ip = true → f.right = false := fun f hf =>
      hwrong f (mem_append_left _ hf)
    have hold := h user ip earlier between [] (by rw [append_nil, htries]) hbefore start
    unfold triesFrom at hold ⊢
    rw [filter_append, length_append]
    by_cases hin : e.isIn user ip start = true
    · -- the new try is in the window: all others there are live at its time
      obtain ⟨hof, htime⟩ := Bool.and_eq_true_iff.mp hin
      obtain ⟨huser, hip⟩ := Bool.and_eq_true_iff.mp hof
      rw [eq_of_beq huser, eq_of_beq hip, htries] at hnew
      have hlive := length_triesFrom_le earlier hbefore (of_decide_eq_true htime).2
      unfold triesFrom at hlive
      rw [filter_cons_of_pos hin, filter_nil, length_singleton]
      omega
    · rw [filter_cons_of_neg hin, filter_nil]
      exact hold
  · rw [concat_eq_append, ← append_assoc] at hsplit
    obtain ⟨htries, -⟩ := append_inj' hsplit rfl
    exact h user ip earlier between later htries hwrong start

/-! ## One user and address -/

/-- Where a request stands for a user and address. -/
inductive Lane
  | outside
  | passed
  | failing
  | succeeding
  deriving DecidableEq

def Progress.lane (user ip : Str) : Progress → Lane
  | .reading r | .verifying r _ _ => if r.isOf user ip then .passed else .outside
  | .failing r => if r.isOf user ip then .failing else .outside
  | .succeeding r _ _ => if r.isOf user ip then .succeeding else .outside
  | _ => .outside

/-- The wrong tries since the last right one against the failures that the limiter has
recorded since its last success, a try before its record.  Whoever has passed the
limiter did so with fewer than five failures in the window. -/
def Accounted (now : Int) (wrongs history : List Int) : Lane → Prop
  | .outside => Forall₂ (· ≤ ·) wrongs history
  | .passed => Forall₂ (· ≤ ·) wrongs history ∧
      ∃ checked ≤ now, (Window.live loginWindow checked history).length < 5
  | .failing => ∃ before last, wrongs = before ++ [last] ∧ last ≤ now ∧
      Forall₂ (· ≤ ·) before history
  | .succeeding => wrongs = []

lemma Accounted.later {now now' : Int} {wrongs history : List Int} {p : Lane}
    (h : Accounted now wrongs history p) (hnow : now ≤ now') : Accounted now' wrongs history p := by
  cases p with
  | outside => exact h
  | passed =>
    obtain ⟨hle, checked, hchecked, hlive⟩ := h
    exact ⟨hle, checked, hchecked.trans hnow, hlive⟩
  | failing =>
    obtain ⟨before, last, hwrongs, hlast, hle⟩ := h
    exact ⟨before, last, hwrongs, hlast.trans hnow, hle⟩
  | succeeding => exact h

/-- Request `i` alone may be underway for a user and address; `history` are the
failures recorded since the last success. -/
structure OnLane (user ip : Str) (s : State) (i : Nat) (history : List Int) : Prop where
  alone : ∀ j, j ≠ i → (s.request j).lane user ip = .outside
  tracks : Limiter.Tracks s.limiter.fails (userKey user ip) maxFailsUserIP s.now history
  accounted : Accounted s.now (wrongSince user ip s.tries) history ((s.request i).lane user ip)

variable {c : Setup} {a : Outside} {s t : State} {i k : Nat} {l : Label} {user ip : Str}
  {history : List Int}

lemma OnLane.of_lane {q : Progress} {p : Lane} (h : OnLane user ip s i history)
    (hreq : s.request k = q) (hlane : q.lane user ip = p) (hp : p ≠ .outside) :
    OnLane user ip s k history ∧ Accounted s.now (wrongSince user ip s.tries) history p := by
  rw [← hreq] at hlane
  have hk : k = i := by
    by_contra hne
    exact hp (hlane.symm.trans (h.alone k hne))
  subst hk
  exact ⟨h, hlane ▸ h.accounted⟩

lemma OnLane.frame (h : OnLane user ip s i history)
    (hlane : ∀ j, (t.request j).lane user ip = (s.request j).lane user ip)
    (htracks : Limiter.Tracks t.limiter.fails (userKey user ip) maxFailsUserIP t.now history)
    (hnow : s.now ≤ t.now) (hwrongs : wrongSince user ip t.tries = wrongSince user ip s.tries) :
    OnLane user ip t i history := by
  refine ⟨fun j hj => (hlane j).trans (h.alone j hj), htracks, ?_⟩
  rw [hlane, hwrongs]
  exact h.accounted.later hnow

lemma OnLane.move {p : Progress} {history' : List Int} (h : OnLane user ip s k history)
    (hrequest : t.request = update s.request k p)
    (htracks : Limiter.Tracks t.limiter.fails (userKey user ip) maxFailsUserIP t.now history')
    (haccounted : Accounted t.now (wrongSince user ip t.tries) history' (p.lane user ip)) :
    OnLane user ip t k history' := by
  refine ⟨fun j hj => ?_, htracks, ?_⟩
  · rw [hrequest, update_of_ne hj]
    exact h.alone j hj
  · rwa [hrequest, update_self]

/-- While nobody is underway any request can be the one. -/
lemma OnLane.shift (h : OnLane user ip s i history)
    (hnone : ∀ j, (s.request j).lane user ip = .outside) (k : Nat) :
    OnLane user ip s k history := by
  refine ⟨fun j _ => hnone j, h.tracks, ?_⟩
  rw [hnone k, ← hnone i]
  exact h.accounted

lemma lane_update {f : Nat → Progress} {p : Progress}
    (hp : p.lane user ip = (f k).lane user ip) (j : Nat) :
    (update f k p j).lane user ip = (f j).lane user ip := by
  rw [update_apply]
  split
  · rename_i hj
    rw [hp, hj]
  · rfl

variable {r : Login}

lemma Login.eq_of_isOf (h : r.isOf user ip = true) : r.name = user ∧ r.ip = ip := by
  obtain ⟨huser, hip⟩ := Bool.and_eq_true_iff.mp h
  exact ⟨eq_of_beq huser, eq_of_beq hip⟩

lemma userKey_ne_of_not_isOf (hip : 0x7c ∉ ip) (hr : 0x7c ∉ r.ip) (h : ¬ r.isOf user ip = true) :
    userKey user ip ≠ userKey r.name r.ip := by
  intro hkey
  obtain ⟨huser, hip⟩ := userKey_injective hip hr hkey
  simp [Login.isOf, huser, hip] at h

lemma lane_eq_outside_of_apart (hat : s.request k = .checking r)
    (hvacant : ∀ j, s.arrived ≤ j → s.request j = .idle) (hapart : apart s (.next k a) = true)
    (j : Nat) : (s.request j).lane r.name r.ip = .outside := by
  by_cases hj : j = k
  · rw [hj, hat]
    rfl
  by_cases hlt : j < s.arrived
  · rw [apart, hat] at hapart
    have hother := of_decide_eq_true (Bool.and_eq_true_iff.mp hapart).2 j hlt hj
    cases hreq : s.request j with
    | reading q | verifying q u version | failing q | succeeding q u version =>
      rw [hreq] at hother
      exact if_neg (by simpa [Progress.underway] using hother)
    | _ => rfl
  · rw [hvacant j (by omega)]
    rfl

/-! ## Steps -/

lemma apart_loginsOnly (h : apart s (.next k a) = true) : loginsOnly s (.next k a) = true :=
  (Bool.and_eq_true_iff.mp (Bool.and_eq_true_iff.mp h).1).1

lemma apart_ip (h : apart s (.next k a) = true) (hr : (s.request k).login = some r) :
    0x7c ∉ r.ip := by
  have := (Bool.and_eq_true_iff.mp (Bool.and_eq_true_iff.mp h).1).2
  rw [hr] at this
  exact of_decide_eq_true this

lemma loginsOnly_card (h : loginsOnly s (.next k a) = true) :
    s.limiter.fails.keys.card < maxLimiterKeys := of_decide_eq_true (Bool.and_eq_true_iff.mp h).2

section

variable (hapart : apart s (.next k a) = true) (hstep : loginStep c a s k (s.request k) = some t)

include hapart hstep

/-- A step of a login of the user and address. -/
lemma loginStep_onLane_self (hat : (s.request k).login = some r)
    (hvacant : ∀ j, s.arrived ≤ j → s.request j = .idle) (h : OnLane r.name r.ip s i history) :
    ∃ history', OnLane r.name r.ip t k history' := by
  have hself : r.isOf r.name r.ip = true := by simp [Login.isOf]
  cases hreq : s.request k with
  | checking q =>
    rw [hreq] at hat hstep
    cases hat
    cases hstep
    have hnone := lane_eq_outside_of_apart hreq hvacant hapart
    have hforall := (h.shift hnone k).accounted
    rw [hnone k] at hforall
    refine ⟨history, (h.shift hnone k).move rfl (h.tracks.blocked r.name r.ip) ?_⟩
    split
    · exact hforall
    rename_i hwait
    rw [Progress.lane, if_pos hself]
    exact ⟨hforall, s.now, le_refl _, Limiter.live_lt_of_not_blocked h.tracks (not_lt.mp hwait)⟩
  | reading q =>
    rw [hreq] at hat hstep
    cases hat
    cases hstep
    obtain ⟨h, haccounted⟩ := h.of_lane hreq (if_pos hself) (by decide)
    refine ⟨history, h.move rfl h.tracks ?_⟩
    rw [Progress.lane, if_pos hself]
    exact haccounted
  | verifying q u version =>
    rw [hreq] at hat
    cases hat
    obtain ⟨h, haccounted⟩ := h.of_lane hreq (if_pos hself) (by decide)
    have hof : ∀ right, Try.isOf r.name r.ip ⟨r.name, r.ip, s.now, right⟩ = true := by
      simp [Try.isOf]
    rw [hreq, loginStep] at hstep
    split at hstep
    · rename_i hnone
      cases hstep
      refine ⟨history, h.move rfl h.tracks ?_⟩
      rw [Progress.lane, if_pos hself]
      refine ⟨wrongSince r.name r.ip s.tries, s.now, ?_, le_refl _, haccounted.1⟩
      change wrongSince r.name r.ip (s.tries ++ [_]) = _
      rw [wrongSince_concat, wrongStep, if_pos (hof _), hnone]
      rfl
    · rename_i v hsome
      cases hstep
      refine ⟨history, h.move rfl h.tracks ?_⟩
      rw [Progress.lane, if_pos hself]
      change wrongSince r.name r.ip (s.tries ++ [_]) = _
      rw [wrongSince_concat, wrongStep, if_pos (hof _), hsome]
      rfl
  | failing q =>
    rw [hreq] at hat hstep
    cases hat
    cases hstep
    obtain ⟨h, haccounted⟩ := h.of_lane hreq (if_pos hself) (by decide)
    obtain ⟨before, last, hwrongs, hlast, hforall⟩ := haccounted
    have hip := userKey_ne_ipKey r.name r.ip r.ip
    have htracks := h.tracks.fail (fun _ : _ = userKey r.name _ => rfl) (fun heq => absurd heq hip)
      a.order (loginsOnly_card (apart_loginsOnly hapart))
    rw [if_pos (.inl rfl)] at htracks
    refine ⟨history ++ [s.now], h.move rfl htracks ?_⟩
    change Forall₂ (· ≤ ·) (wrongSince r.name r.ip s.tries) (history ++ [s.now])
    rw [hwrongs]
    exact rel_append hforall (Forall₂.cons hlast Forall₂.nil)
  | succeeding q u version =>
    rw [hreq] at hat hstep
    cases hat
    cases hstep
    obtain ⟨h, haccounted⟩ := h.of_lane hreq (if_pos hself) (by decide)
    have htracks := h.tracks.success r.name r.ip
    rw [if_pos rfl] at htracks
    refine ⟨[], h.move rfl htracks ?_⟩
    change Forall₂ (· ≤ ·) (wrongSince r.name r.ip s.tries) []
    rw [show wrongSince r.name r.ip s.tries = [] from haccounted]
    exact Forall₂.nil
  | _ =>
    rw [hreq] at hat
    cases hat

/-- A step of a login of somebody else, or of a login that is done with the limiter. -/
lemma loginStep_onLane_other (hip : 0x7c ∉ ip)
    (hother : ∀ r, (s.request k).login = some r → ¬ r.isOf user ip = true)
    (h : OnLane user ip s i history) : OnLane user ip t i history := by
  have hcard := loginsOnly_card (apart_loginsOnly hapart)
  cases hreq : s.request k with
  | checking r =>
    rw [hreq] at hother hstep
    have hr := hother r rfl
    cases hstep
    refine h.frame (lane_update ?_) (h.tracks.blocked r.name r.ip) (le_refl _) rfl
    rw [hreq]
    split
    · rfl
    · exact if_neg hr
  | reading r =>
    rw [hreq] at hstep
    cases hstep
    refine h.frame (lane_update ?_) h.tracks (le_refl _) rfl
    rw [hreq, Progress.lane, Progress.lane]
  | verifying r u version =>
    rw [hreq] at hother hstep
    have hr := hother r rfl
    have hwrongs : ∀ right, wrongSince user ip (s.tries ++ [⟨r.name, r.ip, s.now, right⟩]) =
        wrongSince user ip s.tries := fun right => by
      rw [wrongSince_concat]
      exact if_neg hr
    rw [loginStep] at hstep
    split at hstep
    all_goals
      cases hstep
      refine h.frame (lane_update ?_) h.tracks (le_refl _) (hwrongs _)
      rw [hreq, Progress.lane, Progress.lane, if_neg hr, if_neg hr]
  | failing r =>
    rw [hreq] at hother hstep
    have hr := hother r rfl
    have hkey := userKey_ne_of_not_isOf hip (apart_ip hapart (by rw [hreq]; rfl)) hr
    cases hstep
    have hip' := userKey_ne_ipKey user ip r.ip
    have htracks := h.tracks.fail (fun heq => absurd heq hkey) (fun heq => absurd heq hip') a.order hcard
    rw [if_neg (not_or.mpr ⟨hkey, hip'⟩)] at htracks
    refine h.frame (lane_update ?_) htracks (le_refl _) rfl
    rw [hreq]
    exact (if_neg hr).symm
  | succeeding r u version =>
    rw [hreq] at hother hstep
    have hr := hother r rfl
    have hkey := userKey_ne_of_not_isOf hip (apart_ip hapart (by rw [hreq]; rfl)) hr
    cases hstep
    have htracks := h.tracks.success r.name r.ip
    rw [if_neg hkey] at htracks
    refine h.frame (lane_update ?_) htracks (le_refl _) rfl
    rw [hreq]
    exact (if_neg hr).symm
  | forgetting r u version | creating u version =>
    rw [hreq] at hstep
    cases hstep
    exact h.frame (lane_update (by rw [hreq]; rfl)) h.tracks (le_refl _) rfl
  | _ =>
    rw [hreq] at hstep
    cases hstep

lemma loginStep_onLane (hip : 0x7c ∉ ip) (hvacant : ∀ j, s.arrived ≤ j → s.request j = .idle)
    (h : OnLane user ip s i history) : ∃ i history, OnLane user ip t i history := by
  by_cases hself : ∃ r, (s.request k).login = some r ∧ r.isOf user ip = true
  · obtain ⟨r, hat, hr⟩ := hself
    obtain ⟨rfl, rfl⟩ := Login.eq_of_isOf hr
    exact ⟨k, loginStep_onLane_self hapart hstep hat hvacant h⟩
  · push Not at hself
    exact ⟨i, history, loginStep_onLane_other hapart hstep hip hself h⟩

/-- A comparison is not the sixth one in its window. -/
lemma loginStep_bounded (hlanes : ∀ user ip, 0x7c ∉ ip → ∃ i history, OnLane user ip s i history)
    (h : GuessesBounded s.tries) : GuessesBounded t.tries := by
  cases hreq : s.request k with
  | verifying r u version =>
    obtain ⟨i, history, hlane⟩ := hlanes r.name r.ip (apart_ip hapart (by rw [hreq]; rfl))
    have hself : r.isOf r.name r.ip = true := by simp [Login.isOf]
    have haccounted := (hlane.of_lane hreq (if_pos hself) (by decide)).2
    obtain ⟨hforall, checked, hchecked, hlive⟩ := haccounted
    have hnew : ∀ right, GuessesBounded (s.tries ++ [⟨r.name, r.ip, s.now, right⟩]) :=
      fun right => h.concat ((Window.length_live_le hforall hchecked).trans_lt hlive)
    rw [hreq, loginStep] at hstep
    split at hstep <;> cases hstep <;> exact hnew _
  | checking r | reading r | failing r | succeeding r u version | forgetting r u version
  | creating u version =>
    rw [hreq] at hstep
    cases hstep
    exact h
  | _ =>
    rw [hreq] at hstep
    cases hstep

end

lemma patchStep_frame (hstep : patchStep c a s k (s.request k) = some t) :
    t.limiter = s.limiter ∧ t.tries = s.tries ∧ t.now = s.now ∧
      ∀ user ip j, (t.request j).lane user ip = (s.request j).lane user ip := by
  cases hreq : s.request k with
  | patching name p =>
    have hlane : ∀ user ip, (s.request k).lane user ip = .outside := fun _ _ => by
      rw [hreq]
      rfl
    rw [hreq, patchStep] at hstep
    dsimp only at hstep
    split at hstep
    · cases hstep
      exact ⟨rfl, rfl, rfl, fun user ip => lane_update (hlane user ip).symm⟩
    split at hstep
    · cases hstep
      exact ⟨rfl, rfl, rfl, fun user ip => lane_update (hlane user ip).symm⟩
    · split at hstep <;> cases hstep <;>
        exact ⟨rfl, rfl, rfl, fun user ip => lane_update (hlane user ip).symm⟩
  | purging name changed =>
    rw [hreq] at hstep
    cases hstep
    refine ⟨rfl, rfl, rfl, fun user ip => lane_update ?_⟩
    change _ = (s.request k).lane user ip
    rw [hreq]
    rfl
  | _ =>
    rw [hreq] at hstep
    cases hstep

/-! ## Runs -/

/-- What holds in every state of a run of logins that do not overlap. -/
structure Watched (s : State) : Prop where
  vacant : ∀ j, s.arrived ≤ j → s.request j = .idle
  lanes : ∀ user ip, 0x7c ∉ ip → ∃ i history, OnLane user ip s i history
  bounded : GuessesBounded s.tries

lemma watched_start (store : Store) (now : Int) : Watched (startState store now) := by
  refine ⟨fun _ _ => rfl, fun user ip _ => ⟨0, [], fun _ _ => rfl, Window.Tracks.nil, ?_⟩, ?_⟩
  · exact Forall₂.nil
  · intro user ip earlier between later hsplit
    have hnil : between = [] := by
      cases between with
      | nil => rfl
      | cons e rest => simp [startState] at hsplit
    simp [hnil, triesFrom]

/-- What a handler does to the table of requests. -/
lemma step_next_request (h : step c s (.next k a) = some t) :
    s.request k ≠ .idle ∧ t.arrived = s.arrived ∧ ∃ p, t.request = update s.request k p := by
  cases hreq : s.request k with
  | idle | answered status => simp [step, hreq, loginStep, patchStep, ownStep] at h
  | verifying r u version =>
    simp only [step, hreq, loginStep] at h
    split at h <;> cases h <;> exact ⟨by simp, rfl, _, rfl⟩
  | patching name p =>
    simp only [step, hreq, loginStep, patchStep, Option.none_or] at h
    split at h
    · cases h
      exact ⟨by simp, rfl, _, rfl⟩
    split at h
    · cases h
      exact ⟨by simp, rfl, _, rfl⟩
    · split at h <;> cases h <;> exact ⟨by simp, rfl, _, rfl⟩
  | ownVerifying r u | ownUpdating r hash =>
    simp only [step, hreq, loginStep, patchStep, ownStep, Option.none_or] at h
    split at h <;> cases h <;> exact ⟨by simp, rfl, _, rfl⟩
  | _ =>
    simp only [step, hreq, loginStep, patchStep, ownStep, Option.none_or, Option.some_or] at h
    cases h
    exact ⟨by simp, rfl, _, rfl⟩

lemma ownStep_isOwn {p : Progress} (h : ownStep c a s k p = some t) : p.isOwn = true := by
  cases p with
  | ownChecking r | ownReading r | ownVerifying r u | ownFailing r | ownUpdating r hash
  | ownSucceeding r version | ownPurging r version | ownCreating r => rfl
  | _ => cases h

lemma Watched.sessions (h : Watched s) (m : Sessions Origin) :
    Watched { s with sessions := m } := by
  refine ⟨h.vacant, fun user ip hip => ?_, h.bounded⟩
  obtain ⟨i, history, hlane⟩ := h.lanes user ip hip
  exact ⟨i, history, hlane.frame (fun _ => rfl) hlane.tracks (le_refl _) rfl⟩

lemma Watched.step (h : Watched s) (hapart : apart s l = true)
    (hstep : Auth.step c s l = some t) : Watched t := by
  cases l with
  | tick now =>
    rw [Auth.step] at hstep
    split at hstep <;> cases hstep
    rename_i hnow
    refine ⟨h.vacant, fun user ip hip => ?_, h.bounded⟩
    obtain ⟨i, history, hlane⟩ := h.lanes user ip hip
    exact ⟨i, history, hlane.frame (fun _ => rfl) (hlane.tracks.later hnow) hnow rfl⟩
  | arrive r =>
    cases hstep
    refine ⟨fun j hj => ?_, fun user ip hip => ?_, h.bounded⟩
    · have hlt : s.arrived < j := hj
      exact (update_of_ne hlt.ne' _ _).trans (h.vacant j hlt.le)
    · obtain ⟨i, history, hlane⟩ := h.lanes user ip hip
      refine ⟨i, history, hlane.frame (lane_update ?_) hlane.tracks (le_refl _) rfl⟩
      rw [h.vacant s.arrived (le_refl _)]
      cases r <;> rfl
  | visit cookie | logout cookie =>
    cases hstep
    exact h.sessions _
  | reorder m =>
    rw [Auth.step] at hstep
    split at hstep <;> cases hstep
    exact h.sessions _
  | next k a =>
    have hvacant : ∀ j, t.arrived ≤ j → t.request j = .idle := by
      intro j hj
      obtain ⟨hbusy, harrived, p, hrequest⟩ := step_next_request hstep
      rw [harrived] at hj
      have hne : j ≠ k := by
        rintro rfl
        exact hbusy (h.vacant j hj)
      rw [hrequest, update_of_ne hne]
      exact h.vacant j hj
    rcases step_next hstep with hlogin | hpatch | hown
    · refine ⟨hvacant, fun user ip hip => ?_, loginStep_bounded hapart hlogin h.lanes h.bounded⟩
      obtain ⟨i, history, hlane⟩ := h.lanes user ip hip
      exact loginStep_onLane hapart hlogin hip h.vacant hlane
    · obtain ⟨hlimiter, htries, hnow, hlanes⟩ := patchStep_frame hpatch
      refine ⟨hvacant, fun user ip hip => ?_, htries ▸ h.bounded⟩
      obtain ⟨i, history, hlane⟩ := h.lanes user ip hip
      refine ⟨i, history, hlane.frame (hlanes user ip) ?_ hnow.ge (by rw [htries])⟩
      rw [hlimiter, hnow]
      exact hlane.tracks
    · have hnot := (Bool.and_eq_true_iff.mp (apart_loginsOnly hapart)).1
      rw [ownStep_isOwn hown] at hnot
      cases hnot

/-- While the logins of a user and address do not overlap between the limiter's check
and its record, at most five wrong passwords of theirs are compared in 15 minutes
between two successes. -/
theorem guessesBounded_of_apart (c : Setup) (store : Store) (now : Int) (s : State)
    (h : Reached (Auth.step c) apart (startState store now) s) : GuessesBounded s.tries := by
  have hwatched : Watched s :=
    Reached.invariant (watched_start store now) (fun _ _ _ hs hguard ht => hs.step hguard ht) h
  exact hwatched.bounded

/-- Six logins with a wrong password that all ask the limiter before one of them is
told that the password is wrong. -/
def sixLogins : List Label :=
  replicate 6 (.arrive (.login (str "ann") (str "guess") (str "192.0.2.7") none)) ++
    (range 6).map (.next · {}) ++ (range 6).map (.next · {}) ++
    (range 6).map (.next · {})

/-- Six wrong passwords are compared at once. -/
theorem six_guesses :
    ∃ s, Reached (Auth.step openSetup) loginsOnly (startState annStore 0) s ∧
      ¬ GuessesBounded s.tries := by
  obtain ⟨s, hs, hp⟩ := exists_reached (Auth.step openSetup) loginsOnly (startState annStore 0)
    sixLogins
    (fun s => decide (s.tries = replicate 6 ⟨str "ann", str "192.0.2.7", 0, false⟩))
    (by decide +kernel)
  refine ⟨s, hs, fun hbounded => ?_⟩
  have hfive := hbounded (str "ann") (str "192.0.2.7") [] s.tries [] (by simp)
    (by rw [of_decide_eq_true hp]; decide) 0
  rw [of_decide_eq_true hp] at hfive
  exact absurd hfive (by decide)

/-- A wrong password and then the right one. -/
def secondTry : List Label :=
  [ .arrive (.login (str "ann") (str "guess") (str "192.0.2.7") none),
    .next 0 {}, .next 0 {}, .next 0 {}, .next 0 {}, .tick 1000000000,
    .arrive (.login (str "ann") (str "first-password") (str "192.0.2.7") none),
    .next 1 {}, .next 1 {}, .next 1 {}, .next 1 {} ]

theorem guessesBounded_of_apart_second :
    ∃ s, Reached (Auth.step openSetup) apart (startState annStore 0) s ∧
      s.tries.map Try.right = [false, true] ∧ GuessesBounded s.tries := by
  obtain ⟨s, hs, hp⟩ := exists_reached (Auth.step openSetup) apart (startState annStore 0)
    secondTry (fun s => decide (s.tries.map Try.right = [false, true])) (by decide +kernel)
  exact ⟨s, hs, of_decide_eq_true hp, guessesBounded_of_apart _ _ _ _ hs⟩

end StreamHub.Auth
