import Mathlib.Data.List.GetD
import Mathlib.Data.List.TakeWhile
import Mathlib.Tactic

/-!
# Counting events in a sliding window

A counter keeps the times of the latest events: entries older than the window are
dropped from the front, and no more than `cap` entries are kept.  `Tracks` says
what is left of the whole history; `Tracks.full_iff` that this is enough to tell
whether `cap` events of the history are still in the window.
-/

namespace StreamHub.Library.Window

open List

/-- Out of the window. -/
def isOld (window now t : ℤ) : Bool := decide (window ≤ now - t)

/-- Without the leading entries that are out of the window. -/
def expire (window now : ℤ) (ts : List ℤ) : List ℤ := ts.dropWhile (isOld window now)

/-- The last `cap` entries with a new one. -/
def record (window : ℤ) (cap : ℕ) (now : ℤ) (ts : List ℤ) : List ℤ :=
  let ts := expire window now ts ++ [now]
  ts.drop (ts.length - cap)

/-- The events of the window. -/
def live (window now : ℤ) (ts : List ℤ) : List ℤ := ts.filter fun t => decide (now - t < window)

/-- The counter holds the end of the history; what it has lost is out of the
window, unless it is full. -/
structure Tracks (window : ℤ) (cap : ℕ) (now : ℤ) (history ts : List ℤ) : Prop where
  sorted : history.Pairwise (· ≤ ·)
  past : ∀ t ∈ history, t ≤ now
  kept : ∃ lost, history = lost ++ ts ∧ ∀ t ∈ lost, window ≤ now - t ∨ cap ≤ ts.length

variable {window now now' : ℤ} {cap : ℕ} {history ts : List ℤ}

lemma Tracks.nil : Tracks window cap now [] [] := ⟨Pairwise.nil, by simp, [], rfl, by simp⟩

section

variable (h : Tracks window cap now history ts)

include h

lemma Tracks.later (hnow : now ≤ now') : Tracks window cap now' history ts := by
  obtain ⟨lost, hhistory, hlost⟩ := h.kept
  refine ⟨h.sorted, fun t ht => (h.past t ht).trans hnow, lost, hhistory, fun t ht => ?_⟩
  rcases hlost t ht with hold | hfull
  · exact .inl (by omega)
  · exact .inr hfull

lemma Tracks.expire : Tracks window cap now history (expire window now ts) := by
  obtain ⟨lost, hhistory, hlost⟩ := h.kept
  have hsplit : ts = ts.takeWhile (isOld window now) ++ Window.expire window now ts :=
    takeWhile_append_dropWhile.symm
  have hold : ∀ t ∈ ts.takeWhile (isOld window now), window ≤ now - t := fun t ht =>
    of_decide_eq_true (mem_takeWhile_imp (p := isOld window now) ht)
  refine ⟨h.sorted, h.past, lost ++ ts.takeWhile (isOld window now), ?_, ?_⟩
  · rw [append_assoc, ← hsplit]
    exact hhistory
  · intro t ht
    rcases mem_append.mp ht with ht | ht
    · -- an entry lost before is older than the ones lost now
      cases hnow : ts.takeWhile (isOld window now) with
      | nil =>
        rw [hnow, nil_append] at hsplit
        rw [← hsplit]
        exact hlost t ht
      | cons first rest =>
        have hfirst : first ∈ ts.takeWhile (isOld window now) := by
          rw [hnow]
          exact mem_cons_self
        have hexpired := hold first hfirst
        have hle : t ≤ first := by
          have hsorted := h.sorted
          rw [hhistory, pairwise_append] at hsorted
          exact hsorted.2.2 t ht first ((takeWhile_sublist _).mem hfirst)
        exact .inl (by omega)
    · exact .inl (hold t ht)

lemma Tracks.record : Tracks window cap now (history ++ [now]) (record window cap now ts) := by
  obtain ⟨lost, hhistory, hlost⟩ := h.expire.kept
  have hsorted : (history ++ [now]).Pairwise (· ≤ ·) := by
    rw [pairwise_append]
    refine ⟨h.sorted, pairwise_singleton _ _, fun t ht u hu => ?_⟩
    rw [mem_singleton.mp hu]
    exact h.past t ht
  have hpast : ∀ t ∈ history ++ [now], t ≤ now := forall_mem_append.mpr ⟨h.past, by simp⟩
  let kept := Window.expire window now ts ++ [now]
  refine ⟨hsorted, hpast, lost ++ kept.take (kept.length - cap), ?_, ?_⟩
  · change history ++ [now] = _ ++ kept.drop (kept.length - cap)
    rw [append_assoc, take_append_drop, ← append_assoc, ← hhistory]
  · intro t ht
    change _ ∨ cap ≤ (kept.drop (kept.length - cap)).length
    rw [length_drop]
    rcases mem_append.mp ht with ht | ht
    · rcases hlost t ht with hold | hfull
      · exact .inl hold
      · right
        have : kept.length = (Window.expire window now ts).length + 1 := by simp [kept]
        omega
    · right
      have hne : kept.length - cap ≠ 0 := by
        intro hzero
        rw [hzero] at ht
        cases ht
      omega

lemma Tracks.live_expire : ∀ t ∈ Window.expire window now ts, now - t < window := by
  intro t ht
  obtain ⟨lost, hhistory, -⟩ := h.expire.kept
  have hsorted := h.sorted
  rw [hhistory, pairwise_append] at hsorted
  cases hcons : Window.expire window now ts with
  | nil =>
    rw [hcons] at ht
    cases ht
  | cons first rest =>
    have hfirst : ¬ window ≤ now - first := by
      have hhead := head?_dropWhile_not (isOld window now) ts
      rw [show ts.dropWhile _ = first :: rest from hcons] at hhead
      simpa [isOld] using hhead
    rw [hcons] at ht hsorted
    rcases mem_cons.mp ht with rfl | ht
    · omega
    have := rel_of_pairwise_cons hsorted.2.1 ht
    omega

/-- A counter is full exactly if `cap` events are in the window. -/
lemma Tracks.full_iff :
    cap ≤ (Window.expire window now ts).length ↔ cap ≤ (live window now history).length := by
  obtain ⟨lost, hhistory, hlost⟩ := h.expire.kept
  have hself : live window now (Window.expire window now ts) = Window.expire window now ts :=
    filter_eq_self.mpr fun t ht => decide_eq_true (h.live_expire t ht)
  have hsplit : live window now history = live window now lost ++ Window.expire window now ts := by
    rw [hhistory, live, filter_append]
    exact congrArg _ hself
  constructor
  · intro hfull
    rw [hsplit, length_append]
    omega
  · intro hlive
    by_contra hshort
    have hnone : live window now lost = [] := by
      rw [live, filter_eq_nil_iff]
      intro t ht
      rcases hlost t ht with hold | hfull
      · simpa using hold
      · exact absurd hfull hshort
    rw [hsplit, hnone] at hlive
    exact hshort hlive

end

/-- Of a sorted list `cap` entries are left if the `cap`-th last one is not old. -/
lemma le_length_expire_iff (hcap : 0 < cap) (hsorted : ts.Pairwise (· ≤ ·)) :
    cap ≤ (expire window now ts).length ↔
      cap ≤ ts.length ∧ now - ts.getD (ts.length - cap) 0 < window := by
  induction ts with
  | nil => simp [expire, hcap.ne']
  | cons t rest ih =>
    obtain ⟨hle, hrest⟩ := pairwise_cons.mp hsorted
    unfold expire at ih ⊢
    by_cases hold : window ≤ now - t
    · rw [dropWhile_cons_of_pos (by simpa [isOld] using hold), ih hrest]
      by_cases hfull : cap ≤ rest.length
      · simp [hfull, hfull.trans (Nat.le_succ _), Nat.succ_sub hfull]
      · simp [hfull, show rest.length + 1 - cap = 0 by omega, hold]
    rw [dropWhile_cons_of_neg (by simpa [isOld] using hold)]
    refine (and_iff_left_of_imp fun hfull => ?_).symm
    have hlt : (t :: rest).length - cap < (t :: rest).length := by omega
    rw [getD_eq_getElem _ _ hlt]
    rcases mem_cons.mp (getElem_mem hlt) with heq | hmem
    · omega
    have := hle _ hmem
    omega

/-- Of events that each come no later than their partners, no more are in a window
that ends later. -/
lemma length_live_le {earlier later : List ℤ} (h : Forall₂ (· ≤ ·) earlier later)
    (hnow : now ≤ now') : (live window now' earlier).length ≤ (live window now later).length := by
  induction h with
  | nil => rfl
  | @cons e l earlier later hle _ ih =>
    unfold live at ih ⊢
    by_cases he : now' - e < window
    · have hl : now - l < window := by omega
      rw [filter_cons_of_pos (by simpa using he), filter_cons_of_pos (by simpa using hl)]
      simpa using ih
    · rw [filter_cons_of_neg (by simpa using he)]
      exact ih.trans (Sublist.filter _ (sublist_cons_self l later)).length_le

end StreamHub.Library.Window
