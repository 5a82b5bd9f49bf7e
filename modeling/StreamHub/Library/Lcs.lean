import Mathlib.Tactic

/-!
# Longest common subsequences

`lcsLength` follows the recurrence that a table of suffixes is filled by.  No common
subsequence is longer (`length_le_lcsLength`).
-/

namespace StreamHub.Library.Lcs

open List

variable {α : Type*} [DecidableEq α]

def lcsLength : List α → List α → ℕ
  | [], _ => 0
  | _, [] => 0
  | a :: as, b :: bs =>
    if a = b then lcsLength as bs + 1 else max (lcsLength as (b :: bs)) (lcsLength (a :: as) bs)
termination_by as bs => as.length + bs.length

@[simp] lemma lcsLength_nil (as : List α) : lcsLength as [] = 0 := by
  cases as <;> rw [lcsLength]
  exact nofun

lemma length_le_lcsLength {l as bs : List α} (ha : l <+ as) (hb : l <+ bs) :
    l.length ≤ lcsLength as bs := by
  induction as, bs using lcsLength.induct generalizing l with
  | case1 bs => simp [sublist_nil.mp ha]
  | case2 as => simp [sublist_nil.mp hb]
  | case3 as b bs ih =>
    rw [lcsLength, if_pos rfl]
    have htail := ih ha.tail hb.tail
    rw [length_tail] at htail
    omega
  | case4 a as b bs hne ihLeft ihRight =>
    rw [lcsLength, if_neg hne]
    -- a subsequence that takes the first element of one list leaves that of the other
    cases ha with
    | cons _ ha => exact (ihLeft ha hb).trans (le_max_left _ _)
    | cons_cons _ ha' =>
      cases hb with
      | cons _ hb => exact (ihRight (ha'.cons_cons a) hb).trans (le_max_right _ _)
      | cons_cons => exact absurd rfl hne

end StreamHub.Library.Lcs
