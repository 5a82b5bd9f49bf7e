import Mathlib.Data.List.Nodup
import Mathlib.Data.List.Range

/-!
# A ledger of a queue

Items are offered one after the other and numbered in the order of their offers.
An item is queued or refused when it is offered; a queued item is later taken out
at the front, or lost.  The ledger remembers what became of every offer.

`Ledger.Balanced` is the book-keeping every operation keeps: each offer stands in
exactly one of the three columns, and what was taken followed by what still waits
is in the order of the offers.
-/

namespace StreamHub.Library

open List

/-- The offers so far, and the numbered items taken, waiting and lost. -/
structure Ledger (α : Type*) where
  offers : List α
  taken : List (α × ℕ)
  queue : List (α × ℕ)
  lost : List (α × ℕ)

namespace Ledger

variable {α : Type*} {l : Ledger α}

/-- Nothing was offered yet. -/
def empty : Ledger α := ⟨[], [], [], []⟩

/-- The next offer joins the queue. -/
def push (l : Ledger α) (a : α) : Ledger α :=
  { l with offers := l.offers ++ [a], queue := l.queue ++ [(a, l.offers.length)] }

/-- The next offer is refused. -/
def refuse (l : Ledger α) (a : α) : Ledger α :=
  { l with offers := l.offers ++ [a], lost := l.lost ++ [(a, l.offers.length)] }

/-- The front of the queue is taken. -/
def take (l : Ledger α) : Ledger α :=
  { l with queue := l.queue.drop 1, taken := l.taken ++ l.queue.take 1 }

/-- The first `n` of the queue are lost. -/
def lose (l : Ledger α) (n : ℕ) : Ledger α :=
  { l with queue := l.queue.drop n, lost := l.lost ++ l.queue.take n }

/-- Every offer is in one column, and the first two are in order. -/
structure Balanced (l : Ledger α) : Prop where
  each : (l.taken ++ l.queue ++ l.lost).Perm l.offers.zipIdx
  order : (l.taken ++ l.queue).Sublist l.offers.zipIdx

lemma balanced_empty : (empty : Ledger α).Balanced := ⟨.refl [], .refl []⟩

lemma zipIdx_concat (as : List α) (a : α) :
    (as ++ [a]).zipIdx = as.zipIdx ++ [(a, as.length)] := by simp [zipIdx_append]

section

variable (h : l.Balanced)

include h

lemma Balanced.push (a : α) : (l.push a).Balanced where
  each := by
    change (l.taken ++ (l.queue ++ [(a, l.offers.length)]) ++ l.lost).Perm (l.offers ++ [a]).zipIdx
    rw [zipIdx_concat, ← append_assoc l.taken, append_assoc (l.taken ++ l.queue)]
    refine (perm_append_comm.append_left _).trans ?_
    rw [← append_assoc]
    exact h.each.append_right _
  order := by
    change (l.taken ++ (l.queue ++ [(a, l.offers.length)])).Sublist (l.offers ++ [a]).zipIdx
    rw [zipIdx_concat, ← append_assoc]
    exact h.order.append_right _

lemma Balanced.refuse (a : α) : (l.refuse a).Balanced where
  each := by
    change (l.taken ++ l.queue ++ (l.lost ++ [(a, l.offers.length)])).Perm (l.offers ++ [a]).zipIdx
    rw [zipIdx_concat, ← append_assoc]
    exact h.each.append_right _
  order := by
    change (l.taken ++ l.queue).Sublist (l.offers ++ [a]).zipIdx
    rw [zipIdx_concat]
    exact h.order.trans (sublist_append_left _ _)

lemma Balanced.take : l.take.Balanced := by
  have hsame : l.taken ++ l.queue.take 1 ++ l.queue.drop 1 = l.taken ++ l.queue := by
    rw [append_assoc, take_append_drop]
  constructor
  · change (l.taken ++ l.queue.take 1 ++ l.queue.drop 1 ++ l.lost).Perm l.offers.zipIdx
    rw [hsame]
    exact h.each
  · change (l.taken ++ l.queue.take 1 ++ l.queue.drop 1).Sublist l.offers.zipIdx
    rw [hsame]
    exact h.order

lemma Balanced.lose (n : ℕ) : (l.lose n).Balanced where
  each := by
    change (l.taken ++ l.queue.drop n ++ (l.lost ++ l.queue.take n)).Perm l.offers.zipIdx
    refine Perm.trans ?_ h.each
    -- the items that are lost move from the second column to the end of the third
    have hqueue : (l.queue.drop n ++ (l.lost ++ l.queue.take n)).Perm (l.queue ++ l.lost) := by
      rw [← append_assoc]
      refine perm_append_comm.trans ?_
      rw [← append_assoc, take_append_drop]
    rw [append_assoc, append_assoc]
    exact hqueue.append_left _
  order := by
    change (l.taken ++ l.queue.drop n).Sublist l.offers.zipIdx
    exact ((drop_sublist n l.queue).append_left _).trans h.order

lemma Balanced.length : l.offers.length = l.taken.length + l.queue.length + l.lost.length := by
  have hlength := h.each.length_eq
  rw [length_append, length_append, length_zipIdx] at hlength
  exact hlength.symm

lemma Balanced.taken_sublist : l.taken.Sublist l.offers.zipIdx :=
  (sublist_append_left _ _).trans h.order

lemma Balanced.taken_nodup : (l.taken.map Prod.snd).Nodup := by
  have hsub := h.taken_sublist.map Prod.snd
  rw [zipIdx_map_snd] at hsub
  exact hsub.nodup nodup_range'

end

end Ledger

end StreamHub.Library
