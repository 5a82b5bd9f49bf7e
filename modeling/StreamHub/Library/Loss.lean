import Mathlib.Tactic

/-!
# Lists with losses

A sender's list arrives with some elements lost.  `keep` has one flag an
element; `kept` is what arrives.  A receiver that numbers elements modulo
sixteen notices a gap of one to fifteen, so what it needs to know of the losses
is `LossBounded`: how many elements have just been lost, and that sixteen
consecutive ones never are.
-/

namespace StreamHub.Library.Loss

open List

variable {α : Type*}

/-- What is left of a list when the elements without `keep` flag are lost. -/
def kept (list : List α) (keep : List Bool) : List α :=
  ((list.zip keep).filter Prod.snd).map Prod.fst

@[simp] lemma kept_cons (a : α) (list : List α) (k : Bool) (keep : List Bool) :
    kept (a :: list) (k :: keep) = if k then a :: kept list keep else kept list keep := by
  cases k <;> simp [kept]

lemma kept_append (list more : List α) (keep : List Bool) (hlength : list.length ≤ keep.length) :
    kept (list ++ more) keep =
      kept list (keep.take list.length) ++ kept more (keep.drop list.length) := by
  induction list generalizing keep with
  | nil => simp [kept]
  | cons a list ih =>
    cases keep with
    | nil => simp at hlength
    | cons k keep =>
      have htail : list.length ≤ keep.length := by simpa using hlength
      cases k <;> simp [ih keep htail]

lemma filter_arrived (stream : List (α × Bool)) (q : α → Bool) :
    ((stream.filter Prod.snd).map Prod.fst).filter q =
      kept ((stream.map Prod.fst).filter q)
        ((stream.filter fun e => q e.1).map Prod.snd) := by
  induction stream with
  | nil => rfl
  | cons e stream ih =>
    obtain ⟨a, k⟩ := e
    cases hq : q a <;> cases k <;> simp [hq, ih]

lemma kept_all (list : List α) : kept list (replicate list.length true) = list := by
  induction list with
  | nil => rfl
  | cons a list ih => simp [replicate_succ, ih]

/-- `gap` elements have just been lost, and no sixteen consecutive ones ever
are. -/
def LossBounded (gap : Nat) (keep : List Bool) : Prop :=
  ¬ replicate 16 false <:+: replicate gap false ++ keep

variable {keep : List Bool}

lemma LossBounded.gap_lt {gap : Nat} (h : LossBounded gap keep) : gap < 16 := by
  by_contra hgap
  apply h
  have hsplit : replicate gap false =
      replicate 16 false ++ replicate (gap - 16) false := by
    rw [← replicate_add]
    congr 1
    omega
  rw [hsplit]
  exact (prefix_append _ _).isInfix

lemma LossBounded.lost {gap : Nat} (h : LossBounded gap (false :: keep)) :
    LossBounded (gap + 1) keep := by
  have hsame : replicate (gap + 1) false ++ keep =
      replicate gap false ++ false :: keep := by
    rw [replicate_succ', append_assoc]
    rfl
  rwa [LossBounded, hsame]

lemma LossBounded.arrived {gap : Nat} (h : LossBounded gap (true :: keep)) :
    LossBounded 0 keep := by
  intro hwithin
  apply h
  refine hwithin.trans ?_
  exact ((suffix_cons true keep).trans (suffix_append _ _)).isInfix

end StreamHub.Library.Loss
