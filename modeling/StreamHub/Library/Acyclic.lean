import Mathlib.Tactic

/-!
# Relations without cycles

What changes when the edges out of one node are replaced (`acyclic_iff`), and how
long a path in a finite part of an acyclic relation can be (`Acyclic.length_le`).
-/

namespace StreamHub.Library

open Relation

variable {α : Type*}

/-- No node leads back to itself. -/
def Acyclic (E : α → α → Prop) : Prop := ∀ a, ¬TransGen E a a

variable {E E' : α → α → Prop} {cur : α}

/-- A path to the node whose edges differ does not use them, up to its first visit. -/
lemma reflTransGen_of_agree (hagree : ∀ a b, a ≠ cur → E' a b → E a b) {b : α}
    (h : ReflTransGen E' b cur) : ReflTransGen E b cur := by
  induction h using ReflTransGen.head_induction_on with
  | refl => exact .refl
  | @head a c hstep _ ih =>
    by_cases ha : a = cur
    · rw [ha]
    · exact ReflTransGen.head (hagree a c ha hstep) ih

lemma transGen_or_through (hagree : ∀ a b, a ≠ cur → E' a b → E a b) {a b : α}
    (h : TransGen E' a b) : TransGen E a b ∨ (ReflTransGen E' a cur ∧ TransGen E' cur b) := by
  induction h with
  | @single b hstep =>
    by_cases ha : a = cur
    · exact .inr ⟨by rw [ha], by rw [← ha]; exact .single hstep⟩
    · exact .inl (.single (hagree a b ha hstep))
  | @tail b c hpath hstep ih =>
    rcases ih with hold | ⟨hto, hfrom⟩
    · by_cases hb : b = cur
      · exact .inr ⟨by rw [← hb]; exact hpath.to_reflTransGen, by rw [← hb]; exact .single hstep⟩
      · exact .inl (hold.tail (hagree b c hb hstep))
    · exact .inr ⟨hto, hfrom.tail hstep⟩

/-- Replacing the edges out of one node of an acyclic relation closes a cycle exactly
when one of the new ends leads to that node. -/
lemma acyclic_iff (hE : Acyclic E) (hagree : ∀ a b, a ≠ cur → (E' a b ↔ E a b)) :
    Acyclic E' ↔ ∀ b, E' cur b → ¬ReflTransGen E b cur := by
  have hold : ∀ a b, a ≠ cur → E' a b → E a b := fun a b ha => (hagree a b ha).mp
  have hnew : ∀ a b, a ≠ cur → E a b → E' a b := fun a b ha => (hagree a b ha).mpr
  constructor
  · intro hE' b hedge hpath
    exact hE' cur (TransGen.head' hedge (reflTransGen_of_agree hnew hpath))
  · intro hsafe a hcycle
    rcases transGen_or_through hold hcycle with hcycle | ⟨hto, hfrom⟩
    · exact hE a hcycle
    obtain ⟨b, hedge, hpath⟩ := TransGen.head'_iff.mp hfrom
    exact hsafe b hedge (reflTransGen_of_agree hold (hpath.trans hto))

lemma Acyclic.nodup (hE : Acyclic E) {path : List α} (h : path.IsChain E) : path.Nodup := by
  have hpairwise : path.Pairwise (TransGen E) :=
    List.isChain_iff_pairwise.mp (h.imp fun _ _ hab => TransGen.single hab)
  refine hpairwise.imp fun {a b} hab => ?_
  rintro rfl
  exact hE a hab

lemma Acyclic.length_le (hE : Acyclic E) {path nodes : List α} (h : path.IsChain E)
    (hnodes : path ⊆ nodes) : path.length ≤ nodes.length :=
  (List.subperm_of_subset (hE.nodup h) hnodes).length_le

lemma not_transGen_of_acc {a : α} (h : Acc (fun x y => E y x) a) : ¬TransGen E a a := by
  induction h with
  | intro a _ ih =>
    intro hcycle
    obtain ⟨b, hedge, hpath⟩ := TransGen.head'_iff.mp hcycle
    exact ih b hedge (TransGen.tail' hpath hedge)

lemma length_le_of_acc {a : α} {path nodes : List α} (hacc : Acc (fun x y => E y x) a)
    (h : (a :: path).IsChain E) (hnodes : a :: path ⊆ nodes) : path.length + 1 ≤ nodes.length := by
  -- the edges out of such nodes form no cycle
  have hE : Acyclic fun x y => E x y ∧ Acc (fun x y => E y x) x := by
    intro b hcycle
    obtain ⟨c, hedge, -⟩ := TransGen.head'_iff.mp hcycle
    exact not_transGen_of_acc hedge.2 (hcycle.lift id fun _ _ hxy => hxy.1)
  suffices hchain : (a :: path).IsChain fun x y => E x y ∧ Acc (fun x y => E y x) x from
    hE.length_le hchain hnodes
  clear hnodes
  induction path generalizing a with
  | nil => exact .singleton a
  | cons b rest ih =>
    rw [List.isChain_cons_cons] at h
    exact .cons_cons ⟨h.1, hacc⟩ (ih (hacc.inv h.1) h.2)

end StreamHub.Library
