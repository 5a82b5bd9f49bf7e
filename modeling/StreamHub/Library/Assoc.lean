import Mathlib.Data.List.AList
import Mathlib.Tactic

/-!
# Adding up over association lists

`total f s` adds up `f` over the values of an association list.  Inserting,
erasing and taking out the entries that pass a test change it by what they add and
remove.
-/

namespace StreamHub.Library.Assoc

open List

variable {κ β M : Type*}

/-- The sum of a function over the values. -/
def total [AddCommMonoid M] (f : β → M) (s : AList fun _ : κ => β) : M :=
  (s.entries.map fun e => f e.2).sum

/-- The values of the entries that pass a test. -/
def those (p : κ → β → Bool) (s : AList fun _ : κ => β) : List β :=
  (s.entries.filter fun e => p e.1 e.2).map Sigma.snd

/-- The other entries. -/
def without (p : κ → β → Bool) (s : AList fun _ : κ => β) : AList fun _ : κ => β where
  entries := s.entries.filter fun e => !p e.1 e.2
  nodupKeys := s.nodupKeys.sublist filter_sublist

@[simp] lemma total_empty [AddCommMonoid M] (f : β → M) :
    total f (∅ : AList fun _ : κ => β) = 0 := rfl

lemma total_those_add [AddCommMonoid M] (f : β → M) (p : κ → β → Bool)
    (s : AList fun _ : κ => β) : ((those p s).map f).sum + total f (without p s) = total f s := by
  unfold those total without
  dsimp only
  induction s.entries with
  | nil => simp
  | cons e rest ih =>
    by_cases hp : p e.1 e.2 = true
    · rw [filter_cons_of_pos (by simpa using hp), filter_cons_of_neg (by simp [hp])]
      simp only [map_cons, sum_cons, add_assoc, ih]
    · rw [filter_cons_of_neg (by simpa using hp), filter_cons_of_pos (by simp [hp])]
      simp only [map_cons, sum_cons]
      rw [add_left_comm, ih]

variable [DecidableEq κ] [AddCommMonoid M] (f : β → M) {s : AList fun _ : κ => β} {k : κ} {v : β}

lemma total_erase (h : s.lookup k = some v) : total f s = f v + total f (s.erase k) := by
  have hmem : k ∈ s.entries.keys := AList.lookup_isSome.mp (by rw [h]; rfl)
  obtain ⟨w, before, after, -, hentries, herased⟩ := exists_of_kerase hmem
  have hw : w = v := by
    have hin : (⟨k, w⟩ : Sigma fun _ : κ => β) ∈ s.entries := by
      rw [hentries]
      exact mem_append_right before mem_cons_self
    have hlookup := AList.mem_lookup_iff.mpr hin
    rw [h] at hlookup
    exact (Option.some.inj hlookup).symm
  have herase : (s.erase k).entries = before ++ after := herased
  rw [total, total, herase, hentries, hw]
  simp only [map_append, map_cons, sum_append, sum_cons]
  rw [add_left_comm]

lemma total_erase_of_lookup_eq_none (h : s.lookup k = none) : total f (s.erase k) = total f s := by
  have hmem : k ∉ s.entries.keys := AList.lookup_eq_none.mp h
  have herase : (s.erase k).entries = s.entries := kerase_of_notMem_keys hmem
  rw [total, total, herase]

lemma total_insert (k : κ) (v : β) (s : AList fun _ : κ => β) :
    total f (s.insert k v) = f v + total f (s.erase k) := by
  rfl

end StreamHub.Library.Assoc
