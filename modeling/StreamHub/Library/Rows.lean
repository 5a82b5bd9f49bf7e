import Mathlib.Data.List.Nodup

/-!
# A table of numbered rows

A table whose rows are never deleted is a list; the key of a row is its position.  `select`
reads the rows that meet a condition with their keys, `List.modify` writes one of them and a new
row comes at the end.
-/

namespace StreamHub.Library.Rows

open List

variable {α : Type*}

/-- The rows that meet the condition, each with its key, in the order of the keys -/
def select (p : α → Bool) (rows : List α) : List (α × ℕ) := rows.zipIdx.filter fun x => p x.1

lemma mem_select {p : α → Bool} {rows : List α} {a : α} {id : ℕ} :
    (a, id) ∈ select p rows ↔ rows[id]? = some a ∧ p a = true := by
  rw [select, mem_filter, mk_mem_zipIdx_iff_getElem?]

lemma nodup_select (p : α → Bool) (rows : List α) : ((select p rows).map Prod.snd).Nodup := by
  have hkeys : (rows.zipIdx.map Prod.snd).Nodup := by
    rw [zipIdx_map_snd]
    exact nodup_range'
  exact hkeys.sublist (filter_sublist.map Prod.snd)

lemma getElem?_modify_eq_some {rows : List α} {id k : ℕ} {f : α → α} {a : α}
    (h : (rows.modify id f)[k]? = some a) :
    ∃ b, rows[k]? = some b ∧ a = if id = k then f b else b := by
  rw [getElem?_modify] at h
  obtain ⟨b, hb, heq⟩ := Option.map_eq_some_iff.mp h
  exact ⟨b, hb, heq.symm⟩

lemma modify_length_append (rows : List α) (a : α) (f : α → α) :
    (rows ++ [a]).modify rows.length f = rows ++ [f a] := by
  induction rows with
  | nil => rfl
  | cons b rows ih => rw [cons_append, length_cons, modify_succ_cons, ih, cons_append]

/-- A pass over distinct keys that writes each of these rows once -/
lemma getElem?_foldl_modify {f : α → α} {keys : List ℕ} (hnodup : keys.Nodup) (rows : List α)
    (k : ℕ) : (keys.foldl (fun rows id => rows.modify id f) rows)[k]? =
      rows[k]?.map fun a => if k ∈ keys then f a else a := by
  induction keys generalizing rows with
  | nil => simp
  | cons id keys ih =>
    obtain ⟨hfresh, hrest⟩ := nodup_cons.mp hnodup
    rw [foldl_cons, ih hrest, getElem?_modify]
    cases rows[k]? with
    | none => rfl
    | some a =>
      by_cases heq : id = k
      · subst heq
        simp [hfresh]
      · have hne : k ≠ id := fun h => heq h.symm
        simp [heq, hne]

end StreamHub.Library.Rows
