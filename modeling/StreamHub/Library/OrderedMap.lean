import Mathlib.Tactic

/-!
# Maps that keep the order of insertion

An association list in which a key that is set again keeps its position, as the
objects of JavaScript do.  Reading is `List.lookup`.  Nothing is assumed about
keys that stand twice in a list: the first one counts, for reading and for setting.
-/

namespace StreamHub.Library.OrderedMap

open List

variable {κ β : Type*} [BEq κ] [LawfulBEq κ]

/-- Set a member. -/
def set (k : κ) (v : β) : List (κ × β) → List (κ × β)
  | [] => [(k, v)]
  | (k', v') :: rest => if k' == k then (k', v) :: rest else (k', v') :: set k v rest

/-- The value of a key, `missing` if there is none. -/
def lookupOr (missing : β) (m : List (κ × β)) (k : κ) : β := (m.lookup k).getD missing

/-- A new map, each key set to what `f` gives for it. -/
def build (f : κ → β) (names : List κ) : List (κ × β) := names.foldl (fun m k => set k (f k) m) []

section Reading

variable [DecidableEq κ]

lemma lookup_cons (k key : κ) (v : β) (rest : List (κ × β)) :
    ((key, v) :: rest).lookup k = if k = key then some v else rest.lookup k := by
  rw [List.lookup_cons]
  by_cases hk : k = key
  · simp [hk]
  · simp [hk, beq_eq_false_iff_ne.mpr hk]

lemma lookup_set (k k' : κ) (v : β) (m : List (κ × β)) :
    (set k v m).lookup k' = if k' = k then some v else m.lookup k' := by
  induction m with
  | nil => rw [set, lookup_cons]
  | cons entry rest ih =>
    obtain ⟨key, value⟩ := entry
    rw [set]
    by_cases hkey : key = k
    · rw [if_pos (by simpa using hkey), lookup_cons, lookup_cons, hkey]
      by_cases hk : k' = k
      · rw [if_pos hk, if_pos hk]
      · simp only [if_neg hk]
    rw [if_neg (by simpa using hkey), lookup_cons, lookup_cons, ih]
    by_cases hk' : k' = key
    · rw [if_pos hk', if_pos hk', if_neg (by rwa [hk'])]
    · rw [if_neg hk', if_neg hk']

lemma lookupOr_set (missing : β) (k k' : κ) (v : β) (m : List (κ × β)) :
    lookupOr missing (set k v m) k' = if k' = k then v else lookupOr missing m k' := by
  rw [lookupOr, lookup_set]
  split
  · rfl
  · rfl

lemma lookup_filter_ne (m : List (κ × β)) (k k' : κ) :
    (m.filter fun e => e.1 != k).lookup k' = if k' = k then none else m.lookup k' := by
  induction m with
  | nil => rw [filter_nil, lookup_nil, ite_self]
  | cons e rest ih =>
    by_cases he : e.1 = k
    · rw [filter_cons_of_neg (by simp [he]), ih, lookup_cons, he]
      split
      · rfl
      · rfl
    rw [filter_cons_of_pos (by simp [he]), lookup_cons, lookup_cons, ih]
    by_cases hk : k' = e.1
    · rw [if_pos hk, if_pos hk, if_neg (hk ▸ he)]
    · rw [if_neg hk, if_neg hk]

omit [DecidableEq κ] [LawfulBEq κ] in
lemma build_concat (f : κ → β) (names : List κ) (name : κ) :
    build f (names ++ [name]) = set name (f name) (build f names) := by
  rw [build, foldl_concat, build]

lemma lookup_build (f : κ → β) (names : List κ) (k : κ) :
    (build f names).lookup k = if k ∈ names then some (f k) else none := by
  induction names using reverseRecOn with
  | nil => simp [build]
  | append_singleton names name ih =>
    rw [build_concat, lookup_set, ih]
    by_cases hk : k = name
    · simp [hk]
    · simp [hk]

variable {m : List (κ × β)}

omit [DecidableEq κ] in
lemma mem_of_lookup {k : κ} {v : β} (h : m.lookup k = some v) : (k, v) ∈ m := by
  obtain ⟨front, rest, rfl, -⟩ := lookup_eq_some_iff.mp h
  exact mem_append_right front mem_cons_self

omit [DecidableEq κ] in
lemma mem_map_fst {k : κ} : k ∈ m.map Prod.fst ↔ (m.lookup k).isSome := by
  rw [lookup_isSome_iff, mem_map]
  simp only [beq_iff_eq]
  simp only [eq_comm]

omit [DecidableEq κ] in
lemma mem_iff_lookup {entry : κ × β} (h : (m.map Prod.fst).Nodup) :
    entry ∈ m ↔ m.lookup entry.1 = some entry.2 := by
  refine ⟨fun hentry => ?_, mem_of_lookup⟩
  obtain ⟨front, rest, rfl⟩ := append_of_mem hentry
  rw [map_append, nodup_append] at h
  have hfront : front.lookup entry.1 = none := by
    refine lookup_eq_none_iff.mpr fun e he => bne_iff_ne.mpr fun heq => ?_
    exact h.2.2 e.1 (mem_map_of_mem he) entry.1 mem_cons_self heq.symm
  rw [lookup_append, hfront, Option.none_or, lookup_cons_self]

lemma mem_map_fst_set {k k' : κ} {v : β} :
    k' ∈ (set k v m).map Prod.fst ↔ k' = k ∨ k' ∈ m.map Prod.fst := by
  rw [mem_map_fst, lookup_set]
  by_cases hk : k' = k
  · simp [hk]
  · simp [hk]

omit [DecidableEq κ] in
lemma lookupOr_mem (missing : β) (m : List (κ × β)) (k : κ) :
    lookupOr missing m k = missing ∨ (k, lookupOr missing m k) ∈ m := by
  rw [lookupOr]
  cases hk : m.lookup k with
  | none => exact .inl rfl
  | some v => exact .inr (mem_of_lookup hk)

end Reading

/-! ## Members -/

variable {m : List (κ × β)} {entry : κ × β}

lemma mem_set {k : κ} {v : β} (h : entry ∈ set k v m) : entry = (k, v) ∨ entry ∈ m := by
  induction m with
  | nil =>
    rw [set, mem_singleton] at h
    exact .inl h
  | cons first rest ih =>
    rw [set] at h
    split at h
    · rename_i hkey
      rcases mem_cons.mp h with h | h
      · exact .inl (by rw [h, eq_of_beq hkey])
      · exact .inr (mem_cons_of_mem _ h)
    · rcases mem_cons.mp h with h | h
      · exact .inr (by rw [h]; exact mem_cons_self)
      · exact (ih h).imp_right (mem_cons_of_mem _)

lemma mem_set_self (k : κ) (v : β) (m : List (κ × β)) : (k, v) ∈ set k v m := by
  classical
  exact mem_of_lookup (by rw [lookup_set, if_pos rfl])

variable {names : List κ}

/-! ## Positions -/

lemma set_set (k : κ) (v w : β) (m : List (κ × β)) : set k v (set k w m) = set k v m := by
  induction m with
  | nil => simp [set]
  | cons entry rest ih =>
    rw [set, set]
    split
    · rename_i hkey
      rw [set, if_pos hkey]
    · rename_i hkey
      rw [set, if_neg hkey, ih]

lemma map_fst_set_of_mem {k : κ} (h : k ∈ m.map Prod.fst) (v : β) :
    (set k v m).map Prod.fst = m.map Prod.fst := by
  induction m with
  | nil => cases h
  | cons entry rest ih =>
    rw [set]
    split
    · rfl
    rename_i hkey
    have hrest : k ∈ rest.map Prod.fst := by
      rcases mem_cons.mp h with h | h
      · exact absurd (beq_iff_eq.mpr h.symm) hkey
      · exact h
    rw [map_cons, map_cons, ih hrest]

lemma set_of_notMem {k : κ} (h : k ∉ m.map Prod.fst) (v : β) : set k v m = m ++ [(k, v)] := by
  induction m with
  | nil => rfl
  | cons entry rest ih =>
    obtain ⟨key, value⟩ := entry
    rw [map_cons, mem_cons, not_or] at h
    have hkey : ¬(key == k) = true := fun heq => h.1 (eq_of_beq heq).symm
    rw [set, if_neg hkey, ih h.2, cons_append]

lemma build_of_nodup (f : κ → β) (h : names.Nodup) :
    build f names = names.map fun k => (k, f k) := by
  induction names using reverseRecOn with
  | nil => rfl
  | append_singleton names name ih =>
    obtain ⟨hnames, -, hname⟩ := nodup_append.mp h
    rw [build_concat, ih hnames, set_of_notMem, map_append, map_singleton]
    simpa using fun hmem => hname name hmem name mem_cons_self rfl

lemma nodup_set (hm : (m.map Prod.fst).Nodup) (k : κ) (v : β) :
    ((set k v m).map Prod.fst).Nodup := by
  by_cases hk : k ∈ m.map Prod.fst
  · rwa [map_fst_set_of_mem hk]
  · rw [set_of_notMem hk, map_append]
    exact hm.append (nodup_singleton k) (disjoint_singleton.mpr hk)

lemma nodup_build (f : κ → β) (names : List κ) : ((build f names).map Prod.fst).Nodup := by
  induction names using reverseRecOn with
  | nil => exact nodup_nil
  | append_singleton names name ih =>
    rw [build_concat]
    exact nodup_set ih name (f name)

lemma mem_build {f : κ → β} : entry ∈ build f names ↔ entry.1 ∈ names ∧ entry.2 = f entry.1 := by
  classical
  rw [mem_iff_lookup (nodup_build f names), lookup_build]
  by_cases hname : entry.1 ∈ names
  · simp [hname, eq_comm]
  · simp [hname]

lemma sublist_set (k : κ) (v : β) (m : List (κ × β)) :
    ((set k v m).map Prod.fst).Sublist (m.map Prod.fst ++ [k]) := by
  by_cases hk : k ∈ m.map Prod.fst
  · rw [map_fst_set_of_mem hk]
    exact sublist_append_left _ _
  · rw [set_of_notMem hk, map_append, map_singleton]

/-- The keys of a new map are the names without those that come again. -/
lemma sublist_build (f : κ → β) (names : List κ) :
    ((build f names).map Prod.fst).Sublist names := by
  induction names using reverseRecOn with
  | nil => exact nil_sublist _
  | append_singleton names name ih =>
    rw [build_concat]
    exact (sublist_set name (f name) _).trans (ih.append_right _)

omit [LawfulBEq κ] in
lemma build_congr {f g : κ → β} (h : ∀ k ∈ names, f k = g k) : build f names = build g names := by
  refine foldl_ext _ _ _ fun m k hk => ?_
  rw [h k hk]

lemma build_map_fst_build (f : κ → β) (names : List κ) :
    build f ((build f names).map Prod.fst) = build f names := by
  have hentries : (build f names).map (fun entry => (entry.1, f entry.1)) = build f names := by
    conv_rhs => rw [← map_id (build f names)]
    refine map_congr_left fun entry hentry => ?_
    rw [← (mem_build.mp hentry).2]
    rfl
  rw [build_of_nodup f (nodup_build f names), map_map]
  exact hentries

end StreamHub.Library.OrderedMap
