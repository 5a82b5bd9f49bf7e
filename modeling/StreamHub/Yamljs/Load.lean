import StreamHub.Yamljs.Value

/-!
# Mappings with merge keys

`loader.mapping` and `mergeMappings`, over the pairs of a mapping node as `node` and `keyString`
return them.  What is loaded does not depend on where the merges stand (`mapping_exact`).
-/

namespace StreamHub.Yamljs

open Library Text OrderedMap List

/-- A loaded pair; `merge` says that the tag of the key is that of `<<`. -/
structure Pair where
  merge : Bool
  key : Str
  value : Value

inductive LoadError
  | duplicated (key : Str)
  | unacceptable

/-- The object and the keys that an ordinary pair may override. -/
structure Loading where
  members : List (Str × Value)
  overridable : List Str

def mergeKey (st : Loading) (e : Str × Value) : Loading :=
  if (st.members.lookup e.1).isSome then st
  else ⟨set e.1 e.2 st.members, e.1 :: st.overridable⟩

/-- The members in the order of `Map.Keys`. -/
def entries (m : List (Str × Value)) : List (Str × Value) := (keys m).map fun k => (k, get m k)

def mergeMappings (js : Js) (st : Loading) : Value → Except LoadError Loading
  | .obj members => .ok ((entries members).foldl mergeKey st)
  | .arr items =>
    .ok ((items.zipIdx.map fun x => (js.numberString (.finite x.2), x.1)).foldl mergeKey st)
  | _ => .error .unacceptable

def mappingPair (js : Js) (st : Loading) (p : Pair) : Except LoadError Loading :=
  if p.merge then
    match p.value with
    | .arr sources => sources.foldlM (mergeMappings js) st
    | source => mergeMappings js st source
  else if !st.overridable.contains p.key && (st.members.lookup p.key).isSome then
    .error (.duplicated p.key)
  else .ok ⟨set p.key p.value st.members, st.overridable.filter (· ≠ p.key)⟩

def mapping (js : Js) (pairs : List Pair) : Except LoadError (List (Str × Value)) :=
  (pairs.foldlM (mappingPair js) ⟨[], []⟩).map Loading.members

/-! ## What a mapping means -/

/-- An ordinary pair, a merge of a mapping or of a list of them. -/
inductive Item
  | ordinary (key : Str) (value : Value)
  | merge (source : List (Str × Value))
  | mergeAll (sources : List (List (Str × Value)))

namespace Item

def pair : Item → Pair
  | ordinary key value => ⟨false, key, value⟩
  | merge source => ⟨true, str "<<", .obj source⟩
  | mergeAll sources => ⟨true, str "<<", .arr (sources.map .obj)⟩

def own : Item → List (Str × Value)
  | ordinary key value => [(key, value)]
  | _ => []

def sources : Item → List (List (Str × Value))
  | ordinary _ _ => []
  | merge source => [source]
  | mergeAll sources => sources

end Item

/-- The state behind ordinary pairs and the entries that were merged. -/
structure Means (own merged : List (Str × Value)) (st : Loading) : Prop where
  distinct : (own.map Prod.fst).Nodup
  nodup : (st.members.map Prod.fst).Nodup
  lookup : ∀ k, st.members.lookup k = (own.lookup k).or (merged.lookup k)
  overridable : ∀ k, k ∈ st.overridable ↔ own.lookup k = none ∧ (merged.lookup k).isSome

lemma lookup_concat (m : List (Str × Value)) (e : Str × Value) (k : Str) :
    (m ++ [e]).lookup k = (m.lookup k).or (if k = e.1 then some e.2 else none) := by
  rw [lookup_append, OrderedMap.lookup_cons, lookup_nil]

variable {own merged : List (Str × Value)} {st : Loading} (js : Js)

lemma Means.mergeKey (h : Means own merged st) (e : Str × Value) :
    Means own (merged ++ [e]) (mergeKey st e) := by
  rw [Yamljs.mergeKey]
  by_cases hhas : (st.members.lookup e.1).isSome = true
  · rw [if_pos hhas]
    refine ⟨h.distinct, h.nodup, fun k => ?_, fun k => ?_⟩
    · rw [h.lookup, lookup_concat]
      by_cases hk : k = e.1
      · rw [hk, ← Option.or_assoc, ← h.lookup, Option.or_of_isSome hhas]
      · simp [hk]
    · rw [h.overridable, lookup_concat]
      by_cases hk : k = e.1
      · rw [h.lookup] at hhas
        cases hown : own.lookup e.1 <;> simp_all
      · simp [hk]
  · rw [if_neg hhas]
    rw [Option.not_isSome_iff_eq_none, h.lookup, Option.or_eq_none_iff] at hhas
    refine ⟨h.distinct, nodup_set h.nodup _ _, fun k => ?_, fun k => ?_⟩
    · rw [lookup_set, h.lookup, lookup_concat]
      by_cases hk : k = e.1
      · rw [hk, hhas.1, hhas.2, if_pos rfl, if_pos rfl, Option.none_or, Option.none_or]
      · simp [hk]
    · rw [mem_cons, h.overridable, lookup_concat]
      by_cases hk : k = e.1
      · rw [hk, hhas.1, hhas.2]
        simp
      · simp [hk]

lemma Means.merge (h : Means own merged st) (more : List (Str × Value)) :
    Means own (merged ++ more) (more.foldl Yamljs.mergeKey st) := by
  induction more generalizing merged st with
  | nil => rwa [append_nil]
  | cons e rest ih =>
    have hrest := ih (h.mergeKey e)
    rwa [append_assoc] at hrest

lemma Means.ordinary (h : Means own merged st) {key : Str} (hnew : own.lookup key = none)
    (value : Value) : Means (own ++ [(key, value)]) merged
      ⟨set key value st.members, st.overridable.filter (· ≠ key)⟩ := by
  have hkey := Option.not_isSome_iff_eq_none.mpr hnew
  rw [← mem_map_fst] at hkey
  refine ⟨?_, nodup_set h.nodup _ _, fun k => ?_, fun k => ?_⟩
  · rw [← set_of_notMem hkey]
    exact nodup_set h.distinct _ _
  · rw [lookup_set, h.lookup, lookup_concat]
    by_cases hk : k = key
    · simp [hk, hnew]
    · simp [hk]
  · rw [mem_filter, h.overridable, lookup_concat]
    by_cases hk : k = key
    · simp [hk]
    · simp [hk]

lemma foldlM_mergeMappings (more : List (List (Str × Value))) (st : Loading) :
    (more.map Value.obj).foldlM (mergeMappings js) st =
      .ok ((more.flatMap entries).foldl mergeKey st) := by
  induction more generalizing st with
  | nil => rfl
  | cons source rest ih =>
    rw [flatMap_cons, foldl_append, ← ih]
    rfl

/-- An item behind others fails exactly if it is an ordinary pair whose key had one. -/
lemma Means.item (h : Means own merged st) (item : Item) :
    (∃ st', mappingPair js st item.pair = .ok st' ∧
      Means (own ++ item.own) (merged ++ item.sources.flatMap entries) st') ∨
    (∃ e, mappingPair js st item.pair = .error e) ∧ ¬ ((own ++ item.own).map Prod.fst).Nodup := by
  cases item with
  | merge source =>
    refine .inl ⟨_, foldlM_mergeMappings js [source] st, ?_⟩
    simpa [Item.own, Item.sources] using h.merge (entries source)
  | mergeAll more =>
    refine .inl ⟨_, foldlM_mergeMappings js more st, ?_⟩
    simpa [Item.own, Item.sources] using h.merge (more.flatMap entries)
  | ordinary key value =>
    have htest : (!st.overridable.contains key && (st.members.lookup key).isSome) = true ↔
        (own.lookup key).isSome := by
      rw [Bool.and_eq_true, Bool.not_eq_true', ← Bool.not_eq_true, contains_iff_mem,
        h.overridable, h.lookup]
      cases own.lookup key <;> cases merged.lookup key <;> simp
    by_cases hold : (own.lookup key).isSome = true
    · refine .inr ⟨⟨_, if_pos (htest.mpr hold)⟩, fun hnodup => ?_⟩
      rw [map_append, nodup_append] at hnodup
      exact hnodup.2.2 key (mem_map_fst.mpr hold) key mem_cons_self rfl
    · refine .inl ⟨_, if_neg (htest.not.mpr hold), ?_⟩
      rw [Item.sources, flatMap_nil, append_nil]
      exact h.ordinary (Option.not_isSome_iff_eq_none.mp hold) value

lemma items_mean (items : List Item) :
    (∃ st, (items.map Item.pair).foldlM (mappingPair js) ⟨[], []⟩ = .ok st ∧
      Means (items.flatMap Item.own)
        ((items.flatMap Item.sources).flatMap entries) st) ∨
    (∃ e, (items.map Item.pair).foldlM (mappingPair js) ⟨[], []⟩ = .error e) ∧
      ¬ ((items.flatMap Item.own).map Prod.fst).Nodup := by
  -- the invariant is about every beginning of the pairs
  induction items using reverseRecOn with
  | nil => exact .inl ⟨_, rfl, by simp, by simp, by simp, by simp⟩
  | append_singleton items item ih =>
    simp only [map_append, map_singleton, foldlM_append, foldlM_cons, foldlM_nil, bind_pure,
      flatMap_append, flatMap_singleton]
    obtain ⟨st, hst, h⟩ | ⟨⟨e, he⟩, hnot⟩ := ih
    · rw [hst, ← map_append]
      exact h.item js item
    · rw [he]
      exact .inr ⟨⟨e, rfl⟩, fun hall => hnot (nodup_append.mp hall).1⟩

lemma lookup_entries (m : List (Str × Value)) (k : Str) : (entries m).lookup k = m.lookup k := by
  cases hk : m.lookup k with
  | none =>
    rw [← Option.not_isSome_iff_eq_none] at hk ⊢
    simpa [entries, mem_keys] using hk
  | some v =>
    have hmem : k ∈ keys m := mem_keys.mpr (mem_map_fst.mpr (by rw [hk]; rfl))
    rw [entries, lookup_graph _ hmem, get, lookupOr, hk]
    rfl

lemma lookup_flatMap_entries (sources : List (List (Str × Value))) (k : Str) :
    (sources.flatMap entries).lookup k = sources.flatten.lookup k := by
  induction sources with
  | nil => rfl
  | cons source rest ih =>
    rw [flatMap_cons, lookup_append, lookup_entries, ih, flatten_cons, lookup_append]

/-- The loader fails exactly if two ordinary pairs have one key.  Else a key has the value of
its ordinary pair, or of the first merged mapping that has it. -/
theorem mapping_exact (js : Js) (items : List Item) :
    ((∃ e, mapping js (items.map Item.pair) = .error e) ↔
      ¬ ((items.flatMap Item.own).map Prod.fst).Nodup) ∧
    ∀ m, mapping js (items.map Item.pair) = .ok m → (m.map Prod.fst).Nodup ∧
      ∀ k, m.lookup k = ((items.flatMap Item.own).lookup k).or
        ((items.flatMap Item.sources).flatten.lookup k) := by
  rw [mapping]
  obtain ⟨st, hst, h⟩ | ⟨⟨e, he⟩, hnot⟩ := items_mean js items
  · rw [hst]
    refine ⟨iff_of_false (fun ⟨e, he⟩ => nomatch he) (not_not_intro h.distinct), fun m hm => ?_⟩
    cases hm
    simpa only [lookup_flatMap_entries] using And.intro h.nodup h.lookup
  · rw [he]
    exact ⟨iff_of_true ⟨e, rfl⟩ hnot, fun m hm => nomatch hm⟩

end StreamHub.Yamljs
