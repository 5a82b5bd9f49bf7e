import StreamHub.Library.OrderedMap
import StreamHub.Library.Text

/-!
# The secrets file

All credentials stand in one JSON object, `secrets.json`.  The store keeps the map it read
last; some writers go around it and read the file themselves.  Every write puts down the
whole file again, with the entries it does not name: those that are strings as they were,
the others in the layout of the writer (`lookup_writeSecret`, `lookup_setMany`).

`value` is what a reader of the file gets.
-/

namespace StreamHub.S3

open Library Text OrderedMap
open List hiding set lookup_cons

/-- A JSON value: a string, `null`, or anything else as its text. -/
inductive SecretValue
  | text (s : Str)
  | raw (source : Str)
  | null
  deriving DecidableEq

abbrev SecretsMap := List (Str × SecretValue)

/-- The file, and what the store has read of it. -/
structure SecretsStore where
  file : SecretsMap
  cache : Option SecretsMap

/-- A value written with `json.Indent` and read again; `layout` is what that makes of a
text. -/
def SecretValue.laidOut (layout : Str → Str) : SecretValue → SecretValue
  | .raw source => .raw (layout source)
  | v => v

/-- The file that `stringify` leaves, read again. -/
def written (layout : Str → Str) (m : SecretsMap) : SecretsMap :=
  m.map fun e => (e.1, e.2.laidOut layout)

namespace SecretsStore

variable (layout : Str → Str)

def load (s : SecretsStore) : SecretsMap := s.cache.getD s.file

def invalidate (s : SecretsStore) : SecretsStore := { s with cache := none }

/-- `SetMany`, of keys that are not empty in their order. -/
def setMany (values : List (Str × Str)) (s : SecretsStore) : SecretsStore :=
  let m := values.foldl (fun m kv => if kv.1 = [] then m else set kv.1 (.text kv.2) m) s.load
  { file := written layout m, cache := some m }

/-- `Set` -/
def setOne (ref value : Str) (s : SecretsStore) : SecretsStore := setMany layout [(ref, value)] s

def remove (ref : Str) (s : SecretsStore) : SecretsStore :=
  match s.load.lookup ref with
  | none => { s with cache := some s.load }
  | some _ =>
    let m := s.load.filter fun e => e.1 != ref
    { file := written layout m, cache := some m }

def writeSecret (ref value : Str) (s : SecretsStore) : SecretsStore :=
  if ref = [] then s else { s with file := written layout (set ref (.text value) s.file) }

end SecretsStore

/-- What `ReadFresh` has under a key; a missing entry and `null` read as empty. -/
def value (m : SecretsMap) (ref : Str) : Str :=
  match m.lookup ref with
  | some (.text s) => s
  | some (.raw source) => source
  | _ => []

/-! ## Entries after a write -/

variable {layout : Str → Str}

lemma lookup_written (m : SecretsMap) (ref : Str) :
    (written layout m).lookup ref = (m.lookup ref).map (SecretValue.laidOut layout) := by
  induction m with
  | nil => rfl
  | cons e rest ih =>
    rw [written, map_cons, lookup_cons, lookup_cons]
    split
    · rfl
    · exact ih

lemma laidOut_laidOut (f g : Str → Str) (v : SecretValue) :
    (v.laidOut f).laidOut g = v.laidOut (g ∘ f) := by cases v <;> rfl

/-- Two states of an entry that differ at most in the layout of a value that is no string. -/
def SameEntry (layout : Str → Str) (before after : Option SecretValue) : Prop :=
  ∃ n : ℕ, after = before.map (SecretValue.laidOut (layout^[n]))

lemma SameEntry.refl (e : Option SecretValue) : SameEntry layout e e := by
  refine ⟨0, ?_⟩
  cases e with
  | none => rfl
  | some v => cases v <;> rfl

lemma SameEntry.laidOut (e : Option SecretValue) :
    SameEntry layout e (e.map (SecretValue.laidOut layout)) := ⟨1, rfl⟩

lemma SameEntry.trans {a b c : Option SecretValue} (hab : SameEntry layout a b)
    (hbc : SameEntry layout b c) : SameEntry layout a c := by
  obtain ⟨m, rfl⟩ := hab
  obtain ⟨n, rfl⟩ := hbc
  refine ⟨n + m, ?_⟩
  cases a with
  | none => rfl
  | some v =>
    rw [Option.map_some, Option.map_some, Option.map_some, laidOut_laidOut, Function.iterate_add]

lemma SameEntry.eq_none {e : Option SecretValue} (h : SameEntry layout none e) : e = none := by
  obtain ⟨n, rfl⟩ := h
  rfl

lemma SameEntry.eq_text {e : Option SecretValue} {s : Str}
    (h : SameEntry layout (some (.text s)) e) : e = some (.text s) := by
  obtain ⟨n, rfl⟩ := h
  rfl

/-- An entry that stays as it is when the file is written. -/
def Settled (layout : Str → Str) (e : Option SecretValue) : Prop :=
  e.map (SecretValue.laidOut layout) = e

instance (e : Option SecretValue) : Decidable (Settled layout e) :=
  inferInstanceAs (Decidable (_ = _))

lemma SameEntry.eq_of_settled {a b : Option SecretValue} (h : SameEntry layout a b)
    (ha : Settled layout a) : b = a := by
  obtain ⟨n, rfl⟩ := h
  induction n with
  | zero => cases a with
    | none => rfl
    | some v => cases v <;> rfl
  | succ n ih =>
    have hcomp : SecretValue.laidOut layout^[n + 1] =
        SecretValue.laidOut layout^[n] ∘ SecretValue.laidOut layout :=
      funext fun v => (laidOut_laidOut layout layout^[n] v).symm
    rw [hcomp, ← Option.map_map, ha, ih]

lemma settled_text (s : Str) : Settled layout (some (.text s)) := rfl

lemma value_of_text {m : SecretsMap} {ref s : Str} (h : m.lookup ref = some (.text s)) :
    value m ref = s := by rw [value, h]

lemma lookup_writeSecret {ref : Str} (href : ref ≠ []) (v : Str) (s : SecretsStore) (k : Str) :
    (s.writeSecret layout ref v).file.lookup k =
      if k = ref then some (.text v) else (s.file.lookup k).map (SecretValue.laidOut layout) := by
  rw [SecretsStore.writeSecret, if_neg href]
  rw [lookup_written, lookup_set]
  split
  · rfl
  · rfl

lemma lookup_setOne {ref : Str} (href : ref ≠ []) (v : Str) (s : SecretsStore) (k : Str) :
    (s.setOne layout ref v).file.lookup k =
      if k = ref then some (.text v) else (s.load.lookup k).map (SecretValue.laidOut layout) := by
  rw [SecretsStore.setOne, SecretsStore.setMany, foldl_cons, foldl_nil, if_neg href]
  rw [lookup_written, lookup_set]
  split
  · rfl
  · rfl

/-! ## What the store knows -/

namespace SecretsStore

variable {s : SecretsStore}

lemma lookup_load_setMany (values : List (Str × Str)) (hne : ∀ kv ∈ values, kv.1 ≠ [])
    (s : SecretsStore) (k : Str) :
    (∃ v, (k, v) ∈ values ∧ (s.setMany layout values).load.lookup k = some (.text v)) ∨
      k ∉ values.map Prod.fst ∧ (s.setMany layout values).load.lookup k = s.load.lookup k := by
  change (∃ v, _ ∧ (values.foldl (fun (m : SecretsMap) kv =>
    if kv.1 = [] then m else set kv.1 (.text kv.2) m) s.load).lookup k = _) ∨
    _ ∧ (values.foldl _ s.load).lookup k = _
  -- the last value of a key is the one that stays
  induction values using reverseRecOn with
  | nil => exact .inr ⟨not_mem_nil, rfl⟩
  | append_singleton values kv ih =>
    have hkv : kv.1 ≠ [] := hne kv (mem_append_right _ mem_cons_self)
    rw [foldl_append, foldl_cons, foldl_nil, if_neg hkv, lookup_set]
    by_cases hk : k = kv.1
    · rw [if_pos hk, hk]
      exact .inl ⟨kv.2, mem_append_right _ mem_cons_self, rfl⟩
    rw [if_neg hk]
    refine (ih fun x hx => hne x (mem_append_left _ hx)).imp ?_ ?_
    · rintro ⟨v, hv, hlookup⟩
      exact ⟨v, mem_append_left _ hv, hlookup⟩
    · rintro ⟨hnot, hlookup⟩
      refine ⟨?_, hlookup⟩
      rw [map_append, mem_append, not_or]
      exact ⟨hnot, by simpa using hk⟩

lemma lookup_load_remove (ref : Str) (s : SecretsStore) (k : Str) :
    (s.remove layout ref).load.lookup k = if k = ref then none else s.load.lookup k := by
  rw [remove]
  split
  · rename_i hmissing
    change s.load.lookup k = _
    split
    · rename_i hk
      rw [hk, hmissing]
    · rfl
  · exact lookup_filter_ne s.load ref k

/-- The store knows the file, up to the layout of what is no string. -/
def Current (layout : Str → Str) (s : SecretsStore) : Prop :=
  ∀ k, SameEntry layout (s.load.lookup k) (s.file.lookup k)

lemma current_setMany (values : List (Str × Str)) (s : SecretsStore) :
    (s.setMany layout values).Current layout := by
  intro k
  change SameEntry layout (lookup k _) (lookup k (written layout _))
  rw [lookup_written]
  exact .laidOut _

lemma Current.remove (h : s.Current layout) (ref : Str) : (s.remove layout ref).Current layout := by
  rw [SecretsStore.remove]
  split
  · exact h
  intro k
  rw [lookup_written]
  exact .laidOut _

lemma lookup_load_foldl_remove (refs : List Str) (s : SecretsStore) (k : Str) :
    (refs.foldl (fun s ref => s.remove layout ref) s).load.lookup k =
      if k ∈ refs then none else s.load.lookup k := by
  induction refs generalizing s with
  | nil => rw [if_neg not_mem_nil, foldl_nil]
  | cons ref rest ih =>
    rw [foldl_cons, ih, lookup_load_remove]
    by_cases hrest : k ∈ rest
    · rw [if_pos hrest, if_pos (mem_cons_of_mem ref hrest)]
    rw [if_neg hrest]
    by_cases hk : k = ref
    · rw [if_pos hk, if_pos (hk ▸ mem_cons_self)]
    · rw [if_neg hk, if_neg (not_mem_cons_of_ne_of_not_mem hk hrest)]

lemma Current.foldl_remove (h : s.Current layout) (refs : List Str) :
    (refs.foldl (fun s ref => s.remove layout ref) s).Current layout := by
  induction refs generalizing s with
  | nil => exact h
  | cons ref rest ih => exact ih (h.remove ref)

end SecretsStore

end StreamHub.S3
