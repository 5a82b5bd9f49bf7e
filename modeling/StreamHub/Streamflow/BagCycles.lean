import StreamHub.Streamflow.Runner

/-!
# Cycles in the run bag

An assignment stores a value in an object without a copy, so it can close a cycle;
the serializer does not come back from one.  A write closes a cycle exactly when the
value leads to the object it is stored in (`acyclic_setMember_iff`).  In a run of
trigger and logic boxes in which no write does, the heap is acyclic after every box
and the run does not take the process down (`execute_acyclic`).
-/

namespace StreamHub.Streamflow

open Library Text OrderedMap Yamljs Relation
open List hiding set mem_set get

/-- An object refers to another one. -/
def Points (h : Heap) (r r' : Ref) : Prop := ∃ kv ∈ h.object r, r' ∈ kv.2.refs

instance (h : Heap) (r r' : Ref) : Decidable (Points h r r') :=
  inferInstanceAs (Decidable (∃ kv ∈ h.object r, r' ∈ kv.2.refs))

/-- The value of a write does not lead to its target. -/
def Write.Safe (w : Write) : Prop := ∀ r ∈ w.value.refs, ¬ReflTransGen (Points w.heap) r w.target

/-- What a value refers to is in the heap. -/
def Heap.Fits (h : Heap) (v : Val) : Prop := ∀ r ∈ v.refs, r ∈ h.domain

/-- No object is lost. -/
def Heap.Grows (h h' : Heap) : Prop := ∀ r ∈ h.domain, r ∈ h'.domain

lemma Heap.Grows.refl (h : Heap) : h.Grows h := fun _ hr => hr

variable {h : Heap}

lemma Heap.Grows.trans {h' h'' : Heap} (h₁ : h.Grows h') (h₂ : h'.Grows h'') : h.Grows h'' :=
  fun r hr => h₂ r (h₁ r hr)

/-- A heap without dangling references and without cycles, with room for the objects
of a run. -/
structure Heap.Sound (owner : ℕ) (h : Heap) : Prop where
  closed : ∀ {r r'}, Points h r r' → r' ∈ h.domain
  fresh : ∀ i, h.next ≤ i → (⟨owner, i⟩ : Ref) ∉ h.domain
  acyclic : Acyclic (Points h)

/-! ## The two changes of a heap -/

section Changes

variable {owner : ℕ} {h : Heap} {r r' : Ref} {k : Str} {v : Val} {m : List (Str × Val)}

lemma object_setMember (h : Heap) (r r' : Ref) (k : Str) (v : Val) :
    (h.setMember r k v).object r' = if r' = r then set k v (h.object r) else h.object r' :=
  lookupOr_set [] r r' _ h.objects

lemma mem_domain_setMember : r' ∈ (h.setMember r k v).domain ↔ r' = r ∨ r' ∈ h.domain :=
  mem_map_fst_set

lemma object_alloc (h : Heap) (owner : ℕ) (m : List (Str × Val)) (r : Ref) :
    (h.alloc owner m).2.object r = if r = (h.alloc owner m).1 then m else h.object r :=
  lookupOr_set [] _ r m h.objects

lemma mem_domain_alloc : r ∈ (h.alloc owner m).2.domain ↔ r = (h.alloc owner m).1 ∨ r ∈ h.domain :=
  mem_map_fst_set

lemma Heap.Fits.mono {h' : Heap} (hfits : h.Fits v) (hgrows : h.Grows h') : h'.Fits v :=
  fun r hr => hgrows r (hfits r hr)

lemma Heap.Sound.fits_member (hs : h.Sound owner) (r : Ref) (k : Str) : h.Fits (h.member r k) := by
  intro r' hr'
  rcases lookupOr_mem Val.undefined (h.object r) k with hmissing | hmem
  · rw [Heap.member, hmissing] at hr'
    cases hr'
  · exact hs.closed ⟨_, hmem, hr'⟩

lemma mem_domain_of_path (hs : h.Sound owner) (hr : r ∈ h.domain)
    (hpath : ReflTransGen (Points h) r r') : r' ∈ h.domain := by
  rcases ReflTransGen.cases_tail hpath with heq | ⟨b, -, hlast⟩
  · rwa [heq]
  · exact hs.closed hlast

/-- A new object closes no cycle. -/
lemma Heap.Sound.alloc (hs : h.Sound owner) (hm : ∀ kv ∈ m, h.Fits kv.2) :
    (h.alloc owner m).2.Sound owner := by
  have hnew : (h.alloc owner m).1 ∉ h.domain := hs.fresh h.next le_rfl
  have hpoints : ∀ a b, a ≠ (h.alloc owner m).1 →
      (Points (h.alloc owner m).2 a b ↔ Points h a b) := by
    intro a b ha
    rw [Points, Points, object_alloc, if_neg ha]
  have hout : ∀ b, Points (h.alloc owner m).2 (h.alloc owner m).1 b → b ∈ h.domain := by
    rintro b ⟨kv, hkv, hb⟩
    rw [object_alloc, if_pos rfl] at hkv
    exact hm kv hkv b hb
  refine ⟨fun {a b} hab => ?_, fun i hi => ?_, ?_⟩
  · by_cases ha : a = (h.alloc owner m).1
    · rw [ha] at hab
      exact mem_domain_alloc.mpr (Or.inr (hout b hab))
    · exact mem_domain_alloc.mpr (Or.inr (hs.closed ((hpoints a b ha).mp hab)))
  · have hi' : h.next + 1 ≤ i := hi
    rw [mem_domain_alloc]
    rintro (heq | hmem)
    · have hindex : i = h.next := congrArg Ref.index heq
      omega
    · exact hs.fresh i (by omega) hmem
  · rw [acyclic_iff hs.acyclic hpoints]
    intro b hb hpath
    exact hnew (mem_domain_of_path hs (hout b hb) hpath)

lemma points_setMember_of_ne {a b : Ref} (ha : a ≠ r) :
    Points (h.setMember r k v) a b ↔ Points h a b := by
  rw [Points, Points, object_setMember, if_neg ha]

/-- A write into an acyclic heap closes a cycle exactly when its value leads to its
target. -/
lemma acyclic_setMember_iff (hacyclic : Acyclic (Points h)) :
    Acyclic (Points (h.setMember r k v)) ↔ Write.Safe ⟨h, r, v⟩ := by
  rw [acyclic_iff hacyclic fun a b ha => points_setMember_of_ne ha]
  constructor
  · intro hsafe r' hr'
    refine hsafe r' ⟨(k, v), ?_, hr'⟩
    rw [object_setMember, if_pos rfl]
    exact mem_set_self k v _
  · rintro hsafe b ⟨kv, hkv, hb⟩ hpath
    rw [object_setMember, if_pos rfl] at hkv
    rcases mem_set hkv with rfl | hkv
    · exact hsafe b hb hpath
    · exact hacyclic r (TransGen.head' ⟨kv, hkv, hb⟩ hpath)

lemma Write.safe_of_leaf {w : Write}
    (hleaf : ∀ r ∈ w.value.refs, r ≠ w.target ∧ ∀ kv ∈ w.heap.object r, kv.2.refs = []) :
    w.Safe := by
  intro r hr hpath
  obtain ⟨hne, hempty⟩ := hleaf r hr
  rcases ReflTransGen.cases_head hpath with heq | ⟨b, ⟨kv, hkv, hb⟩, -⟩
  · exact hne heq
  rw [hempty kv hkv] at hb
  cases hb

lemma Heap.Sound.setMember (hs : h.Sound owner) (hr : r ∈ h.domain) (hv : h.Fits v)
    (hsafe : Write.Safe ⟨h, r, v⟩) : (h.setMember r k v).Sound owner := by
  refine ⟨fun {a b} hab => ?_, fun i hi => ?_, (acyclic_setMember_iff hs.acyclic).mpr hsafe⟩
  · refine mem_domain_setMember.mpr (Or.inr ?_)
    by_cases ha : a = r
    · obtain ⟨kv, hkv, hb⟩ := hab
      rw [object_setMember, if_pos ha] at hkv
      rcases mem_set hkv with rfl | hkv
      · exact hv b hb
      · exact hs.closed ⟨kv, hkv, hb⟩
    · exact hs.closed ((points_setMember_of_ne ha).mp hab)
  · rw [mem_domain_setMember]
    rintro (rfl | hmem)
    · exact hs.fresh i hi hr
    · exact hs.fresh i hi hmem

lemma grows_setMember (h : Heap) (r : Ref) (k : Str) (v : Val) :
    h.Grows (h.setMember r k v) := fun _ hr => mem_domain_setMember.mpr (Or.inr hr)

lemma grows_alloc (h : Heap) (owner : ℕ) (m : List (Str × Val)) :
    h.Grows (h.alloc owner m).2 := fun _ hr => mem_domain_alloc.mpr (Or.inr hr)

lemma mem_domain_alloc_self (h : Heap) (owner : ℕ) (m : List (Str × Val)) :
    (h.alloc owner m).1 ∈ (h.alloc owner m).2.domain := mem_domain_alloc.mpr (Or.inl rfl)

/-- Objects of one owner were added. -/
structure Heap.Loads (owner : ℕ) (h h' : Heap) : Prop where
  sound : h'.Sound owner
  grows : h.Grows h'
  made : ∀ r ∈ h'.domain, r ∈ h.domain ∨ r.owner = owner

lemma Heap.Loads.refl (hs : h.Sound owner) : h.Loads owner h :=
  ⟨hs, Heap.Grows.refl h, fun _ hr => .inl hr⟩

lemma Heap.Loads.trans {h' h'' : Heap} (h₁ : h.Loads owner h') (h₂ : h'.Loads owner h'') :
    h.Loads owner h'' := by
  refine ⟨h₂.sound, h₁.grows.trans h₂.grows, fun r hr => ?_⟩
  rcases h₂.made r hr with hr | hr
  · exact h₁.made r hr
  · exact .inr hr

lemma Heap.Loads.alloc (hs : h.Sound owner) (hm : ∀ kv ∈ m, h.Fits kv.2) :
    h.Loads owner (h.alloc owner m).2 := by
  refine ⟨hs.alloc hm, grows_alloc h owner m, fun r hr => ?_⟩
  rcases mem_domain_alloc.mp hr with rfl | hr
  · exact .inr rfl
  · exact .inl hr

lemma Heap.Loads.setMember (hs : h.Sound owner) (hr : r ∈ h.domain) (hv : h.Fits v)
    (hsafe : Write.Safe ⟨h, r, v⟩) : h.Loads owner (h.setMember r k v) := by
  refine ⟨hs.setMember hr hv hsafe, grows_setMember h r k v, fun r' hr' => .inl ?_⟩
  rcases mem_domain_setMember.mp hr' with rfl | hr'
  · exact hr
  · exact hr'

end Changes

/-! ## Reading an acyclic heap -/

mutual

/-- A value is read out exactly if its objects are. -/
theorem isSome_snapshotVal (read : Ref → Option Value) :
    ∀ v : Val, (snapshotVal read v).isSome = v.refs.all fun r => (read r).isSome
  | .ref r => by simp [snapshotVal, Val.refs]
  | .arr items => by
      rw [Val.refs, ← isSome_snapshotItems read items, snapshotVal]
      cases snapshotItems read items with
      | none | some vs => rfl
  | .undefined | .null | .bool _ | .num _ | .str _ => rfl

theorem isSome_snapshotItems (read : Ref → Option Value) : ∀ items : List Val,
    (snapshotItems read items).isSome = (Val.refsItems items).all fun r => (read r).isSome
  | [] => rfl
  | v :: rest => by
      rw [Val.refsItems, all_append, ← isSome_snapshotVal read v,
        ← isSome_snapshotItems read rest, snapshotItems]
      cases snapshotVal read v with
      | none => rfl
      | some v =>
        cases snapshotItems read rest with
        | none | some vs => rfl

end

lemma isSome_snapshotMembers (read : Ref → Option Value) (m : List (Str × Val)) :
    (snapshotMembers read m).isSome = m.all fun kv => kv.2.refs.all fun r => (read r).isSome := by
  induction m with
  | nil => rfl
  | cons kv rest ih =>
    rw [all_cons, ← isSome_snapshotVal, ← ih, snapshotMembers]
    cases snapshotVal read kv.2 with
    | none => rfl
    | some v =>
      cases snapshotMembers read rest with
      | none | some vs => rfl

lemma read_succ (h : Heap) (d : ℕ) (r : Ref) :
    h.read (d + 1) r = (snapshotMembers (h.read d) (h.object r)).map .obj := by
  rw [Heap.read]
  cases snapshotMembers (h.read d) (h.object r) with
  | none | some m => rfl

lemma isSome_read_succ {d : ℕ} {r : Ref} : (h.read (d + 1) r).isSome = true ↔
    ∀ r', Points h r r' → (h.read d r').isSome = true := by
  rw [read_succ, Option.isSome_map, isSome_snapshotMembers]
  simp only [all_eq_true, Points, forall_exists_index, and_imp]
  exact ⟨fun hall r' kv hkv hr' => hall kv hkv r' hr', fun hall kv hkv r' hr' => hall r' kv hkv hr'⟩

lemma path_of_read_eq_none {depth : ℕ} {r : Ref} (hread : h.read depth r = none) :
    ∃ path, (r :: path).IsChain (Points h) ∧ path.length = depth := by
  induction depth generalizing r with
  | zero => exact ⟨[], .singleton r, rfl⟩
  | succ depth ih =>
    have hnone : ¬ (h.read (depth + 1) r).isSome = true := by simp [hread]
    rw [isSome_read_succ] at hnone
    push Not at hnone
    obtain ⟨r', hr', hread'⟩ := hnone
    obtain ⟨path, hchain, hlength⟩ := ih (Option.not_isSome_iff_eq_none.mp hread')
    exact ⟨r' :: path, .cons_cons hr' hchain, by rw [length_cons, hlength]⟩

lemma mem_domain_of_points {r r' : Ref} (hpoints : Points h r r') : r ∈ h.domain := by
  obtain ⟨kv, hkv, -⟩ := hpoints
  refine mem_map_fst.mpr ?_
  rw [Heap.object, lookupOr] at hkv
  cases hlookup : h.objects.lookup r with
  | none =>
    rw [hlookup] at hkv
    cases hkv
  | some m => rfl

lemma dropLast_subset_domain {path : List Ref} (hchain : path.IsChain (Points h)) :
    path.dropLast ⊆ h.domain := by
  induction path with
  | nil => simp
  | cons r rest ih =>
    cases rest with
    | nil => simp
    | cons r' rest =>
      rw [isChain_cons_cons] at hchain
      exact cons_subset.mpr ⟨mem_domain_of_points hchain.1, ih hchain.2⟩

lemma exists_read (hacyclic : Acyclic (Points h)) (r : Ref) :
    ∃ tree, h.read (h.objects.length + 1) r = some tree := by
  cases hread : h.read (h.objects.length + 1) r with
  | some tree => exact ⟨tree, rfl⟩
  | none =>
    obtain ⟨path, hchain, hlength⟩ := path_of_read_eq_none hread
    have hbound := hacyclic.length_le hchain.dropLast (dropLast_subset_domain hchain)
    rw [length_dropLast, length_cons, Heap.domain, length_map] at hbound
    omega

lemma exists_snapshot (hacyclic : Acyclic (Points h)) (v : Val) :
    ∃ tree, h.snapshot v = some tree := by
  refine Option.isSome_iff_exists.mp ?_
  rw [Heap.snapshot, isSome_snapshotVal, all_eq_true]
  exact fun r _ => Option.isSome_iff_exists.mpr (exists_read hacyclic r)

/-! ## Paths and templates -/

lemma refs_subset_refsItems {items : List Val} {v : Val} (hv : v ∈ items) :
    v.refs ⊆ Val.refsItems items := by
  induction items with
  | nil => cases hv
  | cons first rest ih =>
    rcases mem_cons.mp hv with rfl | hv
    · exact subset_append_left _ _
    · exact Subset.trans (ih hv) (subset_append_right _ _)

lemma refs_elementAt (js : Js) (items : List Val) (seg : Str) :
    (elementAt js items seg).refs ⊆ Val.refsItems items := by
  rw [elementAt]
  split
  · split
    · rename_i q _ _
      cases hitem : items[q.num.toNat]? with
      | none => simp [Val.refs]
      | some v => exact refs_subset_refsItems (mem_of_getElem? hitem)
    · simp [Val.refs]
  · simp [Val.refs]

section Reading

variable {owner : ℕ} {h : Heap} {js : Js}

lemma fits_undefined (h : Heap) : h.Fits .undefined := by
  intro r hr
  cases hr

lemma fits_ref {r : Ref} : h.Fits (.ref r) ↔ r ∈ h.domain := by simp [Heap.Fits, Val.refs]

lemma fits_str (h : Heap) (s : Str) : h.Fits (.str s) := by
  intro r hr
  cases hr

lemma fits_getSegs (js : Js) (hs : h.Sound owner) {cur : Val} (hcur : h.Fits cur)
    (segs : List Str) : h.Fits (getSegs js h cur segs) := by
  induction segs generalizing cur with
  | nil => exact hcur
  | cons seg rest ih =>
    unfold getSegs
    split
    · exact fits_undefined h
    split
    · exact ih fun r hr => hcur r (refs_elementAt js _ seg hr)
    · exact ih (hs.fits_member _ seg)
    · exact fits_undefined h

lemma exists_stringifyValue (js : Js) (hs : h.Sound owner) (v : Val) :
    ∃ t, stringifyValue js h v = some t := by
  obtain ⟨tree, htree⟩ := exists_snapshot hs.acyclic v
  unfold stringifyValue
  rw [htree]
  split <;> exact ⟨_, rfl⟩

lemma exists_resolveText (js : Js) (hs : h.Sound owner) {bag : Val} (hbag : h.Fits bag) (s : Str) :
    ∃ v, resolveText js h bag s = some v ∧ h.Fits v := by
  rw [resolveText]
  split
  · exact ⟨_, rfl, fits_getSegs js hs hbag _⟩
  split
  · obtain ⟨t, ht⟩ := exists_replaceMatches templateAt
      (fun path => exists_stringifyValue js hs (getPath js h bag path)) s
    exact ⟨.str t, by rw [ht]; rfl, fits_str h t⟩
  · exact ⟨.str s, rfl, fits_str h s⟩

end Reading

section Templates

variable (js : Js) (owner : ℕ) (bag : Val)

mutual

/-- In a sound heap a config value is resolved, and the heap stays sound. -/
theorem exists_resolveValue :
    ∀ (v : Value) (h : Heap), h.Sound owner → h.Fits bag →
      ∃ v' h', resolveValue js owner bag v h = some (v', h') ∧ h.Loads owner h' ∧ h'.Fits v'
  | .str s, h, hs, hbag => by
      obtain ⟨v, hv, hfits⟩ := exists_resolveText js hs hbag s
      exact ⟨v, h, by rw [resolveValue, hv], .refl hs, hfits⟩
  | .arr items, h, hs, hbag => by
      obtain ⟨vs, h', hitems, hloads, hfits⟩ := exists_resolveItems items h hs hbag
      exact ⟨.arr vs, h', by rw [resolveValue, hitems], hloads, by rwa [Heap.Fits, Val.refs]⟩
  | .obj m, h, hs, hbag => by
      obtain ⟨m', h', hmembers, hloads, hfits⟩ := exists_resolveMembers m h hs hbag
      exact ⟨_, _, by rw [resolveValue, hmembers],
        hloads.trans (.alloc hloads.sound fun kv hkv => hfits kv (mem_of_mem_rebuild hkv)),
        fits_ref.mpr (mem_domain_alloc_self _ _ _)⟩
  | .undefined, h, hs, _ | .null, h, hs, _ | .bool _, h, hs, _ | .num _, h, hs, _ =>
      ⟨_, h, rfl, .refl hs, by simp [Heap.Fits, Val.refs]⟩

theorem exists_resolveItems :
    ∀ (items : List Value) (h : Heap), h.Sound owner → h.Fits bag →
      ∃ vs h', resolveItems js owner bag items h = some (vs, h') ∧ h.Loads owner h' ∧
        ∀ r ∈ Val.refsItems vs, r ∈ h'.domain
  | [], h, hs, _ => ⟨[], h, rfl, .refl hs, by simp [Val.refsItems]⟩
  | v :: rest, h, hs, hbag => by
      obtain ⟨v', h₁, hv, hloads₁, hfits₁⟩ := exists_resolveValue v h hs hbag
      obtain ⟨vs, h₂, hrest, hloads₂, hfits₂⟩ :=
        exists_resolveItems rest h₁ hloads₁.sound (hbag.mono hloads₁.grows)
      refine ⟨v' :: vs, h₂, by simp only [resolveItems, hv, hrest], hloads₁.trans hloads₂, ?_⟩
      rw [Val.refsItems]
      exact forall_mem_append.mpr ⟨hfits₁.mono hloads₂.grows, hfits₂⟩

theorem exists_resolveMembers :
    ∀ (m : List (Str × Value)) (h : Heap), h.Sound owner → h.Fits bag →
      ∃ m' h', resolveMembers js owner bag m h = some (m', h') ∧ h.Loads owner h' ∧
        ∀ kv ∈ m', h'.Fits kv.2
  | [], h, hs, _ => ⟨[], h, rfl, .refl hs, by simp⟩
  | (k, v) :: rest, h, hs, hbag => by
      by_cases hk : k ∈ forbiddenKeys
      · rw [resolveMembers, if_pos hk]
        exact exists_resolveMembers rest h hs hbag
      obtain ⟨v', h₁, hv, hloads₁, hfits₁⟩ := exists_resolveValue v h hs hbag
      obtain ⟨m', h₂, hrest, hloads₂, hfits₂⟩ :=
        exists_resolveMembers rest h₁ hloads₁.sound (hbag.mono hloads₁.grows)
      exact ⟨(k, v') :: m', h₂, by simp only [resolveMembers, if_neg hk, hv, hrest],
        hloads₁.trans hloads₂, forall_mem_cons.mpr ⟨hfits₁.mono hloads₂.grows, hfits₂⟩⟩

end

end Templates

/-! ## Assignments -/

section Assignments

variable {owner : ℕ} {h : Heap} {js : Js}

/-- The objects made on the way to a target close no cycle. -/
lemma locate_sound (hs : h.Sound owner) {cur : Ref} (hcur : cur ∈ h.domain) (seg : Str)
    (rest : List Str) (writes : List Write) :
    h.Loads owner (locate owner h cur seg rest writes).1 ∧
      (locate owner h cur seg rest writes).2.1 ∈ (locate owner h cur seg rest writes).1.domain := by
  induction rest generalizing h cur seg writes with
  | nil => exact ⟨.refl hs, hcur⟩
  | cons seg' rest ih =>
    -- a new empty object leads nowhere
    have hmade : h.Loads owner (h.alloc owner []).2 := .alloc hs (by simp)
    have hne : cur ≠ (h.alloc owner []).1 := by
      rintro rfl
      exact hs.fresh h.next le_rfl hcur
    have hsafe : Write.Safe ⟨(h.alloc owner []).2, cur, .ref (h.alloc owner []).1⟩ := by
      refine Write.safe_of_leaf fun r hr => ?_
      rw [mem_singleton.mp hr, object_alloc]
      exact ⟨hne.symm, by simp⟩
    have hself := mem_domain_alloc_self h owner []
    have hset := hmade.trans (.setMember (k := seg) hmade.sound (hmade.grows cur hcur)
      (fits_ref.mpr hself) hsafe)
    rw [locate]
    split
    · rename_i next hnext
      have hfits := hs.fits_member cur seg
      rw [hnext] at hfits
      exact ih hs (fits_ref.mp hfits) seg' writes
    · obtain ⟨hloads, htarget⟩ := ih hset.sound (grows_setMember _ _ _ _ _ hself) seg' _
      exact ⟨hset.trans hloads, htarget⟩

lemma setPath_sound (js : Js) (hs : h.Sound owner) {root : Ref} (hroot : root ∈ h.domain) {v : Val}
    (hv : h.Fits v) (path : Str) (hsafe : ∀ w ∈ (setPath js owner h root path v).2, w.Safe) :
    h.Loads owner (setPath js owner h root path v).1 := by
  rw [setPath] at hsafe ⊢
  split
  · exact .refl hs
  rename_i seg rest hsegs
  rw [hsegs] at hsafe
  dsimp only at hsafe
  split
  · exact .refl hs
  rename_i hallowed
  rw [if_neg hallowed] at hsafe
  obtain ⟨hloads, htarget⟩ := locate_sound hs hroot seg rest []
  have hwrite := hsafe _ (mem_append_right _ (mem_singleton.mpr rfl))
  exact hloads.trans (.setMember hloads.sound htarget (hv.mono hloads.grows) hwrite)

/-- The writes are only added to. -/
lemma writes_subset_applyAssignments (js : Js) (owner : ℕ) (bag : Ref)
    (list : List (Str × Value)) (h : Heap) (applied : List (Str × Val)) (writes : List Write) :
    writes ⊆ (applyAssignments js owner bag list h applied writes).2.1 := by
  induction list generalizing h applied writes with
  | nil => exact Subset.refl _
  | cons assignment rest ih =>
    rw [applyAssignments]
    split
    · exact Subset.refl _
    · exact Subset.trans (subset_append_left _ _) (ih _ _ _)

/-- Assignments whose writes are safe keep the heap sound. -/
lemma applyAssignments_sound (js : Js) (hs : h.Sound owner) {bag : Ref} (hbag : bag ∈ h.domain)
    (list : List (Str × Value)) (applied : List (Str × Val))
    (happlied : ∀ kv ∈ applied, h.Fits kv.2) (writes : List Write)
    (hsafe : ∀ w ∈ (applyAssignments js owner bag list h applied writes).2.1, w.Safe) :
    ∃ applied', (applyAssignments js owner bag list h applied writes).2.2 = some applied' ∧
      h.Loads owner (applyAssignments js owner bag list h applied writes).1 ∧
      ∀ kv ∈ applied', (applyAssignments js owner bag list h applied writes).1.Fits kv.2 := by
  induction list generalizing h applied writes with
  | nil => exact ⟨applied, rfl, .refl hs, happlied⟩
  | cons assignment rest ih =>
    obtain ⟨path, value⟩ := assignment
    obtain ⟨v, h₁, hv, hloads, hfits₁⟩ :=
      exists_resolveValue js owner (.ref bag) value h hs (fits_ref.mpr hbag)
    rw [applyAssignments, hv] at hsafe ⊢
    have hset := setPath_sound js hloads.sound (hloads.grows bag hbag) hfits₁ path fun w hw =>
      hsafe w (writes_subset_applyAssignments _ _ _ _ _ _ _ (mem_append_right _ hw))
    have hboth := hloads.trans hset
    have happlied' : ∀ kv ∈ set path v applied,
        (setPath js owner h₁ bag path v).1.Fits kv.2 := by
      intro kv hkv
      rcases mem_set hkv with rfl | hkv
      · exact hfits₁.mono hset.grows
      · exact (happlied kv hkv).mono hboth.grows
    obtain ⟨applied', hresult, hrest, hfits⟩ :=
      ih hboth.sound (hboth.grows bag hbag) _ happlied' _ hsafe
    exact ⟨applied', hresult, hboth.trans hrest, hfits⟩

end Assignments

/-! ## Boxes -/

section Boxes

variable {owner : ℕ} {h : Heap} {bag : Ref} (js : Js) (hs : h.Sound owner) (hbag : bag ∈ h.domain)

include hs hbag

lemma exists_evalRules (rules : List Value) :
    ∃ results, evalRules js owner h (.ref bag) rules = some results := by
  induction rules with
  | nil => exact ⟨[], rfl⟩
  | cons rule rest ih =>
    obtain ⟨results, hresults⟩ := ih
    obtain ⟨v, h', hv, -⟩ := exists_resolveValue js owner (.ref bag)
      (get (asObject rule) (str "value")) h hs (fits_ref.mpr hbag)
    have hrule : ∃ b, evalRule js owner h (.ref bag) (asObject rule) = some b := by
      simp only [evalRule, hv]
      exact ⟨_, rfl⟩
    obtain ⟨b, hb⟩ := hrule
    exact ⟨b :: results, by simp only [evalRules, hb, hresults]⟩

lemma exists_evalCondition (cfg : List (Str × Value)) :
    ∃ b, evalCondition js owner h (.ref bag) cfg = some b := by
  obtain ⟨results, hresults⟩ := exists_evalRules js hs hbag (get cfg (str "rules")).items
  rw [evalCondition]
  split
  · exact ⟨true, rfl⟩
  rw [hresults]
  dsimp only
  split
  · exact ⟨_, rfl⟩
  · exact ⟨_, rfl⟩

lemma exists_switchCases (actual : Val) (cases : List Value) :
    ∃ port, switchCases js owner h (.ref bag) actual cases = some port := by
  induction cases with
  | nil => exact ⟨none, rfl⟩
  | cons raw rest ih =>
    obtain ⟨v, h', hv, -⟩ := exists_resolveValue js owner (.ref bag)
      (get (asObject raw) (str "value")) h hs (fits_ref.mpr hbag)
    simp only [switchCases, hv]
    split
    · exact ⟨_, rfl⟩
    · exact ih

lemma exists_evalSwitch (cfg : List (Str × Value)) :
    ∃ port, evalSwitch js owner h (.ref bag) cfg = some port := by
  obtain ⟨port, hport⟩ := exists_switchCases js hs hbag
    (getPath js h (.ref bag) ((get cfg (str "field")).toText js)) (get cfg (str "cases")).items
  simp only [evalSwitch, hport]
  cases port with
  | none => exact ⟨_, rfl⟩
  | some port => exact ⟨port, rfl⟩

/-- What a box leaves when its writes are safe. -/
structure Effect.Good (owner : ℕ) (h : Heap) (e : Effect) : Prop where
  sound : e.heap.Sound owner
  grows : h.Grows e.heap
  done : ∃ out port, e.outcome = .done out port ∧ e.heap.Fits out

variable {js}

omit hbag in
/-- A box that only makes its output. -/
lemma Effect.Good.alloc {m : List (Str × Val)} (hm : ∀ kv ∈ m, h.Fits kv.2) (writes : List Write)
    (port : Str) :
    Effect.Good owner h ⟨(h.alloc owner m).2, writes, .done (.ref (h.alloc owner m).1) port⟩ where
  sound := hs.alloc hm
  grows := grows_alloc h owner m
  done := ⟨_, _, rfl, fits_ref.mpr (mem_domain_alloc_self h owner m)⟩

lemma conditionExec_good (cfg : List (Str × Value)) : Effect.Good owner h (conditionExec js owner bag cfg h) := by
  obtain ⟨b, hb⟩ := exists_evalCondition js hs hbag cfg
  simp only [conditionExec, hb]
  refine Effect.Good.alloc hs ?_ _ _
  simp [Heap.Fits, Val.refs]

lemma switchExec_good (cfg : List (Str × Value)) : Effect.Good owner h (switchExec js owner bag cfg h) := by
  obtain ⟨port, hport⟩ := exists_evalSwitch js hs hbag cfg
  simp only [switchExec, hport]
  refine Effect.Good.alloc hs ?_ _ _
  have hvalue := fits_getSegs js hs (fits_ref.mpr hbag)
    (splitPath js (((get cfg (str "field")).coalesce (.str [])).toText js))
  rw [← getPath] at hvalue
  simpa [Heap.Fits, Val.refs] using hvalue

lemma setvarExec_good (cfg : List (Str × Value))
    (hsafe : ∀ w ∈ (setvarExec js owner bag cfg h).writes, w.Safe) :
    Effect.Good owner h (setvarExec js owner bag cfg h) := by
  have hassign := applyAssignments_sound js hs hbag (assignments js cfg) [] (by simp) []
  rw [setvarExec] at hsafe ⊢
  generalize applyAssignments js owner bag (assignments js cfg) h [] [] = result at *
  obtain ⟨h', writes, applied⟩ := result
  have hwrites : ∀ w ∈ writes, w.Safe := by
    cases applied with
    | none | some applied => exact hsafe
  obtain ⟨applied', rfl, hloads, hfits⟩ := hassign hwrites
  have hgood := Effect.Good.alloc hloads.sound hfits writes (str "out")
  exact ⟨hgood.sound, hloads.grows.trans hgood.grows, hgood.done⟩

omit hs hbag in
lemma executor_good {env : Env} {payload : Ref} {seq : ℕ} {typ : Str}
    {exec : List (Str × Value) → Heap → Effect}
    (hexec : executor env payload bag seq typ = some exec) (hlogic : typ ∈ logicTypes)
    (hs : h.Sound env.owner) (hbag : bag ∈ h.domain) (hpayload : payload ∈ h.domain)
    (cfg : List (Str × Value)) (hsafe : ∀ w ∈ (exec cfg h).writes, w.Safe) :
    Effect.Good env.owner h (exec cfg h) := by
  rcases executor_cases hlogic hexec with rfl | rfl | rfl | rfl
  · exact ⟨hs, Heap.Grows.refl h, _, _, rfl, fits_ref.mpr hpayload⟩
  · exact conditionExec_good hs hbag cfg
  · exact switchExec_good hs hbag cfg
  · exact setvarExec_good hs hbag cfg hsafe

end Boxes

/-! ## Runs -/

/-- The state of a run whose writes were safe. -/
structure RunState.Sound (owner : ℕ) (payload bag : Ref) (s : RunState) : Prop where
  heap : s.heap.Sound owner
  bag : bag ∈ s.heap.domain
  payload : payload ∈ s.heap.domain
  heaps : ∀ h ∈ s.heaps, Acyclic (Points h)
  length : s.heaps.length = s.steps.length + 1

section Runs

variable {env : Env} {payload bag : Ref}

/-- The end of a box keeps the state sound and does not overflow. -/
lemma finishBox_sound {s : RunState} {box : Value} {effect : Effect}
    (hstate : s.Sound env.owner payload bag) (hgood : Effect.Good env.owner s.heap effect)
    (hsafe : ∀ w ∈ (finishBox env bag s box effect).1.writes, w.Safe) :
    (finishBox env bag s box effect).1.Sound env.owner payload bag ∧
      ∃ port, (finishBox env bag s box effect).2 = .ok port := by
  obtain ⟨out, port, houtcome, hfits⟩ := hgood.done
  have hbag := hgood.grows bag hstate.bag
  have hwrite : Write.Safe ⟨effect.heap, bag, out⟩ := by
    apply hsafe
    rw [finishBox, houtcome]
    dsimp only
    split
    · simp
    · simp
  have hs := hgood.sound.setMember (k := boxID box) hbag hfits hwrite
  obtain ⟨tree, htree⟩ := exists_snapshot hs.acyclic out
  have hgrows := hgood.grows.trans (grows_setMember effect.heap bag (boxID box) out)
  rw [finishBox, houtcome]
  simp only [htree]
  refine ⟨⟨hs, hgrows bag hstate.bag, hgrows payload hstate.payload, ?_, ?_⟩, port, rfl⟩
  · exact forall_mem_append.mpr ⟨hstate.heaps, forall_mem_singleton.mpr hs.acyclic⟩
  · rw [length_append, length_append, hstate.length]
    rfl

/-- Writes are only added. -/
lemma writes_finishBox (env : Env) (bag : Ref) (s : RunState) (box : Value) (effect : Effect) :
    ∃ more, (finishBox env bag s box effect).1.writes = s.writes ++ effect.writes ++ more := by
  unfold finishBox
  dsimp only
  split
  · exact ⟨[], (append_nil _).symm⟩
  · exact ⟨[], (append_nil _).symm⟩
  · split
    · exact ⟨_, rfl⟩
    · exact ⟨_, rfl⟩

lemma writes_subset_execBox (env : Env) (payload bag : Ref) (s : RunState) (box : Value) :
    s.writes ⊆ (execBox env payload bag s box).1.writes := by
  rw [execBox]
  split
  · exact Subset.refl _
  rename_i exec _
  obtain ⟨more, hwrites⟩ := writes_finishBox env bag s box (exec _ _)
  rw [hwrites, append_assoc]
  exact subset_append_left _ _

lemma execBox_sound {s : RunState} {box : Value} (hlogic : boxType box ∈ logicTypes)
    (hstate : s.Sound env.owner payload bag)
    (hsafe : ∀ w ∈ (execBox env payload bag s box).1.writes, w.Safe) :
    (execBox env payload bag s box).1.Sound env.owner payload bag ∧
      ∃ port, (execBox env payload bag s box).2 = .ok port := by
  obtain ⟨exec, hexec, hbox⟩ := execBox_of_logic env payload bag s hlogic
  rw [hbox] at hsafe ⊢
  refine finishBox_sound hstate ?_ hsafe
  refine executor_good hexec hlogic hstate.heap hstate.bag hstate.payload _ fun w hw => hsafe w ?_
  obtain ⟨more, hwrites⟩ := writes_finishBox env bag s box _
  rw [hwrites]
  exact mem_append_left _ (mem_append_right _ hw)

end Runs

/-! ## The payload -/

mutual

theorem load_loads (owner : ℕ) : ∀ (v : Value) (h : Heap), h.Sound owner →
      h.Loads owner (load owner v h).2 ∧ (load owner v h).2.Fits (load owner v h).1
  | .arr items, h, hs => by
      obtain ⟨hloads, hfits⟩ := loadItems_loads owner items h hs
      exact ⟨hloads, by rwa [load, Heap.Fits, Val.refs]⟩
  | .obj m, h, hs => by
      obtain ⟨hloads, hfits⟩ := loadMembers_loads owner m h hs
      exact ⟨hloads.trans (.alloc hloads.sound hfits), fits_ref.mpr (mem_domain_alloc_self _ _ _)⟩
  | .undefined, h, hs | .null, h, hs | .bool _, h, hs | .num _, h, hs | .str _, h, hs =>
      ⟨.refl hs, by simp [load, Heap.Fits, Val.refs]⟩

theorem loadItems_loads (owner : ℕ) : ∀ (items : List Value) (h : Heap), h.Sound owner →
      h.Loads owner (loadItems owner items h).2 ∧
        ∀ r ∈ Val.refsItems (loadItems owner items h).1, r ∈ (loadItems owner items h).2.domain
  | [], h, hs => ⟨.refl hs, by simp [loadItems, Val.refsItems]⟩
  | v :: rest, h, hs => by
      obtain ⟨hloads₁, hfits₁⟩ := load_loads owner v h hs
      obtain ⟨hloads₂, hfits₂⟩ := loadItems_loads owner rest _ hloads₁.sound
      refine ⟨hloads₁.trans hloads₂, ?_⟩
      rw [loadItems, Val.refsItems]
      exact forall_mem_append.mpr ⟨hfits₁.mono hloads₂.grows, hfits₂⟩

theorem loadMembers_loads (owner : ℕ) : ∀ (m : List (Str × Value)) (h : Heap), h.Sound owner →
      h.Loads owner (loadMembers owner m h).2 ∧
        ∀ kv ∈ (loadMembers owner m h).1, (loadMembers owner m h).2.Fits kv.2
  | [], h, hs => ⟨.refl hs, by simp [loadMembers]⟩
  | (k, v) :: rest, h, hs => by
      obtain ⟨hloads₁, hfits₁⟩ := load_loads owner v h hs
      obtain ⟨hloads₂, hfits₂⟩ := loadMembers_loads owner rest _ hloads₁.sound
      refine ⟨hloads₁.trans hloads₂, ?_⟩
      rw [loadMembers]
      exact forall_mem_cons.mpr ⟨hfits₁.mono hloads₂.grows, hfits₂⟩

end

lemma sound_empty (owner : ℕ) : (⟨[], 0⟩ : Heap).Sound owner where
  closed := by
    rintro r r' ⟨kv, hkv, -⟩
    cases hkv
  fresh := by simp [Heap.domain]
  acyclic := by
    intro r hcycle
    obtain ⟨r', ⟨kv, hkv, -⟩, -⟩ := TransGen.head'_iff.mp hcycle
    cases hkv

lemma loadPayload_loads (payload : Value) : (⟨[], 0⟩ : Heap).Loads 0 (loadPayload payload).2 ∧
      (loadPayload payload).1 ∈ (loadPayload payload).2.domain := by
  obtain ⟨hloads, hfits⟩ := loadMembers_loads 0 (asObject payload) ⟨[], 0⟩ (sound_empty 0)
  exact ⟨hloads.trans (.alloc hloads.sound hfits), mem_domain_alloc_self _ _ _⟩

/-! ## Whole runs -/

section Execute

variable {env : Env} {payload : Ref} {h : Heap}

lemma Heap.Sound.start (hs : h.Sound 0) (howner : ∀ r ∈ h.domain, r.owner = 0) :
    ({ h with next := 0 } : Heap).Sound env.owner where
  closed := hs.closed
  fresh := by
    intro i _ hmem
    have hzero : env.owner = 0 := howner _ hmem
    exact absurd hzero (Nat.succ_ne_zero _)
  acyclic := hs.acyclic

lemma initial_sound (hs : ({ h with next := 0 } : Heap).Sound env.owner)
    (hpayload : payload ∈ h.domain) :
    (RunState.initial env payload h).Sound env.owner payload (bagOf env payload h) := by
  have hvars := hs.alloc (m := []) (by simp)
  have hmembers : ∀ kv ∈ [(str "event", Val.str env.event), (str "trigger", .ref payload),
      (str "vars", .ref (({ h with next := 0 } : Heap).alloc env.owner []).1)],
      (({ h with next := 0 } : Heap).alloc env.owner []).2.Fits kv.2 := by
    have htrigger := grows_alloc { h with next := 0 } env.owner [] payload hpayload
    have hself := mem_domain_alloc_self { h with next := 0 } env.owner []
    simp only [forall_mem_cons]
    exact ⟨fits_str _ _, fits_ref.mpr htrigger, fits_ref.mpr hself, by simp⟩
  have hbag := hvars.alloc hmembers
  refine ⟨hbag, mem_domain_alloc_self _ _ _, ?_, ?_, rfl⟩
  · exact grows_alloc _ _ _ payload (grows_alloc _ _ _ payload hpayload)
  · intro h' hh'
    rw [mem_singleton.mp hh']
    exact hbag.acyclic

/-- The walk of a run whose writes are safe. -/
lemma runGraph_sound {g : Graph} {startBoxID : Str} {bag : Ref} {s : RunState}
    (hlogic : LogicOnly g) (hs : s.Sound env.owner payload bag)
    (hsafe : ∀ w ∈ (runGraph env.js (ctxErr env) g startBoxID (execBox env payload bag)
      maxSteps s).1.writes, w.Safe) :
    (runGraph env.js (ctxErr env) g startBoxID (execBox env payload bag) maxSteps s).1.Sound
        env.owner payload bag ∧
      finishRun env (runGraph env.js (ctxErr env) g startBoxID (execBox env payload bag)
        maxSteps s).2 ≠ .crashed := by
  have hbox : ∀ {s b s' result}, ((∀ w ∈ s.writes, w.Safe) → s.Sound env.owner payload bag) →
      b ∈ g.boxes → execBox env payload bag s b = (s', result) → (∀ w ∈ s'.writes, w.Safe) →
      s'.Sound env.owner payload bag ∧ ∃ port, result = .ok port := by
    intro s b s' result hP hb hexec hsafe
    have hwrites := writes_subset_execBox env payload bag s b
    have hbox := execBox_sound (hlogic b hb) (hP fun w hw => hsafe w (by
      rw [hexec] at hwrites
      exact hwrites hw)) (by rwa [hexec])
    rwa [hexec] at hbox
  have hbehind := runGraph_behind env.js (ctxErr env) g startBoxID (execBox env payload bag) maxSteps s
    (P := fun s => (∀ w ∈ s.writes, w.Safe) → s.Sound env.owner payload bag)
    (F := fun s err => (∀ w ∈ s.writes, w.Safe) → s.Sound env.owner payload bag ∧
      ∃ msg, err = .context (.failed msg))
    (fun _ => hs)
    (fun s b s' port hP hb hexec hsafe => (hbox hP hb hexec hsafe).1)
    (by
      intro s e hP hctx hsafe
      refine ⟨hP hsafe, ?_⟩
      rw [ctxErr] at hctx
      split at hctx
      · cases hctx
        exact ⟨_, rfl⟩
      · cases hctx)
    (by
      intro s b s' e hP hb hexec hsafe
      obtain ⟨-, port, hport⟩ := hbox hP hb hexec hsafe
      cases hport)
  generalize runGraph env.js (ctxErr env) g startBoxID (execBox env payload bag) maxSteps s =
    run at *
  obtain ⟨t, result⟩ := run
  cases result with
  | ok u => exact ⟨hbehind hsafe, by simp [finishRun]⟩
  | error err =>
    cases err with
    | graph msg => exact ⟨hbehind hsafe, by simp [finishRun, failRun]⟩
    | context e =>
      obtain ⟨hsound, msg, hmsg⟩ := hbehind hsafe
      cases hmsg
      exact ⟨hsound, by simp [finishRun, failRun]⟩
    | exec e =>
      obtain ⟨-, msg, hmsg⟩ := hbehind hsafe
      cases hmsg

end Execute

/-- In a run of trigger and logic boxes in which no member is set to a value that leads
back to its object, the objects form no cycle after any step, every value is read out
to its end, and the process survives. -/
theorem execute_acyclic (env : Env) (graph : Option Value) (triggerBoxID : Str) (payload : Value)
    (hlogic : ∀ g ∈ graph, LogicOnly (normalizeGraph g))
    (hsafe : ∀ w ∈ (execute env graph triggerBoxID (loadPayload payload).1
      (loadPayload payload).2).1.writes, w.Safe) :
    let run := execute env graph triggerBoxID (loadPayload payload).1 (loadPayload payload).2
    run.1.heaps.length = run.1.steps.length + 1 ∧
      (∀ h ∈ run.1.heaps, Acyclic (Points h) ∧ ∀ v, ∃ tree, h.snapshot v = some tree) ∧
      run.2 ≠ .crashed := by
  intro run
  obtain ⟨hloads, hpayload⟩ := loadPayload_loads payload
  have hstart : ({ (loadPayload payload).2 with next := 0 } : Heap).Sound env.owner :=
    hloads.sound.start fun r hr => (hloads.made r hr).resolve_left (by simp [Heap.domain])
  have hinitial := initial_sound hstart hpayload
  have hrun : run.1.Sound env.owner (loadPayload payload).1
      (bagOf env (loadPayload payload).1 (loadPayload payload).2) ∧ run.2 ≠ .crashed := by
    subst run
    cases graph with
    | none => exact ⟨hinitial, by simp [execute]⟩
    | some graph =>
      unfold execute at hsafe ⊢
      dsimp only at hsafe ⊢
      split
      · exact ⟨hinitial, by simp⟩
      rename_i start hstart
      rw [hstart] at hsafe
      exact runGraph_sound (hlogic graph rfl) hinitial hsafe
  exact ⟨hrun.1.length, fun h hh => ⟨hrun.1.heaps h hh, exists_snapshot (hrun.1.heaps h hh)⟩,
    hrun.2⟩

lemma logicOnly_assignGraph (path value : Str) :
    LogicOnly (normalizeGraph (assignGraph path value)) := by
  intro b hb
  have hboxes : b ∈ [
      Value.obj [(str "id", .str (str "t")), (str "type", .str (str "trigger.manual"))],
      .obj [(str "id", .str (str "v")), (str "type", .str (str "logic.setvar")),
        (str "config", .obj [(str "set", .obj [(path, .str value)])])]] := hb
  simp only [mem_cons, not_mem_nil, or_false] at hboxes
  rcases hboxes with rfl | rfl
  · exact mem_logicTypes.mpr (Or.inl (by decide))
  · exact mem_logicTypes.mpr (Or.inr (Or.inr (Or.inr rfl)))

/-- The event's name is assigned to a variable. -/
theorem execute_assignEvent :
    let run := execute quietEnv (some (assignGraph (str "vars.name") (str "\x7b\x7bevent\x7d\x7d")))
      (str "t") (loadPayload .null).1 (loadPayload .null).2
    run.1.heaps.length = run.1.steps.length + 1 ∧
      (∀ h ∈ run.1.heaps, Acyclic (Points h) ∧ ∀ v, ∃ tree, h.snapshot v = some tree) ∧
      run.2 ≠ .crashed := by
  refine execute_acyclic quietEnv _ _ .null ?_ ?_
  · intro g hg
    rw [← Option.some.inj hg]
    exact logicOnly_assignGraph _ _
  · have hleaf : ((execute quietEnv
        (some (assignGraph (str "vars.name") (str "\x7b\x7bevent\x7d\x7d"))) (str "t")
        (loadPayload .null).1 (loadPayload .null).2).1.writes.all fun w => w.value.refs.all fun r =>
          r ≠ w.target && (w.heap.object r).all fun kv => kv.2.refs.isEmpty) = true := by
      decide +kernel
    intro w hw
    have hw := all_eq_true.mp hleaf w hw
    refine Write.safe_of_leaf fun r hr => ?_
    simpa using all_eq_true.mp hw r hr

/-- The variables are assigned to one of them: they hold themselves behind the box, and
recording its output takes the process down. -/
theorem execute_assignSelf :
    let graph := assignGraph (str "vars.self") (str "\x7b\x7bvars\x7d\x7d")
    let run := execute quietEnv (some graph) (str "t") (loadPayload .null).1 (loadPayload .null).2
    LogicOnly (normalizeGraph graph) ∧
      (∃ h ∈ run.1.heaps, ∃ vars, Points h (bagOf quietEnv (loadPayload .null).1
        (loadPayload .null).2) vars ∧ Points h vars vars) ∧
      run.2 = .crashed := by
  intro graph run
  have hcycle : (run.1.heaps.any fun h => decide (Points h (bagOf quietEnv (loadPayload .null).1
      (loadPayload .null).2) ⟨1, 0⟩) && decide (Points h ⟨1, 0⟩ ⟨1, 0⟩)) = true := by
    decide +kernel
  have hcrash : run.2.isCrashed = true := by decide +kernel
  refine ⟨logicOnly_assignGraph _ _, ?_, eq_crashed hcrash⟩
  obtain ⟨h, hh, hpoints⟩ := any_eq_true.mp hcycle
  rw [Bool.and_eq_true, decide_eq_true_iff, decide_eq_true_iff] at hpoints
  exact ⟨h, hh, ⟨1, 0⟩, hpoints⟩

end StreamHub.Streamflow
