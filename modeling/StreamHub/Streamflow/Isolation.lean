import StreamHub.Streamflow.BagCycles
import StreamHub.Streamflow.Triggers

/-!
# The runs of one event

The runs of an event share its payload and nothing else.  A run sees the objects of the
payload and its own; two heaps that agree on them (`Heap.Agree`) are the same to it, and
it changes no other object (`Moves`).  So a run records what it would record alone, as
long as no run before it wrote into the payload or took the process down
(`onEvent_isolated`).
-/

namespace StreamHub.Streamflow

open Library Text OrderedMap Yamljs Relation
open List hiding mem_set get

/-! ## Heaps that look the same to a run -/

/-- An object of the payload or of the run. -/
def Ref.Visible (owner : ℕ) (r : Ref) : Prop := r.owner = 0 ∨ r.owner = owner

def Val.Visible (owner : ℕ) (v : Val) : Prop := ∀ r ∈ v.refs, r.Visible owner

/-- The visible objects are the same, and lead to visible objects only. -/
structure Heap.Agree (owner : ℕ) (h k : Heap) : Prop where
  next : h.next = k.next
  object : ∀ r, r.Visible owner → h.object r = k.object r
  closed : ∀ r, r.Visible owner → ∀ kv ∈ h.object r, kv.2.Visible owner

/-- From `h` to `h'` only objects of the run and the targets changed, and `h'` agrees
with `k'`. -/
structure Moves (owner : ℕ) (targets : List Ref) (h h' k' : Heap) : Prop where
  agree : h'.Agree owner k'
  frame : ∀ r, r.owner ≠ owner → r ∉ targets → h'.object r = h.object r
  targets : ∀ r ∈ targets, r.Visible owner

section Changes

variable {owner : ℕ} {h k : Heap} {r : Ref} {v : Val} {m : List (Str × Val)}

lemma Moves.refl (hagree : h.Agree owner k) : Moves owner [] h h k :=
  ⟨hagree, fun _ _ _ => rfl, by simp⟩

lemma Moves.trans {h' k' h'' k'' : Heap} {targets targets' : List Ref}
    (h₁ : Moves owner targets h h' k') (h₂ : Moves owner targets' h' h'' k'') :
    Moves owner (targets ++ targets') h h'' k'' where
  agree := h₂.agree
  frame r hr hnot := by
    rw [mem_append, not_or] at hnot
    rw [h₂.frame r hr hnot.2, h₁.frame r hr hnot.1]
  targets := forall_mem_append.mpr ⟨h₁.targets, h₂.targets⟩

lemma visible_ref : (Val.ref r).Visible owner ↔ r.Visible owner := by simp [Val.Visible, Val.refs]

lemma visible_own (owner i : ℕ) : (⟨owner, i⟩ : Ref).Visible owner := Or.inr rfl

lemma visible_undefined (owner : ℕ) : Val.undefined.Visible owner := by
  intro r hr
  cases hr

lemma visible_str (owner : ℕ) (s : Str) : (Val.str s).Visible owner := by
  intro r hr
  cases hr

lemma Heap.Agree.member (hagree : h.Agree owner k) (hr : r.Visible owner) (key : Str) :
    h.member r key = k.member r key ∧ (h.member r key).Visible owner := by
  refine ⟨by rw [Heap.member, Heap.member, hagree.object r hr], ?_⟩
  rcases lookupOr_mem Val.undefined (h.object r) key with hmissing | hmem
  · rw [Heap.member, hmissing]
    exact visible_undefined owner
  · exact hagree.closed r hr _ hmem

lemma Heap.Agree.alloc (hagree : h.Agree owner k) (hm : ∀ kv ∈ m, kv.2.Visible owner) :
    (k.alloc owner m).1 = (h.alloc owner m).1 ∧
      Moves owner [] h (h.alloc owner m).2 (k.alloc owner m).2 := by
  have href : (k.alloc owner m).1 = (h.alloc owner m).1 := by
    rw [Heap.alloc, Heap.alloc, hagree.next]
  refine ⟨href, ⟨congrArg Nat.succ hagree.next, fun r hr => ?_, fun r hr kv hkv => ?_⟩,
    fun r hr _ => ?_, by simp⟩
  · rw [object_alloc, object_alloc, href, hagree.object r hr]
  · rw [object_alloc] at hkv
    split at hkv
    · exact hm kv hkv
    · exact hagree.closed r hr kv hkv
  · rw [object_alloc, if_neg]
    rintro rfl
    exact hr rfl

lemma Heap.Agree.setMember (hagree : h.Agree owner k) (hr : r.Visible owner)
    (hv : v.Visible owner) (key : Str) :
    Moves owner [r] h (h.setMember r key v) (k.setMember r key v) := by
  refine ⟨⟨hagree.next, fun r' hr' => ?_, fun r' hr' kv hkv => ?_⟩, fun r' _ hnot => ?_, by simpa⟩
  · rw [object_setMember, object_setMember, hagree.object r hr, hagree.object r' hr']
  · rw [object_setMember] at hkv
    split at hkv
    · rcases mem_set hkv with rfl | hkv
      · exact hv
      · exact hagree.closed r hr kv hkv
    · exact hagree.closed r' hr' kv hkv
  · rw [object_setMember, if_neg (by simpa using hnot)]

end Changes

/-! ## Reading -/

mutual

theorem snapshotVal_congr {f g : Ref → Option Value} :
    ∀ {v : Val}, (∀ r ∈ v.refs, f r = g r) → snapshotVal f v = snapshotVal g v
  | .ref r, h => h r (by simp [Val.refs])
  | .arr items, h => by
      rw [Val.refs] at h
      rw [snapshotVal, snapshotVal, snapshotItems_congr h]
  | .undefined, _ | .null, _ | .bool _, _ | .num _, _ | .str _, _ => rfl

theorem snapshotItems_congr {f g : Ref → Option Value} :
    ∀ {items : List Val}, (∀ r ∈ Val.refsItems items, f r = g r) →
      snapshotItems f items = snapshotItems g items
  | [], _ => rfl
  | v :: rest, h => by
      rw [Val.refsItems] at h
      rw [snapshotItems, snapshotItems, snapshotVal_congr fun r hr => h r (mem_append_left _ hr),
        snapshotItems_congr fun r hr => h r (mem_append_right _ hr)]

end

lemma snapshotMembers_congr {f g : Ref → Option Value} {m : List (Str × Val)}
    (h : ∀ kv ∈ m, ∀ r ∈ kv.2.refs, f r = g r) : snapshotMembers f m = snapshotMembers g m := by
  induction m with
  | nil => rfl
  | cons kv rest ih =>
    obtain ⟨hkv, hrest⟩ := forall_mem_cons.mp h
    rw [snapshotMembers, snapshotMembers, snapshotVal_congr hkv, ih hrest]

section Depth

variable {h : Heap} {d : ℕ} {r : Ref} {tree : Value}

lemma exists_of_read (hread : h.read (d + 1) r = some tree) {r' : Ref} (hpoints : Points h r r') :
    ∃ t, h.read d r' = some t :=
  Option.isSome_iff_exists.mp (isSome_read_succ.mp (Option.isSome_of_mem hread) r' hpoints)

section

variable (hread : h.read d r = some tree)

include hread

lemma read_mono : h.read (d + 1) r = some tree := by
  induction d generalizing r tree with
  | zero => cases hread
  | succ d ih =>
    rw [read_succ, ← hread, read_succ h d]
    congr 1
    refine snapshotMembers_congr fun kv hkv r' hr' => ?_
    obtain ⟨t, ht⟩ := exists_of_read hread ⟨kv, hkv, hr'⟩
    rw [ht, ih ht]

lemma read_mono_add (n : ℕ) : h.read (d + n) r = some tree := by
  induction n with
  | zero => exact hread
  | succ n ih => exact read_mono ih

lemma acc_of_read : Acc (fun x y => Points h y x) r := by
  induction d generalizing r tree with
  | zero => cases hread
  | succ d ih =>
    refine Acc.intro r fun r' hpoints => ?_
    obtain ⟨t, ht⟩ := exists_of_read hread hpoints
    exact ih ht

lemma read_stable : h.read (h.objects.length + 1) r = some tree := by
  cases hdeep : h.read (h.objects.length + 1) r with
  | some t =>
    have ht := read_mono_add hdeep d
    have htree := read_mono_add hread (h.objects.length + 1)
    rw [Nat.add_comm, htree] at ht
    exact ht.symm
  | none =>
    obtain ⟨path, hchain, hlength⟩ := path_of_read_eq_none hdeep
    -- the path without its end stays among the objects, and is too long for them
    have hsub := dropLast_subset_domain hchain
    cases path with
    | nil => cases hlength
    | cons r' rest =>
      have hbound := length_le_of_acc (acc_of_read hread)
        (by simpa using hchain.dropLast) hsub
      rw [length_dropLast, Heap.domain, length_map] at hbound
      omega

end

end Depth

section Reading

variable {owner : ℕ} {h k : Heap} {js : Js}

lemma Heap.Agree.read (hagree : h.Agree owner k) (d : ℕ) {r : Ref} (hr : r.Visible owner) :
    h.read d r = k.read d r := by
  induction d generalizing r with
  | zero => rfl
  | succ d ih =>
    rw [read_succ, read_succ, ← hagree.object r hr,
      snapshotMembers_congr fun kv hkv r' hr' => ih (hagree.closed r hr kv hkv r' hr')]

lemma Heap.Agree.snapshot (hagree : h.Agree owner k) {v : Val} (hv : v.Visible owner) :
    h.snapshot v = k.snapshot v := by
  refine snapshotVal_congr fun r hr => ?_
  cases hread : h.read (h.objects.length + 1) r with
  | some tree =>
    rw [hagree.read _ (hv r hr)] at hread
    exact (read_stable hread).symm
  | none =>
    cases hread' : k.read (k.objects.length + 1) r with
    | none => rfl
    | some tree =>
      rw [← hagree.read _ (hv r hr)] at hread'
      rw [read_stable hread'] at hread
      cases hread

lemma Heap.Agree.getSegs (hagree : h.Agree owner k) {cur : Val} (hcur : cur.Visible owner)
    (segs : List Str) :
    getSegs js h cur segs = getSegs js k cur segs ∧ (getSegs js h cur segs).Visible owner := by
  induction segs generalizing cur with
  | nil => exact ⟨rfl, hcur⟩
  | cons seg rest ih =>
    unfold Streamflow.getSegs
    split
    · exact ⟨rfl, visible_undefined owner⟩
    cases cur with
    | arr items => exact ih fun r hr => hcur r (refs_elementAt js items seg hr)
    | ref r =>
      obtain ⟨hmember, hvisible⟩ := hagree.member (visible_ref.mp hcur) seg
      dsimp only
      rw [← hmember]
      exact ih hvisible
    | undefined | null | bool b | num n | str s => exact ⟨rfl, visible_undefined owner⟩

lemma Heap.Agree.getPath (js : Js) (hagree : h.Agree owner k) {bag : Val}
    (hbag : bag.Visible owner) (path : Str) :
    getPath js h bag path = getPath js k bag path ∧ (getPath js h bag path).Visible owner :=
  hagree.getSegs hbag _

lemma Heap.Agree.stringifyValue (hagree : h.Agree owner k) {v : Val} (hv : v.Visible owner) :
    stringifyValue js h v = stringifyValue js k v := by
  unfold Streamflow.stringifyValue
  rw [hagree.snapshot hv]

lemma Heap.Agree.resolveText (js : Js) (hagree : h.Agree owner k) {bag : Val}
    (hbag : bag.Visible owner) (s : Str) : resolveText js h bag s = resolveText js k bag s ∧
      ∀ v, resolveText js h bag s = some v → v.Visible owner := by
  have hstringify : (fun path => Streamflow.stringifyValue js h (Streamflow.getPath js h bag path)) =
      fun path => Streamflow.stringifyValue js k (Streamflow.getPath js k bag path) := by
    funext path
    obtain ⟨heq, hvisible⟩ := hagree.getPath js hbag path
    rw [← heq, hagree.stringifyValue hvisible]
  rw [Streamflow.resolveText, Streamflow.resolveText]
  split
  · rename_i path _
    obtain ⟨heq, hvisible⟩ := hagree.getPath js hbag path
    refine ⟨congrArg some heq, fun v hv => ?_⟩
    rwa [← Option.some.inj hv]
  split
  · rw [hstringify]
    refine ⟨rfl, fun v hv => ?_⟩
    obtain ⟨t, -, rfl⟩ := Option.map_eq_some_iff.mp hv
    exact visible_str owner t
  · refine ⟨rfl, fun v hv => ?_⟩
    rw [← Option.some.inj hv]
    exact visible_str owner s

end Reading

/-! ## Templates -/

/-- Two computations that return the same, and leave heaps that agree. -/
inductive AgreeOn {α : Type} (owner : ℕ) (Visible : α → Prop) (h : Heap) :
    Option (α × Heap) → Option (α × Heap) → Prop
  | none : AgreeOn owner Visible h none none
  | some {a : α} {h' k' : Heap} (visible : Visible a) (moves : Moves owner [] h h' k') :
      AgreeOn owner Visible h (some (a, h')) (some (a, k'))

lemma AgreeOn.cases {α : Type} {owner : ℕ} {Visible : α → Prop} {h : Heap}
    {o o' : Option (α × Heap)} (hon : AgreeOn owner Visible h o o') : (o = .none ∧ o' = .none) ∨
      ∃ a h' k', o = .some (a, h') ∧ o' = .some (a, k') ∧ Visible a ∧ Moves owner [] h h' k' := by
  cases hon with
  | none => exact .inl ⟨rfl, rfl⟩
  | some hvisible hmoves => exact .inr ⟨_, _, _, rfl, rfl, hvisible, hmoves⟩

section Templates

variable (js : Js) (owner : ℕ) {bag : Val}

mutual

theorem resolveValue_agree (hbag : bag.Visible owner) :
    ∀ (v : Value) {h k : Heap}, h.Agree owner k →
      AgreeOn owner (Val.Visible owner) h (resolveValue js owner bag v h)
        (resolveValue js owner bag v k)
  | .str s, h, k, hagree => by
      obtain ⟨heq, hvisible⟩ := hagree.resolveText js hbag s
      rw [resolveValue, resolveValue, ← heq]
      cases hv : resolveText js h bag s with
      | none => exact .none
      | some v => exact .some (hvisible v hv) (Moves.refl hagree)
  | .arr items, h, k, hagree => by
      rw [resolveValue, resolveValue]
      rcases (resolveItems_agree hbag items hagree).cases with
        ⟨hh, hk⟩ | ⟨vs, h', k', hh, hk, hvisible, hmoves⟩ <;> rw [hh, hk]
      · exact .none
      exact .some (by rwa [Val.Visible, Val.refs]) hmoves
  | .obj m, h, k, hagree => by
      rw [resolveValue, resolveValue]
      rcases (resolveMembers_agree hbag m hagree).cases with
        ⟨hh, hk⟩ | ⟨m', h', k', hh, hk, hvisible, hmoves⟩
      · rw [hh, hk]
        exact .none
      obtain ⟨href, hmade⟩ := hmoves.agree.alloc fun kv hkv =>
        hvisible kv (mem_of_mem_rebuild hkv)
      rw [hh, hk]
      dsimp only
      rw [href]
      exact .some (visible_ref.mpr (visible_own owner _)) (hmoves.trans hmade)
  | .undefined, h, k, hagree | .null, h, k, hagree | .bool _, h, k, hagree
  | .num _, h, k, hagree => .some (by simp [Val.Visible, Val.refs]) (Moves.refl hagree)

theorem resolveItems_agree (hbag : bag.Visible owner) :
    ∀ (items : List Value) {h k : Heap}, h.Agree owner k →
      AgreeOn owner (fun vs => ∀ r ∈ Val.refsItems vs, r.Visible owner) h
        (resolveItems js owner bag items h) (resolveItems js owner bag items k)
  | [], h, k, hagree => .some (by simp [Val.refsItems]) (Moves.refl hagree)
  | v :: rest, h, k, hagree => by
      rw [resolveItems, resolveItems]
      rcases (resolveValue_agree hbag v hagree).cases with
        ⟨hh, hk⟩ | ⟨v', h', k', hh, hk, hvisible, hmoves⟩ <;> rw [hh, hk]
      · exact .none
      dsimp only
      rcases (resolveItems_agree hbag rest hmoves.agree).cases with
        ⟨hh', hk'⟩ | ⟨vs, h'', k'', hh', hk', hvisible', hmoves'⟩ <;> rw [hh', hk']
      · exact .none
      refine .some ?_ (hmoves.trans hmoves')
      rw [Val.refsItems]
      exact forall_mem_append.mpr ⟨hvisible, hvisible'⟩

theorem resolveMembers_agree (hbag : bag.Visible owner) :
    ∀ (m : List (Str × Value)) {h k : Heap}, h.Agree owner k →
      AgreeOn owner (fun m => ∀ kv ∈ m, kv.2.Visible owner) h
        (resolveMembers js owner bag m h) (resolveMembers js owner bag m k)
  | [], h, k, hagree => .some (by simp) (Moves.refl hagree)
  | (key, v) :: rest, h, k, hagree => by
      rw [resolveMembers, resolveMembers]
      split
      · exact resolveMembers_agree hbag rest hagree
      rcases (resolveValue_agree hbag v hagree).cases with
        ⟨hh, hk⟩ | ⟨v', h', k', hh, hk, hvisible, hmoves⟩ <;> rw [hh, hk]
      · exact .none
      dsimp only
      rcases (resolveMembers_agree hbag rest hmoves.agree).cases with
        ⟨hh', hk'⟩ | ⟨m', h'', k'', hh', hk', hvisible', hmoves'⟩ <;> rw [hh', hk']
      · exact .none
      exact .some (forall_mem_cons.mpr ⟨hvisible, hvisible'⟩) (hmoves.trans hmoves')

end

end Templates

/-! ## Conditions, switches and assignments -/

section Logic

variable {owner : ℕ} {h k : Heap} {js : Js} {bag : Ref}

section

variable (hagree : h.Agree owner k)

include hagree

lemma Heap.Agree.applyOp {actual : Val} (hactual : actual.Visible owner) (op : Option Op)
    (expected : Value) : applyOp js h op actual expected = applyOp js k op actual expected := by
  have hcontains : containsOp js h actual expected = containsOp js k actual expected := by
    unfold containsOp
    split
    · rfl
    · rfl
    · rw [hagree.object _ (visible_ref.mp hactual)]
    · rfl
  unfold Streamflow.applyOp
  rw [hcontains]

variable (hbag : bag.Visible owner)

include hbag

lemma Heap.Agree.evalRule (rule : List (Str × Value)) :
    evalRule js owner h (.ref bag) rule = evalRule js owner k (.ref bag) rule := by
  have hbag' := visible_ref.mpr hbag
  obtain ⟨hactual, hvisible⟩ := hagree.getPath js hbag' ((get rule (str "field")).toText js)
  unfold Streamflow.evalRule
  rw [← hactual]
  rcases (resolveValue_agree js owner hbag' (get rule (str "value")) hagree).cases with
    ⟨hh, hk⟩ | ⟨v', h', k', hh, hk, -, -⟩
  · rw [hh, hk]
  rw [hh, hk]
  dsimp only
  rw [hagree.applyOp hvisible]

lemma Heap.Agree.evalRules (rules : List Value) :
    evalRules js owner h (.ref bag) rules = evalRules js owner k (.ref bag) rules := by
  induction rules with
  | nil => rfl
  | cons rule rest ih => rw [Streamflow.evalRules, Streamflow.evalRules, hagree.evalRule hbag, ih]

lemma Heap.Agree.evalCondition (cfg : List (Str × Value)) :
    evalCondition js owner h (.ref bag) cfg = evalCondition js owner k (.ref bag) cfg := by
  unfold Streamflow.evalCondition
  dsimp only
  rw [hagree.evalRules hbag]

lemma Heap.Agree.switchCases (actual : Val) (cases : List Value) :
    switchCases js owner h (.ref bag) actual cases =
      switchCases js owner k (.ref bag) actual cases := by
  induction cases with
  | nil => rfl
  | cons raw rest ih =>
    unfold Streamflow.switchCases
    dsimp only
    rcases (resolveValue_agree js owner (visible_ref.mpr hbag)
      (get (asObject raw) (str "value")) hagree).cases with
      ⟨hh, hk⟩ | ⟨v', h', k', hh, hk, -, -⟩
    · rw [hh, hk]
    rw [hh, hk]
    rw [ih]

lemma Heap.Agree.evalSwitch (cfg : List (Str × Value)) :
    evalSwitch js owner h (.ref bag) cfg = evalSwitch js owner k (.ref bag) cfg := by
  unfold Streamflow.evalSwitch
  dsimp only
  rw [(hagree.getPath js (visible_ref.mpr hbag) _).1, hagree.switchCases hbag]

end

/-- The targets of writes. -/
def targetsOf (writes : List Write) : List Ref := writes.map Write.target

lemma locate_make {cur : Ref} {seg : Str} (hmember : ∀ next, h.member cur seg ≠ .ref next)
    (seg' : Str) (rest : List Str) (writes : List Write) :
    locate owner h cur seg (seg' :: rest) writes =
      locate owner ((h.alloc owner []).2.setMember cur seg (.ref (h.alloc owner []).1))
        (h.alloc owner []).1 seg' rest
        (writes ++ [⟨(h.alloc owner []).2, cur, .ref (h.alloc owner []).1⟩]) := by
  rw [locate]
  split
  · rename_i next hnext
    exact absurd hnext (hmember next)
  · rfl

/-- The results of two ways along a path. -/
structure Located (owner : ℕ) (base : Heap) (a b : Heap × Ref × Str × List Write) : Prop where
  target : b.2.1 = a.2.1
  key : b.2.2.1 = a.2.2.1
  visible : a.2.1.Visible owner
  moves : Moves owner (targetsOf a.2.2.2) base a.1 b.1

/-- The object a path leads to, and what was made on the way. -/
lemma locate_agree {cur : Ref} (hcur : cur.Visible owner) (seg : Str) (rest : List Str)
    (writes writes' : List Write) {base : Heap}
    (hmoves : Moves owner (targetsOf writes) base h k) :
    Located owner base (locate owner h cur seg rest writes)
      (locate owner k cur seg rest writes') := by
  induction rest generalizing h k cur seg writes writes' with
  | nil => exact ⟨rfl, rfl, hcur, hmoves⟩
  | cons seg' rest ih =>
    obtain ⟨hmember, hvisible⟩ := hmoves.agree.member hcur seg
    by_cases hnext : ∃ next, h.member cur seg = .ref next
    · obtain ⟨next, hnext⟩ := hnext
      rw [locate, locate, ← hmember, hnext]
      rw [hnext] at hvisible
      exact ih (visible_ref.mp hvisible) seg' _ _ hmoves
    rw [not_exists] at hnext
    obtain ⟨href, hmade⟩ := hmoves.agree.alloc (m := []) (by simp)
    have hset := hmade.agree.setMember hcur (visible_ref.mpr (visible_own owner h.next)) seg
    rw [locate_make hnext, locate_make fun next => by rw [← hmember]; exact hnext next, href]
    refine ih (visible_own owner h.next) seg' _ _ ?_
    rw [targetsOf, map_append]
    exact hmoves.trans (hmade.trans hset)

lemma setPath_agree (hagree : h.Agree owner k) {root : Ref} (hroot : root.Visible owner)
    {v : Val} (hv : v.Visible owner) (path : Str) :
    Moves owner (targetsOf (setPath js owner h root path v).2) h (setPath js owner h root path v).1
      (setPath js owner k root path v).1 := by
  rw [setPath, setPath]
  split
  · exact Moves.refl hagree
  rename_i seg rest _
  split
  · exact Moves.refl hagree
  obtain ⟨htarget, hkey, hvisible, hmoves⟩ := locate_agree hroot seg rest [] []
    (Moves.refl hagree)
  dsimp only
  rw [htarget, hkey, targetsOf, map_append]
  exact hmoves.trans (hmoves.agree.setMember hvisible hv _)

/-- The results of two loops over assignments. -/
structure Assigned (owner : ℕ) (base : Heap)
    (a b : Heap × List Write × Option (List (Str × Val))) : Prop where
  applied : b.2.2 = a.2.2
  visible : ∀ applied, a.2.2 = some applied → ∀ kv ∈ applied, kv.2.Visible owner
  moves : Moves owner (targetsOf a.2.1) base a.1 b.1

lemma applyAssignments_agree (js : Js) (hbag : bag.Visible owner) (list : List (Str × Value))
    (applied : List (Str × Val)) (happlied : ∀ kv ∈ applied, kv.2.Visible owner)
    (writes writes' : List Write) {base : Heap}
    (hmoves : Moves owner (targetsOf writes) base h k) :
    Assigned owner base (applyAssignments js owner bag list h applied writes)
      (applyAssignments js owner bag list k applied writes') := by
  induction list generalizing h k applied writes writes' with
  | nil =>
    refine ⟨rfl, fun applied' happlied' => ?_, hmoves⟩
    rwa [← Option.some.inj happlied']
  | cons assignment rest ih =>
    obtain ⟨path, value⟩ := assignment
    rw [applyAssignments, applyAssignments]
    rcases (resolveValue_agree js owner (visible_ref.mpr hbag) value hmoves.agree).cases with
      ⟨hh, hk⟩ | ⟨v, h', k', hh, hk, hvisible, hresolved⟩
    · rw [hh, hk]
      exact ⟨rfl, by simp, hmoves⟩
    rw [hh, hk]
    refine ih _ (fun kv hkv => ?_) _ _ ?_
    · rcases mem_set hkv with rfl | hkv
      · exact hvisible
      · exact happlied kv hkv
    · rw [targetsOf, map_append]
      exact hmoves.trans (hresolved.trans (setPath_agree hresolved.agree hbag hvisible path))

/-! ## Boxes -/

/-- Two boxes that come to the same. -/
structure Effect.Agree (owner : ℕ) (h : Heap) (e f : Effect) : Prop where
  outcome : f.outcome = e.outcome
  visible : ∀ out port, e.outcome = .done out port → out.Visible owner
  moves : Moves owner (targetsOf e.writes) h e.heap f.heap

lemma Effect.Agree.alloc {base : Heap} {m : List (Str × Val)} {port : Str}
    (writes writes' : List Write) (hmoves : Moves owner (targetsOf writes) base h k)
    (hm : ∀ kv ∈ m, kv.2.Visible owner) :
    Effect.Agree owner base ⟨(h.alloc owner m).2, writes, .done (.ref (h.alloc owner m).1) port⟩
      ⟨(k.alloc owner m).2, writes', .done (.ref (k.alloc owner m).1) port⟩ := by
  obtain ⟨href, hmade⟩ := hmoves.agree.alloc hm
  refine ⟨by rw [href], fun out port' hout => ?_, ?_⟩
  · cases hout
    exact visible_ref.mpr (visible_own owner h.next)
  · have hall := hmoves.trans hmade
    rwa [append_nil] at hall

section

variable (hagree : h.Agree owner k) (hbag : bag.Visible owner)

include hagree hbag

lemma conditionExec_agree (cfg : List (Str × Value)) :
    Effect.Agree owner h (conditionExec js owner bag cfg h) (conditionExec js owner bag cfg k) := by
  rw [conditionExec, conditionExec, ← hagree.evalCondition hbag]
  cases evalCondition js owner h (.ref bag) cfg with
  | none => exact ⟨rfl, by simp, Moves.refl hagree⟩
  | some matched =>
    exact Effect.Agree.alloc [] [] (Moves.refl hagree) (by simp [Val.Visible, Val.refs])

lemma switchExec_agree (cfg : List (Str × Value)) :
    Effect.Agree owner h (switchExec js owner bag cfg h) (switchExec js owner bag cfg k) := by
  rw [switchExec, switchExec, ← hagree.evalSwitch hbag]
  cases evalSwitch js owner h (.ref bag) cfg with
  | none => exact ⟨rfl, by simp, Moves.refl hagree⟩
  | some port =>
    obtain ⟨heq, hvisible⟩ := hagree.getPath js (visible_ref.mpr hbag)
      (((get cfg (str "field")).coalesce (.str [])).toText js)
    rw [← heq]
    refine Effect.Agree.alloc [] [] (Moves.refl hagree) ?_
    simp only [forall_mem_cons]
    exact ⟨visible_str owner port, hvisible, by simp⟩

lemma setvarExec_agree (cfg : List (Str × Value)) :
    Effect.Agree owner h (setvarExec js owner bag cfg h) (setvarExec js owner bag cfg k) := by
  have hassigned := applyAssignments_agree js hbag (assignments js cfg) [] (by simp) [] []
    (Moves.refl hagree)
  rw [setvarExec, setvarExec]
  generalize applyAssignments js owner bag (assignments js cfg) h [] [] = a at *
  generalize applyAssignments js owner bag (assignments js cfg) k [] [] = b at *
  obtain ⟨h', writes, applied⟩ := a
  obtain ⟨k', writes', applied'⟩ := b
  obtain ⟨happlied, hvisible, hmoves⟩ := hassigned
  cases happlied
  cases applied with
  | none => exact ⟨rfl, by simp, hmoves⟩
  | some applied => exact Effect.Agree.alloc writes writes' hmoves (hvisible applied rfl)

end

lemma executor_agree {env : Env} {payload : Ref} {seq : ℕ} {typ : Str}
    {exec : List (Str × Value) → Heap → Effect}
    (hexec : executor env payload bag seq typ = some exec) (hlogic : typ ∈ logicTypes)
    (hagree : h.Agree env.owner k) (hbag : bag.Visible env.owner)
    (hpayload : payload.Visible env.owner) (cfg : List (Str × Value)) :
    Effect.Agree env.owner h (exec cfg h) (exec cfg k) := by
  rcases executor_cases hlogic hexec with rfl | rfl | rfl | rfl
  · refine ⟨rfl, fun out port hout => ?_, Moves.refl hagree⟩
    cases hout
    exact visible_ref.mpr hpayload
  · exact conditionExec_agree hagree hbag cfg
  · exact switchExec_agree hagree hbag cfg
  · exact setvarExec_agree hagree hbag cfg

end Logic

/-! ## Runs -/

/-- Two states of a run that look the same to it. -/
structure RunState.Agree (owner : ℕ) (base : Heap) (s t : RunState) : Prop where
  steps : t.steps = s.steps
  moves : Moves owner (targetsOf s.writes) base s.heap t.heap

section Runs

variable {env : Env} {payload bag : Ref} {base : Heap} {s t : RunState}

lemma finishBox_agree {box : Value} {e f : Effect} (hstate : s.Agree env.owner base t)
    (hbag : bag.Visible env.owner) (heffect : Effect.Agree env.owner s.heap e f) :
    (finishBox env bag s box e).2 = (finishBox env bag t box f).2 ∧
      (finishBox env bag s box e).1.Agree env.owner base (finishBox env bag t box f).1 := by
  have hrecord : baseRecord env t box = baseRecord env s box := by
    rw [baseRecord, baseRecord, hstate.steps]
  have hmoves : Moves env.owner (targetsOf (s.writes ++ e.writes)) base e.heap f.heap := by
    rw [targetsOf, map_append]
    exact hstate.moves.trans heffect.moves
  rw [finishBox, finishBox, heffect.outcome, hrecord, hstate.steps]
  cases houtcome : e.outcome with
  | overflow | failed msg => exact ⟨rfl, ⟨rfl, hmoves⟩⟩
  | done out port =>
    have hout := heffect.visible out port houtcome
    have hset := hmoves.agree.setMember hbag hout (boxID box)
    have hmoves' : Moves env.owner (targetsOf (s.writes ++ e.writes ++ [⟨e.heap, bag, out⟩])) base
        (e.heap.setMember bag (boxID box) out) (f.heap.setMember bag (boxID box) out) := by
      rw [targetsOf, map_append]
      exact hmoves.trans hset
    dsimp only
    rw [← hset.agree.snapshot hout]
    cases (e.heap.setMember bag (boxID box) out).snapshot out with
    | none | some tree => exact ⟨rfl, ⟨rfl, hmoves'⟩⟩

lemma execBox_agree {box : Value} (hlogic : boxType box ∈ logicTypes)
    (hbag : bag.Visible env.owner) (hpayload : payload.Visible env.owner)
    (hstate : s.Agree env.owner base t) :
    (execBox env payload bag s box).2 = (execBox env payload bag t box).2 ∧
      (execBox env payload bag s box).1.Agree env.owner base
        (execBox env payload bag t box).1 := by
  obtain ⟨exec, hexec, hbox⟩ := execBox_of_logic env payload bag s hlogic
  obtain ⟨exec', hexec', hbox'⟩ := execBox_of_logic env payload bag t hlogic
  rw [hstate.steps, hexec] at hexec'
  cases hexec'
  rw [hbox, hbox', hstate.steps]
  exact finishBox_agree hstate hbag
    (executor_agree hexec hlogic hstate.moves.agree hbag hpayload _)

variable {h k : Heap}

lemma initial_agree (hagree : ({ h with next := 0 } : Heap).Agree env.owner { k with next := 0 })
    (hpayload : payload.Visible env.owner) :
    (RunState.initial env payload h).Agree env.owner h (RunState.initial env payload k) ∧
      bagOf env payload k = bagOf env payload h ∧ (bagOf env payload h).Visible env.owner := by
  obtain ⟨hvars, hmade⟩ := hagree.alloc (m := []) (by simp)
  have hmembers : ∀ kv ∈ [(str "event", Val.str env.event), (str "trigger", .ref payload),
      (str "vars", .ref (({ h with next := 0 } : Heap).alloc env.owner []).1)],
      kv.2.Visible env.owner := by
    simp only [forall_mem_cons]
    exact ⟨visible_str _ _, visible_ref.mpr hpayload, visible_ref.mpr (visible_own _ _), by simp⟩
  obtain ⟨hbag, hmade'⟩ := hmade.agree.alloc hmembers
  refine ⟨⟨rfl, ?_⟩, ?_, visible_own _ _⟩
  · have hmoves := hmade.trans hmade'
    exact ⟨hmoves.agree, hmoves.frame, hmoves.targets⟩
  · exact hbag

lemma execute_agree {graph : Value} (triggerBoxID : Str)
    (hlogic : LogicOnly (normalizeGraph graph))
    (hagree : ({ h with next := 0 } : Heap).Agree env.owner { k with next := 0 })
    (hpayload : payload.Visible env.owner) : (execute env (some graph) triggerBoxID payload h).2 =
        (execute env (some graph) triggerBoxID payload k).2 ∧
      (execute env (some graph) triggerBoxID payload h).1.Agree env.owner h
        (execute env (some graph) triggerBoxID payload k).1 := by
  obtain ⟨hinitial, hbag, hvisible⟩ := initial_agree hagree hpayload
  rw [execute, execute]
  cases startBox env.js (normalizeGraph graph) triggerBoxID with
  | none => exact ⟨rfl, hinitial⟩
  | some start =>
    dsimp only
    rw [hbag]
    have hrun := runGraph_related env.js (ctxErr env) (normalizeGraph graph) (boxID start)
      (execBox env payload (bagOf env payload h)) maxSteps
      (R := RunState.Agree env.owner h) hinitial
      (fun s t hstate => by rw [ctxErr, ctxErr, hstate.steps])
      (fun s t b hstate hb => execBox_agree (hlogic b hb) hvisible hpayload hstate)
    exact ⟨by rw [hrun.1], hrun.2⟩

end Runs

/-! ## One run after the other -/

/-- The heap between two runs: the payload as it came, and no object of a run that is
still to come. -/
structure Between (arrived : Heap) (done : List ℕ) (h : Heap) : Prop where
  payload : ∀ r : Ref, r.owner = 0 → h.object r = arrived.object r
  unborn : ∀ r : Ref, r.owner ≠ 0 → r.owner ∉ done → h.object r = []

/-- A heap with a payload and nothing else. -/
structure Arrived (h : Heap) : Prop where
  unborn : ∀ r : Ref, r.owner ≠ 0 → h.object r = []
  closed : ∀ (r : Ref), ∀ kv ∈ h.object r, ∀ r' ∈ kv.2.refs, r'.owner = 0

lemma arrived_loadPayload (payload : Value) : Arrived (loadPayload payload).2 := by
  obtain ⟨hloads, -⟩ := loadPayload_loads payload
  have howner : ∀ r ∈ (loadPayload payload).2.domain, r.owner = 0 := fun r hr =>
    (hloads.made r hr).resolve_left (by simp [Heap.domain])
  refine ⟨fun r hr => ?_, fun r kv hkv r' hr' => howner r' (hloads.sound.closed ⟨kv, hkv, hr'⟩)⟩
  rcases lookupOr_mem [] (loadPayload payload).2.objects r with hnil | hmem
  · exact hnil
  · exact absurd (howner r (mem_map_of_mem hmem)) hr

section Queue

variable {arrived h : Heap} {done : List ℕ} {payload : Ref}

lemma Between.agree (hbetween : Between arrived done h) (harrived : Arrived arrived) {owner : ℕ}
    (howner : owner ≠ 0) (hnew : owner ∉ done) :
    ({ h with next := 0 } : Heap).Agree owner { arrived with next := 0 } := by
  have hobject : ∀ r : Ref, r.Visible owner → h.object r = arrived.object r := by
    intro r hr
    rcases hr with hr | hr
    · exact hbetween.payload r hr
    · rw [hbetween.unborn r (by rwa [hr]) (by rwa [hr]), harrived.unborn r (by rwa [hr])]
  refine ⟨rfl, hobject, fun r hr kv hkv r' hr' => .inl ?_⟩
  have hkv' : kv ∈ h.object r := hkv
  rw [hobject r hr] at hkv'
  exact harrived.closed r kv hkv' r' hr'

/-- A run that leaves the payload alone leaves the others' part of the heap alone. -/
lemma Between.run {job : Job} (hbetween : Between arrived done h) (harrived : Arrived arrived)
    (hlogic : LogicOnly (normalizeGraph job.graph)) (hpayload : payload.owner = 0)
    (hnew : job.env.owner ∉ done)
    (hquiet : ∀ w ∈ (job.run payload h).1.writes, w.target.owner ≠ 0) :
    Between arrived (job.env.owner :: done) (job.run payload h).1.heap := by
  have hagree := hbetween.agree harrived (Nat.succ_ne_zero _) hnew
  have hself : ({ h with next := 0 } : Heap).Agree job.env.owner { h with next := 0 } :=
    ⟨rfl, fun _ _ => rfl, hagree.closed⟩
  obtain ⟨-, hstate⟩ := execute_agree job.triggerBoxID hlogic hself
    (Or.inl hpayload)
  have hframe : ∀ r : Ref, r.owner ≠ job.env.owner →
      r ∉ targetsOf (job.run payload h).1.writes →
      (job.run payload h).1.heap.object r = h.object r := hstate.moves.frame
  refine ⟨fun r hr => ?_, fun r hr hnot => ?_⟩
  · rw [hframe r, hbetween.payload r hr]
    · rw [hr]
      exact (Nat.succ_ne_zero _).symm
    · intro hmem
      obtain ⟨w, hw, rfl⟩ := mem_map.mp hmem
      exact hquiet w hw hr
  · rw [mem_cons, not_or] at hnot
    rw [hframe r hnot.1, hbetween.unborn r hr hnot.2]
    intro hmem
    rcases hstate.moves.targets r hmem with hzero | hown
    · exact hr hzero
    · exact hnot.1 hown

lemma runAll_cons {job : Job} (hcrash : (job.run payload h).2 ≠ .crashed) (rest : List Job) :
    runAll payload (job :: rest) h =
      job.run payload h :: runAll payload rest (job.run payload h).1.heap := by
  rw [runAll]
  split
  · rename_i hcrashed
    exact absurd hcrashed hcrash
  · rfl

/-- A run behind others that left the payload alone records what it records alone. -/
lemma runAll_isolated (harrived : Arrived arrived) (hpayload : payload.owner = 0)
    {before : List Job} {job : Job} (after : List Job) (hbetween : Between arrived done h)
    (hlogic : ∀ j ∈ before ++ [job], LogicOnly (normalizeGraph j.graph))
    (hnew : ∀ j ∈ before ++ [job], j.env.owner ∉ done)
    (hnodup : ((before ++ [job]).map fun j => j.env.owner).Nodup)
    (hquiet : ∀ run ∈ runAll payload before h, run.2 ≠ .crashed ∧
      ∀ w ∈ run.1.writes, w.target.owner ≠ 0) :
    ∃ run, (runAll payload (before ++ job :: after) h)[before.length]? = some run ∧
      run.1.steps = (job.run payload arrived).1.steps ∧
      run.2 = (job.run payload arrived).2 := by
  induction before generalizing h done with
  | nil =>
    have hagree := hbetween.agree harrived (Nat.succ_ne_zero _) (hnew job (by simp))
    obtain ⟨hfinish, hstate⟩ := execute_agree job.triggerBoxID
      (hlogic job (by simp)) hagree (Or.inl hpayload)
    exact ⟨job.run payload h, rfl, hstate.steps.symm, hfinish⟩
  | cons first before ih =>
    obtain ⟨hcrash, hwrites⟩ := hquiet (first.run payload h) (by simp [runAll])
    rw [runAll_cons hcrash, forall_mem_cons] at hquiet
    rw [cons_append, forall_mem_cons] at hlogic hnew
    rw [cons_append, map_cons, nodup_cons] at hnodup
    have hnext := hbetween.run harrived hlogic.1 hpayload hnew.1 hwrites
    have hnew' : ∀ j ∈ before ++ [job], j.env.owner ∉ first.env.owner :: done := by
      intro j hj hmem
      rcases mem_cons.mp hmem with heq | hmem
      · exact hnodup.1 (heq ▸ mem_map_of_mem hj)
      · exact hnew.2 j hj hmem
    obtain ⟨run, hrun, hsteps⟩ := ih hnext hlogic.2 hnew' hnodup.2 hquiet.2
    refine ⟨run, ?_, hsteps⟩
    rw [cons_append, runAll_cons hcrash, length_cons]
    exact hrun

end Queue

/-! ## The runs of an event -/

section Event

variable {app : App} {event : Str} {h : Heap} {payload : Ref} {job : Job}

/-- A queued run is that of a workflow. -/
lemma mem_enqueueAll {workflows : List Workflow}
    (hjob : job ∈ app.enqueueAll event h payload workflows) : ∃ wf ∈ workflows, ∃ hit,
      (normalizeGraph wf.graph).boxes.find? (triggers app.js event h payload) = some hit ∧
      app.allowRun wf = true ∧ app.queued wf = true ∧ job = app.job event wf hit := by
  induction workflows with
  | nil => cases hjob
  | cons wf rest ih =>
    have hlater := fun hmem => (ih hmem).imp fun _ => And.imp_left (mem_cons_of_mem wf)
    rw [App.enqueueAll] at hjob
    split at hjob
    · exact hlater hjob
    rename_i hit hhit
    split at hjob
    · rename_i hallow
      split at hjob
      · rename_i hqueued
        rcases mem_cons.mp hjob with rfl | hjob
        · exact ⟨wf, mem_cons_self, hit, hhit, hallow, hqueued, rfl⟩
        · exact hlater hjob
      · exact hlater hjob
    · cases hjob

/-- Each workflow is run at most once. -/
lemma sublist_enqueueAll (workflows : List Workflow) :
    ((app.enqueueAll event h payload workflows).map fun j => j.env.run).Sublist
      (workflows.map Workflow.row) := by
  induction workflows with
  | nil => exact Sublist.refl _
  | cons wf rest ih =>
    rw [App.enqueueAll]
    split
    · exact ih.cons _
    split
    · split
      · exact ih.cons_cons _
      · exact ih.cons _
    · exact nil_sublist _

/-- With one workflow alone enabled, it is the only one on the list. -/
lemma listEnabled_only {wf : Workflow} (hwf : wf ∈ app.listEnabled) :
    (app.only wf.row).listEnabled = [wf] := by
  obtain ⟨hmem, henabled⟩ := mem_filter.mp hwf
  have hrows := app.rows
  rw [App.listEnabled, App.only]
  dsimp only
  generalize app.workflows = workflows at *
  induction workflows with
  | nil => cases hmem
  | cons first rest ih =>
    rw [map_cons, nodup_cons] at hrows
    rw [map_cons, filter_cons]
    rcases mem_cons.mp hmem with rfl | hmem
    · have hothers : (rest.map fun w =>
          { w with enabled := w.enabled && w.row == wf.row }).filter Workflow.enabled = [] := by
        refine filter_eq_nil_iff.mpr fun w hw => ?_
        obtain ⟨w', hw', rfl⟩ := mem_map.mp hw
        have hne : w'.row ≠ wf.row := fun heq => hrows.1 (heq ▸ mem_map_of_mem hw')
        simp [hne]
      have hkept : { wf with enabled := wf.enabled && wf.row == wf.row } = wf := by simp
      rw [hothers, hkept, if_pos henabled]
    · have hne : first.row ≠ wf.row := fun heq => hrows.1 (heq ▸ mem_map_of_mem hmem)
      rw [if_neg (by simp [hne])]
      exact ih hmem hrows.2

/-- The run of a workflow is queued just the same when it alone is enabled. -/
lemma onEvent_only {payload : Value} (hjob : job ∈ app.onEvent event payload) :
    (app.only job.env.run).onEvent event payload = [job] := by
  rw [App.onEvent] at hjob
  split at hjob
  · cases hjob
  rename_i hevent
  split at hjob
  · rename_i hplugin
    obtain ⟨wf, hwf, hit, hhit, hallow, hqueued, rfl⟩ := mem_enqueueAll hjob
    -- only the list of workflows differs
    have hplugin' : (app.only wf.row).pluginEnabled = true := hplugin
    have hhit' : (normalizeGraph wf.graph).boxes.find? (triggers (app.only wf.row).js event
        (loadPayload payload).2 (loadPayload payload).1) = some hit := hhit
    have hallow' : (app.only wf.row).allowRun wf = true := hallow
    have hqueued' : (app.only wf.row).queued wf = true := hqueued
    change (app.only wf.row).onEvent event payload = _
    rw [App.onEvent, if_neg hevent, if_pos hplugin', listEnabled_only hwf, App.enqueueAll, hhit']
    dsimp only
    rw [if_pos hallow', if_pos hqueued']
    rfl
  · cases hjob

lemma nodup_onEvent (app : App) (event : Str) (payload : Value) :
    ((app.onEvent event payload).map fun j => j.env.run).Nodup := by
  rw [App.onEvent]
  split
  · exact nodup_nil
  split
  · have hrows : (app.listEnabled.map Workflow.row).Nodup :=
      app.rows.sublist (filter_sublist.map _)
    exact hrows.sublist (sublist_enqueueAll _)
  · exact nodup_nil

lemma graph_of_mem_onEvent {payload : Value} (hjob : job ∈ app.onEvent event payload) :
    ∃ wf ∈ app.listEnabled, job.graph = wf.graph := by
  rw [App.onEvent] at hjob
  split at hjob
  · cases hjob
  split at hjob
  · obtain ⟨wf, hwf, hit, -, -, -, rfl⟩ := mem_enqueueAll hjob
    exact ⟨wf, hwf, rfl⟩
  · cases hjob

end Event

/-- The runs of an event in any order: one that no run before it wrote the payload for
or took the process from records what it records when its workflow alone is enabled. -/
theorem onEvent_isolated (app : App) (event : Str) (payload : Value)
    (hlogic : ∀ wf ∈ app.listEnabled, LogicOnly (normalizeGraph wf.graph))
    (before after : List Job) (job : Job)
    (horder : (before ++ job :: after).Perm (app.onEvent event payload))
    (hquiet : ∀ run ∈ runAll (loadPayload payload).1 before (loadPayload payload).2,
      run.2 ≠ .crashed ∧ ∀ w ∈ run.1.writes, w.target.owner ≠ 0) :
    ∃ run alone,
      (runAll (loadPayload payload).1 (before ++ job :: after)
        (loadPayload payload).2)[before.length]? = some run ∧
      runAll (loadPayload payload).1 ((app.only job.env.run).onEvent event payload)
        (loadPayload payload).2 = [alone] ∧
      run.1.steps = alone.1.steps ∧ run.2 = alone.2 := by
  have hmem : ∀ j ∈ before ++ job :: after, j ∈ app.onEvent event payload := fun j hj =>
    horder.mem_iff.mp hj
  have hsub : ∀ j ∈ before ++ [job], j ∈ before ++ job :: after := by
    intro j hj
    simp only [mem_append, mem_cons, not_mem_nil, or_false] at hj ⊢
    tauto
  have hrows : ((before ++ job :: after).map fun j => j.env.run).Nodup :=
    (horder.map _).nodup_iff.mpr (nodup_onEvent app event payload)
  have howners : ((before ++ [job]).map fun j => j.env.owner).Nodup := by
    have hfront : ((before ++ [job]).map fun j => j.env.run).Nodup := by
      refine hrows.sublist (Sublist.map _ ?_)
      exact Sublist.append_left (Sublist.cons_cons _ (nil_sublist _)) _
    have hsucc := hfront.map Nat.succ_injective
    rwa [List.map_map] at hsucc
  have hgraphs : ∀ j ∈ before ++ [job], LogicOnly (normalizeGraph j.graph) := by
    intro j hj
    obtain ⟨wf, hwf, hgraph⟩ := graph_of_mem_onEvent (hmem j (hsub j hj))
    rw [hgraph]
    exact hlogic wf hwf
  have harrived := arrived_loadPayload payload
  have hbetween : Between (loadPayload payload).2 [] (loadPayload payload).2 :=
    ⟨fun _ _ => rfl, fun r hr _ => harrived.unborn r hr⟩
  obtain ⟨run, hrun, hsteps, hfinish⟩ := runAll_isolated harrived rfl after hbetween hgraphs
    (by simp) howners hquiet
  refine ⟨run, _, hrun, ?_, hsteps, hfinish⟩
  rw [onEvent_only (hmem job (by simp)), runAll]
  split
  · rfl
  · rfl

/-- Two workflows that any event starts: one sets a flag, the other looks for it. -/
def setter : Workflow where
  row := 0
  id := str "setter"
  enabled := true
  graph := .obj [(str "boxes", .arr [
      .obj [(str "id", .str (str "t")), (str "type", .str (str "trigger.event"))],
      .obj [(str "id", .str (str "v")), (str "type", .str (str "logic.setvar")),
        (str "config", .obj [(str "set", .obj [(str "trigger.flag", .str (str "on"))])])]]),
    (str "edges", .arr [.obj [(str "from", .str (str "t")), (str "to", .str (str "v"))]])]

def looker : Workflow where
  row := 1
  id := str "looker"
  enabled := true
  graph := .obj [(str "boxes", .arr [
      .obj [(str "id", .str (str "t")), (str "type", .str (str "trigger.event"))],
      .obj [(str "id", .str (str "c")), (str "type", .str (str "logic.condition")),
        (str "config", .obj [(str "rules", .arr [.obj [(str "field", .str (str "trigger.flag")),
          (str "op", .str (str "exists"))]])])],
      .obj [(str "id", .str (str "x")), (str "type", .str (str "logic.setvar"))]]),
    (str "edges", .arr [.obj [(str "from", .str (str "t")), (str "to", .str (str "c"))],
      .obj [(str "from", .str (str "c:true")), (str "to", .str (str "x"))]])]

def twoWorkflows : App where
  js := Js.plain
  pluginEnabled := true
  workflows := [setter, looker]
  rows := by decide
  allowRun := fun _ => true
  queued := fun _ => true
  env := fun _ => quietEnv

lemma logicOnly_twoWorkflows :
    ∀ wf ∈ twoWorkflows.listEnabled, LogicOnly (normalizeGraph wf.graph) := by
  have htypes : (twoWorkflows.listEnabled.all fun wf =>
      (normalizeGraph wf.graph).boxes.all fun b => decide (boxType b ∈ logicTypes)) = true := by
    decide +kernel
  intro wf hwf b hb
  exact of_decide_eq_true (all_eq_true.mp (all_eq_true.mp htypes wf hwf) b hb)

/-- The trigger box of both workflows. -/
def anyEvent : Value :=
  .obj [(str "id", .str (str "t")), (str "type", .str (str "trigger.event"))]

/-- The setter behind the looker, which does not write. -/
theorem onEvent_isolated_setter :
    ∃ run alone,
      (runAll (loadPayload .null).1
        ([twoWorkflows.job (str "stream.started") looker anyEvent] ++
          twoWorkflows.job (str "stream.started") setter anyEvent :: [])
        (loadPayload .null).2)[1]? = some run ∧
      runAll (loadPayload .null).1
        ((twoWorkflows.only 0).onEvent (str "stream.started") .null) (loadPayload .null).2 =
          [alone] ∧
      run.1.steps = alone.1.steps ∧ run.2 = alone.2 := by
  refine onEvent_isolated twoWorkflows (str "stream.started") .null logicOnly_twoWorkflows
    [twoWorkflows.job (str "stream.started") looker anyEvent] []
    (twoWorkflows.job (str "stream.started") setter anyEvent) ?_ ?_
  · exact Perm.swap _ _ _
  · have hquiet : ((runAll (loadPayload .null).1
        [twoWorkflows.job (str "stream.started") looker anyEvent] (loadPayload .null).2).all
          fun run => !run.2.isCrashed && run.1.writes.all fun w => w.target.owner != 0) = true := by
      decide +kernel
    intro run hrun
    have hrun := all_eq_true.mp hquiet run hrun
    rw [Bool.and_eq_true, all_eq_true] at hrun
    refine ⟨fun hcrash => ?_, fun w hw => by simpa using hrun.2 w hw⟩
    rw [hcrash] at hrun
    exact absurd hrun.1 (by decide)

/-- Behind the setter the looker takes another way than alone. -/
theorem onEvent_flagSeen :
    (∀ wf ∈ twoWorkflows.listEnabled, LogicOnly (normalizeGraph wf.graph)) ∧
      ((runAll (loadPayload .null).1 (twoWorkflows.onEvent (str "stream.started") .null)
        (loadPayload .null).2).map fun run => run.1.steps.map StepRecord.boxID) =
          [[str "t", str "v"], [str "t", str "c", str "x"]] ∧
      ((runAll (loadPayload .null).1
        ((twoWorkflows.only 1).onEvent (str "stream.started") .null)
        (loadPayload .null).2).map fun run => run.1.steps.map StepRecord.boxID) =
          [[str "t", str "c"]] := by
  refine ⟨logicOnly_twoWorkflows, ?_, ?_⟩
  · decide +kernel
  · decide +kernel

end StreamHub.Streamflow
