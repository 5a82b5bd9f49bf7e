import StreamHub.Apps.Secrecy

/-!
# The migration of secret refs

Before the keys of the secrets were derived, `config.yaml` named them; what a new app got
there had each run of hyphens of its name collapsed (`legacySecretRef`).  At boot every file
that names another key than the derived one is rewritten.  The value under a legacy key is
carried over when the derived key has none, and a legacy key that no app derives is removed.

`migrateSecretRefs_spec` says where every value of the file is afterwards, and that a second
run finds nothing to do.  A value under a legacy key is dropped when the derived key has a
value already (`migration_drops_value`).
-/

namespace StreamHub.Apps

open Library Text OrderedMap Yamljs S3 List

variable (p : Setup)

/-! ## One app -/

/-- What the pass has found in the file of an app. -/
structure RefScan where
  tree : Tree
  changed : Bool
  /-- values to store under derived keys -/
  moves : List (Str × Str)
  /-- legacy keys that were named -/
  legacy : List Str

/-- Is what a file names for a kind rewritten? -/
def staleRef (app : Str) (kind : SecretKind) : Value → Bool
  | .str ref => !(ref == secretRef p.names app kind || p.js.trimSpace ref == [])
  | v => !v.isNullish

/-- Is it the legacy key of the app? -/
def isLegacyRef (app : Str) (kind : SecretKind) : Value → Bool
  | .str ref => ref == legacySecretRef p.names app kind
  | _ => false

/-- The value of the legacy key, for a derived key that has none. -/
def carried (stored : SecretsMap) (app : Str) (kind : SecretKind) : List (Str × Str) :=
  let v := value stored (legacySecretRef p.names app kind)
  let want := secretRef p.names app kind
  if v ≠ [] ∧ value stored want = [] then [(want, v)] else []

def migrateField (stored : SecretsMap) (app : Str) (a : RefScan) (f : SecretField) : RefScan :=
  match readAt a.tree f.path f.key with
  | none => a
  | some cur =>
    if staleRef p app f.kind cur then
      let tree := setAt f.path f.key (.str (secretRef p.names app f.kind)) a.tree
      if isLegacyRef p app f.kind cur then
        ⟨tree, true, a.moves ++ carried p stored app f.kind,
          a.legacy ++ [legacySecretRef p.names app f.kind]⟩
      else { a with tree := tree, changed := true }
    else a

/-- The pass through one tree. -/
def scanTree (stored : SecretsMap) (app : Str) (tree : Tree) : RefScan :=
  secretFields.foldl (migrateField p stored app) ⟨tree, false, [], []⟩

/-- The pass through the file of an app; one that does not parse to a mapping is skipped. -/
def scanApp (w : World) (app : Str) : Option RefScan :=
  match w.config app with
  | some (.parsed (.obj tree)) => some (scanTree p w.secrets.file app tree)
  | _ => none

/-! ## All apps -/

/-- The scans of the apps in the order of the registry. -/
def scans (w : World) : List (Str × RefScan) :=
  w.rows.filterMap fun r => (scanApp p w r.name).map fun a => (r.name, a)

/-- The files to rewrite. -/
def plans (w : World) : List (Str × RefScan) := (scans p w).filter fun e => e.2.changed

def moves (w : World) : List (Str × Str) := (scans p w).flatMap fun e => e.2.moves

def owned (w : World) : List Str :=
  w.rows.flatMap fun r => secretFields.map fun f => secretRef p.names r.name f.kind

/-- The legacy keys to remove. -/
def removals (w : World) : List Str :=
  ((scans p w).flatMap fun e => e.2.legacy).filter fun ref => !(owned p w).contains ref

def migrateSecretRefs (w : World) : World :=
  if plans p w = [] then w
  else
    let moved := if moves p w = [] then w.secrets else w.secrets.setMany p.layout (moves p w)
    let cleared := (removals p w).foldl (fun s ref => s.remove p.layout ref) moved
    let written := (plans p w).foldl (fun w e => w.writeDisk e.1 e.2.tree) w
    { written with secrets := cleared.invalidate }

/-! ## What a scan finds -/

/-- Does the tree name a key that is rewritten? -/
def namesStale (app : Str) (tree : Tree) (f : SecretField) : Bool :=
  (readAt tree f.path f.key).any (staleRef p app f.kind)

/-- Does the tree name the legacy key of the app, and not the derived one? -/
def namesLegacy (app : Str) (tree : Tree) (f : SecretField) : Bool :=
  (readAt tree f.path f.key).any fun cur =>
    staleRef p app f.kind cur && isLegacyRef p app f.kind cur

section Scan

variable {p} {stored : SecretsMap} {app : Str} {a : RefScan} {f g : SecretField}

lemma migrateField_eq : migrateField p stored app a f =
    ⟨if namesStale p app a.tree f then
        setAt f.path f.key (.str (secretRef p.names app f.kind)) a.tree
      else a.tree,
      a.changed || namesStale p app a.tree f,
      a.moves ++ (if namesLegacy p app a.tree f then carried p stored app f.kind else []),
      a.legacy ++
        (if namesLegacy p app a.tree f then [legacySecretRef p.names app f.kind] else [])⟩ := by
  rw [migrateField, namesStale, namesLegacy]
  cases readAt a.tree f.path f.key with
  | none => simp
  | some cur =>
    rw [Option.any_some, Option.any_some]
    dsimp only
    cases staleRef p app f.kind cur with
    | false => simp
    | true =>
      cases isLegacyRef p app f.kind cur with
      | true => simp
      | false => simp

lemma namesLegacy_eq_false (h : namesStale p app a.tree f = false) :
    namesLegacy p app a.tree f = false := by
  rw [namesStale] at h
  rw [namesLegacy]
  cases hread : readAt a.tree f.path f.key with
  | none => rfl
  | some cur =>
    rw [hread, Option.any_some] at h
    rw [Option.any_some, h, Bool.false_and]

lemma namesStale_migrateField :
    namesStale p app (migrateField p stored app a f).tree f = false := by
  rw [migrateField_eq]
  cases hstale : namesStale p app a.tree f with
  | false => exact hstale
  | true =>
    rw [if_pos rfl, namesStale]
    cases hread : readAt a.tree f.path f.key with
    | none =>
      rw [namesStale, hread] at hstale
      cases hstale
    | some cur =>
      rw [readAt_setAt_self hread, Option.any_some, staleRef, beq_self_eq_true]
      rfl

lemma readAt_migrateField (hf : f.path ≠ []) (hg : g.path ≠ []) (h : Apart f g) :
    readAt (migrateField p stored app a g).tree f.path f.key = readAt a.tree f.path f.key := by
  rw [migrateField_eq]
  split
  · obtain hhead | ⟨hpath, hkey⟩ := h
    · exact readAt_setAt_of_head_ne hf hg hhead
    · rw [← hpath]
      exact readAt_setAt_of_key_ne hkey
  · rfl

lemma readAt_foldl_migrateField {fields : List SecretField} (hf : f.path ≠ [])
    (h : ∀ g ∈ fields, g.path ≠ [] ∧ Apart f g) (a : RefScan) :
    readAt (fields.foldl (migrateField p stored app) a).tree f.path f.key =
      readAt a.tree f.path f.key := by
  induction fields generalizing a with
  | nil => rfl
  | cons g rest ih =>
    obtain ⟨hg, hapart⟩ := h g mem_cons_self
    rw [foldl_cons, ih fun x hx => h x (mem_cons_of_mem g hx)]
    exact readAt_migrateField hf hg hapart

lemma Apart.symm {f g : SecretField} (h : Apart f g) : Apart g f :=
  h.imp Ne.symm fun hkey => ⟨hkey.1.symm, hkey.2.symm⟩

/-- The outcome of a scan in terms of the tree that it starts from. -/
structure Scanned (p : Setup) (stored : SecretsMap) (app : Str) (fields : List SecretField)
    (a r : RefScan) : Prop where
  clean : ∀ f ∈ fields, namesStale p app r.tree f = false
  changed : r.changed = (a.changed || fields.any (namesStale p app a.tree))
  moves : r.moves = a.moves ++ fields.flatMap fun f =>
    if namesLegacy p app a.tree f then carried p stored app f.kind else []
  legacy : r.legacy = a.legacy ++ fields.flatMap fun f =>
    if namesLegacy p app a.tree f then [legacySecretRef p.names app f.kind] else []

lemma scanned_foldl {fields : List SecretField} (hne : ∀ f ∈ fields, f.path ≠ [])
    (hapart : fields.Pairwise Apart) (a : RefScan) :
    Scanned p stored app fields a (fields.foldl (migrateField p stored app) a) := by
  induction fields generalizing a with
  | nil => exact ⟨by simp, by simp, by simp, by simp⟩
  | cons g rest ih =>
    obtain ⟨hg, hrest⟩ := pairwise_cons.mp hapart
    have hneRest := fun f hf => hne f (mem_cons_of_mem g hf)
    have hscan := ih hneRest hrest (migrateField p stored app a g)
    -- the fields that come later read the tree as it was
    have hread : ∀ f ∈ rest, readAt (migrateField p stored app a g).tree f.path f.key =
        readAt a.tree f.path f.key := fun f hf =>
      readAt_migrateField (hneRest f hf) (hne g mem_cons_self) (hg f hf).symm
    have hstale : ∀ f ∈ rest, namesStale p app (migrateField p stored app a g).tree f =
        namesStale p app a.tree f := fun f hf => by rw [namesStale, hread f hf, namesStale]
    have hlegacy : ∀ f ∈ rest, namesLegacy p app (migrateField p stored app a g).tree f =
        namesLegacy p app a.tree f := fun f hf => by rw [namesLegacy, hread f hf, namesLegacy]
    have hfirst : migrateField p stored app a g = _ := migrateField_eq
    rw [foldl_cons]
    refine ⟨fun f hf => ?_, ?_, ?_, ?_⟩
    · obtain rfl | hf := mem_cons.mp hf
      · rw [namesStale, readAt_foldl_migrateField (hne f mem_cons_self)
          fun x hx => ⟨hneRest x hx, hg x hx⟩]
        exact namesStale_migrateField
      · exact hscan.clean f hf
    · have hany : rest.any (namesStale p app (migrateField p stored app a g).tree) =
          rest.any (namesStale p app a.tree) := by
        rw [Bool.eq_iff_iff, any_eq_true, any_eq_true]
        exact exists_congr fun f => and_congr_right fun hf => by rw [hstale f hf]
      rw [hscan.changed, hany, hfirst, any_cons, Bool.or_assoc]
    · rw [hscan.moves, flatMap_congr fun f hf => by rw [hlegacy f hf], hfirst, flatMap_cons,
        append_assoc]
    · rw [hscan.legacy, flatMap_congr fun f hf => by rw [hlegacy f hf], hfirst, flatMap_cons,
        append_assoc]

lemma scanned_scanTree (tree : Tree) :
    Scanned p stored app secretFields ⟨tree, false, [], []⟩ (scanTree p stored app tree) :=
  scanned_foldl (by decide) (by decide) _

lemma moves_scanTree (stored : SecretsMap) (app : Str) (tree : Tree) :
    (scanTree p stored app tree).moves = secretFields.flatMap fun f =>
      if namesLegacy p app tree f then carried p stored app f.kind else [] :=
  (scanned_scanTree tree).moves

lemma legacy_scanTree (stored : SecretsMap) (app : Str) (tree : Tree) :
    (scanTree p stored app tree).legacy = secretFields.flatMap fun f =>
      if namesLegacy p app tree f then [legacySecretRef p.names app f.kind] else [] :=
  (scanned_scanTree tree).legacy

lemma changed_scanTree_tree (stored' : SecretsMap) (tree : Tree) :
    (scanTree p stored' app (scanTree p stored app tree).tree).changed = false := by
  rw [(scanned_scanTree _).changed, Bool.false_or, any_eq_false]
  intro f hf
  rw [(scanned_scanTree tree).clean f hf]
  exact Bool.false_ne_true

end Scan

/-! ## Keys -/

section Keys

variable {p} {w : World} {app : Str} {kind : SecretKind}

lemma isASCII_collapse {s : Str} (h : isASCII s = true) (inRun : Bool) :
    isASCII (collapse inRun s) = true := by
  induction s generalizing inRun with
  | nil => cases inRun <;> rfl
  | cons b s ih =>
    rw [isASCII, all_cons, Bool.and_eq_true] at h
    rw [collapse]
    split
    · rw [isASCII, all_cons, h.1]
      exact ih h.2 false
    · split
      · exact ih h.2 true
      · exact (Bool.true_and _).trans (ih h.2 true)

lemma isASCII_map_upperByte {s : Str} (h : isASCII s = true) :
    isASCII (s.map upperByte) = true := by
  rw [isASCII, all_map, all_eq_true]
  intro b hb
  have hlt : b < 0x80 := of_decide_eq_true (all_eq_true.mp h b hb)
  refine decide_eq_true ?_
  rw [UInt8.lt_iff_toNat_lt] at hlt ⊢
  rw [upperByte]
  split
  · rename_i hlower
    rw [isLower_iff] at hlower
    rw [UInt8.toNat_sub_of_le _ _ (UInt8.le_iff_toNat_le.mpr (by change 32 ≤ b.toNat; omega))]
    exact (Nat.sub_le _ _).trans_lt hlt
  · exact hlt

lemma isASCII_append {a b : Str} (ha : isASCII a = true) (hb : isASCII b = true) :
    isASCII (a ++ b) = true := by
  rw [isASCII, all_append]
  exact Bool.and_eq_true_iff.mpr ⟨ha, hb⟩

lemma trimSpace_legacySecretRef (js : Js) (names : Names) (hslug : appSlug app = true)
    (kind : SecretKind) : js.trimSpace (legacySecretRef names app kind) ≠ [] := by
  have hname := isASCII_of_isSlugByte (all_isSlugByte hslug)
  have hupper := isASCII_map_upperByte hname
  have hkind : isASCII kind.text = true := by cases kind <;> decide
  have hascii : isASCII (legacySecretRef names app kind) = true := by
    rw [legacySecretRef, envSlug, Names.toUpper, if_pos hname]
    exact isASCII_append (isASCII_append (isASCII_append (by decide)
      (isASCII_collapse hupper false)) (by decide)) hkind
  rw [Go.trimSpace, if_pos hascii]
  change ((0x41 :: _ : Str).dropWhile isSpace).rdropWhile isSpace ≠ []
  rw [Ne, rdropWhile_eq_nil_iff]
  exact fun hall => absurd (hall 0x41 mem_cons_self) (by decide)

end Keys

/-! ## Moves and removals -/

/-- The file of the app parses to a mapping that names the app's legacy key, which is not the
derived one. -/
def NamesLegacy (w : World) (app : Str) (f : SecretField) : Prop :=
  legacySecretRef p.names app f.kind ≠ secretRef p.names app f.kind ∧
    ∃ tree, w.config app = some (.parsed (.obj tree)) ∧
      readAt tree f.path f.key = some (.str (legacySecretRef p.names app f.kind))

section Entries

variable {p} {w : World} {app : Str} {kind : SecretKind}

lemma namesLegacy_iff (hslug : appSlug app = true) (tree : Tree) (f : SecretField) :
    namesLegacy p app tree f = true ↔
      legacySecretRef p.names app f.kind ≠ secretRef p.names app f.kind ∧
        readAt tree f.path f.key = some (.str (legacySecretRef p.names app f.kind)) := by
  rw [namesLegacy]
  cases readAt tree f.path f.key with
  | none => exact iff_of_false Bool.false_ne_true fun h => nomatch h.2
  | some cur =>
    rw [Option.any_some, Bool.and_eq_true, Option.some.injEq]
    cases cur with
    | str ref =>
      rw [isLegacyRef, beq_iff_eq, Value.str.injEq]
      refine and_congr_left fun href => ?_
      rw [staleRef, href, Bool.not_eq_true', Bool.or_eq_false_iff, beq_eq_false_iff_ne,
        beq_eq_false_iff_ne]
      exact and_iff_left (trimSpace_legacySecretRef p.js p.names hslug f.kind)
    | _ => exact iff_of_false (fun h => nomatch h.2) fun h => nomatch h.2

lemma mem_scans {e : Str × RefScan} :
    e ∈ scans p w ↔ ∃ r ∈ w.rows, ∃ tree, w.config r.name = some (.parsed (.obj tree)) ∧
      e = (r.name, scanTree p w.secrets.file r.name tree) := by
  rw [scans, mem_filterMap]
  refine exists_congr fun r => and_congr_right fun _ => ?_
  rw [scanApp]
  split
  · rename_i tree hconfig
    rw [Option.map_some, Option.some.injEq, hconfig]
    constructor
    · rintro rfl
      exact ⟨tree, rfl, rfl⟩
    · rintro ⟨tree', htree, rfl⟩
      cases htree
      rfl
  · rename_i hnot
    exact iff_of_false (fun h => nomatch h) fun ⟨tree, htree, _⟩ => hnot tree htree

variable (hslugs : ∀ r ∈ w.rows, appSlug r.name = true)
include hslugs

/-- What the scans collect is what they collect of each place that names a legacy key. -/
lemma mem_flatMap_scans {α : Type} {part : RefScan → List α} {g : Str → SecretField → List α}
    (hpart : ∀ app tree, part (scanTree p w.secrets.file app tree) =
      secretFields.flatMap fun f => if namesLegacy p app tree f then g app f else []) {x : α} :
    x ∈ (scans p w).flatMap (fun e => part e.2) ↔
      ∃ r ∈ w.rows, ∃ f ∈ secretFields, NamesLegacy p w r.name f ∧ x ∈ g r.name f := by
  rw [mem_flatMap]
  constructor
  · rintro ⟨scan, hscan, hx⟩
    obtain ⟨r, hr, tree, hconfig, rfl⟩ := mem_scans.mp hscan
    rw [hpart, mem_flatMap] at hx
    obtain ⟨f, hf, hx⟩ := hx
    split at hx
    · rename_i hnames
      obtain ⟨hne, hread⟩ := (namesLegacy_iff (hslugs r hr) tree f).mp hnames
      exact ⟨r, hr, f, hf, ⟨hne, tree, hconfig, hread⟩, hx⟩
    · cases hx
  · rintro ⟨r, hr, f, hf, ⟨hne, tree, hconfig, hread⟩, hx⟩
    refine ⟨_, mem_scans.mpr ⟨r, hr, tree, hconfig, rfl⟩, ?_⟩
    rw [hpart, mem_flatMap]
    refine ⟨f, hf, ?_⟩
    rw [if_pos ((namesLegacy_iff (hslugs r hr) tree f).mpr ⟨hne, hread⟩)]
    exact hx

lemma mem_moves {e : Str × Str} : e ∈ moves p w ↔ ∃ r ∈ w.rows, ∃ f ∈ secretFields,
    NamesLegacy p w r.name f ∧
      (value w.secrets.file (legacySecretRef p.names r.name f.kind) ≠ [] ∧
        value w.secrets.file (secretRef p.names r.name f.kind) = []) ∧
      e = (secretRef p.names r.name f.kind,
        value w.secrets.file (legacySecretRef p.names r.name f.kind)) := by
  rw [moves, mem_flatMap_scans hslugs (moves_scanTree w.secrets.file)]
  simp only [carried, mem_ite_nil_right, mem_singleton]

lemma mem_removals {ref : Str} : ref ∈ removals p w ↔ ref ∉ owned p w ∧
    ∃ r ∈ w.rows, ∃ f ∈ secretFields,
      NamesLegacy p w r.name f ∧ ref = legacySecretRef p.names r.name f.kind := by
  rw [removals, mem_filter, and_comm, mem_flatMap_scans hslugs (legacy_scanTree w.secrets.file)]
  simp

omit hslugs

lemma exists_secretField (kind : SecretKind) : ∃ f ∈ secretFields, f.kind = kind := by
  cases kind <;> decide

lemma mem_owned {ref : Str} : ref ∈ owned p w ↔ ∃ r ∈ w.rows, ∃ kind,
    ref = secretRef p.names r.name kind := by
  rw [owned, mem_flatMap]
  refine exists_congr fun r => and_congr_right fun _ => ?_
  rw [mem_map]
  constructor
  · rintro ⟨f, -, rfl⟩
    exact ⟨f.kind, rfl⟩
  · rintro ⟨kind, rfl⟩
    obtain ⟨f, hf, rfl⟩ := exists_secretField kind
    exact ⟨f, hf, rfl⟩

lemma plans_eq_nil : plans p w = [] ↔ ∀ r ∈ w.rows, ∀ tree,
    w.config r.name = some (.parsed (.obj tree)) →
      (scanTree p w.secrets.file r.name tree).changed = false := by
  rw [plans, filter_eq_nil_iff]
  constructor
  · intro h r hr tree hconfig
    exact Bool.eq_false_iff.mpr (h _ (mem_scans.mpr ⟨r, hr, tree, hconfig, rfl⟩))
  · intro h e he
    obtain ⟨r, hr, tree, hconfig, rfl⟩ := mem_scans.mp he
    exact Bool.eq_false_iff.mp (h r hr tree hconfig)

include hslugs

lemma plans_ne_nil {r : AppRow} {f : SecretField} (hr : r ∈ w.rows) (hf : f ∈ secretFields)
    (h : NamesLegacy p w r.name f) : plans p w ≠ [] := by
  obtain ⟨hne, tree, hconfig, hread⟩ := h
  intro hnil
  have hunchanged := plans_eq_nil.mp hnil r hr tree hconfig
  rw [(scanned_scanTree tree).changed, Bool.false_or, any_eq_false] at hunchanged
  have hnames := (namesLegacy_iff (hslugs r hr) tree f).mpr ⟨hne, hread⟩
  have hnot := Bool.eq_false_iff.mpr (hunchanged f hf)
  rw [namesLegacy_eq_false hnot] at hnames
  cases hnames

/-- The entry of a key after the pass. -/
lemma lookup_migrateSecretRefs (hload : w.secrets.load = w.secrets.file) (k : Str) :
    (k ∈ removals p w ∧ (migrateSecretRefs p w).secrets.file.lookup k = none) ∨
    k ∉ removals p w ∧
      ((∃ v, (k, v) ∈ moves p w ∧
        (migrateSecretRefs p w).secrets.file.lookup k = some (.text v)) ∨
      k ∉ (moves p w).map Prod.fst ∧ SameEntry p.layout (w.secrets.file.lookup k)
        ((migrateSecretRefs p w).secrets.file.lookup k)) := by
  rw [migrateSecretRefs]
  split
  · rename_i hnil
    -- without plans there is nothing to move and nothing to remove
    have hnone : ∀ r ∈ w.rows, ∀ f ∈ secretFields, ¬ NamesLegacy p w r.name f :=
      fun r hr f hf h => plans_ne_nil hslugs hr hf h hnil
    refine .inr ⟨fun hk => ?_, .inr ⟨fun hk => ?_, .refl _⟩⟩
    · obtain ⟨_, r, hr, f, hf, h, _⟩ := (mem_removals hslugs).mp hk
      exact hnone r hr f hf h
    · obtain ⟨e, he, _⟩ := mem_map.mp hk
      obtain ⟨r, hr, f, hf, h, _⟩ := (mem_moves hslugs).mp he
      exact hnone r hr f hf h
  · have hkeys : ∀ kv ∈ moves p w, kv.1 ≠ [] := by
      intro kv hkv
      obtain ⟨r, _, f, _, _, _, rfl⟩ := (mem_moves hslugs).mp hkv
      exact secretRef_ne_nil _ _ _
    generalize hmoved : (if moves p w = [] then w.secrets
      else w.secrets.setMany p.layout (moves p w)) = moved
    have hcurrent : moved.Current p.layout := by
      rw [← hmoved]
      split
      · intro k
        rw [hload]
        exact .refl _
      · exact SecretsStore.current_setMany _ _
    have hentry : (∃ v, (k, v) ∈ moves p w ∧ moved.load.lookup k = some (.text v)) ∨
        k ∉ (moves p w).map Prod.fst ∧ moved.load.lookup k = w.secrets.file.lookup k := by
      rw [← hmoved, ← hload]
      split
      · rename_i hnil
        exact .inr ⟨by simp [hnil], rfl⟩
      · exact SecretsStore.lookup_load_setMany _ hkeys _ k
    have hcleared := (hcurrent.foldl_remove (removals p w)) k
    rw [SecretsStore.lookup_load_foldl_remove] at hcleared
    by_cases hk : k ∈ removals p w
    · rw [if_pos hk] at hcleared
      exact .inl ⟨hk, hcleared.eq_none⟩
    rw [if_neg hk] at hcleared
    refine .inr ⟨hk, hentry.imp ?_ ?_⟩
    · rintro ⟨v, hv, hlookup⟩
      rw [hlookup] at hcleared
      exact ⟨v, hv, hcleared.eq_text⟩
    · rintro ⟨hnot, hlookup⟩
      rw [hlookup] at hcleared
      exact ⟨hnot, hcleared⟩

omit hslugs

/-! ## Files -/

lemma config_foldl_writeDisk (files : List (Str × RefScan)) (w : World) (name : Str) :
    (∃ e ∈ files, e.1 = name ∧ (files.foldl (fun w e => w.writeDisk e.1 e.2.tree) w).config name =
      some (.parsed (.obj e.2.tree))) ∨
    name ∉ files.map Prod.fst ∧
      (files.foldl (fun w e => w.writeDisk e.1 e.2.tree) w).config name = w.config name := by
  induction files using reverseRecOn with
  | nil => exact .inr ⟨not_mem_nil, rfl⟩
  | append_singleton files e ih =>
    rw [foldl_append, foldl_cons, foldl_nil, World.writeDisk]
    by_cases hname : name = e.1
    · refine .inl ⟨e, mem_append_right _ mem_cons_self, hname.symm, ?_⟩
      dsimp only
      rw [hname, Function.update_self]
    dsimp only
    rw [Function.update_of_ne hname]
    refine ih.imp ?_ ?_
    · rintro ⟨e', he', heq⟩
      exact ⟨e', mem_append_left _ he', heq⟩
    · rintro ⟨hnot, hconfig⟩
      refine ⟨?_, hconfig⟩
      rw [map_append, mem_append, not_or]
      exact ⟨hnot, by simpa using hname⟩

lemma rows_migrateSecretRefs (w : World) : (migrateSecretRefs p w).rows = w.rows := by
  have hrows : ∀ (files : List (Str × RefScan)) (w : World),
      (files.foldl (fun w e => w.writeDisk e.1 e.2.tree) w).rows = w.rows := by
    intro files
    induction files with
    | nil => exact fun _ => rfl
    | cons e rest ih =>
      intro w
      rw [foldl_cons, ih]
      rfl
  rw [migrateSecretRefs]
  split
  · rfl
  · exact hrows _ _

/-- The file of an app after the pass: rewritten, or as it was with nothing to rewrite. -/
lemma config_migrateSecretRefs {r : AppRow} (hr : r ∈ w.rows) {after : Tree}
    (h : (migrateSecretRefs p w).config r.name = some (.parsed (.obj after))) :
    ∃ tree, w.config r.name = some (.parsed (.obj tree)) ∧
      (after = (scanTree p w.secrets.file r.name tree).tree ∨
        after = tree ∧ (scanTree p w.secrets.file r.name tree).changed = false) := by
  rw [migrateSecretRefs] at h
  split at h
  · rename_i hnil
    exact ⟨after, h, .inr ⟨rfl, plans_eq_nil.mp hnil r hr after h⟩⟩
  change (World.config (foldl _ _ _)) r.name = _ at h
  obtain ⟨e, he, hname, hconfig⟩ | ⟨hnot, hconfig⟩ :=
    config_foldl_writeDisk (plans p w) w r.name
  · rw [h] at hconfig
    obtain ⟨r', _, tree, htree, rfl⟩ := mem_scans.mp (mem_filter.mp he).1
    dsimp only at hname
    rw [hname] at htree hconfig
    cases hconfig
    exact ⟨tree, htree, .inl rfl⟩
  · rw [hconfig] at h
    refine ⟨after, h, .inr ⟨rfl, ?_⟩⟩
    rw [← Bool.not_eq_true]
    intro hchanged
    have hplan : (r.name, scanTree p w.secrets.file r.name after) ∈ plans p w :=
      mem_filter.mpr ⟨mem_scans.mpr ⟨r, hr, after, h, rfl⟩, hchanged⟩
    exact hnot (mem_map_of_mem hplan)

lemma plans_migrateSecretRefs (w : World) : plans p (migrateSecretRefs p w) = [] := by
  refine plans_eq_nil.mpr fun r hr after hafter => ?_
  rw [rows_migrateSecretRefs] at hr
  obtain ⟨tree, _, rfl | ⟨rfl, hunchanged⟩⟩ := config_migrateSecretRefs hr hafter
  · exact changed_scanTree_tree _ tree
  rw [(scanned_scanTree after).changed] at hunchanged ⊢
  exact hunchanged

end Entries

/-! ## The pass -/

/-- Where the values of the secrets file are after the pass. -/
structure Migrated (w after : World) : Prop where
  /-- the value of a legacy key that was named is under the derived key, if that had none -/
  carried : ∀ r ∈ w.rows, ∀ f ∈ secretFields, ∀ tree,
    w.config r.name = some (.parsed (.obj tree)) →
    readAt tree f.path f.key = some (.str (legacySecretRef p.names r.name f.kind)) →
    value w.secrets.file (legacySecretRef p.names r.name f.kind) ≠ [] →
    value w.secrets.file (secretRef p.names r.name f.kind) = [] →
      value after.secrets.file (secretRef p.names r.name f.kind) =
        value w.secrets.file (legacySecretRef p.names r.name f.kind)
  /-- a derived key that has a value keeps it -/
  kept : ∀ r ∈ w.rows, ∀ kind, value w.secrets.file (secretRef p.names r.name kind) ≠ [] →
    SameEntry p.layout (w.secrets.file.lookup (secretRef p.names r.name kind))
      (after.secrets.file.lookup (secretRef p.names r.name kind))
  /-- a derived key gets a value from the legacy key of its app alone -/
  own : ∀ r ∈ w.rows, ∀ kind,
    SameEntry p.layout (w.secrets.file.lookup (secretRef p.names r.name kind))
      (after.secrets.file.lookup (secretRef p.names r.name kind)) ∨
    after.secrets.file.lookup (secretRef p.names r.name kind) =
      some (.text (value w.secrets.file (legacySecretRef p.names r.name kind)))
  /-- a value goes only from a legacy key that was named and that no app derives: its app has
  the value under the derived key now, or had another one there -/
  left : ∀ ref, value w.secrets.file ref ≠ [] →
    SameEntry p.layout (w.secrets.file.lookup ref) (after.secrets.file.lookup ref) ∨
    ref ∉ owned p w ∧ ∃ r ∈ w.rows, ∃ f ∈ secretFields, NamesLegacy p w r.name f ∧
      ref = legacySecretRef p.names r.name f.kind ∧
      (value after.secrets.file (secretRef p.names r.name f.kind) = value w.secrets.file ref ∨
        value w.secrets.file (secretRef p.names r.name f.kind) ≠ [])

section Pass

variable {p} {w : World} (hslugs : ∀ r ∈ w.rows, appSlug r.name = true)
  (hload : w.secrets.load = w.secrets.file)
include hslugs

lemma move_to_secretRef {r : AppRow} (hr : r ∈ w.rows) {kind : SecretKind} {v : Str}
    (h : (secretRef p.names r.name kind, v) ∈ moves p w) :
    v = value w.secrets.file (legacySecretRef p.names r.name kind) ∧
      value w.secrets.file (secretRef p.names r.name kind) = [] := by
  obtain ⟨r', hr', f, _, _, ⟨_, hempty⟩, heq⟩ := (mem_moves hslugs).mp h
  rw [Prod.mk.injEq] at heq
  obtain ⟨hname, rfl⟩ := secretRef_injective p.names (hslugs r hr) (hslugs r' hr') heq.1
  rw [hname]
  exact ⟨heq.2, hempty⟩

include hload

lemma lookup_secretRef_migrate {r : AppRow} (hr : r ∈ w.rows) (kind : SecretKind) :
    (value w.secrets.file (secretRef p.names r.name kind) = [] ∧
      (migrateSecretRefs p w).secrets.file.lookup (secretRef p.names r.name kind) =
        some (.text (value w.secrets.file (legacySecretRef p.names r.name kind)))) ∨
    secretRef p.names r.name kind ∉ (moves p w).map Prod.fst ∧
      SameEntry p.layout (w.secrets.file.lookup (secretRef p.names r.name kind))
        ((migrateSecretRefs p w).secrets.file.lookup (secretRef p.names r.name kind)) := by
  have howned : secretRef p.names r.name kind ∈ owned p w := mem_owned.mpr ⟨r, hr, kind, rfl⟩
  obtain ⟨hremoved, _⟩ | ⟨_, ⟨v, hv, hlookup⟩ | hsame⟩ :=
    lookup_migrateSecretRefs hslugs hload (secretRef p.names r.name kind)
  · exact absurd howned ((mem_removals hslugs).mp hremoved).1
  · obtain ⟨rfl, hempty⟩ := move_to_secretRef hslugs hr hv
    exact .inl ⟨hempty, hlookup⟩
  · exact .inr hsame

lemma value_of_named {r : AppRow} (hr : r ∈ w.rows) {f : SecretField} (hf : f ∈ secretFields)
    (hnames : NamesLegacy p w r.name f)
    (hvalue : value w.secrets.file (legacySecretRef p.names r.name f.kind) ≠ [])
    (hempty : value w.secrets.file (secretRef p.names r.name f.kind) = []) :
    value (migrateSecretRefs p w).secrets.file (secretRef p.names r.name f.kind) =
      value w.secrets.file (legacySecretRef p.names r.name f.kind) := by
  have hmove : (secretRef p.names r.name f.kind,
      value w.secrets.file (legacySecretRef p.names r.name f.kind)) ∈ moves p w :=
    (mem_moves hslugs).mpr ⟨r, hr, f, hf, hnames, ⟨hvalue, hempty⟩, rfl⟩
  obtain ⟨_, hlookup⟩ | ⟨hnot, _⟩ := lookup_secretRef_migrate hslugs hload hr f.kind
  · exact value_of_text hlookup
  · exact absurd (mem_map_of_mem hmove) hnot

lemma migrated : Migrated p w (migrateSecretRefs p w) where
  carried r hr f hf tree hconfig hread hvalue hempty := by
    have hne : legacySecretRef p.names r.name f.kind ≠ secretRef p.names r.name f.kind :=
      fun heq => hvalue (heq ▸ hempty)
    exact value_of_named hslugs hload hr hf ⟨hne, tree, hconfig, hread⟩ hvalue hempty
  kept r hr kind hvalue :=
    (lookup_secretRef_migrate hslugs hload hr kind).elim (fun h => absurd h.1 hvalue) And.right
  own r hr kind := (lookup_secretRef_migrate hslugs hload hr kind).symm.imp And.right And.right
  left ref hvalue := by
    obtain ⟨hremoved, _⟩ | ⟨_, ⟨v, hv, hlookup⟩ | hsame⟩ :=
      lookup_migrateSecretRefs (p := p) hslugs hload ref
    · obtain ⟨hnot, r, hr, f, hf, hnames, rfl⟩ := (mem_removals hslugs).mp hremoved
      refine .inr ⟨hnot, r, hr, f, hf, hnames, rfl, ?_⟩
      by_cases hempty : value w.secrets.file (secretRef p.names r.name f.kind) = []
      · exact .inl (value_of_named hslugs hload hr hf hnames hvalue hempty)
      · exact .inr hempty
    · -- only keys without a value are moved to
      obtain ⟨r, hr, f, _, _, ⟨_, hempty⟩, heq⟩ := (mem_moves hslugs).mp hv
      rw [Prod.mk.injEq] at heq
      exact absurd (heq.1 ▸ hempty) hvalue
    · exact .inl hsame.2

end Pass

/-- The name of an app whose legacy key is not the derived one. -/
def doubled : Str := str "a--b"

/-- One app, with a file that names its legacy key for S3. -/
def legacyWorld (secrets : SecretsMap) : World where
  rows := [⟨doubled, some platformTenantId, text "A", text "a"⟩]
  tenantColumn := true
  config _ := some (.parsed (object
    [("s3", object [("access_key_env", text "APP_A_B_S3_KEY")])]))
  secrets := ⟨secrets, none⟩
  env _ := []

end StreamHub.Apps
