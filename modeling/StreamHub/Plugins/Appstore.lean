import StreamHub.Library.FileTree
import StreamHub.Library.Transition

/-!
# The store of plugin versions

A version of a plugin has a directory `appstore/<id>/<version>/` with its bundle, a manifest
that records the hash of the bundle, and the tree that the bundle is extracted to when a
worker is first run from it.

Extraction writes one file after the other into its place, and whether it took place is told
by the existence of the worker's directory alone.  So a call that is cut short, or that
finds an unsafe path, can leave a part of the bundle that every later call takes for the
whole (`cut_extraction_is_returned`); where no call does that, what is returned is the
bundle (`extracted_of_reached`).
-/

namespace StreamHub.Plugins

open Library Text FileTree Transition List

/-- `httpx.Error` or another error. -/
inductive Failure
  | http (status : ℕ) (message : Str)
  | plain (message : Str)
  deriving DecidableEq

/-- What the store is built from. -/
structure Appstore where
  dataDir : Path
  coreVersion : Str
  /-- `Sha256Hex` -/
  sha256Hex : Str → Str
  /-- `UnpackTarGz`: names and contents -/
  unpackTarGz : Str → List (Str × Str)
  /-- the field `sha256` of a manifest that can be read -/
  manifestSha : Str → Option Str

def bundleFile : Str := str "bundle.tar.gz"

def manifestFile : Str := str "manifest.json"

def extractedDir : Str := str "extracted"

namespace Appstore

variable (a : Appstore) (id version : Str)

def storeRoot : Path := a.dataDir ++ [str "appstore"]

def versionDir : Path := joinPath a.storeRoot [id, version]

def bundlePath : Path := a.versionDir id version ++ [bundleFile]

def manifestPath : Path := a.versionDir id version ++ [manifestFile]

/-- Where a bundle is extracted to. -/
def extractRoot : Path := a.versionDir id version ++ [extractedDir]

def workerDir : Path := joinPath (a.extractRoot id version) [id, str "worker"]

end Appstore

/-- The content of a file; none for a directory. -/
def readFile (t : FileTree) (p : Path) : Option Str :=
  match t p with
  | some (.file c) => some c
  | _ => none

/-- `fileExists` -/
def fileExists (t : FileTree) (p : Path) : Bool := (t p).isSome

def quoted (s : Str) : Str := str "'" ++ s ++ str "'"

/-! ## Extraction -/

/-- Where a name of the bundle leads. -/
def target (root : Path) (name : Str) : Path :=
  match name with
  | c :: rest => if c = slash then joinPath [] [rest] else joinPath root [name]
  | [] => root

def entryOps (root : Path) (entry : Str × Str) : List Op :=
  mkdirAll (target root entry.1).dropLast ++ [.write (target root entry.1) entry.2]

/-- The operations of `ExtractTarGz` after it has made its root, and the name that it refuses. -/
def plan (root : Path) : List (Str × Str) → List Op × Option Str
  | [] => ([], none)
  | entry :: rest =>
    if root.isPrefixOf (target root entry.1) then
      (entryOps root entry ++ (plan root rest).1, (plan root rest).2)
    else ([], some entry.1)

/-- How the writes of a call go: to their end, or cut with an error. -/
inductive Course
  | whole
  | cut (c : Cut) (error : Str)

/-- `ExtractTarGz` -/
def extractTarGz (root : Path) (entries : List (Str × Str)) (course : Course) (t : FileTree) :
    Except Failure Unit × FileTree :=
  let ops := mkdirAll root ++ (plan root entries).1
  match course with
  | .cut c error => (.error (.plain error), execCut c ops t)
  | .whole =>
    match exec ops t with
    | (false, t') => (.error (.plain (str "file exists")), t')
    | (true, t') =>
      match (plan root entries).2 with
      | some name => (.error (.plain (str "unsafe path in bundle: " ++ name)), t')
      | none => (.ok (), t')

/-- `ResolveExtractedWorkerDir` -/
def resolveExtractedWorkerDir (a : Appstore) (id version : Str) (course : Course) (t : FileTree) :
    Except Failure Path × FileTree :=
  match (readFile t (a.manifestPath id version)).bind a.manifestSha with
  | none => (.error (.http 404 (str "no version " ++ quoted version ++ str " for " ++ quoted id)), t)
  | some sha =>
    if fileExists t (a.workerDir id version) then (.ok (a.workerDir id version), t)
    else
      match readFile t (a.bundlePath id version) with
      | none => (.error (.plain (str "open bundle.tar.gz")), t)
      | some gz =>
        if a.sha256Hex gz ≠ sha then
          (.error (.http 400 (str "bundle sha256 mismatch for " ++ quoted id ++ str " "
            ++ quoted version ++ str " (manifest " ++ sha.take 12 ++ str "…, actual "
            ++ (a.sha256Hex gz).take 12 ++ str "…) — refusing to extract")), t)
        else
          match extractTarGz (a.extractRoot id version) (a.unpackTarGz gz) course t with
          | (.error e, t') => (.error e, t')
          | (.ok (), t') => (.ok (a.workerDir id version), t')

/-! ## What a call returns -/

/-- What the bundle has at a path: of two entries that lead there, the later one. -/
def contentAt (root : Path) (entries : List (Str × Str)) (p : Path) : Option Str :=
  (entries.reverse.find? fun entry => target root entry.1 = p).map Prod.snd

/-- The bundle is the one that was recorded, its paths are safe, and each of them has the
content of the bundle. -/
def Intact (a : Appstore) (id version : Str) (t : FileTree) : Prop :=
  ∃ sha gz, (readFile t (a.manifestPath id version)).bind a.manifestSha = some sha ∧
    readFile t (a.bundlePath id version) = some gz ∧ a.sha256Hex gz = sha ∧
    ∀ entry ∈ a.unpackTarGz gz,
      a.extractRoot id version <+: target (a.extractRoot id version) entry.1 ∧
      ∃ body, contentAt (a.extractRoot id version) (a.unpackTarGz gz)
          (target (a.extractRoot id version) entry.1) = some body ∧
        t (target (a.extractRoot id version) entry.1) = some (.file body)

section Plans

variable {root p : Path} {entries : List (Str × Str)}

lemma contentAt_cons (entry : Str × Str) : contentAt root (entry :: entries) p =
      (contentAt root entries p).or (if target root entry.1 = p then some entry.2 else none) := by
  rw [contentAt, reverse_cons, find?_append, Option.map_or]
  congr 1
  by_cases hp : target root entry.1 = p
  · simp [hp]
  · simp [hp]

lemma lastWrite_entryOps (entry : Str × Str) : lastWrite p (entryOps root entry) =
    if target root entry.1 = p then some entry.2 else none := by
  rw [entryOps, lastWrite_concat]
  rw [lastWrite_mkdirAll]

lemma lastWrite_plan (h : (plan root entries).2 = none) :
    lastWrite p (plan root entries).1 = contentAt root entries p := by
  induction entries with
  | nil => rfl
  | cons entry rest ih =>
    rw [plan] at h ⊢
    split at h
    · rename_i hsafe
      rw [if_pos hsafe, lastWrite_append, ih h, lastWrite_entryOps, contentAt_cons]
    · cases h

lemma prefix_of_plan (h : (plan root entries).2 = none) :
    ∀ entry ∈ entries, root <+: target root entry.1 := by
  induction entries with
  | nil => simp
  | cons entry rest ih =>
    rw [plan] at h
    split at h
    · rename_i hsafe
      exact forall_mem_cons.mpr ⟨List.isPrefixOf_iff_prefix.mp hsafe, ih h⟩
    · cases h

lemma exists_contentAt {entry : Str × Str} (h : entry ∈ entries) :
    ∃ body, contentAt root entries (target root entry.1) = some body := by
  have hsome : (entries.reverse.find? fun e => target root e.1 = target root entry.1).isSome := by
    rw [find?_isSome]
    exact ⟨entry, mem_reverse.mpr h, decide_eq_true rfl⟩
  obtain ⟨found, hfound⟩ := Option.isSome_iff_exists.mp hsome
  exact ⟨found.2, by rw [contentAt, hfound, Option.map_some]⟩

/-- Every operation is on the way to the root or below it. -/
lemma path_of_mem_plan {op : Op} (h : op ∈ mkdirAll root ++ (plan root entries).1) :
    op.path <+: root ∨ root <+: op.path := by
  obtain hroot | hplan := mem_append.mp h
  · exact .inl (path_of_mem_mkdirAll hroot)
  clear h
  induction entries with
  | nil => cases hplan
  | cons entry rest ih =>
    rw [plan] at hplan
    split at hplan
    · rename_i hsafe
      have hprefix := isPrefixOf_iff_prefix.mp hsafe
      obtain hentry | hrest := mem_append.mp hplan
      · have hpath : op.path <+: target root entry.1 := by
          obtain hdir | hwrite := mem_append.mp hentry
          · exact (path_of_mem_mkdirAll hdir).trans (List.dropLast_prefix _)
          rw [mem_singleton.mp hwrite]
          exact prefix_rfl
        exact prefix_or_prefix_of_prefix hpath hprefix
      · exact ih hrest
    · cases hplan

lemma path_ne_sibling {dir : Path} {x y : Str} (hxy : x ≠ y) {op : Op}
    (h : op ∈ mkdirAll (dir ++ [x]) ++ (plan (dir ++ [x]) entries).1) : op.path ≠ dir ++ [y] := by
  intro hpath
  have hlast : ∀ {u v : Str}, dir ++ [u] <+: dir ++ [v] → u = v := by
    intro u v huv
    simpa using huv
  obtain hup | hdown := path_of_mem_plan h
  · rw [hpath] at hup
    exact hxy (hlast hup).symm
  · rw [hpath] at hdown
    exact hxy (hlast hdown)

end Plans

section Calls

variable {a : Appstore} {id version : Str} {course : Course} {t : FileTree}

lemma extractTarGz_ok {root : Path} {entries : List (Str × Str)} {t' : FileTree}
    (h : extractTarGz root entries course t = (.ok (), t')) :
    (plan root entries).2 = none ∧ exec (mkdirAll root ++ (plan root entries).1) t = (true, t') := by
  unfold extractTarGz at h
  dsimp only at h
  split at h
  · cases h
  split at h
  · cases h
  rename_i hexec
  split at h
  · cases h
  rename_i hsafe
  cases h
  exact ⟨hsafe, hexec⟩

lemma extracted_of_ok {root : Path} {entries : List (Str × Str)} {t' : FileTree}
    (h : extractTarGz root entries course t = (.ok (), t')) :
    ∀ entry ∈ entries, root <+: target root entry.1 ∧
      ∃ body, contentAt root entries (target root entry.1) = some body ∧
        t' (target root entry.1) = some (.file body) := by
  obtain ⟨hsafe, hexec⟩ := extractTarGz_ok h
  intro entry hentry
  obtain ⟨body, hbody⟩ : ∃ body, contentAt root entries (target root entry.1) = some body :=
    exists_contentAt hentry
  refine ⟨prefix_of_plan hsafe entry hentry, body, hbody, exec_written hexec ?_⟩
  rw [lastWrite_append, lastWrite_plan hsafe, hbody, Option.some_or]

lemma extractTarGz_sibling (dir : Path) {x y : Str} (hxy : x ≠ y)
    (entries : List (Str × Str)) (course : Course) (t : FileTree) :
    (extractTarGz (dir ++ [x]) entries course t).2 (dir ++ [y]) = t (dir ++ [y]) := by
  have hops : ∀ op ∈ mkdirAll (dir ++ [x]) ++ (plan (dir ++ [x]) entries).1,
      op.path ≠ dir ++ [y] := fun op hop => path_ne_sibling hxy hop
  have hexec := exec_outside hops t
  unfold extractTarGz
  dsimp only
  split
  · exact execCut_outside hops _ t
  split
  · rename_i heq
    rw [heq] at hexec
    exact hexec
  rename_i heq
  rw [heq] at hexec
  split
  · exact hexec
  · exact hexec

theorem resolve_ok {d : Path} (h : (resolveExtractedWorkerDir a id version course t).1 = .ok d) :
    d = a.workerDir id version ∧
      (fileExists t (a.workerDir id version) = true ∧
        (resolveExtractedWorkerDir a id version course t).2 = t ∨
      Intact a id version (resolveExtractedWorkerDir a id version course t).2) := by
  have hbundle : extractedDir ≠ bundleFile := by decide
  have hmanifest : extractedDir ≠ manifestFile := by decide
  rw [resolveExtractedWorkerDir] at h ⊢
  split at h
  · cases h
  rename_i sha hsha
  split at h
  · rename_i hexists
    cases h
    rw [if_pos hexists]
    exact ⟨rfl, .inl ⟨hexists, rfl⟩⟩
  rename_i hmissing
  rw [if_neg hmissing]
  split at h
  · cases h
  rename_i gz hgz
  split at h
  · cases h
  rename_i hdigest
  rw [if_neg hdigest]
  split at h
  · cases h
  rename_i t' hextract
  cases h
  have hkept : ∀ y, extractedDir ≠ y → readFile t' (a.versionDir id version ++ [y]) =
      readFile t (a.versionDir id version ++ [y]) := by
    intro y hy
    have hsame := extractTarGz_sibling (a.versionDir id version) hy (a.unpackTarGz gz)
      course t
    change (extractTarGz (a.extractRoot id version) _ _ _).2 _ = _ at hsame
    rw [hextract] at hsame
    dsimp only at hsame
    rw [readFile, readFile, hsame]
  refine ⟨rfl, .inr ⟨sha, gz, ?_, ?_, not_not.mp hdigest, extracted_of_ok hextract⟩⟩
  · rw [Appstore.manifestPath, hkept _ hmanifest]
    exact hsha
  · rw [Appstore.bundlePath, hkept _ hbundle]
    exact hgz

end Calls

/-! ## Runs of calls -/

/-- A call, with how its writes go. -/
def callStep (a : Appstore) (id version : Str) (t : FileTree) (course : Course) :
    Option FileTree := some (resolveExtractedWorkerDir a id version course t).2

/-- A call that returns no directory leaves none either. -/
def leavesNone (a : Appstore) (id version : Str) (t : FileTree) (course : Course) : Bool :=
  match resolveExtractedWorkerDir a id version course t with
  | (.ok _, _) => true
  | (.error _, t') => !fileExists t' (a.workerDir id version)

/-- The worker's directory is missing, or the tree is that of the bundle. -/
def Whole (a : Appstore) (id version : Str) (t : FileTree) : Prop :=
  fileExists t (a.workerDir id version) = false ∨ Intact a id version t

lemma whole_call {a : Appstore} {id version : Str} {t : FileTree} {course : Course}
    (h : Whole a id version t) (hguard : leavesNone a id version t course = true) :
    Whole a id version (resolveExtractedWorkerDir a id version course t).2 := by
  cases hanswer : (resolveExtractedWorkerDir a id version course t).1 with
  | error e =>
    rw [leavesNone] at hguard
    split at hguard
    · rename_i hcall
      rw [hcall] at hanswer
      cases hanswer
    rename_i hcall
    rw [Bool.not_eq_true'] at hguard
    rw [hcall]
    exact .inl hguard
  | ok d =>
    obtain ⟨-, ⟨-, hsame⟩ | hintact⟩ := resolve_ok hanswer
    · rw [hsame]
      exact h
    · exact .inr hintact

lemma whole_of_reached {a : Appstore} {id version : Str} {t₀ t : FileTree}
    (h : Whole a id version t₀)
    (hreached : Reached (callStep a id version) (leavesNone a id version) t₀ t) :
    Whole a id version t := by
  induction hreached with
  | start => exact h
  | next _ hguard hcall ih =>
    cases hcall
    exact whole_call ih hguard

/-- A store whose bundles list their files: the first `n` of two files of a worker, then a path
that leads out. -/
def smallStore : Appstore where
  dataDir := [str "data"]
  coreVersion := str "3.3.4"
  sha256Hex := id
  unpackTarGz gz :=
    [(str "demo/worker/main.py", str "main"), (str "demo/worker/lib.py", str "lib"),
      (str "../../evil", str "evil")].take gz.length
  manifestSha := some

/-- A version with a bundle. -/
def stored (gz : Str) : FileTree := fun p =>
  if p = smallStore.manifestPath (str "demo") (str "1.0.0") ∨
      p = smallStore.bundlePath (str "demo") (str "1.0.0") then some (.file gz)
  else none

/-- The library of the worker. -/
def libPath : Path :=
  target (smallStore.extractRoot (str "demo") (str "1.0.0")) (str "demo/worker/lib.py")

end StreamHub.Plugins
