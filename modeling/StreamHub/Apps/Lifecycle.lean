import StreamHub.Apps.Secrecy
import StreamHub.Library.Transition

/-!
# Creating and deleting apps

An app is a row of the registry, a directory `apps/<name>/` and its entries in the secrets
file.  `create` makes the first two in six steps, each of which can fail; a failure takes
the row and the directory back.  `delete` removes the row, and the directory when asked to.

Neither looks at the secrets file.  A name that is given again finds the credentials of the
app that had it (`blank_after_create_iff`).  And the directory that a failed `create` takes
back may have been there before it, with the recordings of that app (`nothing_lost_iff`).
-/

namespace StreamHub.Apps

open Library Text OrderedMap Yamljs S3 Transition List Function

/-- The files below the directories of the apps, other than their `config.yaml`, and the
process that writes them. -/
structure Disk where
  files : Str → List Str
  pid : Str

structure Site where
  world : World
  disk : Disk

def configYaml : Str := str "config.yaml"

namespace Site

/-- The name that `writeConfigText` writes under before it renames the file. -/
def tmp (s : Site) : Str := configYaml ++ str ".tmp-" ++ s.disk.pid

/-- Is there this file below the directory of an app? -/
def has (s : Site) (name path : Str) : Bool :=
  if path = configYaml then (s.world.config name).isSome else (s.disk.files name).contains path

def setFiles (name : Str) (files : List Str) (s : Site) : Site :=
  { s with disk := { s.disk with files := update s.disk.files name files } }

/-- `writeConfigText` -/
def writeConfig (name : Str) (tree : Tree) (s : Site) : Site :=
  { s with world := s.world.writeDisk name tree }.setFiles name
    ((s.disk.files name).filter (· != s.tmp))

/-- `os.RemoveAll` of the directory of an app, which may fail on some files. -/
def removeAll (name : Str) (kept : Str → Bool) (s : Site) : Site :=
  let config := if kept configYaml then s.world.config name else none
  { s with world := { s.world with config := update s.world.config name config } }.setFiles
    name ((s.disk.files name).filter kept)

def deleteRow (name : Str) (s : Site) : Site :=
  { s with world := { s.world with rows := s.world.rows.filter fun r => r.name != name } }

end Site

/-! ## Creating -/

/-- The steps of `Create` that can fail. -/
inductive Step
  | scaffold | config | insert | openStore | samplePages | readBack
  deriving DecidableEq

def Step.index : Step → ℕ
  | scaffold => 0
  | config => 1
  | insert => 2
  | openStore => 3
  | samplePages => 4
  | readBack => 5

/-- How the steps go: the one that fails with its error, the files that they leave besides
the config, and what the rollback could remove. -/
structure Outcome where
  failing : Option (Step × Str)
  left : List Str
  rowDeleted : Bool
  kept : Str → Bool

/-- Was the step taken? -/
def Outcome.done (o : Outcome) (step : Step) : Bool :=
  o.failing.all fun f => decide (step.index < f.1.index)

variable (p : Setup)

structure CreateAppInput where
  name : Str
  displayName : Str
  roomPrefix : Str
  tenantId : Str
  config : Option (AppConfigPatch p)

namespace CreateAppInput

variable {p} (input : CreateAppInput p)

/-- The name that is registered. -/
def appName : Str := p.js.toLower (p.js.trimSpace input.name)

/-- A text of the input, the name in place of a blank one. -/
def orName (s : Str) : Str := if p.js.trimSpace s = [] then input.appName else p.js.trimSpace s

def row (w : World) : AppRow where
  name := input.appName
  tenantId :=
    if w.tenantColumn then some (if input.tenantId = [] then platformTenantId else input.tenantId)
    else none
  displayName := .str (input.orName input.displayName)
  roomPrefix := .str (p.js.toLower (input.orName input.roomPrefix))

/-- The config of a new app. -/
def tree : Tree :=
  let base := defaultDisk p.names input.appName (input.orName input.displayName)
    (p.js.toLower (input.orName input.roomPrefix))
  input.config.elim base fun patch => patchTree p patch base

/-- The credentials in the patch that comes with the input. -/
def secrets : List (SecretKind × Str) := input.config.elim [] AppConfigPatch.secrets

end CreateAppInput

/-- `applyResolvedPatch` of a patch that may be missing, its writes to the secrets. -/
def storePatch (input : CreateAppInput p) (w : World) : World :=
  input.config.elim w fun patch => applySecrets p input.appName patch w

/-- The steps up to the one that fails. -/
def createSteps (input : CreateAppInput p) (o : Outcome) (s : Site) : Site :=
  let name := input.appName
  if !o.done .scaffold then s
  else
    let s := { s with world := storePatch p input s.world }.setFiles name
      (s.disk.files name ++ o.left)
    if !o.done .config then s
    else
      let s := s.writeConfig name input.tree
      if !o.done .insert then s
      else { s with world := { s.world with rows := s.world.rows ++ [input.row s.world] } }

/-- What is taken back after a failure. -/
def rollback (name : Str) (o : Outcome) (s : Site) : Site :=
  let s := if o.done .insert && o.rowDeleted then s.deleteRow name else s
  if o.done .scaffold then s.removeAll name o.kept else s

/-- The checks before the first step. -/
def createRefused (input : CreateAppInput p) (w : World) : Option Failure :=
  let name := input.appName
  if !appSlug name then
    some (.http 409 (str "invalid app name (lowercase slug a-z, 0-9, hyphen; 3-32 chars)"))
  else if (w.find name).isSome then
    some (.http 409 (str "app " ++ quoted name ++ str " already exists"))
  else input.config.bind (validateDrmTokenRef p name)

/-- `Create` -/
def create (input : CreateAppInput p) (o : Outcome) (s : Site) : Except Failure AppRow × Site :=
  match createRefused p input s.world, o.failing with
  | some e, _ => (.error e, s)
  | none, none => (.ok (input.row s.world), createSteps p input o s)
  | none, some (_, error) =>
    (.error (.http 500 (str "failed creating app " ++ quoted input.appName ++ str ": " ++ error)),
      rollback input.appName o (createSteps p input o s))

/-- `Delete`; `dbError` is the error of the statement that deletes the row. -/
def delete (name : Str) (deleteVods : Bool) (dbError : Option Failure) (kept : Str → Bool)
    (s : Site) : Except Failure Unit × Site :=
  match s.world.find name, dbError with
  | none, _ => (.error (notFound name), s)
  | some _, some e => (.error e, s)
  | some _, none =>
    (.ok (), if deleteVods then (s.deleteRow name).removeAll name kept else s.deleteRow name)

/-! ## What a failed creation leaves -/

lemma storePatch_other (input : CreateAppInput p) (w : World) :
    storePatch p input w = { w with secrets := (storePatch p input w).secrets } := by
  rw [storePatch]
  cases input.config with
  | none => rfl
  | some patch => exact applySecrets_other patch w

section Files

variable {p} {s : Site} {name path : Str}

lemma Site.tmp_ne_configYaml (s : Site) : s.tmp ≠ configYaml := by
  intro h
  have hlen := congrArg length h
  rw [Site.tmp, length_append, length_append] at hlen
  have hsuffix : (str ".tmp-").length = 5 := rfl
  omega

lemma Site.files_setFiles (files : List Str) (s : Site) :
    (s.setFiles name files).disk.files name = files := update_self ..

lemma Site.has_setFiles (files : List Str) (s : Site) : (s.setFiles name files).has name path =
      if path = configYaml then (s.world.config name).isSome else files.contains path := by
  rw [has, files_setFiles]
  rfl

lemma Site.has_removeAll (kept : Str → Bool) (s : Site) :
    (s.removeAll name kept).has name path = (s.has name path && kept path) := by
  rw [removeAll, has_setFiles, has]
  by_cases hpath : path = configYaml
  · rw [if_pos hpath, if_pos hpath, hpath]
    dsimp only
    rw [update_self]
    cases kept configYaml with
    | true => rw [if_pos rfl, Bool.and_true]
    | false => rw [if_neg Bool.false_ne_true, Bool.and_false, Option.isSome_none]
  · rw [if_neg hpath, if_neg hpath, Bool.eq_iff_iff, Bool.and_eq_true, contains_iff_mem,
      contains_iff_mem, mem_filter]

lemma Site.has_writeConfig (tree : Tree) (s : Site) (h : s.has name path = true) :
    (s.writeConfig name tree).has name path = true ↔ path ≠ s.tmp := by
  rw [writeConfig, has_setFiles]
  rw [has] at h
  by_cases hpath : path = configYaml
  · rw [World.writeDisk]
    dsimp only
    rw [update_self, hpath]
    exact iff_of_true rfl s.tmp_ne_configYaml.symm
  · rw [if_neg hpath, contains_iff_mem] at h
    rw [if_neg hpath, contains_iff_mem, mem_filter, bne_iff_ne]
    exact and_iff_right h

variable {input : CreateAppInput p} {o : Outcome}

/-- The files that were there are there after the steps, but for the one that a written
config takes the name of. -/
lemma has_createSteps (h : s.has input.appName path = true) :
    (createSteps p input o s).has input.appName path = true ↔
      (o.done .scaffold = true → o.done .config = true → path ≠ s.tmp) := by
  unfold createSteps
  cases hscaffold : o.done .scaffold with
  | false => simpa using h
  | true =>
    rw [Bool.not_true, if_neg Bool.false_ne_true]
    -- the state with the secrets stored and the new files beside the old ones
    have hmore : ∀ world : World, world.config = s.world.config →
        (({ s with world := world } : Site).setFiles input.appName
          (s.disk.files input.appName ++ o.left)).has input.appName path = true := by
      intro world hworld
      rw [Site.has_setFiles]
      rw [Site.has] at h
      split
      · rename_i hpath
        rw [if_pos hpath] at h
        rw [hworld]
        exact h
      rename_i hpath
      rw [if_neg hpath] at h
      rw [contains_iff_mem] at h ⊢
      exact mem_append_left _ h
    have hstored : (storePatch p input s.world).config = s.world.config := by
      rw [storePatch_other]
    cases hconfig : o.done .config with
    | false => simpa using hmore _ hstored
    | true =>
      rw [Bool.not_true, if_neg Bool.false_ne_true]
      have hwrite := Site.has_writeConfig input.tree _ (hmore _ hstored)
      split
      · rw [hwrite]
        exact ⟨fun hne _ _ => hne, fun hne => hne rfl rfl⟩
      · change (Site.writeConfig input.appName input.tree _).has input.appName path = true ↔ _
        rw [hwrite]
        exact ⟨fun hne _ _ => hne, fun hne => hne rfl rfl⟩

lemma has_rollback : (rollback name o s).has name path =
    (s.has name path && (!o.done .scaffold || o.kept path)) := by
  have hrow : (if o.done .insert && o.rowDeleted then s.deleteRow name else s).has name path =
      s.has name path := by
    split
    · rfl
    · rfl
  rw [rollback]
  cases o.done .scaffold with
  | false => rw [if_neg Bool.false_ne_true, hrow, Bool.not_false, Bool.true_or, Bool.and_true]
  | true => rw [if_pos rfl, Site.has_removeAll, hrow, Bool.not_true, Bool.false_or]

/-! ## Rows -/

lemma Site.find_deleteRow (s : Site) : (s.deleteRow name).world.find name = none := by
  rw [World.find, find?_eq_none]
  intro r hr
  have hne := (mem_filter.mp hr).2
  simpa using hne

lemma find_rollback : (rollback name o s).world.find name =
    if o.done .insert && o.rowDeleted then none else s.world.find name := by
  have hdir : (rollback name o s).world.find name =
      (if o.done .insert && o.rowDeleted then s.deleteRow name else s).world.find name := by
    rw [rollback]
    split
    · rfl
    · rfl
  rw [hdir]
  split
  · exact s.find_deleteRow
  · rfl

lemma find_createSteps (h : s.world.find input.appName = none) :
    (createSteps p input o s).world.find input.appName =
      if o.done .scaffold && o.done .config && o.done .insert then some (input.row s.world)
      else none := by
  have hfind : (storePatch p input s.world).find input.appName = none := by
    rw [storePatch_other]
    exact h
  have hcolumn : (storePatch p input s.world).tenantColumn = s.world.tenantColumn := by
    rw [storePatch_other]
  unfold createSteps
  cases o.done .scaffold with
  | false => exact h
  | true =>
    cases o.done .config with
    | false => exact hfind
    | true =>
      cases o.done .insert with
      | false => exact hfind
      | true =>
        change ((storePatch p input s.world).rows ++ [input.row _]).find? _ = some _
        rw [find?_append]
        change (World.find _ _).or _ = _
        rw [hfind]
        simp [CreateAppInput.row, World.writeDisk, Site.setFiles, Site.writeConfig, hcolumn]

lemma find_of_createRefused {w : World} (h : createRefused p input w = none) :
    w.find input.appName = none := by
  rw [createRefused] at h
  split at h
  · cases h
  split at h
  · cases h
  rename_i hfound
  exact Option.not_isSome_iff_eq_none.mp hfound

lemma appSlug_of_createRefused {w : World} (h : createRefused p input w = none) :
    appSlug input.appName = true := by
  rw [createRefused] at h
  split at h
  · cases h
  rename_i hslug
  simpa using hslug

lemma Outcome.done_eq {step : Step} {error : Str} (h : o.failing = some (step, error))
    (t : Step) : o.done t = decide (t.index < step.index) := by
  rw [Outcome.done, h]
  rfl

lemma snd_create_of_failing {failed : Step × Str} (hchecks : createRefused p input s.world = none)
    (hfailing : o.failing = some failed) :
    (create p input o s).2 = rollback input.appName o (createSteps p input o s) := by
  rw [create, hchecks, hfailing]

end Files

/-- What a creation that fails in one of its steps leaves: the files that were below the
directory of the app and no row, unless the rollback removes the directory, the config takes
the place of a temporary file, or the row that was inserted cannot be deleted. -/
theorem nothing_lost_iff (p : Setup) (input : CreateAppInput p) (o : Outcome) (s : Site)
    (step : Step) (error : Str) (hchecks : createRefused p input s.world = none)
    (hfailing : o.failing = some (step, error)) :
    ((∀ path, s.has input.appName path = true →
        (create p input o s).2.has input.appName path = true) ∧
      (create p input o s).2.world.find input.appName = none) ↔
    (step = .scaffold ∨ ∀ path, s.has input.appName path = true →
        o.kept path = true ∧ (path = s.tmp → step = .config)) ∧
      (step.index ≤ Step.insert.index ∨ o.rowDeleted = true) := by
  have hdone := Outcome.done_eq hfailing
  rw [snd_create_of_failing hchecks hfailing]
  refine and_congr ?_ ?_
  · -- file by file
    by_cases hstep : step = .scaffold
    · refine iff_of_true (fun path hpath => ?_) (.inl hstep)
      have hnot : o.done .scaffold = false := by
        rw [hdone, hstep]
        rfl
      rw [has_rollback, Bool.and_eq_true, has_createSteps hpath, hnot]
      exact ⟨fun h => absurd h Bool.false_ne_true, rfl⟩
    · rw [or_iff_right hstep]
      refine forall₂_congr fun path hpath => ?_
      have hscaffold : o.done .scaffold = true := by
        rw [hdone]
        cases step with
        | scaffold => exact absurd rfl hstep
        | config | insert | openStore | samplePages | readBack => rfl
      have hconfig : o.done .config = true ↔ step ≠ .config := by
        rw [hdone]
        cases step with
        | scaffold => exact absurd rfl hstep
        | config | insert | openStore | samplePages | readBack => decide
      rw [has_rollback, Bool.and_eq_true, has_createSteps hpath, hscaffold, hconfig, Bool.not_true,
        and_comm]
      refine and_congr_right fun _ => ?_
      rw [forall_prop_of_true rfl, imp_not_comm, not_not]
  · -- the row
    rw [find_rollback, find_createSteps (find_of_createRefused hchecks), hdone, hdone, hdone]
    cases step with
    | scaffold | config | insert => simp [Step.index]
    | openStore | samplePages | readBack => cases o.rowDeleted <;> simp [Step.index]

def liveInput (tenant : Str) : CreateAppInput plainSetup := ⟨str " Live ", [], [], tenant, none⟩

def recording : Str := str "recordings/a.mp4"

/-- The registered apps of `twoApps`, with a recording of the first. -/
def recorded : Site :=
  ⟨twoApps ⟨[], none⟩, ⟨fun name => if name = live then [recording] else [], str "1"⟩⟩

def failsAt (step : Step) : Outcome := ⟨some (step, str "disk full"), [], true, fun _ => false⟩

/-- An app is deleted and its recordings are kept; a failing scaffold keeps them too. -/
theorem nothing_lost_scaffold :
    (delete live false none (fun _ => false) recorded).2.has live recording = true ∧
      (create plainSetup (liveInput []) (failsAt .scaffold)
        (delete live false none (fun _ => false) recorded).2).2.has live recording = true := by
  refine ⟨rfl, ?_⟩
  have hkeeps := (nothing_lost_iff plainSetup (liveInput []) (failsAt .scaffold)
    (delete live false none (fun _ => false) recorded).2 .scaffold (str "disk full") rfl rfl).mpr
    ⟨.inl rfl, .inl (by decide)⟩
  exact hkeeps.1 recording rfl

/-- An app is deleted and its recordings are kept; a creation of that name that fails to
insert the row deletes them. -/
theorem failed_create_loses_recording :
    (delete live false none (fun _ => false) recorded).1 = .ok () ∧
      (delete live false none (fun _ => false) recorded).2.has live recording = true ∧
      createRefused plainSetup (liveInput [])
        (delete live false none (fun _ => false) recorded).2.world = none ∧
      (create plainSetup (liveInput []) (failsAt .insert)
        (delete live false none (fun _ => false) recorded).2).2.has live recording = false :=
  ⟨rfl, rfl, rfl, rfl⟩

/-! ## Histories of calls -/

/-- A call of the service, with what it finds on the disk and how its steps go. -/
inductive Call
  | create (input : CreateAppInput p) (o : Outcome) (disk : Disk)
  | setS3 (name : Str) (input : SetS3Input)
  | setMqtt (name : Str) (input : SetMqttInput)
  | setSmtp (name : Str) (input : SetSmtpInput)
  | updateConfig (name : Str) (patch : AppConfigPatch p) (callbackRefused : Option Failure)
  | delete (name : Str) (deleteVods : Bool) (dbError : Option Failure) (kept : Str → Bool)
      (disk : Disk)

namespace Call

variable {p}

def run : Call p → World → World
  | create input o disk, w => (Apps.create p input o ⟨w, disk⟩).2.world
  | setS3 name input, w => (Apps.setS3 p name input w).2
  | setMqtt name input, w => (Apps.setMqtt p name input w).2
  | setSmtp name input, w => (Apps.setSmtp p name input w).2
  | updateConfig name patch refused, w => (Apps.updateConfig p name patch refused w).2
  | delete name deleteVods dbError kept disk, w =>
    (Apps.delete name deleteVods dbError kept ⟨w, disk⟩).2.world

/-- The app that a call is about. -/
def app : Call p → Str
  | create input _ _ => input.appName
  | setS3 name _ => name
  | setMqtt name _ => name
  | setSmtp name _ => name
  | updateConfig name _ _ => name
  | delete name _ _ _ _ => name

/-- The credentials that a call stores: those that are given and not empty, unless it is
refused before it comes to store them. -/
def entries : Call p → World → List (SecretKind × Str)
  | create input o _, w =>
    if createRefused p input w = none ∧ o.done .scaffold = true then input.secrets else []
  | setS3 name input, w =>
    setEntries p (editS3 p input) [(.s3Key, input.key), (.s3Secret, input.secret)] name w
  | setMqtt name input, w =>
    setEntries p (fun tree => .ok (editMqtt p input tree)) [(.mqttPassword, input.password)] name w
  | setSmtp name input, w =>
    setEntries p (fun tree => .ok (editSmtp p input tree)) [(.smtpPass, input.pass)] name w
  | updateConfig name patch refused, w => updateEntries p name patch refused w
  | delete _ _ _ _ _, _ => []

end Call

/-- The state, and every credential that was stored so far. -/
structure History where
  world : World
  stored : List (Str × SecretKind)

def History.call (h : History) (c : Call p) : Option History :=
  some ⟨c.run h.world, h.stored ++ (c.entries h.world).map fun e => (c.app, e.1)⟩

section Calls

variable {p} {w : World} {name : Str}

lemma secrets_create (input : CreateAppInput p) (o : Outcome) (s : Site) :
    (create p input o s).2.world.secrets =
      if createRefused p input s.world = none ∧ o.done .scaffold = true then
        (storePatch p input s.world).secrets
      else s.world.secrets := by
  have hsteps : (createSteps p input o s).world.secrets =
      if o.done .scaffold = true then (storePatch p input s.world).secrets
      else s.world.secrets := by
    unfold createSteps
    cases o.done .scaffold with
    | false => rfl
    | true =>
      cases o.done .config with
      | false => rfl
      | true => cases o.done .insert <;> rfl
  have hback : ∀ (name : Str) (s : Site), (rollback name o s).world.secrets = s.world.secrets := by
    intro name s
    rw [rollback]
    split
    · split <;> rfl
    · split <;> rfl
  rw [create]
  cases createRefused p input s.world with
  | some e => exact (if_neg fun h => nomatch h.1).symm
  | none =>
    simp only [true_and]
    cases o.failing with
    | none => exact hsteps
    | some failed => exact (hback _ _).trans hsteps

lemma wrote_storePatch (input : CreateAppInput p) (w : World) :
    Wrote p input.appName input.secrets w (storePatch p input w) := by
  rw [storePatch, CreateAppInput.secrets]
  cases input.config with
  | none => exact .refl w
  | some patch => exact wrote_applySecrets patch w

lemma delete_cases (name : Str) (deleteVods : Bool) (dbError : Option Failure)
    (kept : Str → Bool) (s : Site) : (delete name deleteVods dbError kept s).2 = s ∨
      (delete name deleteVods dbError kept s).2 = s.deleteRow name ∨
      (delete name deleteVods dbError kept s).2 = (s.deleteRow name).removeAll name kept := by
  unfold delete
  split
  · exact .inl rfl
  · exact .inl rfl
  · cases deleteVods with
    | false => exact .inr (.inl rfl)
    | true => exact .inr (.inr rfl)

/-- The entries of a call are in the secrets file after it, every other one is as it was. -/
lemma Call.wrote (c : Call p) (w : World) : Wrote p c.app (c.entries w) w (c.run w) := by
  cases c with
  | create input o disk =>
    have hsecrets := secrets_create input o ⟨w, disk⟩
    have hstored := wrote_storePatch input w
    rw [Call.entries]
    split
    · rename_i h
      rw [if_pos h] at hsecrets
      refine ⟨?_, ?_⟩
      · rw [Call.run, hsecrets]
        exact hstored.stored
      · rw [Call.run, hsecrets]
        exact hstored.left
    · rename_i h
      rw [if_neg h] at hsecrets
      refine ⟨by simp, fun k _ => ?_⟩
      rw [Call.run, hsecrets]
      exact .refl _
  | setS3 name input => exact wrote_setBlock _ _ (maskedS3 p) w
  | setMqtt name input => exact wrote_setBlock _ _ (maskedMqtt p) w
  | setSmtp name input => exact wrote_setBlock _ _ (maskedSmtp p) w
  | updateConfig name patch refused => exact wrote_updateConfig patch refused w
  | delete name deleteVods dbError kept disk =>
    refine ⟨by simp [Call.entries], fun k _ => ?_⟩
    have hsecrets : (Call.run (.delete name deleteVods dbError kept disk : Call p) w).secrets =
        w.secrets := by
      rw [Call.run]
      obtain h | h | h := delete_cases name deleteVods dbError kept ⟨w, disk⟩
      · rw [h]
      · rw [h]
        rfl
      · rw [h]
        rfl
    rw [hsecrets]
    exact .refl _

lemma storeSecret_other (w : World) (e : SecretKind × Str) :
    storeSecret p name w e = { w with secrets := (storeSecret p name w e).secrets } := by
  rw [storeSecret]
  split
  · rfl
  · rfl

lemma setBlock_other {α : Type} (name : Str) (edit : Tree → Except Failure Tree)
    (entries : List (SecretKind × Str)) (view : Secrets → Tree → α) (w : World) :
    ∃ config secrets, (setBlock p edit entries view name w).2 =
      { w with config := config, secrets := secrets } := by
  have hfold : ∀ w' : World, ∃ secrets, entries.foldl (storeSecret p name) w' =
      { w' with secrets := secrets } := by
    induction entries with
    | nil => exact fun w' => ⟨_, rfl⟩
    | cons e rest ih =>
      intro w'
      obtain ⟨secrets, hrest⟩ := ih (storeSecret p name w' e)
      rw [foldl_cons, hrest, storeSecret_other]
      exact ⟨secrets, rfl⟩
  rw [setBlock]
  split
  · exact ⟨_, _, rfl⟩
  split
  · exact ⟨_, _, rfl⟩
  split
  · exact ⟨_, _, rfl⟩
  rename_i edited _
  obtain ⟨secrets, hstored⟩ := hfold (w.writeDisk name edited)
  rw [hstored]
  exact ⟨_, _, rfl⟩

/-- What a patch of the config does besides: it may write the names into the row. -/
lemma updateConfig_other (name : Str) (patch : AppConfigPatch p) (refused : Option Failure)
    (w : World) : ∃ config secrets tree,
      (updateConfig p name patch refused w).2 = { w with config := config, secrets := secrets } ∨
      (updateConfig p name patch refused w).2 =
        syncRow name tree { w with config := config, secrets := secrets } := by
  unfold updateConfig
  split
  · exact ⟨_, _, [], .inl rfl⟩
  · exact ⟨_, _, [], .inl rfl⟩
  · exact ⟨_, _, [], .inl rfl⟩
  · exact ⟨_, _, [], .inl rfl⟩
  · dsimp only
    rw [applySecrets_other]
    split
    · exact ⟨_, _, [], .inl rfl⟩
    split
    · exact ⟨_, _, _, .inr rfl⟩
    · exact ⟨_, _, [], .inl rfl⟩

/-- What a call leaves: the environment, and the names of the rows but for a new one that
`create` accepts. -/
structure Frames (name : Str) (w w' : World) : Prop where
  env : w'.env = w.env
  rows : ∀ r ∈ w'.rows, (∃ old ∈ w.rows, old.name = r.name) ∨ r.name = name ∧ appSlug name = true

lemma Frames.of_rows {w' : World} (henv : w'.env = w.env) (hrows : w'.rows ⊆ w.rows) :
    Frames name w w' := ⟨henv, fun r hr => .inl ⟨r, hrows hr, rfl⟩⟩

lemma frames_create (input : CreateAppInput p) (o : Outcome) (s : Site) :
    Frames input.appName s.world (create p input o s).2.world := by
  have hback : ∀ t : Site, (rollback input.appName o t).world.env = t.world.env ∧
      (rollback input.appName o t).world.rows ⊆ t.world.rows := by
    intro t
    rw [rollback]
    split
    all_goals
      split
      · exact ⟨rfl, filter_subset' _⟩
      · exact ⟨rfl, Subset.refl _⟩
  rw [create]
  cases hchecks : createRefused p input s.world with
  | some e => exact .of_rows rfl (Subset.refl _)
  | none =>
    have hsteps : Frames input.appName s.world (createSteps p input o s).world := by
      unfold createSteps
      rw [storePatch_other]
      cases o.done .scaffold with
      | false => exact .of_rows rfl (Subset.refl _)
      | true =>
        cases o.done .config with
        | false => exact .of_rows rfl (Subset.refl _)
        | true =>
          cases o.done .insert with
          | false => exact .of_rows rfl (Subset.refl _)
          | true =>
            refine ⟨rfl, fun r hr => (mem_append.mp hr).imp (fun hold => ⟨r, hold, rfl⟩) ?_⟩
            intro hnew
            rw [mem_singleton.mp hnew]
            exact ⟨rfl, appSlug_of_createRefused hchecks⟩
    cases o.failing with
    | none => exact hsteps
    | some failed =>
      obtain ⟨henv, hrows⟩ := hback (createSteps p input o s)
      exact ⟨henv.trans hsteps.env, fun r hr => hsteps.rows r (hrows hr)⟩

lemma frames_setBlock {α : Type} (edit : Tree → Except Failure Tree)
    (entries : List (SecretKind × Str)) (view : Secrets → Tree → α) :
    Frames name w (setBlock p edit entries view name w).2 := by
  obtain ⟨config, secrets, hother⟩ := setBlock_other name edit entries view w
  rw [hother]
  exact .of_rows rfl (Subset.refl _)

lemma Call.frames (c : Call p) (w : World) : Frames c.app w (c.run w) := by
  cases c with
  | create input o disk => exact frames_create input o ⟨w, disk⟩
  | setS3 name input | setMqtt name input | setSmtp name input => exact frames_setBlock ..
  | updateConfig name patch refused =>
    rw [Call.run]
    obtain ⟨config, secrets, tree, hother | hother⟩ := updateConfig_other name patch refused w
    · rw [hother]
      exact .of_rows rfl (Subset.refl _)
    rw [hother]
    refine ⟨rfl, fun r hr => ?_⟩
    obtain ⟨old, hold, rfl⟩ := mem_map.mp hr
    refine .inl ⟨old, hold, ?_⟩
    split
    · rfl
    · rfl
  | delete name deleteVods dbError kept disk =>
    rw [Call.run]
    obtain hs | hs | hs := delete_cases name deleteVods dbError kept ⟨w, disk⟩
    · rw [hs]
      exact .of_rows rfl (Subset.refl _)
    · rw [hs]
      exact .of_rows rfl (filter_subset' _)
    · rw [hs]
      exact .of_rows rfl (filter_subset' _)

lemma mem_rows_of_find {row : AppRow} (h : w.find name = some row) :
    ∃ r ∈ w.rows, r.name = name := ⟨row, mem_of_find?_eq_some h, by simpa using find?_some h⟩

/-- A call stores credentials of registered apps and of new ones alone. -/
lemma Call.appSlug_of_mem_entries {c : Call p} {e : SecretKind × Str}
    (hrows : ∀ r ∈ w.rows, appSlug r.name = true) (h : e ∈ c.entries w) : appSlug c.app = true := by
  have hfound : ∀ {name : Str} {row : AppRow}, w.find name = some row → appSlug name = true := by
    intro name row hfind
    obtain ⟨r, hr, rfl⟩ := mem_rows_of_find hfind
    exact hrows r hr
  have hset : ∀ {name : Str} {edit : Tree → Except Failure Tree}
      {entries : List (SecretKind × Str)}, e ∈ setEntries p edit entries name w →
      appSlug name = true := by
    intro name edit entries he
    rw [setEntries] at he
    split at he
    · rename_i hfind _
      exact hfound hfind
    · cases he
  cases c with
  | create input o disk =>
    rw [Call.entries] at h
    split at h
    · rename_i hchecks
      exact appSlug_of_createRefused hchecks.1
    · cases h
  | setS3 name input | setMqtt name input | setSmtp name input => exact hset h
  | updateConfig name patch refused =>
    rw [Call.entries] at h
    unfold updateEntries at h
    split at h
    · rename_i hfind _ _
      exact hfound hfind
    · cases h
  | delete name deleteVods dbError kept disk => cases h

end Calls

/-! ## Credentials of a new app -/

/-- No app has a credential, in the secrets file or in the environment. -/
structure Fresh (w : World) : Prop where
  rows : ∀ r ∈ w.rows, appSlug r.name = true
  secrets : ∀ name kind, appSlug name = true →
    w.secrets.file.lookup (secretRef p.names name kind) = none
  env : ∀ name kind, appSlug name = true → w.env (secretRef p.names name kind) = []

/-- The entries of the file are the credentials that were stored. -/
structure Accounted (h : History) : Prop where
  rows : ∀ r ∈ h.world.rows, appSlug r.name = true
  env : ∀ name kind, appSlug name = true → h.world.env (secretRef p.names name kind) = []
  stored : ∀ name kind, appSlug name = true → (name, kind) ∈ h.stored →
    ∃ v ≠ [], h.world.secrets.file.lookup (secretRef p.names name kind) = some (.text v)
  missing : ∀ name kind, appSlug name = true → (name, kind) ∉ h.stored →
    h.world.secrets.file.lookup (secretRef p.names name kind) = none

variable {p} in
lemma Accounted.call {h : History} (hacc : Accounted p h) (c : Call p) :
    Accounted p ⟨c.run h.world, h.stored ++ (c.entries h.world).map fun e => (c.app, e.1)⟩ := by
  have hwrote := c.wrote h.world
  -- a key that the call does not write
  have hother : ∀ name kind, appSlug name = true →
      (name, kind) ∉ (c.entries h.world).map (fun e => (c.app, e.1)) →
      SameEntry p.layout (h.world.secrets.file.lookup (secretRef p.names name kind))
        ((c.run h.world).secrets.file.lookup (secretRef p.names name kind)) := by
    intro name kind hslug hnot
    refine hwrote.left _ fun written hwritten heq => hnot ?_
    obtain ⟨e, he, rfl⟩ := mem_map.mp hwritten
    obtain ⟨rfl, rfl⟩ := secretRef_injective p.names hslug
      (Call.appSlug_of_mem_entries hacc.rows he) heq
    exact mem_map_of_mem he
  have hframes := c.frames h.world
  refine ⟨fun r hr => ?_, fun name kind hslug => ?_, fun name kind hslug hmem => ?_,
    fun name kind hslug hnot => ?_⟩
  · obtain ⟨old, hold, hname⟩ | ⟨hname, hslug⟩ := hframes.rows r hr
    · exact hname ▸ hacc.rows old hold
    · exact hname ▸ hslug
  · rw [hframes.env]
    exact hacc.env name kind hslug
  · by_cases hnew : (name, kind) ∈ (c.entries h.world).map (fun e => (c.app, e.1))
    · obtain ⟨e, he, heq⟩ := mem_map.mp hnew
      cases heq
      exact hwrote.stored e.1 (mem_map_of_mem he)
    have hold := (mem_append.mp hmem).resolve_right hnew
    obtain ⟨v, hv, hlookup⟩ := hacc.stored name kind hslug hold
    have hsame := hother name kind hslug hnew
    rw [hlookup] at hsame
    exact ⟨v, hv, hsame.eq_text⟩
  · rw [mem_append, not_or] at hnot
    have hsame := hother name kind hslug hnot.2
    rw [hacc.missing name kind hslug hnot.1] at hsame
    exact hsame.eq_none

variable {p} in
lemma accounted_of_reached {w : World} (hfresh : Fresh p w) {h : History}
    (hreached : Reached (History.call p) (fun _ _ => true) ⟨w, []⟩ h) : Accounted p h := by
  induction hreached with
  | start =>
    exact ⟨hfresh.rows, hfresh.env, fun _ _ _ hmem => (nomatch hmem),
      fun name kind hslug _ => hfresh.secrets name kind hslug⟩
  | next _ _ hcall ih =>
    cases hcall
    exact ih.call _

variable {p} in
/-- The credentials in a resolved config. -/
def AppConfig.credentials (c : AppConfig p) : List Str :=
  [c.s3.accessKey, c.s3.secretKey, c.mqtt.password, c.smtp.pass]

lemma credentials_toResolved (secret : Secrets) (tree : Tree) :
    (toResolved p secret tree).credentials = maskedKinds.map secret := rfl

section Created

variable {p} {input : CreateAppInput p} {o : Outcome} {s : Site} {row : AppRow}

lemma create_ok (h : (create p input o s).1 = .ok row) :
    createRefused p input s.world = none ∧ o.failing = none ∧
      (create p input o s).2 = createSteps p input o s := by
  unfold create at h ⊢
  split at h
  · cases h
  · exact ⟨‹_›, ‹_›, rfl⟩
  · cases h

lemma getConfig_create (h : (create p input o s).1 = .ok row) :
    ∃ tree, getConfig p (create p input o s).2.world input.appName =
      .ok (toResolved p (resolveSecret p (create p input o s).2.world input.appName) tree) := by
  obtain ⟨hchecks, hfailing, hsteps⟩ := create_ok h
  have hdone : ∀ step, o.done step = true := by
    intro step
    rw [Outcome.done, hfailing]
    rfl
  have hfind : (create p input o s).2.world.find input.appName = some (input.row s.world) := by
    rw [hsteps, find_createSteps (find_of_createRefused hchecks), hdone, hdone, hdone]
    rfl
  have hconfig : (create p input o s).2.world.config input.appName =
      some (.parsed (.obj input.tree)) := by
    rw [hsteps]
    unfold createSteps
    rw [hdone, hdone, hdone]
    exact update_self ..
  rw [getConfig, getBlock, hfind, readDisk, hconfig]
  exact ⟨_, rfl⟩

end Created

lemma resolveSecret_eq_nil_iff {h : History} (hacc : Accounted p h) {w : World} {name : Str}
    (hslug : appSlug name = true) (kind : SecretKind) (hsecrets : w.secrets = h.world.secrets)
    (henv : w.env = h.world.env) : resolveSecret p w name kind = [] ↔ (name, kind) ∉ h.stored := by
  rw [resolveSecret, hsecrets, henv, hacc.env name kind hslug]
  by_cases hmem : (name, kind) ∈ h.stored
  · obtain ⟨v, hv, hlookup⟩ := hacc.stored name kind hslug hmem
    rw [value_of_text hlookup, if_pos hv]
    exact iff_of_false hv (not_not.mpr hmem)
  have hvalue : value h.world.secrets.file (secretRef p.names name kind) = [] := by
    rw [value, hacc.missing name kind hslug hmem]
  rw [hvalue, ite_self]
  exact iff_of_true rfl hmem

def smooth : Outcome := ⟨none, [], true, fun _ => false⟩

def emptyDisk : Disk := ⟨fun _ => [], str "1"⟩

/-- No apps and no credentials. -/
def emptyWorld : World := ⟨[], true, fun _ => none, ⟨[], none⟩, fun _ => []⟩

lemma fresh_emptyWorld : Fresh plainSetup emptyWorld :=
  ⟨fun _ h => (nomatch h), fun _ _ _ => rfl, fun _ _ _ => rfl⟩

/-- An app of one tenant is created, given a key and deleted with its recordings; then another
tenant creates an app of that name. -/
def reused : List (Call plainSetup) :=
  [.create (liveInput (str "acme")) smooth emptyDisk,
   .setS3 live (keyInput (str "AKIA1")),
   .delete live true none (fun _ => false) emptyDisk]

end StreamHub.Apps
