import StreamHub.Library.Text

/-!
# Jobs that a shutdown interrupts

An upload or a transcode runs with the context of the server.  The calls that take it, to the
database, the store and the tools, are counted in their order: those before the cut succeed, all
later ones fail, and the job goes on to its end.  `Recover` then reads at the next boot which jobs
are queued again, from two columns of the row and from whether the local file is there.

An upload that did not make its row ready leaves the columns.  A transcode that got past its
configuration removes its source, whether or not it can tell the row (`interrupted_resumed_iff`).
-/

namespace StreamHub.Recording.Resuming

open Library Text

inductive VodStatus
  | recording
  | uploading
  | ready
  | failed
  deriving DecidableEq

/-- `status` and `local_path` of a row, and whether its file is there -/
structure Kept where
  status : VodStatus
  localPath : Option Str
  file : Bool
  deriving DecidableEq

/-- `DeleteLocalAfterUpload` and `Needed` of the app -/
structure Policy where
  deleteLocal : Bool
  needed : Bool

inductive Job
  | upload
  | transcode
  deriving DecidableEq

/-- What `Recover` queues for a row -/
def recover (p : Policy) (k : Kept) : Option Job :=
  if k.localPath.any (· ≠ []) && k.file then
    match k.status with
    | .uploading => some .upload
    | .ready => if p.deleteLocal && p.needed then some .transcode else none
    | _ => none
  else none

/-- `Update` of the row in the call with this number -/
def Kept.update (k : Kept) (cut call : ℕ) (f : Kept → Kept) : Kept := if call < cut then f k else k

def Kept.markFailed (k : Kept) (cut call : ℕ) : Kept :=
  k.update cut call fun k => { k with status := .failed }

/-- The numbers of the calls of an upload behind `FindByID` and `GetConfig`: `probes` are those
for the media and the snapshot, whose failures are ignored. -/
def storeCall (probes : ℕ) : ℕ := 2 + probes

/-- The presigned URL comes between; without it the plain one is taken. -/
def readyCall (probes : ℕ) : ℕ := storeCall probes + 2

/-- `processUpload` -/
def processUpload (p : Policy) (probes cut : ℕ) (k : Kept) : Kept :=
  if cut = 0 then k
  else if k.localPath.isNone || !k.file then k.markFailed cut 1
  else if cut = 1 then k.markFailed cut 2
  else if cut ≤ storeCall probes then k.markFailed cut (storeCall probes + 1)
  else
    let dropped := p.deleteLocal && !p.needed
    let k := if dropped then { k with file := false } else k
    if cut ≤ readyCall probes then k.markFailed cut (readyCall probes + 1)
    else { k with status := .ready, localPath := if dropped then none else k.localPath }

/-- `ProcessJob` of a job that deletes its source; `run` makes `calls` calls. -/
def processJob (calls cut : ℕ) (k : Kept) : Kept :=
  if cut = 0 then k
  else if !k.file then k
  else if cut = 1 then k
  else Kept.update { k with file := false } cut (2 + calls) fun k => { k with localPath := none }

section Interrupted

variable {p : Policy} {k : Kept} {path : Str} {cut n : ℕ}

lemma markFailed_of_le {call : ℕ} (h : cut ≤ call) : k.markFailed cut call = k :=
  if_neg (Nat.not_lt.mpr h)

/-- An upload whose row does not become ready leaves the row, and the file unless it has dropped
it already. -/
lemma processUpload_of_le (hpath : k.localPath = some path) (hfile : k.file = true)
    (hcut : cut ≤ readyCall n) :
    processUpload p n cut k =
      if storeCall n < cut ∧ p.deleteLocal = true ∧ p.needed = false then { k with file := false }
      else k := by
  have hstore : 2 ≤ storeCall n := Nat.le_add_right 2 n
  have hthere : ¬ (k.localPath.isNone || !k.file) = true := by simp [hpath, hfile]
  rw [processUpload, if_pos hcut]
  split
  · rw [if_neg (by omega)]
  split
  · rw [if_neg (by omega), markFailed_of_le (by omega)]
  split
  · rw [if_neg (by omega), markFailed_of_le (by omega)]
  rename_i hlate
  rw [markFailed_of_le (by omega)]
  simp [Nat.not_le.mp hlate]

lemma processJob_of_le (hfile : k.file = true) (hcut : cut ≤ 2 + n) :
    processJob n cut k = if cut < 2 then k else { k with file := false } := by
  unfold processJob
  split
  · rw [if_pos (by omega)]
  rw [if_neg (by simp [hfile])]
  split
  · rw [if_pos (by omega)]
  rw [if_neg (by omega)]
  exact if_neg (by omega)

end Interrupted

/-- Take a row with its file, and a cut before the last write of its job.  A transcode is queued
again, with its source, exactly if it had not read its configuration.  An upload is, except where
its app deletes local files and has no variants and the file was in the store already. -/
theorem interrupted_resumed_iff (p : Policy) (k : Kept) (path : Str) (n cut : ℕ)
    (hpath : k.localPath = some path) (hne : path ≠ []) (hfile : k.file = true) :
    (p.deleteLocal = true → p.needed = true → k.status = .ready → cut ≤ 2 + n →
      (recover p (processJob n cut k) = some .transcode ∧ (processJob n cut k).file = true ↔
        cut < 2)) ∧
    (k.status = .uploading → cut ≤ readyCall n →
      (recover p (processUpload p n cut k) = some .upload ∧
          (processUpload p n cut k).file = true ↔
        ¬ (storeCall n < cut ∧ p.deleteLocal = true ∧ p.needed = false))) := by
  constructor
  · intro hdelete hneeded hstatus hcut
    rw [processJob_of_le hfile hcut]
    split
    · rename_i hearly
      simp [recover, hpath, hne, hfile, hstatus, hdelete, hneeded, hearly]
    · rename_i hlate
      simp [hlate]
  · intro hstatus hcut
    rw [processUpload_of_le hpath hfile hcut]
    split
    · rename_i hdropped
      simp [hdropped]
    · rename_i hkept
      simp [recover, hpath, hne, hfile, hstatus, hkept]

/-- A row that waits for its transcode -/
def readyRow : Kept := ⟨.ready, some (str "/data/apps/live/recordings/cam.mp4"), true⟩

/-- The configuration could not be read any more. -/
theorem interrupted_resumed_early :
    recover ⟨true, true⟩ (processJob 9 1 readyRow) = some .transcode ∧
      (processJob 9 1 readyRow).file = true :=
  ((interrupted_resumed_iff ⟨true, true⟩ readyRow _ 9 1 rfl (by decide) rfl).1 rfl rfl rfl
    (by decide)).mpr (by decide)

/-- The context is cancelled in the middle of the transcode: its source is gone and the row still
names it. -/
theorem interrupted_transcode_lost :
    (processJob 9 5 readyRow).localPath = readyRow.localPath ∧
      (processJob 9 5 readyRow).file = false ∧
      recover ⟨true, true⟩ (processJob 9 5 readyRow) = none := by decide

end StreamHub.Recording.Resuming
