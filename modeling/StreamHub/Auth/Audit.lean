import StreamHub.Library.Go
import StreamHub.Library.LineTail

/-!
# The audit log

Entries are appended to a file as lines of JSON.  A file that would grow too large is
moved to the first backup, the backups move up by one, and the oldest is dropped.
`tail` reads the lines from the newest on, through the current file and the backups.

`Holds` says what the files hold after any number of writes, and `tail_newest` what a
reader gets.
-/

namespace StreamHub.Auth

open Library Text LineTail List

/-- The files of the log. -/
inductive AuditFile
  | current
  | backup (i : ℕ)
  deriving DecidableEq

/-- The contents of the files there are. -/
abbrev AuditDir := AuditFile → Option Str

/-- What `encoding/json` does: an entry becomes a JSON text on one line. -/
structure AuditCodec (ε : Type) where
  go : Go
  marshal : ε → Except Str Str
  valid : Str → Bool
  oneLine : ∀ {e b}, marshal e = .ok b → (0x0a : UInt8) ∉ b
  notBlank : ∀ {e b}, marshal e = .ok b → b ≠ []
  trimmed : ∀ {e b}, marshal e = .ok b → go.trimSpace b = b
  marshal_valid : ∀ {e b}, marshal e = .ok b → valid b = true

structure AuditLog where
  max : Int
  backups : ℕ
  dir : AuditDir
  /-- the current file is open -/
  isOpen : Bool
  size : ℕ

/-- The bytes read at a time. -/
def auditChunk : ℕ := 64 * 2 ^ 10

/-! ## Files -/

namespace AuditDir

def write (dir : AuditDir) (p : AuditFile) (content : Str) : AuditDir := fun q =>
  if q = p then some content else dir q

/-- `os.Remove`; that there is no such file is ignored. -/
def remove (dir : AuditDir) (p : AuditFile) : AuditDir := fun q => if q = p then none else dir q

/-- `os.Rename`; that there is no such file is ignored. -/
def rename (dir : AuditDir) (p p' : AuditFile) : AuditDir :=
  match dir p with
  | none => dir
  | some content => (dir.remove p).write p' content

/-- The renames from the last backup but one on. -/
def shift : ℕ → AuditDir → AuditDir
  | 0, dir => dir
  | i + 1, dir => shift i (dir.rename (.backup (i + 1)) (.backup (i + 2)))

end AuditDir

namespace AuditLog

/-- `open`: the file is made if it is not there. -/
def reopen (l : AuditLog) : AuditLog :=
  { l with
    dir := l.dir.write .current ((l.dir .current).getD [])
    isOpen := true
    size := ((l.dir .current).getD []).length }

def rotate (l : AuditLog) : AuditLog :=
  let dir := ((l.dir.remove (.backup l.backups)).shift (l.backups - 1)).rename .current (.backup 1)
  ({ l with dir := dir, isOpen := false } : AuditLog).reopen

/-- Append bytes to the current file, behind a rotation if they do not fit. -/
def append (l : AuditLog) (b : Str) : AuditLog :=
  let l := if l.isOpen then l else l.reopen
  let l := if 0 < l.size ∧ l.max < l.size + b.length then l.rotate else l
  { l with
    dir := l.dir.write .current ((l.dir .current).getD [] ++ b)
    size := l.size + b.length }

end AuditLog

/-- `openAudit` in an empty directory. -/
def openAudit (max : Int) (backups : ℕ) : AuditLog :=
  ({ max := max, backups := backups, dir := fun _ => none, isOpen := false, size := 0 } :
    AuditLog).reopen

section Codec

variable {ε : Type} (codec : AuditCodec ε)

/-- `Write`: an entry that cannot be encoded is not written. -/
def AuditCodec.write (l : AuditLog) (e : ε) : AuditLog × Option Str :=
  match codec.marshal e with
  | .error err => (l, some err)
  | .ok b => (l.append (b ++ [0x0a]), none)

/-- A sequence of calls of `Write`. -/
def AuditCodec.writeAll (l : AuditLog) (entries : List ε) : AuditLog :=
  entries.foldl (fun l e => (codec.write l e).1) l

/-- The lines of the calls that succeed. -/
def AuditCodec.written (entries : List ε) : List Str :=
  entries.filterMap fun e =>
    match codec.marshal e with
    | .error _ => none
    | .ok b => some b

/-! ## Reading -/

/-- A line that is not blank. -/
def AuditCodec.line (s : Str) : Option Str :=
  let line := codec.go.trimSpace s
  if line = [] then none else some line

/-- `tailFile`: the lines handed to the callback. -/
def AuditCodec.tailFile (content : Str) (n : ℕ) : List Str :=
  tailText 0x0a codec.line auditChunk n content

/-- The loop over the files. -/
def AuditCodec.tailFiles {ε : Type} (codec : AuditCodec ε) (dir : AuditDir) (limit : ℕ) :
    List AuditFile → List Str → List Str
  | [], out => out
  | p :: rest, out =>
    if limit ≤ out.length then out
    else
      match dir p with
      | none => out
      | some content =>
        codec.tailFiles dir limit rest
          (out ++ (codec.tailFile content (limit - out.length)).filter codec.valid)

/-- The current file and the backups, the newest first. -/
def AuditLog.files (l : AuditLog) : List AuditFile :=
  .current :: (range l.backups).map fun i => .backup (i + 1)

/-- `Tail` -/
def AuditCodec.tail (l : AuditLog) (limit : Int) : List Str :=
  if limit ≤ 0 then [] else codec.tailFiles l.dir limit.toNat l.files []

/-- The entries of a file, in the order they were written. -/
def AuditCodec.entries (content : Option Str) : List Str :=
  (split 0x0a (content.getD [])).filterMap codec.line

/-- The entries of the current file and the backups, in the order they were written. -/
def AuditCodec.stored (l : AuditLog) : List Str :=
  l.files.reverse.flatMap fun p => codec.entries (l.dir p)

end Codec

/-! ## Rotation -/

namespace AuditDir

variable {dir : AuditDir}

lemma rename_free (p : AuditFile) {p' : AuditFile} (hfree : dir p' = none) (q : AuditFile) :
    dir.rename p p' q = if q = p' then dir p else if q = p then none else dir q := by
  rw [rename]
  cases hp : dir p with
  | none =>
    dsimp only
    split
    · rename_i hq
      rw [hq, hfree]
    split
    · rename_i hq
      rw [hq, hp]
    · rfl
  | some content => rfl

lemma rename_source {p p' : AuditFile} (hne : p ≠ p') : dir.rename p p' p = none := by
  rw [rename]
  cases hp : dir p with
  | none => exact hp
  | some content =>
    dsimp only
    rw [write, if_neg hne, remove, if_pos rfl]

/-- Every backup moves up by one if the last name is free. -/
lemma shift_backup (n : ℕ) (hfree : dir (.backup (n + 1)) = none) (j : ℕ) :
    dir.shift n (.backup (j + 1)) =
      if j = 0 then none else if j ≤ n then dir (.backup j) else dir (.backup (j + 1)) := by
  induction n generalizing dir with
  | zero =>
    cases j with
    | zero => exact hfree
    | succ j => rfl
  | succ n ih =>
    have hmoved := rename_free (.backup (n + 1)) hfree
    rw [shift, ih (by rw [hmoved]; simp), hmoved, hmoved]
    simp only [AuditFile.backup.injEq]
    by_cases hj : j = 0
    · rw [if_pos hj, if_pos hj]
    rw [if_neg hj, if_neg hj]
    by_cases hle : j ≤ n
    · rw [if_pos hle, if_neg (by omega), if_neg (by omega), if_pos (by omega)]
    rw [if_neg hle]
    by_cases hlast : j = n + 1
    · rw [if_pos (by omega), if_pos (by omega), hlast]
    · rw [if_neg (by omega), if_neg (by omega), if_neg (by omega)]

lemma shift_current (n : ℕ) : dir.shift n .current = dir .current := by
  induction n generalizing dir with
  | zero => rfl
  | succ n ih =>
    rw [shift, ih, rename]
    cases dir (.backup (n + 1)) with
    | none => rfl
    | some content => rfl

end AuditDir

/-- The file of a rank, 0 the current one. -/
def fileAt : ℕ → AuditFile
  | 0 => .current
  | i + 1 => .backup (i + 1)

/-- Rotation moves every file up by one, and begins a new one. -/
lemma rotate_dir (l : AuditLog) : l.rotate.dir .current = some [] ∧
      ∀ i < l.backups, l.rotate.dir (fileAt (i + 1)) = l.dir (fileAt i) := by
  have hgone : ∀ dir : AuditDir, dir.rename .current (.backup 1) .current = none := fun dir =>
    AuditDir.rename_source (by simp)
  refine ⟨?_, fun i hi => ?_⟩
  · rw [AuditLog.rotate, AuditLog.reopen]
    dsimp only
    rw [hgone, AuditDir.write]
    rfl
  · obtain ⟨n, hn⟩ := Nat.exists_eq_succ_of_ne_zero (Nat.ne_of_gt (Nat.zero_lt_of_lt hi))
    have hfree : (l.dir.remove (.backup l.backups)) (.backup (n + 1)) = none := by
      rw [AuditDir.remove, if_pos (by rw [hn])]
    have hshift := AuditDir.shift_backup n hfree
    have hfirst := AuditDir.rename_free .current (hshift 0)
    have hlast : l.backups - 1 = n := by omega
    rw [AuditLog.rotate, AuditLog.reopen]
    dsimp only
    rw [AuditDir.write, if_neg (by simp [fileAt]), hlast, hfirst]
    cases i with
    | zero =>
      change (if (.backup 1 : AuditFile) = .backup 1 then _ else _) = l.dir .current
      rw [if_pos rfl, AuditDir.shift_current, AuditDir.remove, if_neg (by simp)]
    | succ i =>
      change (if (.backup (i + 2) : AuditFile) = .backup 1 then _ else _) = l.dir (.backup (i + 1))
      rw [if_neg (by simp), if_neg (by simp [fileAt]), fileAt, hshift, if_neg (by omega),
        if_pos (by omega), AuditDir.remove, if_neg]
      simp only [AuditFile.backup.injEq]
      omega

/-! ## Lines in files -/

/-- The contents of a file with these lines. -/
def encodeLines (lines : List Str) : Str := lines.flatMap fun b => b ++ [0x0a]

lemma encodeLines_append (lines : List Str) (b : Str) :
    encodeLines (lines ++ [b]) = encodeLines lines ++ (b ++ [0x0a]) := by simp [encodeLines]

lemma split_encodeLines {lines : List Str} (h : ∀ b ∈ lines, (0x0a : UInt8) ∉ b) :
    split 0x0a (encodeLines lines) = lines ++ [[]] := by
  induction lines with
  | nil => rfl
  | cons b rest ih =>
    obtain ⟨hb, hrest⟩ := forall_mem_cons.mp h
    rw [encodeLines, flatMap_cons, append_assoc, singleton_append, split_line_append hb]
    exact congrArg (cons b) (ih hrest)

section Reading

variable {ε : Type} {codec : AuditCodec ε}

/-- A line some entry is encoded as. -/
def AuditCodec.IsLine (codec : AuditCodec ε) (b : Str) : Prop := ∃ e, codec.marshal e = .ok b

lemma AuditCodec.IsLine.line {b : Str} (h : codec.IsLine b) : codec.line b = some b := by
  obtain ⟨e, he⟩ := h
  rw [AuditCodec.line, codec.trimmed he, if_neg (codec.notBlank he)]

lemma line_nil : codec.line [] = none := by
  rfl

variable {lines : List Str} (hlines : ∀ b ∈ lines, codec.IsLine b)

include hlines

lemma split_of_isLine : split 0x0a (encodeLines lines) = lines ++ [[]] := by
  refine split_encodeLines fun b hb => ?_
  obtain ⟨e, he⟩ := hlines b hb
  exact codec.oneLine he

lemma filterMap_line : lines.filterMap codec.line = lines := by
  rw [filterMap_congr fun b hb => (hlines b hb).line]
  exact filterMap_some

lemma entries_encodeLines : codec.entries (some (encodeLines lines)) = lines := by
  rw [AuditCodec.entries, Option.getD_some, split_of_isLine hlines, filterMap_append,
    filterMap_line hlines]
  simp [line_nil]

lemma tailFile_encodeLines (n : ℕ) :
    (codec.tailFile (encodeLines lines) n).filter codec.valid = lines.reverse.take n := by
  have hreverse : ∀ b ∈ lines.reverse, codec.IsLine b := fun b hb => hlines b (mem_reverse.mp hb)
  rw [AuditCodec.tailFile, tailText_eq_lastLines (by decide), lastLines, split_of_isLine hlines,
    reverse_append, reverse_singleton, singleton_append, filterMap_cons, filterMap_line hreverse]
  refine filter_eq_self.mpr fun b hb => ?_
  obtain ⟨e, he⟩ := hreverse b (mem_of_mem_take hb)
  exact codec.marshal_valid he

end Reading

/-! ## What the files hold -/

/-- The files hold groups of lines, the newest group in the current file, and the lines
are the last ones written. -/
structure Holds {ε : Type} (codec : AuditCodec ε) (l : AuditLog) (groups : List (List Str))
    (written : List Str) : Prop where
  isOpen : l.isOpen = true
  files : ∀ i ≤ l.backups, l.dir (fileAt i) = (groups[i]?).map encodeLines
  nonempty : groups ≠ []
  bounded : groups.length ≤ l.backups + 1
  size : l.dir .current = some (encodeLines groups.headI) ∧
    l.size = (encodeLines groups.headI).length
  lines : ∀ group ∈ groups, ∀ b ∈ group, codec.IsLine b
  suffix : groups.reverse.flatten <:+ written

section Writing

variable {ε : Type} {codec : AuditCodec ε} {l : AuditLog} {groups : List (List Str)}
  {written : List Str}

lemma holds_openAudit (codec : AuditCodec ε) (max : Int) (backups : ℕ) :
    Holds codec (openAudit max backups) [[]] [] where
  isOpen := rfl
  files := by
    intro i _
    cases i with
    | zero => rfl
    | succ i => rfl
  nonempty := by simp
  bounded := by simp
  size := ⟨rfl, rfl⟩
  lines := by simp
  suffix := by simp

/-- Rotation begins a new group and drops those that do not fit. -/
lemma Holds.rotate (h : Holds codec l groups written) :
    Holds codec l.rotate (([] :: groups).take (l.backups + 1)) written := by
  obtain ⟨hcurrent, hmoved⟩ := rotate_dir l
  have hbackups : l.rotate.backups = l.backups := rfl
  have hsize : l.rotate.size = 0 := by
    rw [AuditLog.rotate, AuditLog.reopen]
    dsimp only
    rw [AuditDir.rename_source (by simp)]
    rfl
  refine ⟨rfl, fun i hi => ?_, by simp, ?_, ⟨hcurrent, hsize⟩, ?_, ?_⟩
  · rw [getElem?_take_of_lt (by omega)]
    cases i with
    | zero => exact hcurrent
    | succ i => rw [hmoved i (by omega), h.files i (by omega), getElem?_cons_succ]
  · rw [length_take]
    exact Nat.min_le_left _ _
  · intro group hgroup b hb
    rcases mem_cons.mp (mem_of_mem_take hgroup) with rfl | hgroup
    · cases hb
    · exact h.lines group hgroup b hb
  · refine IsSuffix.trans ?_ h.suffix
    have hall := take_append_drop (l.backups + 1) ([] :: groups)
    have hflat := congrArg (fun gs => (reverse gs).flatten) hall
    simp only [reverse_append, flatten_append, reverse_cons, flatten_cons,
      flatten_nil, append_nil] at hflat
    exact ⟨_, hflat⟩

/-- The end of a write. -/
lemma Holds.extend {group : List Str} {rest : List (List Str)} {b : Str}
    (h : Holds codec l (group :: rest) written) (hb : codec.IsLine b) : Holds codec
      { l with
        dir := l.dir.write .current ((l.dir .current).getD [] ++ (b ++ [0x0a]))
        size := l.size + (b ++ [0x0a]).length }
      ((group ++ [b]) :: rest) (written ++ [b]) := by
  obtain ⟨hcurrent, hsize⟩ := h.size
  refine ⟨h.isOpen, fun i hi => ?_, by simp, h.bounded, ⟨?_, ?_⟩, ?_, ?_⟩
  · cases i with
    | zero =>
      change l.dir.write .current _ .current = _
      rw [AuditDir.write, hcurrent]
      exact congrArg some (encodeLines_append group b).symm
    | succ i =>
      have hother := h.files (i + 1) hi
      dsimp only
      exact hother
  · dsimp only
    rw [AuditDir.write, hcurrent]
    exact congrArg some (encodeLines_append group b).symm
  · rw [hsize, ← length_append, headI_cons, headI_cons, encodeLines_append]
  · obtain ⟨hgroup, hrest⟩ := forall_mem_cons.mp h.lines
    exact forall_mem_cons.mpr
      ⟨forall_mem_append.mpr ⟨hgroup, forall_mem_singleton.mpr hb⟩, hrest⟩
  · obtain ⟨front, hfront⟩ := h.suffix
    refine ⟨front, ?_⟩
    rw [← hfront]
    simp [reverse_cons, flatten_append]

lemma Holds.append {b : Str} (h : Holds codec l groups written) (hb : codec.IsLine b) :
    ∃ groups', Holds codec (l.append (b ++ [0x0a])) groups' (written ++ [b]) := by
  rw [AuditLog.append, if_pos h.isOpen]
  split
  · obtain ⟨group, rest, hgroups⟩ := exists_cons_of_ne_nil h.rotate.nonempty
    have hrotated := h.rotate
    exact ⟨_, hrotated.extend hb⟩
  · obtain ⟨group, rest, rfl⟩ := exists_cons_of_ne_nil h.nonempty
    exact ⟨_, h.extend hb⟩

/-- What the files hold after any calls of `Write`. -/
lemma Holds.writeAll (h : Holds codec l groups written) (entries : List ε) :
    ∃ groups', Holds codec (codec.writeAll l entries) groups'
      (written ++ codec.written entries) := by
  induction entries generalizing l groups written with
  | nil => exact ⟨groups, by simpa [AuditCodec.writeAll, AuditCodec.written] using h⟩
  | cons e rest ih =>
    rw [AuditCodec.writeAll, foldl_cons, AuditCodec.write, AuditCodec.written, filterMap_cons]
    cases he : codec.marshal e with
    | error err => exact ih h
    | ok b =>
      obtain ⟨groups', h'⟩ := h.append ⟨e, he⟩
      obtain ⟨groups'', h''⟩ := ih h'
      refine ⟨groups'', ?_⟩
      rwa [append_assoc] at h''

end Writing

/-! ## What a reader gets -/

section Tail

variable {ε : Type} {codec : AuditCodec ε}

/-- The loop over files that hold groups of lines. -/
lemma tailFiles_groups {dir : AuditDir} {limit : ℕ} {files : List AuditFile}
    (groups : List (List Str)) (out : List Str)
    (hfiles : ∀ (i : ℕ) (p : AuditFile), files[i]? = some p → dir p = (groups[i]?).map encodeLines)
    (hlength : groups.length ≤ files.length)
    (hlines : ∀ group ∈ groups, ∀ b ∈ group, codec.IsLine b) :
    codec.tailFiles dir limit files out =
      out ++ (groups.map reverse).flatten.take (limit - out.length) := by
  induction files generalizing groups out with
  | nil =>
    obtain rfl : groups = [] := length_eq_zero_iff.mp (Nat.le_zero.mp hlength)
    simp [AuditCodec.tailFiles]
  | cons p rest ih =>
    have hfirst := hfiles 0 p rfl
    rw [AuditCodec.tailFiles]
    split
    · rename_i hfull
      rw [Nat.sub_eq_zero_of_le hfull, take_zero, append_nil]
    cases groups with
    | nil =>
      rw [hfirst]
      simp
    | cons group groups =>
      obtain ⟨hgroup, hgroups⟩ := forall_mem_cons.mp hlines
      rw [hfirst]
      change codec.tailFiles dir limit rest (out ++
        (codec.tailFile (encodeLines group) (limit - out.length)).filter codec.valid) = _
      rw [tailFile_encodeLines hgroup, ih groups _ (fun i p hp => hfiles (i + 1) p hp)
          (Nat.le_of_succ_le_succ hlength) hgroups,
        map_cons, flatten_cons, take_append, append_assoc]
      congr 3
      simp only [length_append, length_take, length_reverse]
      omega

/-- The entries of files that hold groups of lines. -/
lemma flatMap_entries_groups {dir : AuditDir} {files : List AuditFile} (groups : List (List Str))
    (hfiles : ∀ (i : ℕ) (p : AuditFile), files[i]? = some p → dir p = (groups[i]?).map encodeLines)
    (hlength : groups.length ≤ files.length)
    (hlines : ∀ group ∈ groups, ∀ b ∈ group, codec.IsLine b) :
    (files.reverse.flatMap fun p => codec.entries (dir p)) = groups.reverse.flatten := by
  induction files generalizing groups with
  | nil =>
    obtain rfl : groups = [] := length_eq_zero_iff.mp (Nat.le_zero.mp hlength)
    rfl
  | cons p rest ih =>
    have hfirst := hfiles 0 p rfl
    rw [reverse_cons, flatMap_append, flatMap_singleton, hfirst]
    cases groups with
    | nil =>
      rw [ih [] (fun i p hp => by simpa using hfiles (i + 1) p hp) (by simp) (by simp)]
      simp [AuditCodec.entries, split, line_nil]
    | cons group groups =>
      obtain ⟨hgroup, hgroups⟩ := forall_mem_cons.mp hlines
      rw [ih groups (fun i p hp => hfiles (i + 1) p hp)
        (Nat.le_of_succ_le_succ hlength) hgroups]
      change _ ++ codec.entries (some (encodeLines group)) = _
      rw [entries_encodeLines hgroup, reverse_cons]
      simp

lemma getElem?_files (l : AuditLog) {i : ℕ} {p : AuditFile} (h : l.files[i]? = some p) :
    i ≤ l.backups ∧ p = fileAt i := by
  rw [AuditLog.files] at h
  cases i with
  | zero =>
    cases h
    exact ⟨Nat.zero_le _, rfl⟩
  | succ i =>
    rw [getElem?_cons_succ, getElem?_map] at h
    obtain ⟨j, hj, rfl⟩ := Option.map_eq_some_iff.mp h
    obtain ⟨hlt, rfl⟩ := List.getElem?_eq_some_iff.mp hj
    rw [length_range] at hlt
    exact ⟨hlt, by simp [fileAt]⟩

end Tail

/-- After any calls of `Write` the current file and the backups hold the last entries
written, and a reader gets the newest of them, the newest first. -/
theorem tail_newest {ε : Type} (codec : AuditCodec ε) (max : Int) (backups : ℕ)
    (entries : List ε) (limit : Int) :
    let l := codec.writeAll (openAudit max backups) entries
    codec.stored l <:+ codec.written entries ∧
      codec.tail l limit =
        (codec.written entries).reverse.take (min limit (codec.stored l).length).toNat := by
  intro l
  obtain ⟨groups, hholds⟩ := (holds_openAudit codec max backups).writeAll entries
  rw [nil_append] at hholds
  have hfiles : ∀ (i : ℕ) (p : AuditFile), l.files[i]? = some p →
      l.dir p = (groups[i]?).map encodeLines := by
    intro i p hp
    obtain ⟨hi, rfl⟩ := getElem?_files l hp
    exact hholds.files i hi
  have hlength : groups.length ≤ l.files.length := by
    rw [AuditLog.files, length_cons, length_map, length_range]
    exact hholds.bounded
  have hstored : codec.stored l = groups.reverse.flatten :=
    flatMap_entries_groups groups hfiles hlength hholds.lines
  refine ⟨by rw [hstored]; exact hholds.suffix, ?_⟩
  obtain ⟨front, hfront⟩ := hholds.suffix
  rw [AuditCodec.tail]
  split
  · have hzero : (min limit (codec.stored l).length).toNat = 0 := by omega
    rw [hzero, take_zero]
  have hmin : (min limit (codec.stored l).length).toNat =
      min limit.toNat (codec.stored l).length := by omega
  have hreverse : (groups.map reverse).flatten = (codec.stored l).reverse := by
    rw [hstored, reverse_flatten, map_reverse, reverse_reverse]
  have hwhole : (codec.stored l).reverse.take (codec.stored l).length = (codec.stored l).reverse :=
    take_of_length_le (by rw [length_reverse])
  have hshort : min limit.toNat (codec.stored l).length ≤ (codec.stored l).reverse.length := by
    rw [length_reverse]
    exact Nat.min_le_right _ _
  rw [tailFiles_groups groups [] hfiles hlength hholds.lines, nil_append, length_nil, Nat.sub_zero,
    hreverse, hmin, ← hfront, ← hstored, reverse_append,
    take_append_of_le_length hshort, ← take_take, hwhole]

/-- Entries that are digits. -/
def AuditCodec.digits : AuditCodec (Fin 10) where
  go := Go.plain
  marshal d := .ok [UInt8.ofNat (0x30 + d)]
  valid b := b.all isDigit
  oneLine := by
    intro d b h
    cases h
    revert d
    decide
  notBlank := by
    intro d b h
    cases h
    simp
  trimmed := by
    intro d b h
    cases h
    revert d
    decide
  marshal_valid := by
    intro d b h
    cases h
    revert d
    decide

-- two entries fit into a file, and one backup is kept
example : AuditCodec.digits.tail
    (AuditCodec.digits.writeAll (openAudit 4 1) [1, 2, 3, 4, 5, 6, 7]) 10 =
      [str "7", str "6", str "5"] := by decide

end StreamHub.Auth
