import StreamHub.Library.PathClean

/-!
# A tree of files

A path is the list of its segments, and a tree says what is at each path.  Programs that
write below a directory are lists of operations that are carried out one after the other
and stop at the first that fails; a crash cuts such a list anywhere, inside a write too.

`exec_written` says that a list that was carried out to its end has left at each path what
it wrote there last; `exec_outside` that no path is touched that is not named.
-/

namespace StreamHub.Library.FileTree

open Text

/-- An absolute path without dot segments. -/
abbrev Path := List Str

inductive Node
  | dir
  | file (content : Str)
  deriving DecidableEq

end FileTree

abbrev FileTree := FileTree.Path → Option FileTree.Node

namespace FileTree

open Text List Function

/-- `filepath.Join` of a path and strings, which may have slashes and dot segments. -/
def joinPath (base : Path) (elems : List Str) : Path :=
  ((elems.flatMap (split slash)).foldl (cleanStep true) base.reverse).reverse

lemma joinPath_names (base : Path) {elems : List Str} (h : ∀ seg ∈ elems, IsName seg) :
    joinPath base elems = base ++ elems := by
  have hsplit : elems.flatMap (split slash) = elems := by
    induction elems with
    | nil => rfl
    | cons seg rest ih =>
      obtain ⟨hseg, hrest⟩ := forall_mem_cons.mp h
      rw [flatMap_cons, split_of_notMem hseg.no_slash, ih hrest]
      rfl
  rw [joinPath, hsplit, foldl_cleanStep_names h, reverse_append, reverse_reverse, reverse_reverse]

/-- `os.RemoveAll`; some nodes may be kept. -/
def removeAll (p : Path) (kept : Path → Bool) (t : FileTree) : FileTree := fun q =>
  if p.isPrefixOf q && !kept q then none else t q

/-! ## Operations -/

inductive Op
  | mkdir (p : Path)
  | write (p : Path) (content : Str)
  deriving DecidableEq

def Op.path : Op → Path
  | mkdir p => p
  | write p _ => p

def Op.apply : Op → FileTree → Option FileTree
  | mkdir p, t =>
    match t p with
    | some (.file _) => none
    | some .dir => some t
    | none => some (update t p (some .dir))
  | write p c, t =>
    match t p with
    | some .dir => none
    | _ => some (update t p (some (.file c)))

/-- The tree where the operations stop, and whether they came to their end. -/
def exec : List Op → FileTree → Bool × FileTree
  | [], t => (true, t)
  | op :: rest, t =>
    match op.apply t with
    | none => (false, t)
    | some t' => exec rest t'

/-- `os.MkdirAll` -/
def mkdirAll (p : Path) : List Op := p.inits.tail.map .mkdir

/-- Where a list of operations is cut, with what is in the file that was being written. -/
structure Cut where
  after : ℕ
  torn : Option Str

/-- The write that the cut tears. -/
def Cut.op (cut : Cut) (ops : List Op) : Option Op :=
  match ops[cut.after]?, cut.torn with
  | some (.write p _), some c => some (.write p c)
  | _, _ => none

/-- The tree that a list of operations leaves when it is cut. -/
def execCut (cut : Cut) (ops : List Op) (t : FileTree) : FileTree :=
  let t' := (exec (ops.take cut.after) t).2
  ((cut.op ops).bind fun op => op.apply t').getD t'

/-- What a list of operations writes to a path last. -/
def lastWrite (p : Path) (ops : List Op) : Option Str :=
  ops.foldl (fun last op =>
    match op with
    | .write q c => if q = p then some c else last
    | .mkdir _ => last) none

/-! ## What is left -/

section Left

variable {ops : List Op} {t t' : FileTree} {p : Path}

lemma apply_of_ne {op : Op} (h : op.apply t = some t') (hp : op.path ≠ p) : t' p = t p := by
  cases op with
  | mkdir q =>
    rw [Op.apply] at h
    split at h
    · cases h
    · cases h
      rfl
    · cases h
      exact update_of_ne (Ne.symm hp) _ _
  | write q c =>
    rw [Op.apply] at h
    split at h
    · cases h
    cases h
    exact update_of_ne (Ne.symm hp) _ _

lemma apply_write {c : Str} (h : (Op.write p c).apply t = some t') : t' p = some (.file c) := by
  rw [Op.apply] at h
  split at h
  · cases h
  cases h
  exact update_self ..

lemma apply_mkdir_of_file {q : Path} {c : Str} (h : (Op.mkdir q).apply t = some t')
    (hp : t p = some (.file c)) : t' p = some (.file c) := by
  by_cases hq : q = p
  · rw [Op.apply, hq, hp] at h
    cases h
  · exact (apply_of_ne h hq).trans hp

lemma exec_append (front rest : List Op) (t : FileTree) : exec (front ++ rest) t =
      if (exec front t).1 then exec rest (exec front t).2 else exec front t := by
  induction front generalizing t with
  | nil => rfl
  | cons op front ih =>
    rw [cons_append, exec, exec]
    cases op.apply t with
    | none => rfl
    | some t' => exact ih t'

lemma lastWrite_concat (p : Path) (ops : List Op) (op : Op) : lastWrite p (ops ++ [op]) =
      match op with
      | .write q c => if q = p then some c else lastWrite p ops
      | .mkdir _ => lastWrite p ops := by
  rw [lastWrite, foldl_append, foldl_cons]
  rfl

/-- Operations that came to their end left at each path what they wrote there last. -/
lemma exec_written (h : exec ops t = (true, t')) {c : Str} (hc : lastWrite p ops = some c) :
    t' p = some (.file c) := by
  induction ops using reverseRecOn generalizing t' with
  | nil => cases hc
  | append_singleton ops op ih =>
    rw [exec_append] at h
    cases hfront : exec ops t with
    | mk done front =>
      rw [hfront] at h
      cases done with
      | false => cases h
      | true =>
        rw [exec] at h
        cases hop : op.apply front with
        | none =>
          rw [hop] at h
          cases h
        | some last =>
          rw [hop] at h
          cases h
          rw [lastWrite_concat] at hc
          cases op with
          | mkdir q => exact apply_mkdir_of_file hop (ih hfront hc)
          | write q body =>
            dsimp only at hc
            split at hc
            · rename_i hq
              cases hc
              exact apply_write (hq ▸ hop)
            · rename_i hq
              exact (apply_of_ne hop hq).trans (ih hfront hc)

lemma exec_outside (h : ∀ op ∈ ops, op.path ≠ p) (t : FileTree) : (exec ops t).2 p = t p := by
  induction ops generalizing t with
  | nil => rfl
  | cons op rest ih =>
    rw [exec]
    cases hop : op.apply t with
    | none => rfl
    | some t' =>
      rw [← apply_of_ne hop (h op mem_cons_self)]
      exact ih (fun x hx => h x (mem_cons_of_mem op hx)) t'

lemma path_of_cut_op (h : ∀ op ∈ ops, op.path ≠ p) {cut : Cut} {op : Op}
    (hop : cut.op ops = some op) : op.path ≠ p := by
  rw [Cut.op] at hop
  split at hop
  · rename_i hget _
    cases hop
    have hne := h _ (mem_of_getElem? hget)
    exact hne
  · cases hop

lemma execCut_outside (h : ∀ op ∈ ops, op.path ≠ p) (cut : Cut) (t : FileTree) :
    execCut cut ops t p = t p := by
  have htaken : (exec (ops.take cut.after) t).2 p = t p :=
    exec_outside (fun op hop => h op (mem_of_mem_take hop)) t
  rw [execCut]
  cases hop : cut.op ops with
  | none => exact htaken
  | some op =>
    rw [Option.bind_some]
    cases hwrite : op.apply (exec (ops.take cut.after) t).2 with
    | none => exact htaken
    | some t' => exact (apply_of_ne hwrite (path_of_cut_op h hop)).trans htaken

lemma path_of_mem_mkdirAll {op : Op} {q : Path} (h : op ∈ mkdirAll q) : op.path <+: q := by
  obtain ⟨r, hr, rfl⟩ := mem_map.mp h
  exact (mem_inits r q).mp (mem_of_mem_tail hr)

lemma lastWrite_append (p : Path) (front rest : List Op) :
    lastWrite p (front ++ rest) = (lastWrite p rest).or (lastWrite p front) := by
  induction rest using reverseRecOn with
  | nil =>
    rw [append_nil]
    exact Option.none_or.symm
  | append_singleton rest op ih =>
    rw [← append_assoc, lastWrite_concat, lastWrite_concat]
    cases op with
    | mkdir q => exact ih
    | write q c =>
      dsimp only
      split
      · rw [Option.some_or]
      · exact ih

lemma lastWrite_mkdirAll (p q : Path) : lastWrite p (mkdirAll q) = none := by
  rw [mkdirAll]
  induction q.inits.tail using reverseRecOn with
  | nil => rfl
  | append_singleton dirs d ih =>
    rw [map_append]
    exact (lastWrite_concat p _ _).trans ih

end Left

end StreamHub.Library.FileTree
