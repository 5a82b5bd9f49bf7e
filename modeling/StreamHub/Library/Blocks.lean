import Mathlib.Tactic

/-!
# Cutting a list into blocks

A byte stream is cut into blocks of one size in three ways by the programs
verified here: into whole blocks with the tail left over (a reader of fixed
packets), into blocks whose last one may be short (a writer that fills
packets), and back from blocks to one list by concatenation.

`blocks size count list` takes `count` blocks; `wholeBlocks` and `allBlocks`
fix the count.  Recursion is on the count, so concrete cuts evaluate.
-/

namespace StreamHub.Library.Blocks

open List

variable {α : Type*}

/-- The first `count` blocks of `size` elements. -/
def blocks (size : Nat) : Nat → List α → List (List α)
  | 0, _ => []
  | count + 1, list => list.take size :: blocks size count (list.drop size)

/-- Every complete block; what is left over is `leftover`. -/
def wholeBlocks (size : Nat) (list : List α) : List (List α) :=
  blocks size (list.length / size) list

/-- The incomplete tail behind the whole blocks. -/
def leftover (size : Nat) (list : List α) : List α := list.drop (list.length / size * size)

/-- Every block, the last one possibly short. -/
def allBlocks (size : Nat) (list : List α) : List (List α) :=
  blocks size ((list.length + size - 1) / size) list

lemma blocks_flatten (size count : Nat) (list : List α) :
    (blocks size count list).flatten = list.take (count * size) := by
  induction count generalizing list with
  | zero => simp [blocks]
  | succ count ih => rw [blocks, flatten_cons, ih, Nat.succ_mul, Nat.add_comm, take_add]

lemma wholeBlocks_append_leftover (size : Nat) (list : List α) :
    (wholeBlocks size list).flatten ++ leftover size list = list := by
  rw [wholeBlocks, leftover, blocks_flatten, take_append_drop]

variable {size : Nat}

lemma allBlocks_flatten (hsize : 0 < size) (list : List α) :
    (allBlocks size list).flatten = list := by
  rw [allBlocks, blocks_flatten]
  apply take_of_length_le
  have hmod := Nat.mod_lt (list.length + size - 1) hsize
  have hdiv := Nat.div_add_mod (list.length + size - 1) size
  rw [Nat.mul_comm] at hdiv
  omega

variable {list block : List α}

lemma length_of_mem_blocks {count : Nat} (hroom : count * size ≤ list.length)
    (hmem : block ∈ blocks size count list) : block.length = size := by
  induction count generalizing list with
  | zero => simp [blocks] at hmem
  | succ count ih =>
    rw [Nat.succ_mul] at hroom
    rcases mem_cons.mp hmem with rfl | htail
    · rw [length_take]
      omega
    · apply ih _ htail
      rw [length_drop]
      omega

lemma length_of_mem_wholeBlocks (hmem : block ∈ wholeBlocks size list) : block.length = size :=
  length_of_mem_blocks (Nat.div_mul_le_self _ _) hmem

variable {parts : List (List α)}

lemma blocks_flatten_append (hparts : ∀ part ∈ parts, part.length = size) (tail : List α) :
    blocks size parts.length (parts.flatten ++ tail) = parts := by
  induction parts with
  | nil => rfl
  | cons part rest ih =>
    have hpart : part.length = size := hparts part (by simp)
    have hrest : ∀ p ∈ rest, p.length = size := fun p hp => hparts p (mem_cons_of_mem _ hp)
    rw [length_cons, blocks, flatten_cons, append_assoc,
      take_left' hpart, drop_left' hpart, ih hrest]

lemma length_flatten_of_forall (hparts : ∀ part ∈ parts, part.length = size) :
    parts.flatten.length = parts.length * size := by
  induction parts with
  | nil => simp
  | cons part rest ih =>
    have hrest : ∀ p ∈ rest, p.length = size := fun p hp => hparts p (mem_cons_of_mem _ hp)
    rw [flatten_cons, length_append, ih hrest,
      hparts part (by simp), length_cons, Nat.succ_mul, Nat.add_comm]

lemma wholeBlocks_flatten (hsize : 0 < size) (hparts : ∀ part ∈ parts, part.length = size) :
    wholeBlocks size parts.flatten = parts := by
  have hcount : parts.flatten.length / size = parts.length := by
    rw [length_flatten_of_forall hparts, Nat.mul_div_cancel _ hsize]
  have hcut := blocks_flatten_append hparts []
  rw [append_nil] at hcut
  rw [wholeBlocks, hcount, hcut]

/-- Blocks of one size of which only the last may be short, and none empty. -/
def Filled (size : Nat) : List (List α) → Prop
  | [] => True
  | [last] => last ≠ [] ∧ last.length ≤ size
  | block :: rest => block.length = size ∧ Filled size rest

variable {rest : List (List α)}

lemma Filled.head_length (h : Filled size (block :: rest)) : block.length ≤ size := by
  cases rest with
  | nil => exact h.2
  | cons next rest => exact h.1.le

lemma Filled.tail (h : Filled size (block :: rest)) : Filled size rest := by
  cases rest with
  | nil => trivial
  | cons next rest => exact h.2

lemma Filled.head_full (h : Filled size (block :: rest)) (hrest : rest ≠ []) :
    block.length = size := by
  cases rest with
  | nil => exact absurd rfl hrest
  | cons next rest => exact h.1

lemma Filled.flatten_ne_nil (hsize : 0 < size) {list : List (List α)} (h : Filled size list)
    (hne : list ≠ []) : list.flatten ≠ [] := by
  cases list with
  | nil => exact absurd rfl hne
  | cons block rest =>
    cases rest with
    | nil => simpa using h.1
    | cons next rest =>
      intro hnil
      have hblock : block = [] := (append_eq_nil_iff.mp hnil).1
      have hfull := h.1
      simp [hblock] at hfull
      omega

lemma Filled.forall_mem {unit : Nat} (hsize : 0 < size) (hunit : unit ∣ size)
    {list : List (List α)} (h : Filled size list) (htotal : unit ∣ list.flatten.length) :
    ∀ block ∈ list, block ≠ [] ∧ unit ∣ block.length ∧ block.length ≤ size := by
  induction list with
  | nil => simp
  | cons block rest ih =>
    intro b hb
    cases rest with
    | nil =>
      rw [mem_singleton.mp hb]
      exact ⟨h.1, by simpa using htotal, h.2⟩
    | cons next rest =>
      rcases mem_cons.mp hb with rfl | htail
      · refine ⟨?_, h.1 ▸ hunit, h.1.le⟩
        rintro rfl
        simp [Filled] at h
        omega
      · refine ih h.2 ?_ b htail
        rw [flatten_cons, length_append, h.1] at htotal
        exact (Nat.dvd_add_right hunit).mp htotal

lemma filled_blocks {count : Nat} (hsize : 0 < size)
    (hroom : (count - 1) * size < list.length ∨ count = 0) :
    Filled size (blocks size count list) := by
  induction count generalizing list with
  | zero => trivial
  | succ count ih =>
    have hroom : count * size < list.length := by simpa using hroom
    cases count with
    | zero =>
      refine ⟨?_, length_take_le _ _⟩
      have hlist : list ≠ [] := by
        rintro rfl
        simp at hroom
      simp only [ne_eq, take_eq_nil_iff, hlist, or_false]
      omega
    | succ count =>
      rw [Nat.succ_mul] at hroom
      refine ⟨?_, ih (Or.inl ?_)⟩
      · rw [length_take]
        omega
      · rw [length_drop, Nat.add_sub_cancel]
        omega

lemma filled_allBlocks (hsize : 0 < size) (list : List α) : Filled size (allBlocks size list) := by
  rcases Nat.eq_zero_or_pos list.length with hzero | hpos
  · rw [allBlocks, hzero, Nat.div_eq_of_lt (by omega)]
    trivial
  apply filled_blocks hsize
  left
  have hcount := Nat.div_mul_le_self (list.length + size - 1) size
  rw [Nat.sub_mul]
  omega

/-! ## Cutting at marked elements -/

/-- The units of a list whose marked elements each open one: what precedes the
first mark, and for every mark the payloads up to the next one. -/
def units {β : Type*} (mark : α → Bool) (payload : α → List β) :
    List α → List β × List (List β)
  | [] => ([], [])
  | a :: rest =>
    let tail := units mark payload rest
    if mark a then ([], (payload a ++ tail.1) :: tail.2)
    else (payload a ++ tail.1, tail.2)

lemma units_unmarked {β : Type*} {mark : α → Bool} (payload : α → List β)
    (hlist : ∀ a ∈ list, mark a = false) (rest : List α) : units mark payload (list ++ rest) =
      (list.flatMap payload ++ (units mark payload rest).1,
        (units mark payload rest).2) := by
  induction list with
  | nil => simp
  | cons a list ih =>
    have ha : mark a = false := hlist a (by simp)
    have hlist : ∀ b ∈ list, mark b = false := fun b hb => hlist b (mem_cons_of_mem _ hb)
    simp [units, ha, ih hlist]

lemma units_group {β : Type*} {mark : α → Bool} (payload : α → List β) {a : α}
    (ha : mark a = true) (hlist : ∀ b ∈ list, mark b = false) (rest : List α) :
    units mark payload (a :: list ++ rest) =
      ([], ((a :: list).flatMap payload ++ (units mark payload rest).1) ::
        (units mark payload rest).2) := by
  rw [cons_append, units, units_unmarked payload hlist]
  simp [ha]

end StreamHub.Library.Blocks
