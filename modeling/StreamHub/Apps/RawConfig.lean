import StreamHub.Library.Lcs
import StreamHub.Library.Text

/-!
# The diff of two configs

`unifiedDiff` shows what a raw edit of `config.yaml` changes: a table of the lengths of the
longest common subsequences of all suffixes, and a walk over it that keeps, removes or adds a
line at a time.  What it shows is an edit script that keeps as many lines as any can
(`unifiedDiff_minimal`).
-/

namespace StreamHub.Apps

open Library Text Lcs List

/-- How a line of a diff is marked. -/
inductive Mark
  | kept
  | removed
  | added
  deriving DecidableEq

def Mark.text : Mark → Str
  | .kept => str "  "
  | .removed => str "- "
  | .added => str "+ "

lemma Mark.text_ne_nil (k : Mark) : k.text ≠ [] := by cases k <;> decide

/-- The lines of a text; an empty text has none. -/
def textLines (s : Str) : List Str := if s = [] then [] else split 0x0a s

/-- A row of the table, filled from its end, with the row below it. -/
def tableRow (line : Str) : List Str → List ℕ → List ℕ
  | [], _ => [0]
  | b :: bs, below =>
    let right := tableRow line bs below.tail
    (if line = b then below.tail.headD 0 + 1 else max (below.headD 0) (right.headD 0)) :: right

/-- The table `lcs`, with a row for each suffix of the old lines. -/
def table (bs : List Str) : List Str → List (List ℕ)
  | [] => [replicate (bs.length + 1) 0]
  | a :: as => tableRow a bs ((table bs as).headD []) :: table bs as

/-- The walk, with the rows from its own on and its column. -/
def walk : List (List ℕ) → ℕ → List Str → List Str → List (Mark × Str)
  | _, _, [], bs => bs.map fun b => (.added, b)
  | _, _, as, [] => as.map fun a => (.removed, a)
  | rows, j, a :: as, b :: bs =>
    if a = b then (.kept, a) :: walk rows.tail (j + 1) as bs
    else if (rows.headD []).getD (j + 1) 0 ≤ (rows.tail.headD []).getD j 0 then
      (.removed, a) :: walk rows.tail j as (b :: bs)
    else (.added, b) :: walk rows (j + 1) (a :: as) bs
termination_by _ _ as bs => as.length + bs.length

/-- The marked lines of `unifiedDiff`. -/
def diffLines (before after : Str) : List (Mark × Str) :=
  walk (table (textLines after) (textLines before)) 0 (textLines before) (textLines after)

def unifiedDiff (before after : Str) : Str :=
  if (diffLines before after).all fun m => m.1 = .kept then []
  else join ((diffLines before after).map fun m => m.1.text ++ m.2) (str "\n")

/-! ## The table -/

lemma headD_map_tails {β : Type} (f : List Str → β) (l : List Str) (missing : β) :
    (l.tails.map f).headD missing = f l := by cases l <;> rfl

lemma tableRow_eq (a : Str) (as bs : List Str) :
    tableRow a bs (bs.tails.map (lcsLength as)) = bs.tails.map (lcsLength (a :: as)) := by
  induction bs with
  | nil => simp [tableRow]
  | cons b bs ih =>
    rw [tableRow, tails_cons, map_cons, map_cons, tail_cons, headD_cons, ih, headD_map_tails,
      headD_map_tails, lcsLength]

/-- Every entry is the length for the suffixes of its row and its column. -/
lemma table_eq (as bs : List Str) :
    table bs as = as.tails.map fun s => bs.tails.map (lcsLength s) := by
  induction as with
  | nil =>
    have hzero : lcsLength ([] : List Str) = fun _ => 0 := by
      funext bs
      rw [lcsLength]
    simp [table, hzero]
  | cons a as ih => rw [table, ih, headD_map_tails, tableRow_eq, tails_cons, map_cons]

lemma getD_map_tails {full : List Str} {j : ℕ} (f : List Str → ℕ) (hj : j ≤ full.length) :
    (full.tails.map f).getD j 0 = f (full.drop j) := by
  have hlt : j < full.tails.length := by
    rw [length_tails]
    omega
  rw [getD_eq_getElem?_getD, getElem?_map, getElem?_eq_getElem hlt, getElem_tails]
  rfl

/-- The part of the table that the walk looks at. -/
lemma table_entries {full : List Str} {rows : List (List ℕ)} {j : ℕ} {a b : Str}
    {as bs : List Str} (hrows : rows = (a :: as).tails.map fun s => full.tails.map (lcsLength s))
    (hbs : full.drop j = b :: bs) :
    (rows.tail = as.tails.map fun s => full.tails.map (lcsLength s)) ∧ full.drop (j + 1) = bs ∧
      (rows.headD []).getD (j + 1) 0 = lcsLength (a :: as) bs ∧
      (rows.tail.headD []).getD j 0 = lcsLength as (b :: bs) := by
  have hj : j < full.length := by
    by_contra hge
    rw [drop_eq_nil_of_le (by omega)] at hbs
    cases hbs
  have hnext : full.drop (j + 1) = bs := by rw [← tail_drop, hbs, tail_cons]
  have htail : rows.tail = as.tails.map fun s => full.tails.map (lcsLength s) := by
    rw [hrows, tails_cons, map_cons, tail_cons]
  refine ⟨htail, hnext, ?_, ?_⟩
  · rw [hrows, headD_map_tails, getD_map_tails _ (by omega), hnext]
  · rw [htail, headD_map_tails, getD_map_tails _ (by omega), hbs]

/-! ## The walk -/

/-- A script that turns the old lines into the new ones and keeps as many as possible. -/
structure Script (out : List (Mark × Str)) (as bs : List Str) : Prop where
  before : (out.filter fun m => m.1 ≠ .added).map Prod.snd = as
  after : (out.filter fun m => m.1 ≠ .removed).map Prod.snd = bs
  kept : (out.filter fun m => m.1 = .kept).length = lcsLength as bs

lemma script_walk {full : List Str} {rows : List (List ℕ)} {j : ℕ} {as bs : List Str}
    (hrows : rows = as.tails.map fun s => full.tails.map (lcsLength s))
    (hbs : full.drop j = bs) : Script (walk rows j as bs) as bs := by
  induction rows, j, as, bs using walk.induct with
  | case1 rows j bs =>
    rw [walk]
    exact ⟨by simp [filter_map], by simp [filter_map], by simp [filter_map, lcsLength]⟩
  | case2 rows j as hne =>
    rw [walk]
    · exact ⟨by simp [filter_map], by simp [filter_map], by simp [filter_map]⟩
    · exact hne
  | case3 rows j as b bs ih =>
    obtain ⟨htail, hnext, -, -⟩ := table_entries hrows hbs
    obtain ⟨hbefore, hafter, hkept⟩ := ih htail hnext
    rw [walk, if_pos rfl]
    exact ⟨by simpa using hbefore, by simpa using hafter, by simpa [lcsLength] using hkept⟩
  | case4 rows j a as b bs hne hle ih =>
    obtain ⟨htail, -, hhere, hbelow⟩ := table_entries hrows hbs
    obtain ⟨hbefore, hafter, hkept⟩ := ih htail hbs
    rw [walk, if_neg hne, if_pos hle]
    rw [hhere, hbelow] at hle
    exact ⟨by simpa using hbefore, by simpa using hafter, by simpa [lcsLength, hne, hle] using hkept⟩
  | case5 rows j a as b bs hne hlt ih =>
    obtain ⟨-, hnext, hhere, hbelow⟩ := table_entries hrows hbs
    obtain ⟨hbefore, hafter, hkept⟩ := ih hrows hnext
    rw [walk, if_neg hne, if_neg hlt]
    rw [hhere, hbelow] at hlt
    have hmax := max_eq_right (le_of_not_ge hlt)
    exact ⟨by simpa using hbefore, by simpa using hafter, by simpa [lcsLength, hne, hmax] using hkept⟩

lemma script_diffLines (before after : Str) :
    Script (diffLines before after) (textLines before) (textLines after) :=
  script_walk (table_eq _ _) rfl

lemma walk_self (rows : List (List ℕ)) (j : ℕ) (as : List Str) :
    (walk rows j as as).all (fun m => m.1 = .kept) = true := by
  induction as generalizing rows j with
  | nil => simp [walk]
  | cons a as ih =>
    rw [walk, if_pos rfl, all_cons, ih]
    rfl

/-- A text is what its lines are. -/
lemma textLines_injective : Function.Injective textLines := by
  intro s t h
  unfold textLines at h
  split at h <;> split at h
  · rw [‹s = []›, ‹t = []›]
  · exact absurd h.symm (split_ne_nil _ _)
  · exact absurd h (split_ne_nil _ _)
  · rw [← join_split 0x0a s, h, join_split]

/-- The diff of two texts is empty exactly if they are equal; otherwise its lines are those of
the one text but for the added ones and those of the other but for the removed ones, and as
many are kept as a longest common subsequence has. -/
theorem unifiedDiff_minimal (before after : Str) :
    (unifiedDiff before after = [] ↔ before = after) ∧
      (before ≠ after → ∃ out : List (Mark × Str),
        unifiedDiff before after = join (out.map fun m => m.1.text ++ m.2) (str "\n") ∧
        (out.filter fun m => m.1 ≠ .added).map Prod.snd = textLines before ∧
        (out.filter fun m => m.1 ≠ .removed).map Prod.snd = textLines after ∧
        IsGreatest { n | ∃ l, l <+ textLines before ∧ l <+ textLines after ∧ l.length = n }
          (out.filter fun m => m.1 = .kept).length) := by
  obtain ⟨hbefore, hafter, hkept⟩ := script_diffLines before after
  have hall : (diffLines before after).all (fun m => m.1 = .kept) = true ↔ before = after := by
    constructor
    · intro hall
      have hmark : ∀ m ∈ diffLines before after, m.1 = .kept := by simpa using hall
      refine textLines_injective ?_
      rw [← hbefore, ← hafter, filter_eq_self.mpr, filter_eq_self.mpr]
      all_goals
        intro m hm
        simp [hmark m hm]
    · rintro rfl
      exact walk_self _ _ _
  unfold unifiedDiff
  by_cases heq : before = after
  · rw [if_pos (hall.mpr heq)]
    exact ⟨iff_of_true rfl heq, fun hne => absurd heq hne⟩
  rw [if_neg (hall.not.mpr heq)]
  refine ⟨iff_of_false ?_ heq, fun _ => ⟨_, rfl, hbefore, hafter, ?_, ?_⟩⟩
  · intro hnil
    obtain ⟨m, hm, -⟩ : ∃ m ∈ diffLines before after, ¬ m.1 = .kept := by
      simpa using hall.not.mpr heq
    have hline : m.1.text ++ m.2 <:+: [] := hnil ▸ isInfix_join (mem_map.mpr ⟨m, hm, rfl⟩)
    rw [infix_nil, append_eq_nil_iff] at hline
    exact m.1.text_ne_nil hline.1
  · have hsub : ∀ p : Mark × Str → Bool, (∀ m, m.1 = .kept → p m = true) →
        ((diffLines before after).filter fun m => m.1 = .kept).map Prod.snd <+
          ((diffLines before after).filter p).map Prod.snd := fun p hp =>
      (monotone_filter_right _ fun m hm => hp m (of_decide_eq_true hm)).map _
    refine ⟨_, hbefore ▸ hsub _ ?_, hafter ▸ hsub _ ?_, length_map _⟩ <;> simp +contextual
  · rintro n ⟨l, hl, hl', rfl⟩
    rw [hkept]
    exact length_le_lcsLength hl hl'

end StreamHub.Apps
