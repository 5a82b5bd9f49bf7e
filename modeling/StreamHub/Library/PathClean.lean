import StreamHub.Library.Text

/-!
# Paths with dot segments

`clean` and `pathJoin` are `path.Clean` and `path.Join`: the segments of a path are put
on a stack, and `..` takes one off.  Segments that never lead above where they begin
leave what is below them on the stack alone (`foldl_cleanStep`), so what is joined to a
directory by them stays in it (`pathJoin_stays`).
-/

namespace StreamHub.Library.Text

open List

def slash : UInt8 := 0x2f

def dot : Str := str "."

def dotdot : Str := str ".."

/-- One segment; the last segment is the first on the stack. -/
def cleanStep (rooted : Bool) (stack : List Str) (seg : Str) : List Str :=
  if seg = [] ∨ seg = dot then stack
  else if seg = dotdot then
    match stack with
    | [] => if rooted then [] else [dotdot]
    | top :: below => if top = dotdot then dotdot :: top :: below else below
  else seg :: stack

/-- The segments of a path that are left. -/
def cleanSegments (rooted : Bool) (segs : List Str) : List Str :=
  (segs.foldl (cleanStep rooted) []).reverse

/-- `path.Clean` -/
def clean (p : Str) : Str :=
  match p with
  | [] => dot
  | c :: rest =>
    if c = slash then slash :: join (cleanSegments true (split slash rest)) [slash]
    else
      match cleanSegments false (split slash p) with
      | [] => dot
      | segs => join segs [slash]

/-- `path.Join` -/
def pathJoin (elems : List Str) : Str :=
  match elems.filter (· ≠ []) with
  | [] => []
  | elems => clean (join elems [slash])

/-! ## Names -/

/-- A segment that names something. -/
structure IsName (seg : Str) : Prop where
  ne_nil : seg ≠ []
  ne_dot : seg ≠ dot
  ne_dotdot : seg ≠ dotdot
  no_slash : slash ∉ seg

instance (seg : Str) : Decidable (IsName seg) :=
  decidable_of_iff (seg ≠ [] ∧ seg ≠ dot ∧ seg ≠ dotdot ∧ slash ∉ seg)
    ⟨fun h => ⟨h.1, h.2.1, h.2.2.1, h.2.2.2⟩, fun h => ⟨h.1, h.2, h.3, h.4⟩⟩

variable {rooted : Bool}

lemma cleanStep_name {stack : List Str} {seg : Str} (h : IsName seg) :
    cleanStep rooted stack seg = seg :: stack := by
  unfold cleanStep
  rw [if_neg (not_or.mpr ⟨h.ne_nil, h.ne_dot⟩), if_neg h.ne_dotdot]

lemma cleanStep_skip {stack : List Str} {seg : Str} (h : seg = [] ∨ seg = dot) :
    cleanStep rooted stack seg = stack := by
  unfold cleanStep
  rw [if_pos h]

lemma cleanStep_up {top : Str} {below : List Str} (h : IsName top) :
    cleanStep rooted (top :: below) dotdot = below := by
  unfold cleanStep
  rw [if_neg (by decide), if_pos rfl]
  dsimp only
  rw [if_neg h.ne_dotdot]

variable {segs : List Str}

lemma foldl_cleanStep_names (h : ∀ seg ∈ segs, IsName seg) (stack : List Str) :
    segs.foldl (cleanStep rooted) stack = segs.reverse ++ stack := by
  induction segs generalizing stack with
  | nil => rfl
  | cons seg rest ih =>
    obtain ⟨hseg, hrest⟩ := forall_mem_cons.mp h
    rw [foldl_cons, cleanStep_name hseg, ih hrest, reverse_cons, append_assoc]
    rfl

lemma cleanSegments_names (h : ∀ seg ∈ segs, IsName seg) : cleanSegments rooted segs = segs := by
  rw [cleanSegments, foldl_cleanStep_names h, append_nil, reverse_reverse]

/-- Segments that begin `depth` below a directory, never lead above it, and end below it. -/
def stays : ℕ → List Str → Bool
  | depth, [] => depth ≠ 0
  | depth, seg :: rest =>
    if seg = [] ∨ seg = dot then stays depth rest
    else if seg = dotdot then
      match depth with
      | 0 => false
      | depth + 1 => stays depth rest
    else stays (depth + 1) rest

/-- Such segments leave what is on the stack below them. -/
lemma foldl_cleanStep (rooted : Bool) (base : List Str) {above : List Str}
    (habove : ∀ seg ∈ above, IsName seg) (hsegs : ∀ seg ∈ segs, slash ∉ seg)
    (hstays : stays above.length segs = true) :
    ∃ above', above' ≠ [] ∧ (∀ seg ∈ above', IsName seg) ∧
      segs.foldl (cleanStep rooted) (above ++ base) = above' ++ base := by
  induction segs generalizing above with
  | nil =>
    refine ⟨above, ?_, habove, rfl⟩
    rintro rfl
    simp [stays] at hstays
  | cons seg rest ih =>
    obtain ⟨hseg, hrest⟩ := forall_mem_cons.mp hsegs
    unfold stays at hstays
    rw [foldl_cons]
    by_cases hskip : seg = [] ∨ seg = dot
    · rw [if_pos hskip] at hstays
      rw [cleanStep_skip hskip]
      exact ih habove hrest hstays
    rw [if_neg hskip] at hstays
    by_cases hup : seg = dotdot
    · rw [if_pos hup] at hstays
      cases above with
      | nil => simp at hstays
      | cons top below =>
        obtain ⟨htop, hbelow⟩ := forall_mem_cons.mp habove
        rw [hup, cons_append, cleanStep_up htop]
        exact ih hbelow hrest hstays
    · rw [if_neg hup] at hstays
      have hname : IsName seg := ⟨fun h => hskip (Or.inl h), fun h => hskip (Or.inr h), hup, hseg⟩
      rw [cleanStep_name hname]
      exact ih (forall_mem_cons.mpr ⟨hname, habove⟩) hrest hstays

/-! ## Joined paths -/

lemma join_cons_of_ne_nil (first : Str) {rest : List Str} (hrest : rest ≠ []) (sep : Str) :
    join (first :: rest) sep = first ++ (sep ++ join rest sep) := by
  obtain ⟨second, rest, rfl⟩ := exists_cons_of_ne_nil hrest
  exact join_cons_cons first second rest sep

lemma join_append {front rest : List Str} (hrest : rest ≠ []) (sep : Str) :
    join (front ++ rest) sep = (front.flatMap fun p => p ++ sep) ++ join rest sep := by
  induction front with
  | nil => rfl
  | cons first front ih =>
    rw [cons_append, join_cons_of_ne_nil first (by simp [hrest]), ih, flatMap_cons,
      append_assoc, append_assoc]

lemma join_ne_nil {pieces : List Str} (hpieces : pieces ≠ []) (h : ∀ p ∈ pieces, IsName p)
    (sep : Str) : join pieces sep ≠ [] := by
  obtain ⟨first, rest, rfl⟩ := exists_cons_of_ne_nil hpieces
  rw [join_cons]
  exact append_ne_nil_of_left_ne_nil (h first mem_cons_self).ne_nil _

lemma clean_rooted (rest : Str) :
    clean (slash :: rest) = slash :: join (cleanSegments true (split slash rest)) [slash] := by
  rw [clean, if_pos rfl]

lemma clean_relative {c : UInt8} {p : Str} (hc : c ≠ slash)
    (hsegs : cleanSegments false (split slash (c :: p)) ≠ []) :
    clean (c :: p) = join (cleanSegments false (split slash (c :: p))) [slash] := by
  rw [clean, if_neg hc]
  split
  · rename_i hnil
    exact absurd hnil hsegs
  · rfl

lemma pathJoin_of_ne_nil {elems : List Str} (hne : elems ≠ []) (h : ∀ e ∈ elems, e ≠ []) :
    pathJoin elems = clean (join elems [slash]) := by
  have hfilter : elems.filter (· ≠ []) = elems :=
    filter_eq_self.mpr fun e he => by simpa using h e he
  obtain ⟨first, rest, rfl⟩ := exists_cons_of_ne_nil hne
  rw [pathJoin, hfilter]

lemma clean_rooted_names (hsegs : segs ≠ []) (h : ∀ seg ∈ segs, IsName seg) :
    clean (slash :: join segs [slash]) = slash :: join segs [slash] := by
  rw [clean_rooted, split_join hsegs fun seg hseg => (h seg hseg).no_slash, cleanSegments_names h]

lemma split_join_append {front : List Str} (hnames : ∀ seg ∈ front, IsName seg) (rest : Str) :
    split slash (join (front ++ [rest]) [slash]) = front ++ split slash rest := by
  induction front with
  | nil => simp [join]
  | cons first front ih =>
    obtain ⟨hfirst, hothers⟩ := forall_mem_cons.mp hnames
    rw [cons_append, join_cons_of_ne_nil first (by simp), singleton_append,
      split_line_append hfirst.no_slash, ih hothers, cons_append]

/-- What is joined to names by segments that stay below them. -/
lemma pathJoin_stays {first : Str} {front : List Str} {rest : Str}
    (hnames : ∀ seg ∈ first :: front, IsName seg) (hrest : rest ≠ [])
    (hstays : stays 0 (split slash rest) = true) :
    ∃ below, below ≠ [] ∧ (∀ seg ∈ below, IsName seg) ∧
      pathJoin (first :: front ++ [rest]) = join (first :: front ++ below) [slash] := by
  have hnone : ∀ seg ∈ ([] : List Str), IsName seg := by simp
  obtain ⟨above, habove, hnames', hfold⟩ := foldl_cleanStep false (first :: front).reverse hnone
    (fun seg hseg => notMem_of_mem_split hseg) hstays
  refine ⟨above.reverse, by simpa using habove, fun seg hseg => hnames' seg (by simpa using hseg), ?_⟩
  have hsegments : cleanSegments false (split slash (join (first :: front ++ [rest]) [slash])) =
      first :: front ++ above.reverse := by
    rw [nil_append] at hfold
    rw [split_join_append hnames, cleanSegments, foldl_append, foldl_cleanStep_names hnames,
      append_nil, hfold, reverse_append, reverse_reverse]
  have hne : ∀ e ∈ first :: front ++ [rest], e ≠ [] := by
    refine forall_mem_append.mpr ⟨fun e he => (hnames e he).ne_nil, ?_⟩
    simpa using hrest
  have hfirst := (forall_mem_cons.mp hnames).1
  obtain ⟨c, name, rfl⟩ := exists_cons_of_ne_nil hfirst.ne_nil
  have hc : c ≠ slash := fun heq => hfirst.no_slash (by simp [heq])
  rw [pathJoin_of_ne_nil (by simp) hne]
  rw [cons_append, join_cons_of_ne_nil _ (by simp), cons_append] at hsegments ⊢
  rw [clean_relative hc (by rw [hsegments]; simp), hsegments]

end StreamHub.Library.Text
