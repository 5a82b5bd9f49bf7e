import Mathlib.Data.List.DropRight
import Mathlib.Tactic

/-!
# Byte strings

Strings as lists of bytes, with the searching and cutting functions programs use
on them.  `cut` carries the one law the splitting functions share: the pieces put
together again are the string (`cut_some`).
-/

namespace StreamHub.Library.Text

open List

/-- A string of bytes. -/
abbrev Str := List UInt8

instance : LawfulBEq Str := inferInstance

/-- UTF-8 of one character. -/
def utf8 (c : Char) : Str :=
  let n := c.toNat
  let tail (k : Nat) : UInt8 := UInt8.ofNat (0x80 + n / 64 ^ k % 64)
  if n < 0x80 then [UInt8.ofNat n]
  else if n < 0x800 then [UInt8.ofNat (0xc0 + n / 64), tail 0]
  else if n < 0x10000 then [UInt8.ofNat (0xe0 + n / 64 ^ 2), tail 1, tail 0]
  else [UInt8.ofNat (0xf0 + n / 64 ^ 3), tail 2, tail 1, tail 0]

/-- The bytes of a literal. -/
def str (s : String) : Str := s.toList.flatMap utf8

/-- Decimal digits. -/
def natText (n : Nat) : Str :=
  if n = 0 then str "0" else (Nat.digits 10 n).reverse.map fun d => UInt8.ofNat (0x30 + d)

/-- Decimal digits, with a sign. -/
def itoa : Int → Str
  | .ofNat n => natText n
  | .negSucc n => str "-" ++ natText (n + 1)

/-- The nearest integer, the even one of two. -/
def roundEven (q : ℚ) : Int :=
  let low := ⌊q⌋
  if q - low < 1 / 2 ∨ (q - low = 1 / 2 ∧ low % 2 = 0) then low else low + 1

/-- The verb `%.<digits>f` of `fmt`. -/
def fixed (digits : Nat) (q : ℚ) : Str :=
  let scaled := (roundEven (|q| * 10 ^ digits)).toNat
  let whole := natText (scaled / 10 ^ digits)
  let fraction := natText (scaled % 10 ^ digits)
  (if q < 0 then str "-" else []) ++ whole ++
    if digits = 0 then []
    else str "." ++ replicate (digits - fraction.length) 0x30 ++ fraction

/-! ## Searching -/

/-- Does `sub` occur in `s`? -/
def contains (s sub : Str) : Bool := decide (sub <:+: s)

/-- The text before and after the first occurrence of `sep`. -/
def cut (sep : Str) : Str → Option (Str × Str)
  | [] => if sep = [] then some ([], []) else none
  | c :: s =>
    if sep.isPrefixOf (c :: s) then some ([], (c :: s).drop sep.length)
    else
      match cut sep s with
      | none => none
      | some (before, after) => some (c :: before, after)

/-- The text before and after the last occurrence of a byte. -/
def cutLast (b : UInt8) (s : Str) : Option (Str × Str) :=
  match cut [b] s.reverse with
  | none => none
  | some (after, before) => some (before.reverse, after.reverse)

/-- The pieces between the occurrences of a byte; at least one. -/
def split (b : UInt8) : Str → List Str
  | [] => [[]]
  | c :: s =>
    if c = b then [] :: split b s
    else
      match split b s with
      | [] => [[c]]
      | piece :: rest => (c :: piece) :: rest

def trimPrefix (s pre : Str) : Str := if pre.isPrefixOf s then s.drop pre.length else s

def trimSuffix (s suffix : Str) : Str :=
  if suffix.isSuffixOf s then s.take (s.length - suffix.length) else s

/-- Without the bytes `b` at the end. -/
def trimRight (b : UInt8) (s : Str) : Str := s.rdropWhile (· == b)

/-- Without the bytes `b` at both ends. -/
def trim (b : UInt8) (s : Str) : Str := (trimRight b s).dropWhile (· == b)

/-- Replace from here on; `skip` bytes belong to the last occurrence. -/
def replaceFrom (old new : Str) : Nat → Str → Str
  | _, [] => []
  | skip + 1, _ :: s => replaceFrom old new skip s
  | 0, c :: s =>
    if old.isPrefixOf (c :: s) then new ++ replaceFrom old new (old.length - 1) s
    else c :: replaceFrom old new 0 s

/-- Replace the occurrences of a non-empty `old`, from the left. -/
def replaceAll (s old new : Str) : Str := replaceFrom old new 0 s

/-- The pieces with `sep` between them. -/
def join (pieces : List Str) (sep : Str) : Str := sep.intercalate pieces

/-! ## Numbers -/

def isDigit (b : UInt8) : Bool := 0x30 ≤ b && b ≤ 0x39

def isLower (b : UInt8) : Bool := 0x61 ≤ b && b ≤ 0x7a

def isUpper (b : UInt8) : Bool := 0x41 ≤ b && b ≤ 0x5a

def isAlnum (b : UInt8) : Bool := isDigit b || isLower b || isUpper b

/-- The value of decimal digits. -/
def digitsValue (s : Str) : Nat := s.foldl (fun n b => n * 10 + (b.toNat - 0x30)) 0

/-- The number a text writes: an optional sign and decimal digits. -/
def decimal (s : Str) : Option Int :=
  let (negative, digits) : Bool × Str :=
    match s with
    | 0x2b :: rest => (false, rest)
    | 0x2d :: rest => (true, rest)
    | _ => (false, s)
  if digits = [] ∨ digits.all isDigit = false then none
  else some (if negative then -(digitsValue digits : Int) else digitsValue digits)

/-- A decimal number of 64 bits. -/
def atoi (s : Str) : Option Int :=
  match decimal s with
  | none => none
  | some n => if -2 ^ 63 ≤ n ∧ n < 2 ^ 63 then some n else none

/-- The value that comes with the error too: zero, or the closest number of 64
bits. -/
def atoiValue (s : Str) : Int :=
  match decimal s with
  | none => 0
  | some n => max (-2 ^ 63) (min n (2 ^ 63 - 1))

/-! ## Laws -/

-- the equations of the functions are derived here once, not by several laws at a time
section Equations

attribute [local simp] cut cutLast split replaceFrom contains natText itoa

end Equations

variable {b : UInt8}

lemma isDigit_iff : isDigit b = true ↔ 0x30 ≤ b.toNat ∧ b.toNat ≤ 0x39 := by
  simp [isDigit, UInt8.le_iff_toNat_le]

variable {s : Str}

lemma cut_some {sep before after : Str} (h : cut sep s = some (before, after)) :
    s = before ++ sep ++ after := by
  induction s generalizing before after with
  | nil =>
    simp only [cut] at h
    split at h
    · rename_i hsep
      cases h
      simp [hsep]
    · cases h
  | cons c s ih =>
    simp only [cut] at h
    split at h
    · rename_i hpre
      cases h
      obtain ⟨rest, hrest⟩ := isPrefixOf_iff_prefix.mp hpre
      rw [← hrest]
      simp
    · split at h
      · cases h
      rename_i first second hcut
      cases h
      rw [ih hcut]
      simp

lemma cutLast_some {before after : Str} (h : cutLast b s = some (before, after)) :
    s = before ++ [b] ++ after := by
  unfold cutLast at h
  split at h
  · cases h
  rename_i last first hcut
  cases h
  have hreversed := congrArg reverse (cut_some hcut)
  simpa using hreversed

/-- A text is cut at a byte that is not before it. -/
lemma cut_append (hs : b ∉ s) (t : Str) : cut [b] (s ++ b :: t) = some (s, t) := by
  induction s with
  | nil => simp [cut]
  | cons c s ih =>
    obtain ⟨hne, hrest⟩ := not_or.mp (mem_cons.not.mp hs)
    simp [cut, hne, ih hrest]

lemma cut_none (h : cut [b] s = none) : b ∉ s := by
  intro hmem
  obtain ⟨first, rest, rfl, hfirst⟩ := eq_append_cons_of_mem hmem
  rw [cut_append hfirst] at h
  cases h

lemma notMem_of_cut {before after : Str} (h : cut [b] s = some (before, after)) : b ∉ before := by
  have hmem : b ∈ s := by simp [cut_some h]
  obtain ⟨first, rest, rfl, hfirst⟩ := eq_append_cons_of_mem hmem
  rw [cut_append hfirst] at h
  cases h
  exact hfirst

lemma cut_of_notMem (h : b ∉ s) : cut [b] s = none := by
  cases hcut : cut [b] s with
  | none => rfl
  | some parts => exact absurd (by simp [cut_some hcut]) h

variable {sep : UInt8}

lemma notMem_of_cutLast_none (h : cutLast sep s = none) : sep ∉ s := by
  rw [cutLast] at h
  split at h
  · rename_i hcut
    simpa using cut_none hcut
  · cases h

lemma notMem_of_cutLast {before line : Str} (h : cutLast sep s = some (before, line)) :
    sep ∉ line := by
  rw [cutLast] at h
  split at h
  · cases h
  rename_i after first hcut
  cases h
  simpa using notMem_of_cut hcut

lemma join_cons_cons (first second : Str) (rest : List Str) (sep : Str) :
    join (first :: second :: rest) sep = first ++ (sep ++ join (second :: rest) sep) := by
  simp [join, intercalate]

lemma join_cons (first : Str) (rest : List Str) (sep : Str) :
    join (first :: rest) sep = first ++ rest.flatMap (sep ++ ·) := by
  induction rest generalizing first with
  | nil => simp [join]
  | cons second rest ih => rw [join_cons_cons, ih, flatMap_cons, append_assoc]

variable {pieces : List Str}

lemma isInfix_join {piece sep : Str} (h : piece ∈ pieces) : piece <:+: join pieces sep := by
  cases pieces with
  | nil => cases h
  | cons first rest =>
    rw [join_cons]
    rcases mem_cons.mp h with rfl | hmem
    · exact (prefix_append _ _).isInfix
    · have hrest : sep ++ piece <:+: rest.flatMap (sep ++ ·) :=
        infix_of_mem_flatten (mem_map_of_mem hmem)
      exact ((suffix_append sep piece).isInfix.trans hrest).trans (suffix_append _ _).isInfix

lemma mem_join (h : b ∈ join pieces [sep]) : b = sep ∨ ∃ piece ∈ pieces, b ∈ piece := by
  cases pieces with
  | nil => cases h
  | cons first rest =>
    rw [join_cons, mem_append, mem_flatMap] at h
    obtain h | ⟨piece, hpiece, h⟩ := h
    · exact .inr ⟨first, mem_cons_self, h⟩
    · exact (mem_cons.mp h).imp_right fun h => ⟨piece, mem_cons_of_mem first hpiece, h⟩

lemma map_join (f : UInt8 → UInt8) (pieces : List Str) (sep : UInt8) :
    (join pieces [sep]).map f = join (pieces.map (map f)) [f sep] := by
  cases pieces with
  | nil => rfl
  | cons first rest => simp [join_cons, map_flatMap, flatMap_map]

lemma join_append_singleton {front : List Str} (h : front ≠ []) (x : Str) (sep : UInt8) :
    join (front ++ [x]) [sep] = join front [sep] ++ sep :: x := by
  obtain ⟨first, rest, rfl⟩ := exists_cons_of_ne_nil h
  simp [join_cons]

lemma split_ne_nil (b : UInt8) (s : Str) : split b s ≠ [] := by
  cases s with
  | nil => exact cons_ne_nil _ _
  | cons c s =>
    simp only [split]
    split
    · exact cons_ne_nil _ _
    · split <;> exact cons_ne_nil _ _

lemma join_split (b : UInt8) (s : Str) : join (split b s) [b] = s := by
  induction s with
  | nil => rfl
  | cons c s ih =>
    obtain ⟨piece, rest, hsplit⟩ := exists_cons_of_ne_nil (split_ne_nil b s)
    simp only [split, hsplit]
    rw [hsplit] at ih
    split
    · rename_i hc
      rw [join_cons_cons, ih, hc]
      rfl
    cases rest with
    | nil => simp [← ih, join]
    | cons second rest =>
      rw [join_cons_cons] at ih ⊢
      rw [cons_append, ih]

lemma split_of_notMem (h : sep ∉ s) : split sep s = [s] := by
  induction s with
  | nil => rfl
  | cons c s ih =>
    obtain ⟨hne, hrest⟩ := not_or.mp (mem_cons.not.mp h)
    rw [split, if_neg (Ne.symm hne), ih hrest]

lemma split_append_line (before : Str) {line : Str} (h : sep ∉ line) :
    split sep (before ++ [sep] ++ line) = split sep before ++ [line] := by
  induction before with
  | nil => simp [split, split_of_notMem h]
  | cons c before ih =>
    rw [cons_append, cons_append, split, ih]
    obtain ⟨piece, rest, hsplit⟩ := exists_cons_of_ne_nil (split_ne_nil sep before)
    rw [split, hsplit]
    split
    · rfl
    · rfl

/-- A first piece before a separator. -/
lemma split_line_append {line : Str} (h : sep ∉ line) (s : Str) :
    split sep (line ++ sep :: s) = line :: split sep s := by
  induction line with
  | nil => simp [split]
  | cons c line ih =>
    obtain ⟨hne, hrest⟩ := not_or.mp (mem_cons.not.mp h)
    rw [cons_append, split, if_neg (Ne.symm hne), ih hrest]

lemma notMem_of_mem_split {piece : Str} (h : piece ∈ split sep s) : sep ∉ piece := by
  induction s generalizing piece with
  | nil => simp_all [split]
  | cons c s ih =>
    obtain ⟨first, rest, hsplit⟩ := exists_cons_of_ne_nil (split_ne_nil sep s)
    rw [split, hsplit] at h
    split at h
    · rcases mem_cons.mp h with rfl | h
      · simp
      · exact ih (by rwa [hsplit])
    rename_i hne
    rcases mem_cons.mp h with rfl | h
    · have hfirst : sep ∉ first := ih (by simp [hsplit])
      exact mem_cons.not.mpr (not_or.mpr ⟨Ne.symm hne, hfirst⟩)
    · exact ih (by simp [hsplit, h])

lemma split_join (hpieces : pieces ≠ []) (h : ∀ piece ∈ pieces, sep ∉ piece) :
    split sep (join pieces [sep]) = pieces := by
  induction pieces with
  | nil => exact absurd rfl hpieces
  | cons first rest ih =>
    obtain ⟨hfirst, hrest⟩ := forall_mem_cons.mp h
    cases rest with
    | nil => simpa [join] using split_of_notMem hfirst
    | cons second rest =>
      rw [join_cons_cons, singleton_append, split_line_append hfirst, ih (by simp) hrest]

lemma contains_iff {sub : Str} : contains s sub = true ↔ sub <:+: s := by simp [contains]

lemma contains_singleton : contains s [b] = true ↔ b ∈ s := by
  rw [contains_iff]
  refine ⟨fun h => h.subset mem_cons_self, fun h => ?_⟩
  obtain ⟨before, after, rfl⟩ := append_of_mem h
  exact ⟨before, after, by simp⟩

lemma contains_append_left {sub : Str} (pre : Str) (h : contains s sub = true) :
    contains (pre ++ s) sub = true := by
  rw [contains_iff] at h ⊢
  exact h.trans (suffix_append pre s).isInfix

lemma contains_append_right {sub : Str} (post : Str) (h : contains s sub = true) :
    contains (s ++ post) sub = true := by
  rw [contains_iff] at h ⊢
  exact h.trans (prefix_append s post).isInfix

lemma contains_self (s : Str) : contains s s = true := contains_iff.mpr (infix_refl s)

/-! ## Distinct texts -/

lemma append_byte_injective_left {t s' t' : Str} (hs : b ∉ s) (hs' : b ∉ s')
    (h : s ++ b :: t = s' ++ b :: t') : s = s' ∧ t = t' := by
  have hcut := cut_append hs t
  rw [h, cut_append hs' t'] at hcut
  cases hcut
  exact ⟨rfl, rfl⟩

lemma cutLast_append (s : Str) {t : Str} (ht : b ∉ t) : cutLast b (s ++ b :: t) = some (s, t) := by
  have hreverse : (s ++ b :: t).reverse = t.reverse ++ b :: s.reverse := by simp
  rw [cutLast, hreverse, cut_append (by simpa using ht)]
  simp

lemma append_byte_injective {t s' t' : Str} (ht : b ∉ t) (ht' : b ∉ t')
    (h : s ++ b :: t = s' ++ b :: t') : s = s' ∧ t = t' := by
  have hcut := cutLast_append s ht
  rw [h, cutLast_append s' ht'] at hcut
  cases hcut
  exact ⟨rfl, rfl⟩

lemma digits_lt_ten {n : Nat} : ∀ d ∈ Nat.digits 10 n, d < 10 := fun _ hd =>
  Nat.digits_lt_base (by norm_num) hd

lemma isDigit_of_mem_natText {n : Nat} (h : b ∈ natText n) : isDigit b = true := by
  unfold natText at h
  split at h
  · rw [mem_singleton.mp h]
    decide
  obtain ⟨d, hd, rfl⟩ := mem_map.mp h
  have hlt := digits_lt_ten d (mem_reverse.mp hd)
  rw [isDigit_iff, UInt8.toNat_ofNat']
  omega

lemma minus_not_mem_natText (n : Nat) : (0x2d : UInt8) ∉ natText n := fun hmem =>
  absurd (isDigit_of_mem_natText hmem) (by decide)

lemma natText_ne_nil (n : Nat) : natText n ≠ [] := by
  unfold natText
  split
  · decide
  rename_i hn
  simpa [Nat.digits_ne_nil_iff_ne_zero] using hn

lemma digitsValue_zeros (k : Nat) (s : Str) :
    digitsValue (replicate k 0x30 ++ s) = digitsValue s := by
  induction k with
  | zero => rfl
  | succ k ih => exact ih

lemma digitsValue_natText (n : Nat) : digitsValue (natText n) = n := by
  unfold natText
  split
  · rename_i hn
    exact hn.symm
  have hvalue : ∀ ds : List Nat, (∀ d ∈ ds, d < 10) →
      digitsValue (ds.reverse.map fun d => UInt8.ofNat (0x30 + d)) = Nat.ofDigits 10 ds := by
    intro ds hds
    induction ds with
    | nil => rfl
    | cons d ds ih =>
      obtain ⟨hd, hrest⟩ := forall_mem_cons.mp hds
      have hbyte : (UInt8.ofNat (0x30 + d)).toNat - 0x30 = d := by
        rw [UInt8.toNat_ofNat']
        omega
      rw [digitsValue] at ih
      rw [digitsValue, reverse_cons, map_append, foldl_append, ih hrest,
        map_cons, map_nil, foldl_cons, foldl_nil, hbyte, Nat.ofDigits_cons]
      ring
  rw [hvalue _ digits_lt_ten, Nat.ofDigits_digits]

lemma natText_head {n : Nat} : natText n ≠ 0x2d :: s := by
  intro h
  refine minus_not_mem_natText n ?_
  rw [h]
  exact mem_cons_self

lemma natText_injective : Function.Injective natText :=
  Function.LeftInverse.injective digitsValue_natText

lemma itoa_injective : Function.Injective itoa := by
  intro a b h
  match a, b, h with
  | .ofNat m, .ofNat n, h => rw [natText_injective h]
  | .negSucc m, .negSucc n, h =>
    have hsucc := natText_injective (append_cancel_left h)
    rw [Nat.succ.inj hsucc]
  | .ofNat m, .negSucc n, h => exact absurd h natText_head
  | .negSucc m, .ofNat n, h => exact absurd h.symm natText_head

end StreamHub.Library.Text
