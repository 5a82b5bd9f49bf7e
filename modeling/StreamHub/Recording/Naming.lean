import StreamHub.Library.FileTree
import StreamHub.Yamljs.Value

/-!
# The names of recordings

A recording is named by a template of the app or, without one, by a slug of its stream and
the millisecond of its start.  The name is the only key to everything that is kept for the
recording: the local file, the object in the bucket, the snapshot, the tree of renditions.

`rootOf` takes the tag of a part off a name.  It is what the parts of one recording have in
common (`rootOf_partTag`).
`resolveKey` puts a key below the prefix of the app; keys of the forms that occur stay apart
(`resolveKey_injOn`).
-/

namespace StreamHub.Recording

open Library Text Runes FileTree
open List hiding contains

/-! ## Templates -/

/-- A reading of the clock, with its fields in UTC. -/
structure Reading where
  unixMilli : Int
  isZero : Bool
  year : Int
  month : ℕ
  day : ℕ
  hour : ℕ
  minute : ℕ
  second : ℕ

def hyphen : UInt8 := 0x2d

def period : UInt8 := 0x2e

/-- The white space that `jsTrim` knows. -/
def isJsSpace (r : Str) : Bool :=
  match r with
  | [b] => isSpace b
  | [0xc2, 0xa0] => true
  | [0xe1, 0x9a, 0x80] => true
  | [0xe2, 0x80, b] => (0x80 ≤ b && b ≤ 0x8a) || b == 0xa8 || b == 0xa9 || b == 0xaf
  | [0xe2, 0x81, 0x9f] => true
  | [0xe3, 0x80, 0x80] => true
  | [0xef, 0xbb, 0xbf] => true
  | _ => false

/-- `jsTrim` -/
def jsTrim (s : Str) : Str := (((pieces s).dropWhile isJsSpace).rdropWhile isJsSpace).flatten

/-- Every run of such bytes becomes one byte. -/
def squeeze (run : UInt8 → Bool) (by_ : UInt8) : Bool → Str → Str
  | _, [] => []
  | inRun, b :: s =>
    if run b then if inRun then squeeze run by_ true s else by_ :: squeeze run by_ true s
    else b :: squeeze run by_ false s

/-- Without such bytes at both ends. -/
def trimBytes (edge : UInt8 → Bool) (s : Str) : Str := (s.dropWhile edge).rdropWhile edge

/-- A byte of the pattern's class `[A-Za-z0-9._-]`. -/
def isSafe (b : UInt8) : Bool := isAlnum b || b == period || b == 0x5f || b == hyphen

/-- `slug` -/
def slug (s : Str) : Str :=
  match trimBytes (· == hyphen) (squeeze (fun b => !isSafe b) hyphen false s) with
  | [] => str "rec"
  | out => out

/-- `SanitizeSegment` -/
def sanitizeSegment (raw : Str) : Str :=
  let s := squeeze (fun b => !isSafe b) hyphen false raw
  let s := squeeze (· == period) period false s
  let s := squeeze (· == hyphen) hyphen false s
  let s := trimBytes (fun b => b == period || b == hyphen) s
  (s.take 200).rdropWhile fun b => b == period || b == hyphen

/-- `p2` -/
def p2 (n : ℕ) : Str := if n < 10 then str "0" ++ natText n else natText n

def dateTokens (t : Reading) : List (Str × Str) :=
  let year := itoa t.year
  [(str "yyyy", year), (str "yy", year.drop (year.length - 2)), (str "MM", p2 t.month),
    (str "dd", p2 t.day), (str "HH", p2 t.hour), (str "mm", p2 t.minute), (str "ss", p2 t.second)]

/-- `FormatDate`; the first `skip` bytes belong to the last token. -/
def formatDate (t : Reading) : ℕ → Str → Str
  | _, [] => []
  | skip + 1, _ :: f => formatDate t skip f
  | 0, c :: f =>
    match (dateTokens t).find? fun tk => tk.1.isPrefixOf (c :: f) with
    | some tk => tk.2 ++ formatDate t (tk.1.length - 1) f
    | none => c :: formatDate t 0 f

/-- `TemplateTokens` -/
structure TemplateTokens where
  app : Str
  streamID : Str
  room : Str
  type : Str
  vars : List (Str × Str)
  now : Reading

/-- `resolveToken` -/
def resolveToken (expr : Str) (t : TemplateTokens) (now : Reading) : Str :=
  let e := jsTrim expr
  if (str "date:").isPrefixOf e then formatDate now 0 (e.drop 5)
  else if (str "var.").isPrefixOf e then (t.vars.lookup (e.drop 4)).getD []
  else if e = str "app" then t.app
  else if e = str "streamId" then t.streamID
  else if e = str "room" then t.room
  else if e = str "type" then t.type
  else if e = str "ts" then itoa (now.unixMilli.tdiv 1000)
  else []

/-- The expression of a token `${…}` at the beginning of a text. -/
def tokenAt (s : Str) : Option Str :=
  if (str "$\x7b").isPrefixOf s then (cut (str "\x7d") (s.drop 2)).map Prod.fst else none

/-- Every token is replaced; the first `skip` bytes belong to the last one. -/
def expand (resolve : Str → Str) : ℕ → Str → Str
  | _, [] => []
  | skip + 1, _ :: s => expand resolve skip s
  | 0, c :: s =>
    match tokenAt (c :: s) with
    | some expr => resolve expr ++ expand resolve (expr.length + 2) s
    | none => c :: expand resolve 0 s

/-- `RenderFilenameTemplate`; `wall` is what `time.Now` reads. -/
def renderFilenameTemplate (template : Str) (t : TemplateTokens) (wall : Reading) : Str :=
  let tpl := jsTrim template
  if tpl = [] then []
  else
    let now := if t.now.isZero then wall else t.now
    sanitizeSegment (expand (fun expr => resolveToken expr t now) 0 tpl)

/-! ## Names -/

def baseSlug (streamID : Str) (now : Reading) : Str :=
  slug streamID ++ str "-" ++ itoa now.unixMilli

/-- `%03d` -/
def partDigits (k : ℕ) : Str := replicate (3 - (natText k).length) 0x30 ++ natText k

/-- The tag of a part. -/
def partTag (partIndex : ℕ) : Str := str "-p" ++ partDigits partIndex

/-- `nodeExtname`, of a name -/
def nodeExtname (base : Str) : Str :=
  match cutLast period base with
  | none => []
  | some (before, after) => if before = [] ∨ trim period base = [] then [] else period :: after

/-- A name without its extension. -/
def baseNoExt (name : Str) : Str := trimSuffix name (nodeExtname name)

/-- A name without the tag of a part. -/
def rootOf (name : Str) : Str :=
  match cutLast hyphen name with
  | some (before, 0x70 :: digits) => if digits ≠ [] ∧ digits.all isDigit then before else name
  | _ => name

/-- `ValidLocalDir` -/
def validLocalDir (dir : Str) : Bool :=
  dir.all isSafe && dir ≠ [] && dir.length ≤ 64 && dir ≠ dot && !contains dir dotdot

/-- `resolveKey` -/
def resolveKey (keyPrefix key : Str) : Str :=
  let clean := key.dropWhile (· == slash)
  let pre := trim slash keyPrefix
  if pre = [] then clean
  else if clean = pre ∨ (pre ++ [slash]).isPrefixOf clean then clean
  else pre ++ [slash] ++ clean

/-! ## Bytes of names -/

section Bytes

variable {p run : UInt8 → Bool} {by_ b : UInt8} {inRun : Bool} {s : Str}

lemma mem_squeeze (h : b ∈ squeeze run by_ inRun s) : b = by_ ∨ (b ∈ s ∧ run b = false) := by
  induction s generalizing inRun with
  | nil => cases h
  | cons c s ih =>
    rw [squeeze] at h
    split at h
    · split at h
      · exact (ih h).imp_right fun hb => ⟨mem_cons_of_mem c hb.1, hb.2⟩
      · obtain rfl | h := mem_cons.mp h
        · exact .inl rfl
        · exact (ih h).imp_right fun hb => ⟨mem_cons_of_mem c hb.1, hb.2⟩
    · rename_i hrun
      obtain rfl | h := mem_cons.mp h
      · exact .inr ⟨mem_cons_self, Bool.eq_false_iff.mpr hrun⟩
      · exact (ih h).imp_right fun hb => ⟨mem_cons_of_mem c hb.1, hb.2⟩

lemma mem_trimBytes (h : b ∈ trimBytes p s) : b ∈ s :=
  (dropWhile_suffix p).mem ((List.rdropWhile_prefix p _).mem h)

lemma isSafe_of_mem_squeeze (h : b ∈ squeeze (fun b => !isSafe b) hyphen inRun s) :
    isSafe b = true := by
  obtain rfl | ⟨-, hb⟩ := mem_squeeze h
  · decide
  · simpa using hb

end Bytes

/-- A name of safe bytes that does not end in a period. -/
structure IsSegment (name : Str) : Prop where
  ne_nil : name ≠ []
  safe : ∀ b ∈ name, isSafe b = true
  last : name.getLast? ≠ some period

variable {b : UInt8}

lemma isSafe_of_mem_slug {s : Str} (h : b ∈ slug s) : isSafe b = true := by
  rw [slug] at h
  split at h
  · have hrec : (str "rec").all isSafe = true := by decide
    exact all_eq_true.mp hrec b h
  · exact isSafe_of_mem_squeeze (mem_trimBytes h)

lemma isSafe_of_mem_sanitizeSegment {raw : Str} (h : b ∈ sanitizeSegment raw) :
    isSafe b = true := by
  have h := mem_trimBytes (mem_of_mem_take ((List.rdropWhile_prefix _ _).mem h))
  obtain rfl | ⟨h, -⟩ := mem_squeeze h
  · decide
  obtain rfl | ⟨h, -⟩ := mem_squeeze h
  · decide
  exact isSafe_of_mem_squeeze h

lemma isSafe_of_isDigit (h : isDigit b = true) : isSafe b = true := by
  rw [isSafe, isAlnum, h]
  rfl

lemma isSafe_of_mem_itoa {n : Int} (h : b ∈ itoa n) : isSafe b = true := by
  cases n with
  | ofNat n => exact isSafe_of_isDigit (isDigit_of_mem_natText h)
  | negSucc n =>
    obtain hsign | hdigits := mem_append.mp h
    · rw [mem_singleton.mp hsign]
      decide
    · exact isSafe_of_isDigit (isDigit_of_mem_natText hdigits)

lemma isDigit_of_mem_partDigits {k : ℕ} (h : b ∈ partDigits k) : isDigit b = true := by
  obtain h | h := mem_append.mp h
  · rw [eq_of_mem_replicate h]
    decide
  · exact isDigit_of_mem_natText h

lemma isSafe_of_mem_partTag {k : ℕ} (h : b ∈ partTag k) : isSafe b = true := by
  obtain htag | hdigits := mem_append.mp h
  · have hsafe : (str "-p").all isSafe = true := by decide
    exact all_eq_true.mp hsafe b htag
  · exact isSafe_of_isDigit (isDigit_of_mem_partDigits hdigits)

lemma IsSegment.append {name tail : Str} (h : IsSegment name) (hsafe : tail.all isSafe = true)
    (hlast : tail.getLast? ≠ some period) : IsSegment (name ++ tail) := by
  refine ⟨append_ne_nil_of_left_ne_nil h.ne_nil tail, fun b hb =>
    (mem_append.mp hb).elim (h.safe b) (all_eq_true.mp hsafe b), ?_⟩
  rw [getLast?_append]
  intro hor
  obtain htail | ⟨-, hname⟩ := Option.or_eq_some_iff.mp hor
  · exact hlast htail
  · exact h.last hname

lemma IsSegment.no_slash {name : Str} (h : IsSegment name) : slash ∉ name := fun hmem =>
  absurd (h.safe slash hmem) (by decide)

lemma IsSegment.isName {name : Str} (h : IsSegment name) : IsName name := by
  refine ⟨h.ne_nil, ?_, ?_, h.no_slash⟩
  · rintro rfl
    exact h.last rfl
  · rintro rfl
    exact h.last rfl

lemma getLast?_natText (n : ℕ) : (natText n).getLast? ≠ some period := fun h =>
  absurd (isDigit_of_mem_natText (mem_of_getLast? h)) (by decide)

lemma getLast?_append_natText (s : Str) (n : ℕ) : (s ++ natText n).getLast? ≠ some period := by
  rw [getLast?_append_of_ne_nil s (natText_ne_nil n)]
  exact getLast?_natText n

lemma isSegment_baseSlug (streamID : Str) (now : Reading) : IsSegment (baseSlug streamID now) := by
  refine ⟨?_, fun b hb => ?_, ?_⟩
  · rw [baseSlug, append_assoc]
    exact append_ne_nil_of_right_ne_nil _ (cons_ne_nil _ _)
  · rw [baseSlug, mem_append, mem_append] at hb
    obtain (hb | hb) | hb := hb
    · exact isSafe_of_mem_slug hb
    · rw [mem_singleton.mp hb]
      decide
    · exact isSafe_of_mem_itoa hb
  · rw [baseSlug]
    cases now.unixMilli with
    | ofNat n => exact getLast?_append_natText _ n
    | negSucc n =>
      rw [itoa, ← append_assoc]
      exact getLast?_append_natText _ (n + 1)

lemma isSegment_render {template : Str} {t : TemplateTokens} {wall : Reading}
    (h : renderFilenameTemplate template t wall ≠ []) :
    IsSegment (renderFilenameTemplate template t wall) := by
  have hsanitised : ∃ raw, renderFilenameTemplate template t wall = sanitizeSegment raw := by
    rw [renderFilenameTemplate] at h ⊢
    split at h
    · exact absurd rfl h
    rename_i hblank
    exact ⟨_, if_neg hblank⟩
  obtain ⟨raw, hraw⟩ := hsanitised
  rw [hraw] at h ⊢
  refine ⟨h, fun b hb => isSafe_of_mem_sanitizeSegment hb, fun hlast => ?_⟩
  rw [getLast?_eq_some_getLast h, Option.some.injEq] at hlast
  have hkept := rdropWhile_last_not (fun b => b == period || b == hyphen) _ h
  exact hkept (Bool.or_eq_true_iff.mpr (.inl (beq_iff_eq.mpr hlast)))

lemma isSegment_part {stem : Str} (h : IsSegment stem) (k : ℕ) : IsSegment (stem ++ partTag k) := by
  refine h.append (all_eq_true.mpr fun b hb => isSafe_of_mem_partTag hb) ?_
  rw [partTag, partDigits, ← append_assoc]
  exact getLast?_append_natText _ k

/-! ## Parts -/

lemma partTag_eq (k : ℕ) : partTag k = hyphen :: 0x70 :: partDigits k := rfl

lemma partTag_injective : Function.Injective partTag := by
  intro j k h
  rw [partTag_eq, partTag_eq] at h
  have hdigits : partDigits j = partDigits k := by simpa using h
  have hvalue := congrArg digitsValue hdigits
  rw [partDigits, partDigits, digitsValue_zeros, digitsValue_zeros, digitsValue_natText,
    digitsValue_natText] at hvalue
  exact hvalue

lemma rootOf_partTag (stem : Str) (k : ℕ) : rootOf (stem ++ partTag k) = stem := by
  have hdigits : (partDigits k).all isDigit = true := all_eq_true.mpr fun b hb =>
    isDigit_of_mem_partDigits hb
  have hne : partDigits k ≠ [] := append_ne_nil_of_right_ne_nil _ (natText_ne_nil k)
  have hhyphen : hyphen ∉ (0x70 :: partDigits k : Str) := by
    rintro (_ | ⟨_, hmem⟩)
    exact absurd (isDigit_of_mem_partDigits hmem) (by decide)
  rw [partTag_eq, rootOf, cutLast_append stem hhyphen]
  exact if_pos ⟨hne, hdigits⟩

lemma trimSuffix_append (s tail : Str) : trimSuffix (s ++ tail) tail = s := by
  have htail : tail.isSuffixOf (s ++ tail) = true :=
    isSuffixOf_iff_suffix.mpr (suffix_append s tail)
  rw [trimSuffix, if_pos htail, length_append, Nat.add_sub_cancel_right, take_left]

lemma baseNoExt_append {base ext : Str} (hbase : base ≠ []) (hext : period ∉ ext)
    (hne : ext ≠ []) : baseNoExt (base ++ period :: ext) = base := by
  have htrim : trim period (base ++ period :: ext) ≠ [] := by
    intro hnil
    have hall : ∀ x ∈ trimRight period (base ++ period :: ext), (x == period) = true :=
      dropWhile_eq_nil_iff.mp hnil
    have hright : trimRight period (base ++ period :: ext) = [] := by
      by_contra hright
      exact rdropWhile_last_not _ _ hright (hall _ (getLast_mem hright))
    obtain ⟨b, rest, rfl⟩ := exists_cons_of_ne_nil hne
    have hb : (b == period) = true := rdropWhile_eq_nil_iff.mp hright b (by simp)
    rw [beq_iff_eq] at hb
    exact hext (hb ▸ mem_cons_self)
  have hextname : nodeExtname (base ++ period :: ext) = period :: ext := by
    rw [nodeExtname, cutLast_append base hext]
    dsimp only
    rw [if_neg (not_or.mpr ⟨hbase, htrim⟩)]
  rw [baseNoExt, hextname, trimSuffix_append]

/-! ## Keys -/

section Keys

variable {keyPrefix key : Str}

/-- A prefix keeps clear of the tree of renditions. -/
def clearOfHls (keyPrefix : Str) : Bool :=
  !(str "hls/").isPrefixOf (trim slash keyPrefix ++ [slash])

/-- The forms of keys: a name, or a path in the tree of renditions. -/
def IsKey (key : Str) : Prop := (key ≠ [] ∧ slash ∉ key) ∨ str "hls/" <+: key

lemma dropWhile_slash (h : IsKey key) : key.dropWhile (· == slash) = key := by
  obtain ⟨hne, hslash⟩ | ⟨rest, rfl⟩ := h
  · cases key with
    | nil => rfl
    | cons b key =>
      have hb : (b == slash) = false := by
        rw [beq_eq_false_iff_ne]
        rintro rfl
        exact hslash mem_cons_self
      rw [dropWhile_cons, hb]
      rfl
  · rfl

lemma eq_of_prefix_hls {pre : Str} (h : pre ++ [slash] <+: str "hls/") (hne : pre ≠ []) :
    pre ++ [slash] = str "hls/" := by
  obtain ⟨rest, hrest⟩ := h
  match pre, hne, hrest with
  | [_, _, _], _, hrest =>
    have hnil : rest = [] := by
      have hlength := congrArg length hrest
      simpa [str, utf8] using hlength
    rw [← hrest, hnil, append_nil]
  | [_], _, hrest => exact absurd hrest (by simp [str, utf8, slash])
  | [_, _], _, hrest => exact absurd hrest (by simp [str, utf8, slash])
  | _ :: _ :: _ :: _ :: _, _, hrest => exact absurd hrest (by simp [str, utf8])

lemma not_below_of_isKey (h : IsKey key) (hclear : clearOfHls keyPrefix = true)
    (hne : trim slash keyPrefix ≠ []) : ¬trim slash keyPrefix ++ [slash] <+: key := by
  intro hbelow
  obtain ⟨-, hslash⟩ | hhls := h
  · exact hslash (hbelow.mem (by simp))
  have hout : ¬str "hls/" <+: trim slash keyPrefix ++ [slash] := by
    intro hin
    rw [clearOfHls, isPrefixOf_iff_prefix.mpr hin] at hclear
    cases hclear
  obtain hin | hin := prefix_or_prefix_of_prefix hhls hbelow
  · exact hout hin
  · exact hout (eq_of_prefix_hls hin hne ▸ prefix_rfl)

/-- Only a name that is the prefix itself is not put below it. -/
lemma resolveKey_of_isKey (h : IsKey key) (hclear : clearOfHls keyPrefix = true) :
    resolveKey keyPrefix key =
      if trim slash keyPrefix = [] ∨ key = trim slash keyPrefix then key
      else trim slash keyPrefix ++ [slash] ++ key := by
  rw [resolveKey, dropWhile_slash h]
  by_cases hnil : trim slash keyPrefix = []
  · rw [if_pos hnil, if_pos (.inl hnil)]
  have hbelow : (trim slash keyPrefix ++ [slash]).isPrefixOf key ≠ true := by
    rw [Ne, isPrefixOf_iff_prefix]
    exact not_below_of_isKey h hclear hnil
  rw [if_neg hnil]
  by_cases hself : key = trim slash keyPrefix
  · rw [if_pos (.inl hself), if_pos (.inr hself)]
  · rw [if_neg (not_or.mpr ⟨hself, hbelow⟩), if_neg (not_or.mpr ⟨hnil, hself⟩)]

/-- Different keys of an app are different objects. -/
lemma resolveKey_injOn {key' : Str} (hclear : clearOfHls keyPrefix = true) (h : IsKey key)
    (h' : IsKey key') (heq : resolveKey keyPrefix key = resolveKey keyPrefix key') :
    key = key' := by
  rw [resolveKey_of_isKey h hclear, resolveKey_of_isKey h' hclear] at heq
  have hlonger : ∀ k : Str, trim slash keyPrefix ≠ trim slash keyPrefix ++ [slash] ++ k := by
    intro k hk
    have hlength := congrArg length hk
    simp at hlength
  split at heq
  · rename_i hplain
    split at heq
    · exact heq
    rename_i hplain'
    obtain hnil | hself := hplain
    · exact absurd (.inl hnil) hplain'
    · exact absurd (hself ▸ heq) (hlonger key')
  · rename_i hplain
    split at heq
    · rename_i hplain'
      obtain hnil | hself := hplain'
      · exact absurd (.inl hnil) hplain
      · exact absurd (hself ▸ heq).symm (hlonger key)
    · exact append_cancel_left heq

lemma below_resolveKey (hne : trim slash keyPrefix ≠ []) (key : Str) :
    trim slash keyPrefix ++ [slash] <+: resolveKey keyPrefix key ++ [slash] := by
  rw [resolveKey, if_neg hne]
  split
  · rename_i hinside
    obtain heq | hpre := hinside
    · rw [heq]
    · exact (List.isPrefixOf_iff_prefix.mp hpre).trans (prefix_append _ _)
  · rw [append_assoc, append_assoc]
    exact (prefix_append_right_inj _).mpr (prefix_append _ _)

/-- A key that is resolved again is the same. -/
lemma resolveKey_resolveKey (keyPrefix key : Str) :
    resolveKey keyPrefix (resolveKey keyPrefix key) = resolveKey keyPrefix key := by
  have hclean := dropWhile_idempotent (fun b : UInt8 => b == slash) key
  have htrim : (trim slash keyPrefix).dropWhile (· == slash) = trim slash keyPrefix :=
    dropWhile_idempotent _ _
  by_cases hnil : trim slash keyPrefix = []
  · rw [resolveKey, resolveKey, if_pos hnil, if_pos hnil, hclean]
  by_cases hinside : key.dropWhile (· == slash) = trim slash keyPrefix ∨
      (trim slash keyPrefix ++ [slash]).isPrefixOf (key.dropWhile (· == slash)) = true
  · have hkey : resolveKey keyPrefix key = key.dropWhile (· == slash) := by
      rw [resolveKey, if_neg hnil, if_pos hinside]
    rw [hkey, resolveKey, hclean, if_neg hnil, if_pos hinside]
  have hkey : resolveKey keyPrefix key =
      trim slash keyPrefix ++ [slash] ++ key.dropWhile (· == slash) := by
    rw [resolveKey, if_neg hnil, if_neg hinside]
  have hdrop : (trim slash keyPrefix ++ [slash] ++ key.dropWhile (· == slash)).dropWhile
      (· == slash) = trim slash keyPrefix ++ [slash] ++ key.dropWhile (· == slash) := by
    rw [append_assoc, dropWhile_append, htrim]
    exact if_neg (by simpa using hnil)
  have hbelow : (trim slash keyPrefix ++ [slash]).isPrefixOf
      (trim slash keyPrefix ++ [slash] ++ key.dropWhile (· == slash)) = true :=
    isPrefixOf_iff_prefix.mpr (prefix_append _ _)
  rw [hkey, resolveKey, hdrop, if_neg hnil, if_pos (.inr hbelow)]

end Keys

end StreamHub.Recording
