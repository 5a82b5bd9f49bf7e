import StreamHub.Library.Go

/-!
# Texts as runes

A rune is represented by the bytes that encode it, so that a text whose bytes are all
part of a rune is the concatenation of its runes.  The case tables of Unicode are
parameters (`Unicode`); what is fixed about them is what they do with ASCII.

`Unicode.toLower` and `Unicode.equalFold` look at a text rune by rune, code that slices
a text looks at bytes.  `Unicode.exists_append_of_toLower` says where the two agree: on
a text whose runes keep their length when they are lower-cased (`Unicode.Keeps`).
-/

namespace StreamHub.Library.Runes

open Text List

/-- U+FFFD -/
def replacement : Str := [0xef, 0xbf, 0xbd]

/-- The encoding of one rune. -/
def IsRune (r : Str) : Prop := r ≠ [] ∧ runeLen r = r.length ∧ (r.length = 1 → isASCII r = true)

instance (r : Str) : Decidable (IsRune r) := inferInstanceAs (Decidable (_ ∧ _))

/-- The bytes of a text, cut where its runes end; a byte that begins none is a piece of
its own.  At most `fuel` pieces. -/
def piecesFrom : ℕ → Str → List Str
  | 0, _ => []
  | _, [] => []
  | fuel + 1, b :: s =>
    (b :: s).take (runeLen (b :: s)) :: piecesFrom fuel ((b :: s).drop (runeLen (b :: s)))

def pieces (s : Str) : List Str := piecesFrom s.length s

/-- A piece as a rune: U+FFFD for a byte that begins none. -/
def asRune (piece : Str) : Str := if IsRune piece then piece else replacement

/-- The runes of a text. -/
def runes (s : Str) : List Str := (pieces s).map asRune

/-! ## Encodings -/

private lemma runeLen_le_four (s : Str) : runeLen s ≤ 4 := by
  unfold runeLen
  repeat' split
  all_goals omega

lemma runeLen_pos (s : Str) : 0 < runeLen s := by
  unfold runeLen
  repeat' split
  all_goals omega

variable {b : UInt8}

lemma isRune_singleton (h : b < 0x80) : IsRune [b] :=
  ⟨cons_ne_nil b [], rfl, fun _ => by simp [isASCII, h]⟩

lemma IsRune.lt (h : IsRune [b]) : b < 0x80 := by simpa [isASCII] using h.2.2 rfl

/-- The four forms of an encoding. -/
lemma IsRune.forms {r : Str} (h : IsRune r) : (∃ a, r = [a] ∧ a < 0x80) ∨
      (∃ a b, r = [a, b] ∧ (0xc2 ≤ a && a ≤ 0xdf && isCont b) = true) ∨
      (∃ a b c, r = [a, b, c] ∧ ¬(0xc2 ≤ a && a ≤ 0xdf && isCont b) = true ∧
        (runeLen.threeByte a b && isCont c) = true) ∨
      (∃ a b c d, r = [a, b, c, d] ∧
        (runeLen.fourByte a b && isCont c && isCont d) = true) := by
  have hlen := h.2.1
  match r with
  | [] => exact absurd rfl h.1
  | [a] => exact .inl ⟨a, rfl, h.lt⟩
  | [a, b] =>
    simp only [runeLen, length_cons, length_nil] at hlen
    split at hlen
    · exact .inr (.inl ⟨a, b, rfl, by assumption⟩)
    · omega
  | [a, b, c] =>
    simp only [runeLen, length_cons, length_nil] at hlen
    split at hlen
    · omega
    split at hlen
    · exact .inr (.inr (.inl ⟨a, b, c, rfl, by assumption, by assumption⟩))
    · omega
  | [a, b, c, d] =>
    simp only [runeLen, length_cons, length_nil] at hlen
    split at hlen
    · omega
    split at hlen
    · omega
    split at hlen
    · exact .inr (.inr (.inr ⟨a, b, c, d, rfl, by assumption⟩))
    · omega
  | a :: b :: c :: d :: e :: s =>
    have hle := runeLen_le_four (a :: b :: c :: d :: e :: s)
    rw [hlen] at hle
    simp only [length_cons] at hle
    omega

variable {a : UInt8}

private lemma le_of_isCont (h : isCont b = true) : 0x80 ≤ b := by
  simp only [isCont, Bool.and_eq_true, decide_eq_true_eq] at h
  exact h.1

private lemma le_of_threeByte (h : runeLen.threeByte a b = true) : 0x80 ≤ a ∧ 0x80 ≤ b := by
  simp only [runeLen.threeByte, isCont, Bool.or_eq_true, Bool.and_eq_true, beq_iff_eq,
    decide_eq_true_eq] at h
  obtain (⟨⟨rfl, hb⟩, -⟩ | ⟨⟨rfl, hb⟩, -⟩) | ⟨⟨⟨ha, -⟩, -⟩, hb, -⟩ := h
  · exact ⟨by decide, UInt8.le_trans (by decide) hb⟩
  · exact ⟨by decide, hb⟩
  · exact ⟨UInt8.le_trans (by decide) ha, hb⟩

private lemma le_of_fourByte (h : runeLen.fourByte a b = true) : 0x80 ≤ a ∧ 0x80 ≤ b := by
  simp only [runeLen.fourByte, isCont, Bool.or_eq_true, Bool.and_eq_true, beq_iff_eq,
    decide_eq_true_eq] at h
  obtain (⟨⟨rfl, hb⟩, -⟩ | ⟨⟨rfl, hb⟩, -⟩) | ⟨⟨ha, -⟩, hb, -⟩ := h
  · exact ⟨by decide, UInt8.le_trans (by decide) hb⟩
  · exact ⟨by decide, hb⟩
  · exact ⟨UInt8.le_trans (by decide) ha, hb⟩

private lemma not_lead_of_lt (h : a < 0x80) :
    ¬ 0xc2 ≤ a ∧ ∀ b, runeLen.threeByte a b = false ∧ runeLen.fourByte a b = false := by
  have hnot : ¬ 0x80 ≤ a := UInt8.not_le.mpr h
  refine ⟨fun hle => hnot (UInt8.le_trans (by decide) hle), fun b => ⟨?_, ?_⟩⟩
  · exact Bool.eq_false_iff.mpr fun h3 => hnot (le_of_threeByte h3).1
  · exact Bool.eq_false_iff.mpr fun h4 => hnot (le_of_fourByte h4).1

private lemma runeLen_cons_of_lt (h : a < 0x80) (s : Str) : runeLen (a :: s) = 1 := by
  obtain ⟨hlead, hmore⟩ := not_lead_of_lt h
  match s with
  | [] => rfl
  | [b] => simp [runeLen, hlead]
  | [b, c] => simp [runeLen, hlead, hmore]
  | b :: c :: d :: s => simp [runeLen, hlead, hmore]

/-- The bytes of a rune are found whatever follows them. -/
lemma IsRune.runeLen_append {r : Str} (h : IsRune r) (s : Str) : runeLen (r ++ s) = r.length := by
  have hlen := h.2.1
  obtain ⟨a, rfl, ha⟩ | ⟨a, b, rfl, h2⟩ | ⟨a, b, c, rfl, h2, h3⟩ | ⟨a, b, c, d, rfl, h4⟩ := h.forms
  · exact runeLen_cons_of_lt ha s
  · match s with
    | [] => exact hlen
    | [c] => simp only [cons_append, nil_append, runeLen, if_pos h2]; rfl
    | c :: d :: s => simp only [cons_append, nil_append, runeLen, if_pos h2]; rfl
  · match s with
    | [] => exact hlen
    | d :: s =>
      simp only [cons_append, nil_append, runeLen, if_neg h2, if_pos h3]
      rfl
  · exact hlen

lemma IsRune.eq_of_mem {r : Str} (h : IsRune r) (hb : b < 0x80) (hmem : b ∈ r) : r = [b] := by
  have hne : ∀ c : UInt8, 0x80 ≤ c → b ≠ c := fun c hc => UInt8.ne_of_lt (UInt8.lt_of_lt_of_le hb hc)
  obtain ⟨a, rfl, ha⟩ | ⟨a, x, rfl, h2⟩ | ⟨a, x, y, rfl, -, h3⟩ | ⟨a, x, y, z, rfl, h4⟩ := h.forms
  · rw [mem_singleton.mp hmem]
  · simp only [Bool.and_eq_true, decide_eq_true_eq] at h2
    have ha := hne a (UInt8.le_trans (by decide) h2.1.1)
    have hx := hne x (le_of_isCont h2.2)
    simp [ha, hx] at hmem
  · rw [Bool.and_eq_true] at h3
    have hax := le_of_threeByte h3.1
    have hy := hne y (le_of_isCont h3.2)
    simp [hne a hax.1, hne x hax.2, hy] at hmem
  · rw [Bool.and_eq_true, Bool.and_eq_true] at h4
    have hax := le_of_fourByte h4.1.1
    have hy := hne y (le_of_isCont h4.1.2)
    have hz := hne z (le_of_isCont h4.2)
    simp [hne a hax.1, hne x hax.2, hy, hz] at hmem

/-! ## Cutting a text -/

private lemma piecesFrom_of_le {s : Str} {m n : ℕ} (hm : s.length ≤ m) (hn : s.length ≤ n) :
    piecesFrom m s = piecesFrom n s := by
  induction m generalizing s n with
  | zero =>
    have hnil : s = [] := eq_nil_of_length_eq_zero (by omega)
    subst hnil
    cases n <;> rfl
  | succ m ih =>
    match s, n with
    | [], n => cases n <;> rfl
    | b :: s, 0 => simp at hn
    | b :: s, n + 1 =>
      have hpos := runeLen_pos (b :: s)
      simp only [piecesFrom]
      rw [ih]
      · rw [length_drop]
        omega
      · rw [length_drop]
        omega

@[simp] lemma pieces_nil : pieces [] = [] := rfl

lemma pieces_of_ne_nil {s : Str} (h : s ≠ []) :
    pieces s = s.take (runeLen s) :: pieces (s.drop (runeLen s)) := by
  obtain ⟨b, rest, rfl⟩ := exists_cons_of_ne_nil h
  have hpos := runeLen_pos (b :: rest)
  change piecesFrom (rest.length + 1) (b :: rest) = _
  rw [piecesFrom, pieces]
  rw [piecesFrom_of_le]
  · rw [length_drop, length_cons]
    omega
  · exact le_refl _

lemma pieces_append {r : Str} (h : IsRune r) (s : Str) : pieces (r ++ s) = r :: pieces s := by
  rw [pieces_of_ne_nil (append_ne_nil_of_left_ne_nil h.1 s), h.runeLen_append]
  rw [take_left, drop_left]

lemma pieces_append_of_isASCII {s : Str} (h : isASCII s = true) (t : Str) :
    pieces (s ++ t) = s.map (fun b => [b]) ++ pieces t := by
  induction s with
  | nil => rfl
  | cons b s ih =>
    rw [isASCII, all_cons, Bool.and_eq_true, decide_eq_true_eq] at h
    rw [cons_append, ← singleton_append, pieces_append (isRune_singleton h.1), ih h.2]
    rfl

lemma flatten_pieces (s : Str) : (pieces s).flatten = s := by
  induction hn : s.length using Nat.strong_induction_on generalizing s with
  | _ n ih =>
    by_cases hs : s = []
    · subst hs
      rfl
    have hpos := runeLen_pos s
    have hlt : (s.drop (runeLen s)).length < n := by
      have := length_pos_iff.mpr hs
      rw [length_drop]
      omega
    rw [pieces_of_ne_nil hs, flatten_cons, ih _ hlt _ rfl]
    exact take_append_drop _ s

variable {rs : List Str}

lemma pieces_flatten (h : ∀ r ∈ rs, IsRune r) : pieces rs.flatten = rs := by
  induction rs with
  | nil => rfl
  | cons r rs ih =>
    rw [flatten_cons, pieces_append (h r mem_cons_self)]
    rw [ih fun x hx => h x (mem_cons_of_mem r hx)]

lemma map_asRune (h : ∀ r ∈ rs, IsRune r) : rs.map asRune = rs := by
  have hid : ∀ r ∈ rs, asRune r = id r := fun r hr => if_pos (h r hr)
  rw [map_congr_left hid, map_id]

lemma runes_flatten (h : ∀ r ∈ rs, IsRune r) : runes rs.flatten = rs := by
  rw [runes, pieces_flatten h, map_asRune h]

/-- Bytes up to the end of the text or up to an ASCII byte are a number of its runes. -/
lemma exists_append_of_flatten (h : ∀ r ∈ rs, IsRune r) {q t : Str} {sep : UInt8}
    (hsep : sep < 0x80) (hflat : rs.flatten = q ++ t) (ht : t = [] ∨ t.head? = some sep) :
    ∃ before after, rs = before ++ after ∧ before.flatten = q ∧ after.flatten = t := by
  induction rs generalizing q with
  | nil =>
    obtain ⟨rfl, rfl⟩ := append_eq_nil_iff.mp hflat.symm
    exact ⟨[], [], rfl, rfl, rfl⟩
  | cons r rs ih =>
    have hrest := fun x hx => h x (mem_cons_of_mem r hx)
    by_cases hq : q = []
    · subst hq
      exact ⟨[], r :: rs, rfl, rfl, hflat⟩
    obtain ⟨more, rfl, htail⟩ | ⟨more, rfl, rfl⟩ := append_eq_append_iff.mp hflat
    · -- the rune ends inside `q`
      obtain ⟨before, after, rfl, rfl, hafter⟩ := ih hrest htail
      exact ⟨r :: before, after, rfl, rfl, hafter⟩
    -- the rune reaches beyond `q`, so it begins with `q` and holds the separator
    obtain rfl | ⟨c, more, rfl⟩ : more = [] ∨ ∃ c rest, more = c :: rest := by
      cases more with
      | nil => exact .inl rfl
      | cons c rest => exact .inr ⟨c, rest, rfl⟩
    · exact ⟨[q ++ []], rs, rfl, by simp, rfl⟩
    have hc : c = sep := by simpa using ht
    subst hc
    have hone := (h _ mem_cons_self).eq_of_mem hsep (mem_append_right q mem_cons_self)
    have hlen := congrArg length hone
    have hpos := length_pos_iff.mpr hq
    simp only [length_append, length_cons, length_nil] at hlen
    omega

/-- Where all pieces are runes, so are those of the text without an ASCII byte at its end. -/
lemma pieces_append_byte {s : Str} {sep : UInt8} (hsep : sep < 0x80)
    (h : ∀ r ∈ pieces (s ++ [sep]), IsRune r) : ∀ r ∈ pieces s, r ∈ pieces (s ++ [sep]) := by
  obtain ⟨before, after, hpieces, rfl, -⟩ :=
    exists_append_of_flatten h hsep (flatten_pieces (s ++ [sep])) (.inr rfl)
  rw [hpieces] at h ⊢
  rw [pieces_flatten fun r hr => h r (mem_append_left after hr)]
  exact fun r hr => mem_append_left after hr

/-! ## Case -/

lemma toNat_lowerByte (b : UInt8) :
    (lowerByte b).toNat = if 0x41 ≤ b.toNat ∧ b.toNat ≤ 0x5a then b.toNat + 0x20 else b.toNat := by
  have hupper : isUpper b = true ↔ 0x41 ≤ b.toNat ∧ b.toNat ≤ 0x5a := by
    simp [isUpper, UInt8.le_iff_toNat_le]
  rw [lowerByte]
  by_cases h : isUpper b = true
  · have hle := (hupper.mp h).2
    rw [if_pos h, if_pos (hupper.mp h)]
    exact Nat.mod_eq_of_lt (by simp; omega)
  · rw [if_neg h, if_neg fun hle => h (hupper.mpr hle)]

lemma lowerByte_lowerByte (b : UInt8) : lowerByte (lowerByte b) = lowerByte b := by
  rw [← UInt8.toNat_inj, toNat_lowerByte, toNat_lowerByte]
  by_cases h : 0x41 ≤ b.toNat ∧ b.toNat ≤ 0x5a
  · rw [if_pos h, if_neg (by omega)]
  · rw [if_neg h, if_neg h]

lemma lowerByte_lt (h : b < 0x80) : lowerByte b < 0x80 := by
  have hb : b.toNat < 128 := UInt8.lt_iff_toNat_lt.mp h
  rw [UInt8.lt_iff_toNat_lt, toNat_lowerByte]
  change _ < 128
  split <;> omega

/-- The tables that tell about the case of a rune, and whether it is a space. -/
structure Unicode where
  /-- `unicode.ToLower` -/
  lower : Str → Str
  /-- the two runes are equal under simple folding -/
  fold : Str → Str → Bool
  lower_isRune : ∀ r, IsRune r → IsRune (lower r)
  lower_ascii : ∀ b < 0x80, lower [b] = [lowerByte b]
  fold_refl : ∀ r, fold r r = true
  fold_ascii : ∀ b < 0x80, fold [b] [lowerByte b] = true
  /-- `unicode.IsSpace` -/
  space : Str → Bool
  space_ascii : ∀ b < 0x80, space [b] = isSpace b

namespace Unicode

/-- `strings.ToLower` -/
def toLower (u : Unicode) (s : Str) : Str := (runes s).flatMap u.lower

def foldRunes (u : Unicode) : List Str → List Str → Bool
  | [], [] => true
  | r :: rs, t :: ts => u.fold r t && u.foldRunes rs ts
  | _, _ => false

/-- `strings.EqualFold` -/
def equalFold (u : Unicode) (s t : Str) : Bool := u.foldRunes (runes s) (runes t)

/-- `strings.TrimSpace` -/
def trimSpace (u : Unicode) (s : Str) : Str :=
  (((pieces s).dropWhile fun r => u.space (asRune r)).rdropWhile fun r => u.space (asRune r)).flatten

/-- A piece of a text that is a rune and keeps its length, and what it is equal to under
folding, when it is lower-cased. -/
def Keeps (u : Unicode) (r : Str) : Prop :=
  IsRune r ∧ (u.lower r).length = r.length ∧ u.fold r (u.lower r) = true

instance (u : Unicode) (r : Str) : Decidable (u.Keeps r) := inferInstanceAs (Decidable (_ ∧ _))

variable (u : Unicode)

lemma foldRunes_refl (rs : List Str) : u.foldRunes rs rs = true := by
  induction rs with
  | nil => rfl
  | cons r rs ih => rw [foldRunes, u.fold_refl, ih]; rfl

lemma equalFold_refl (s : Str) : u.equalFold s s = true := u.foldRunes_refl (runes s)

lemma foldRunes_map_lower (h : ∀ r ∈ rs, u.Keeps r) : u.foldRunes rs (rs.map u.lower) = true := by
  induction rs with
  | nil => rfl
  | cons r rs ih =>
    rw [map_cons, foldRunes, (h r mem_cons_self).2.2]
    exact ih fun x hx => h x (mem_cons_of_mem r hx)

lemma length_flatten_map_lower (h : ∀ r ∈ rs, u.Keeps r) :
    (rs.map u.lower).flatten.length = rs.flatten.length := by
  induction rs with
  | nil => rfl
  | cons r rs ih =>
    rw [map_cons, flatten_cons, flatten_cons, length_append, length_append,
      (h r mem_cons_self).2.1, ih fun x hx => h x (mem_cons_of_mem r hx)]

variable {s : Str}

lemma lt_of_isASCII (h : isASCII s = true) : ∀ b ∈ s, b < 0x80 := fun b hb =>
  decide_eq_true_eq.mp (all_eq_true.mp h b hb)

lemma keeps_of_isASCII (h : isASCII s = true) : ∀ r ∈ pieces s, u.Keeps r := by
  intro r hr
  rw [← append_nil s, pieces_append_of_isASCII h, pieces_nil, append_nil] at hr
  obtain ⟨b, hb, rfl⟩ := mem_map.mp hr
  have hlt := lt_of_isASCII h b hb
  refine ⟨isRune_singleton hlt, ?_, ?_⟩
  · rw [u.lower_ascii b hlt]
    rfl
  · rw [u.lower_ascii b hlt]
    exact u.fold_ascii b hlt

lemma toLower_append_of_isASCII (h : isASCII s = true) (t : Str) :
    u.toLower (s ++ t) = s.map lowerByte ++ u.toLower t := by
  have hlt := lt_of_isASCII h
  rw [toLower, runes, pieces_append_of_isASCII h, map_append, flatMap_append]
  refine congrArg (· ++ u.toLower t) ?_
  rw [map_map, flatMap_map, ← flatMap_singleton' (s.map lowerByte), flatMap_map]
  refine flatMap_congr fun b hb => ?_
  change u.lower (asRune [b]) = [lowerByte b]
  rw [asRune, if_pos (isRune_singleton (hlt b hb)), u.lower_ascii b (hlt b hb)]

lemma toLower_of_isASCII (h : isASCII s = true) : u.toLower s = s.map lowerByte := by
  have happend := u.toLower_append_of_isASCII h []
  rwa [append_nil, show u.toLower [] = [] from rfl, append_nil] at happend

private lemma rdropWhile_append {α : Type} {p : α → Bool} {a : α} (h : p a = false)
    (front back : List α) :
    (front ++ [a] ++ back).rdropWhile p = front ++ [a] ++ back.rdropWhile p := by
  induction back using reverseRecOn with
  | nil => rw [append_nil, rdropWhile_concat_neg p _ _ (by simp [h])]; simp
  | append_singleton back b ih =>
    rw [← append_assoc]
    by_cases hb : p b = true
    · rw [rdropWhile_concat_pos p _ _ hb, rdropWhile_concat_pos p _ _ hb, ih]
    rw [rdropWhile_concat_neg p _ _ hb, rdropWhile_concat_neg p _ _ hb, append_assoc]

/-- Of a text that begins with ASCII without spaces, only what follows is trimmed. -/
lemma trimSpace_append (hs : s ≠ []) (h : ∀ b ∈ s, b < 0x80 ∧ isSpace b = false) (t : Str) :
    ∃ t', u.trimSpace (s ++ t) = s ++ t' ∧ (t = [] → t' = []) := by
  have hascii : isASCII s = true := all_eq_true.mpr fun b hb => decide_eq_true (h b hb).1
  have hspace : ∀ b ∈ s, u.space (asRune [b]) = false := by
    intro b hb
    obtain ⟨hlt, hb⟩ := h b hb
    rw [asRune, if_pos (isRune_singleton hlt), u.space_ascii b hlt, hb]
  refine ⟨((pieces t).rdropWhile fun r => u.space (asRune r)).flatten, ?_, ?_⟩
  · rw [trimSpace, pieces_append_of_isASCII hascii]
    have hleft : (s.map (fun b => [b]) ++ pieces t).dropWhile (fun r => u.space (asRune r)) =
        s.map (fun b => [b]) ++ pieces t := by
      obtain ⟨b, rest, rfl⟩ := exists_cons_of_ne_nil hs
      exact dropWhile_cons_of_neg (by simp [hspace b mem_cons_self])
    rw [hleft]
    obtain ⟨front, b, rfl⟩ : ∃ front b, s = front ++ [b] :=
      ⟨s.dropLast, s.getLast hs, (dropLast_append_getLast hs).symm⟩
    have hlast := hspace b (mem_append_right front mem_cons_self)
    rw [map_append, map_singleton,
      rdropWhile_append (p := fun r => u.space (asRune r)) (a := [b]) hlast, flatten_append]
    refine congrArg (· ++ _) ?_
    rw [flatten_append, ← flatMap_def, flatMap_singleton', flatten_singleton]
  · rintro rfl
    rfl

/-- A rune that keeps its length and is lower-cased to an ASCII byte that is no letter is
that byte. -/
lemma Keeps.eq_of_lower {u : Unicode} {r : Str} (h : u.Keeps r) {sep : UInt8}
    (hcase : ∀ b, lowerByte b = sep → b = sep) (hlower : u.lower r = [sep]) : r = [sep] := by
  have hlen := h.2.1
  rw [hlower] at hlen
  obtain ⟨b, rfl⟩ := length_eq_one_iff.mp hlen.symm
  rw [u.lower_ascii b h.1.lt] at hlower
  rw [hcase b (singleton_inj.mp hlower)]

/-- Where the runes of a text keep their length, bytes at the beginning of the
lower-cased text are as many bytes of the text, up to case. -/
lemma exists_append_of_toLower {q t : Str} {sep : UInt8} (hkeeps : ∀ r ∈ pieces s, u.Keeps r)
    (hsep : sep < 0x80) (hcase : ∀ b, lowerByte b = sep → b = sep)
    (hlower : u.toLower s = q ++ t) (ht : t = [] ∨ t.head? = some sep) :
    ∃ before after, s = before ++ after ∧ before.length = q.length ∧
      u.equalFold before q = true ∧ after.head? = t.head? := by
  have hrunes : ∀ r ∈ pieces s, IsRune r := fun r hr => (hkeeps r hr).1
  have hlowered : ∀ r ∈ (pieces s).map u.lower, IsRune r := by
    intro r hr
    obtain ⟨x, hx, rfl⟩ := mem_map.mp hr
    exact u.lower_isRune x (hrunes x hx)
  rw [toLower, runes, map_asRune hrunes] at hlower
  obtain ⟨qs, ts, hparts, hqs, hts⟩ := exists_append_of_flatten hlowered hsep hlower ht
  obtain ⟨before, after, hpieces, rfl, rfl⟩ := map_eq_append_iff.mp hparts
  rw [hpieces] at hkeeps hlowered
  have hbefore := fun r hr => hkeeps r (mem_append_left after hr)
  have hafter := fun r hr => hkeeps r (mem_append_right before hr)
  refine ⟨before.flatten, after.flatten, ?_, ?_, ?_, ?_⟩
  · rw [← flatten_append, ← hpieces, flatten_pieces]
  · rw [← hqs, u.length_flatten_map_lower hbefore]
  · rw [map_append] at hlowered
    rw [equalFold, runes_flatten fun r hr => (hbefore r hr).1, ← hqs,
      runes_flatten fun r hr => hlowered r (mem_append_left _ hr)]
    exact u.foldRunes_map_lower hbefore
  · -- the rune after the bytes is the separator in both texts, or there is none in both
    cases after with
    | nil => rw [← hts]; rfl
    | cons r after =>
      have hr := hafter r mem_cons_self
      rw [map_cons] at hts
      obtain ⟨b, low, hlow⟩ := exists_cons_of_ne_nil (u.lower_isRune r hr.1).1
      have hhead : t.head? = some sep := by
        obtain rfl | hhead := ht
        · rw [hlow] at hts
          simp at hts
        · exact hhead
      rw [← hts, hlow] at hhead
      cases (Option.some.inj hhead : b = sep)
      have hone := (u.lower_isRune r hr.1).eq_of_mem hsep (by rw [hlow]; exact mem_cons_self)
      rw [← hts, hone, hr.eq_of_lower hcase hone]
      rfl

end Unicode

/-! ## A small instance -/

/-- U+0130, a capital I with a dot -/
def dottedI : Str := [0xc4, 0xb0]

/-- U+212A, the Kelvin sign -/
def kelvin : Str := [0xe2, 0x84, 0xaa]

/-- The rune that stands for those equal to it under folding. -/
def foldKey : Str → Str
  | [b] => [lowerByte b]
  | r => if r = kelvin then str "k" else r

/-- The case of ASCII and of the runes outside of it that are lower-cased to ASCII. -/
def asciiCase : Unicode where
  lower
    | [b] => [lowerByte b]
    | r => if r = dottedI then str "i" else if r = kelvin then str "k" else r
  fold r t := foldKey r == foldKey t
  lower_isRune r h := by
    split
    · exact isRune_singleton (lowerByte_lt h.lt)
    split
    · decide
    · split
      · decide
      · exact h
  lower_ascii b _ := rfl
  fold_refl r := beq_self_eq_true _
  fold_ascii b _ := by
    change ([lowerByte b] == [lowerByte (lowerByte b)]) = true
    rw [lowerByte_lowerByte, beq_self_eq_true]
  space
    | [b] => isSpace b
    | _ => false
  space_ascii b _ := rfl

end StreamHub.Library.Runes
