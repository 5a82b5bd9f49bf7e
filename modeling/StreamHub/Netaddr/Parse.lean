import StreamHub.Library.IpLiteral

/-!
# Parsing addresses

`parseIP` normalises a text (a zone and the text `::ffff:` before a dotted address are
taken off) and reads it as an IPv4 or IPv6 address by hand-written parsers.

`parseIP_text` says what it makes of every literal of RFC 4291: the address it stands
for, as a 128-bit number even if it is IPv4-mapped, with three exceptions.  A mapped
address written `::ffff:d.d.d.d` is an IPv4 address; a dotted tail right behind `::` is
not parsed, and neither is one with more groups between `::ffff:` and the tail.
-/

namespace StreamHub.Netaddr

open Library Text Runes Ip
open List hiding contains

structure ParsedIP where
  version : ℕ
  value : ℕ
  deriving DecidableEq

def octetRe (s : Str) : Bool := decide (1 ≤ s.length ∧ s.length ≤ 3) && s.all isDigit

def hexGrpRe (s : Str) : Bool := decide (1 ≤ s.length ∧ s.length ≤ 4) && s.all isHex

/-- The text before a zone. -/
def stripZone (ip : Str) : Str :=
  match cut [percent] ip with
  | some (before, _) => before
  | none => ip

/-- The text `::ffff:` before a dotted address is taken off. -/
def stripMapped (u : Unicode) (ip : Str) : Str :=
  if (str "::ffff:").isPrefixOf (u.toLower ip) && contains ip [period] then ip.drop 7 else ip

def normalizeIP (u : Unicode) (raw : Str) : Str := stripMapped u (stripZone (u.trimSpace raw))

/-- The loop of `parseIPv4`. -/
def parseOctets : List Str → ℕ → Option ℕ
  | [], v => some v
  | p :: rest, v =>
    if octetRe p then
      let o := numeral 10 p
      if 255 < o then none else parseOctets rest (v <<< 8 ||| o)
    else none

def parseIPv4 (ip : Str) : Option ℕ :=
  if (split period ip).length = 4 then parseOctets (split period ip) 0 else none

/-- `strings.Count` of `::` -/
def countPairs : Str → ℕ
  | a :: b :: s => if a = colon ∧ b = colon then countPairs s + 1 else countPairs (b :: s)
  | _ => 0

/-- The groups before a dotted tail, without the colon between them. -/
def trimColon (head : Str) : Str :=
  if [colon].isSuffixOf head && !([colon, colon].isSuffixOf head) then head.dropLast else head

/-- The text of the groups and the two groups of a dotted tail. -/
def dottedTail (ip : Str) : Option (Str × List ℕ) :=
  if contains ip [period] then
    match cutLast colon ip with
    | none => none
    | some (head, dotted) =>
      match parseIPv4 dotted with
      | none => none
      | some x => some (trimColon head, [x >>> 16 &&& 0xffff, x &&& 0xffff])
  else some (ip, [])

def splitGroups (s : Str) : List Str := if s = [] then [] else split colon s

/-- The groups of a text, with those that `::` stands for. -/
def expandGroups (head : Str) (need : ℕ) : Option (List Str) :=
  match cut [colon, colon] head with
  | some (left, right) =>
    let lg := splitGroups left
    let rg := splitGroups right
    if need < lg.length + rg.length then none
    else some (lg ++ replicate (need - lg.length - rg.length) (str "0") ++ rg)
  | none => some (splitGroups head)

/-- The value of groups. -/
def groupsValue (groups : List ℕ) : ℕ := groups.foldl (fun v n => v <<< 16 ||| n) 0

def parseIPv6 (ip : Str) : Option ℕ :=
  if contains ip [colon] then
    match dottedTail ip with
    | none => none
    | some (head, tail) =>
      let need := 8 - tail.length
      if 1 < countPairs head then none
      else
        match expandGroups head need with
        | none => none
        | some groups =>
          if groups.length = need then
            if groups.all hexGrpRe then some (groupsValue (groups.map (numeral 16) ++ tail))
            else none
          else none
  else none

def parseIP (u : Unicode) (raw : Str) : Option ParsedIP :=
  let ip := normalizeIP u raw
  if ip = [] then none
  else if contains ip [colon] then (parseIPv6 ip).map fun v => ⟨6, v⟩
  else (parseIPv4 ip).map fun v => ⟨4, v⟩

/-! ## Dotted addresses -/

lemma octetRe_text (o : Octet) : octetRe o.text = true := by
  have hpos := length_pos_iff.mpr o.ne_nil
  have hdigits : o.text.all isDigit = true := all_eq_true.mpr o.digits
  rw [octetRe, hdigits, Bool.and_true, decide_eq_true_eq]
  exact ⟨hpos, o.short⟩

lemma shiftLeft_or {v n k : ℕ} (h : n < 2 ^ k) : v <<< k ||| n = v * 2 ^ k + n := by
  rw [← Nat.shiftLeft_add_eq_or_of_lt h, Nat.shiftLeft_eq]

lemma parseOctets_texts (octets : List Octet) (v : ℕ) : parseOctets (octets.map Octet.text) v =
      some (octets.foldl (fun v o => v * 256 + numeral 10 o.text) v) := by
  induction octets generalizing v with
  | nil => rfl
  | cons o octets ih =>
    have hsmall := o.small
    rw [map_cons, parseOctets, if_pos (octetRe_text o)]
    rw [if_neg (by omega), shiftLeft_or (by omega), ih]
    rfl

variable (q : Quad) (gs left : List Group) (g : Group) (u : Unicode) (l : V6)

lemma parseIPv4_text : parseIPv4 q.text = some q.value := by
  have hsplit : split period q.text = q.octets.map Octet.text := by
    refine split_join (by simp [Quad.octets]) fun piece hpiece => ?_
    obtain ⟨o, -, rfl⟩ := mem_map.mp hpiece
    exact o.period_notMem
  rw [parseIPv4, hsplit, parseOctets_texts]
  rfl

lemma tailGroups_bits : [q.value >>> 16 &&& 0xffff, q.value &&& 0xffff] = tailGroups (some q) := by
  have hlt := q.value_lt
  have hlow : ∀ n : ℕ, n &&& 0xffff = n % 65536 := fun n => Nat.and_two_pow_sub_one_eq_mod n 16
  have hhigh : q.value >>> 16 = q.value / 65536 := Nat.shiftRight_eq_div_pow _ 16
  rw [hlow, hlow, hhigh, Nat.mod_eq_of_lt (by omega)]
  rfl

/-! ## Colons -/

/-- A text that `::` is neither in nor begins in, whatever follows. -/
structure Skips (s : Str) : Prop where
  count : ∀ t, countPairs (s ++ t) = countPairs t
  cut : ∀ t, cut [colon, colon] (s ++ t) =
    (cut [colon, colon] t).map fun parts => (s ++ parts.1, parts.2)

lemma skips_nil : Skips [] := ⟨fun _ => rfl, fun t => by simp⟩

lemma skips_append {s t : Str} (hs : Skips s) (ht : Skips t) : Skips (s ++ t) where
  count more := by rw [append_assoc, hs.count, ht.count]
  cut more := by
    rw [append_assoc, hs.cut, ht.cut, Option.map_map]
    refine congrArg (Option.map · _) (funext fun parts => ?_)
    simp

/-- A byte that is no colon, or a colon with something else behind it. -/
lemma skips_byte {a : UInt8} {s : Str}
    (h : a ≠ colon ∨ ∃ b rest, s = b :: rest ∧ b ≠ colon) (hs : Skips s) : Skips (a :: s) := by
  have hpair : ∀ t, [colon, colon].isPrefixOf (a :: (s ++ t)) = false := by
    intro t
    rw [← Bool.not_eq_true, isPrefixOf_iff_prefix, cons_prefix_cons]
    rintro ⟨heq, hrest⟩
    obtain h | ⟨b, rest, rfl, hb⟩ := h
    · exact h heq.symm
    rw [cons_append, cons_prefix_cons] at hrest
    exact hb hrest.1.symm
  constructor
  · intro t
    rw [cons_append, ← hs.count t]
    cases hst : s ++ t with
    | nil => rfl
    | cons b rest =>
      rw [countPairs, if_neg]
      rintro ⟨ha, hb⟩
      have hno := hpair t
      rw [hst, ha, hb] at hno
      exact absurd hno (by simp)
  · intro t
    rw [cons_append, Text.cut, hpair t, hs.cut t]
    cases Text.cut [colon, colon] t with
    | none => rfl
    | some parts => rfl

lemma skips_of_notMem {s : Str} (h : colon ∉ s) : Skips s := by
  induction s with
  | nil => exact skips_nil
  | cons a s ih =>
    obtain ⟨ha, hs⟩ := not_or.mp (mem_cons.not.mp h)
    exact skips_byte (.inl (Ne.symm ha)) (ih hs)

/-- The texts of groups with colons between them. -/
def groupsText (gs : List Group) : Str := join (gs.map Group.text) [colon]

lemma groupsText_singleton : groupsText [g] = g.text := by simp [groupsText, join]

lemma groupsText_cons_cons (g' : Group) :
    groupsText (g :: g' :: gs) = g.text ++ colon :: groupsText (g' :: gs) :=
  join_cons_cons ..

lemma join_groups_head {gs : List Group} (h : gs ≠ []) :
    ∃ b rest, groupsText gs = b :: rest ∧ isHex b = true := by
  obtain ⟨g, gs, rfl⟩ := exists_cons_of_ne_nil h
  obtain ⟨b, rest, hb⟩ := exists_cons_of_ne_nil g.ne_nil
  have hhex := g.hex b (by rw [hb]; exact mem_cons_self)
  cases gs with
  | nil => exact ⟨b, rest, by rw [groupsText_singleton, hb], hhex⟩
  | cons g' gs =>
    rw [groupsText_cons_cons, hb]
    exact ⟨b, _, rfl, hhex⟩

lemma join_groups_last {gs : List Group} (h : gs ≠ []) :
    ∃ front b, groupsText gs = front ++ [b] ∧ b ≠ colon := by
  induction gs with
  | nil => exact absurd rfl h
  | cons g gs ih =>
    cases gs with
    | nil =>
      refine ⟨g.text.dropLast, g.text.getLast g.ne_nil, ?_, fun heq => ?_⟩
      · rw [groupsText_singleton, dropLast_append_getLast]
      · exact g.colon_notMem (heq ▸ getLast_mem g.ne_nil)
    | cons g' gs =>
      obtain ⟨front, b, hfront, hb⟩ := ih (cons_ne_nil g' gs)
      refine ⟨g.text ++ colon :: front, b, ?_, hb⟩
      rw [groupsText_cons_cons, hfront, append_assoc]
      rfl

lemma skips_join : Skips (groupsText gs) := by
  induction gs with
  | nil => exact skips_nil
  | cons g gs ih =>
    have hg := skips_of_notMem g.colon_notMem
    cases gs with
    | nil => rwa [groupsText_singleton]
    | cons g' gs =>
      obtain ⟨b, rest, hb, hhex⟩ := join_groups_head (cons_ne_nil g' gs)
      have hne : b ≠ colon := fun heq => absurd (heq ▸ hhex) (by decide)
      exact skips_append hg (skips_byte (.inr ⟨b, rest, hb, hne⟩) ih)

lemma countPairs_join : countPairs (groupsText gs) = 0 := by
  have hcount := (skips_join gs).count []
  rwa [append_nil] at hcount

lemma splitGroups_join : splitGroups (groupsText gs) = gs.map Group.text := by
  by_cases hgs : gs = []
  · subst hgs
    rfl
  obtain ⟨b, rest, hb, -⟩ := join_groups_head hgs
  rw [splitGroups, if_neg (by rw [hb]; exact cons_ne_nil b rest)]
  refine split_join (by simpa using hgs) fun piece hpiece => ?_
  obtain ⟨g, -, rfl⟩ := mem_map.mp hpiece
  exact g.colon_notMem

lemma expandGroups_join (need : ℕ) :
    expandGroups (groupsText gs) need = some (gs.map Group.text) := by
  have hcut := (skips_join gs).cut []
  rw [append_nil] at hcut
  rw [expandGroups, hcut, splitGroups_join]
  rfl

lemma countPairs_gap (right : List Group) :
    countPairs (groupsText left ++ colon :: colon :: groupsText right) = 1 := by
  rw [(skips_join left).count, countPairs, if_pos ⟨rfl, rfl⟩, countPairs_join]

variable {right : List Group}

/-- Groups with zeros for `::` between them. -/
def expanded (left right : List Group) (zeros : ℕ) : List Str :=
  left.map Group.text ++ replicate zeros (str "0") ++ right.map Group.text

lemma expandGroups_gap {left : List Group} {need : ℕ} (h : left.length + right.length ≤ need) :
    expandGroups (groupsText left ++ colon :: colon :: groupsText right) need =
      some (expanded left right (need - left.length - right.length)) := by
  have hgap : ∀ s : Str, cut [colon, colon] (colon :: colon :: s) = some ([], s) := fun _ => rfl
  rw [expandGroups, (skips_join left).cut, hgap, Option.map_some]
  dsimp only
  rw [append_nil, splitGroups_join, splitGroups_join, length_map, length_map, if_neg (by omega)]
  rfl

/-! ## The dotted tail -/

lemma trimColon_of_last {front : Str} {b : UInt8} (h : b ≠ colon) :
    trimColon (front ++ [b]) = front ++ [b] := by
  have hsuffix : [colon].isSuffixOf (front ++ [b]) = false := by
    rw [← Bool.not_eq_true, isSuffixOf_iff_suffix]
    rintro ⟨more, hmore⟩
    exact h (append_inj_right' hmore rfl |> singleton_inj.mp).symm
  rw [trimColon, hsuffix]
  rfl

lemma trimColon_append_colon {front : Str} (h : front = [] ∨ ∃ s b, front = s ++ [b] ∧ b ≠ colon) :
    trimColon (front ++ [colon]) = front := by
  have hone : [colon].isSuffixOf (front ++ [colon]) = true :=
    isSuffixOf_iff_suffix.mpr (suffix_append front [colon])
  have htwo : [colon, colon].isSuffixOf (front ++ [colon]) = false := by
    rw [← Bool.not_eq_true, isSuffixOf_iff_suffix]
    rintro ⟨more, hmore⟩
    have hends : more ++ [colon] ++ [colon] = front ++ [colon] := by simpa using hmore
    obtain ⟨hmore, -⟩ := append_inj' hends rfl
    obtain rfl | ⟨s, b, rfl, hb⟩ := h
    · simp at hmore
    · exact hb (singleton_inj.mp (append_inj_right' hmore rfl)).symm
  rw [trimColon, hone, htwo, dropLast_concat]
  rfl

/-- A text with a dotted tail behind it. -/
def withTail (front : Str) : Option Quad → Str
  | none => front
  | some q => front ++ colon :: q.text

lemma period_mem_text : period ∈ q.text := by
  exact mem_append_right _ (mem_append_left _ mem_cons_self)

lemma dottedTail_quad (front : Str) (q : Quad) :
    dottedTail (front ++ colon :: q.text) = some (trimColon front, tailGroups (some q)) := by
  have hperiod : contains (front ++ colon :: q.text) [period] = true :=
    contains_singleton.mpr (mem_append_right _ (mem_cons_of_mem _ (period_mem_text q)))
  rw [dottedTail, if_pos hperiod, cutLast_append front q.colon_notMem]
  dsimp only
  rw [parseIPv4_text]
  dsimp only
  rw [tailGroups_bits]

variable {tail : Option Quad}

lemma dottedTail_withTail {front : Str} (hperiod : period ∉ front)
    (hlast : tail = none ∨ ∃ s b, front = s ++ [b] ∧ b ≠ colon) :
    dottedTail (withTail front tail) = some (front, tailGroups tail) := by
  cases tail with
  | none =>
    have hno : ¬ contains front [period] = true := contains_singleton.not.mpr hperiod
    rw [withTail, dottedTail, if_neg hno]
    rfl
  | some q =>
    obtain h | ⟨s, b, rfl, hb⟩ := hlast
    · cases h
    · rw [withTail, dottedTail_quad, trimColon_of_last hb]

lemma period_notMem_join : period ∉ groupsText gs := by
  intro h
  obtain h | ⟨piece, hpiece, h⟩ := mem_join h
  · exact absurd h (by decide)
  obtain ⟨g, -, rfl⟩ := mem_map.mp hpiece
  exact g.period_notMem h

lemma join_tailTexts {gs : List Group} (h : tail = none ∨ gs ≠ []) :
    join (gs.map Group.text ++ tailTexts tail) [colon] =
      withTail (groupsText gs) tail := by
  cases tail with
  | none => exact congrArg (join · [colon]) (append_nil _)
  | some q =>
    obtain h | h := h
    · cases h
    · exact join_append_singleton (by simpa using h) q.text colon

/-! ## IPv6 -/

lemma hexGrpRe_text : hexGrpRe g.text = true := by
  have hpos := length_pos_iff.mpr g.ne_nil
  have hhex : g.text.all isHex = true := all_eq_true.mpr g.hex
  rw [hexGrpRe, hhex, Bool.and_true, decide_eq_true_eq]
  exact ⟨hpos, g.short⟩

lemma all_hexGrpRe : (gs.map Group.text).all hexGrpRe = true := by
  refine all_eq_true.mpr fun piece hpiece => ?_
  obtain ⟨g, -, rfl⟩ := mem_map.mp hpiece
  exact hexGrpRe_text g

lemma groupsValue_eq (gs : List ℕ) (h : ∀ g ∈ gs, g < 65536) : groupsValue gs = V6.ofGroups gs := by
  have hfold : ∀ v, gs.foldl (fun v n => v <<< 16 ||| n) v =
      gs.foldl (fun v g => v * 65536 + g) v := by
    induction gs with
    | nil => exact fun _ => rfl
    | cons g gs ih =>
      intro v
      obtain ⟨hg, hgs⟩ := forall_mem_cons.mp h
      rw [foldl_cons, shiftLeft_or hg, ih hgs]
      rfl
  exact hfold 0

lemma groups_lt : ∀ n ∈ gs.map Group.value, n < 65536 := by
  intro n hn
  obtain ⟨g, -, rfl⟩ := mem_map.mp hn
  exact g.value_lt

lemma tailGroups_lt (tail : Option Quad) : ∀ n ∈ tailGroups tail, n < 65536 := by
  cases tail with
  | none =>
    intro n hn
    cases hn
  | some q =>
    have hlt := q.value_lt
    intro n hn
    change n ∈ [q.value / 65536, q.value % 65536] at hn
    rw [mem_pair] at hn
    omega

lemma length_tailGroups (tail : Option Quad) : (tailGroups tail).length = tailLength tail := by
  cases tail <;> rfl

/-- What `parseIPv6` does behind the dotted tail. -/
lemma parseIPv6_of_head {ip head : Str} {groups : List Str} (hcolon : colon ∈ ip)
    (htail : dottedTail ip = some (head, tailGroups tail)) (hcount : countPairs head ≤ 1)
    (hgroups : expandGroups head (8 - tailLength tail) = some groups) : parseIPv6 ip =
      if groups.length = 8 - tailLength tail then
        if groups.all hexGrpRe then some (groupsValue (groups.map (numeral 16) ++ tailGroups tail))
        else none
      else none := by
  rw [parseIPv6, if_pos (contains_singleton.mpr hcolon), htail]
  dsimp only
  rw [length_tailGroups, if_neg (by omega), hgroups]

/-- A dotted tail right behind `::` -/
def tailBehindGap : V6 → Bool
  | .compressed _ [] (some _) _ => true
  | _ => false

lemma colon_mem_text : colon ∈ l.text := by
  cases l with
  | compressed left right tail h => exact mem_append_right _ mem_cons_self
  | full groups tail h =>
    have hlen : 2 ≤ groups.length := by cases tail <;> simp [tailLength] at h <;> omega
    match groups, hlen with
    | g :: g' :: groups, _ =>
      exact mem_append_right _ (mem_append_left _ mem_cons_self)

lemma tailBehindGap_compressed {left : List Group}
    {h : left.length + right.length + tailLength tail ≤ 7}
    (hgap : tailBehindGap (.compressed left right tail h) = false) : tail = none ∨ right ≠ [] := by
  cases tail with
  | none => exact .inl rfl
  | some q =>
    refine .inr ?_
    rintro rfl
    cases hgap

/-- The groups of a compressed text, before a tail. -/
def gapText (left right : List Group) : Str :=
  groupsText left ++ colon :: colon :: groupsText right

lemma period_notMem_gapText (right : List Group) : period ∉ gapText left right := by
  have hne : period ≠ colon := by decide
  rw [gapText, mem_append, mem_cons, mem_cons]
  exact not_or.mpr ⟨period_notMem_join left,
    not_or.mpr ⟨hne, not_or.mpr ⟨hne, period_notMem_join right⟩⟩⟩

lemma gapText_last (h : right ≠ []) : ∃ s b, gapText left right = s ++ [b] ∧ b ≠ colon := by
  obtain ⟨s, b, hs, hb⟩ := join_groups_last h
  refine ⟨groupsText left ++ colon :: colon :: s, b, ?_, hb⟩
  rw [gapText, hs, append_assoc]
  rfl

lemma text_compressed {left : List Group}
    (hlen : left.length + right.length + tailLength tail ≤ 7) (h : tail = none ∨ right ≠ []) :
    V6.text (.compressed left right tail hlen) = withTail (gapText left right) tail := by
  rw [V6.text, join_tailTexts h]
  cases tail with
  | none => rfl
  | some q =>
    change _ = gapText left right ++ colon :: q.text
    rw [gapText, append_assoc]
    rfl

lemma groups_ne_nil {groups : List Group} (h : groups.length + tailLength tail = 8) :
    groups ≠ [] := by
  rintro rfl
  cases tail <;> simp [tailLength] at h

lemma parseIPv6_join {gs : List Group} (h : gs ≠ [])
    (hcolon : colon ∈ withTail (groupsText gs) tail) : parseIPv6 (withTail (groupsText gs) tail) =
      if gs.length = 8 - tailLength tail then
        some (V6.ofGroups (gs.map Group.value ++ tailGroups tail))
      else none := by
  have htail : dottedTail (withTail (groupsText gs) tail) = some (groupsText gs, tailGroups tail) :=
    dottedTail_withTail (period_notMem_join gs) (.inr (join_groups_last h))
  rw [parseIPv6_of_head hcolon htail (by rw [countPairs_join]; omega) (expandGroups_join gs _),
    length_map, if_pos (all_hexGrpRe gs), map_map]
  have hvalue := groupsValue_eq (gs.map Group.value ++ tailGroups tail)
    (forall_mem_append.mpr ⟨groups_lt gs, tailGroups_lt tail⟩)
  rw [← hvalue]
  rfl

/-- Every other literal is read as the number it stands for. -/
lemma parseIPv6_text {l : V6} (h : tailBehindGap l = false) : parseIPv6 l.text = some l.value := by
  have hcolon := colon_mem_text l
  cases l with
  | full groups tail hlen =>
    have hgroups := groups_ne_nil hlen
    have htext : V6.text (.full groups tail hlen) = withTail (groupsText groups) tail :=
      join_tailTexts (.inr hgroups)
    rw [htext] at hcolon ⊢
    rw [parseIPv6_join hgroups hcolon, if_pos (by omega)]
    rfl
  | compressed left right tail hlen =>
    have hright := tailBehindGap_compressed h
    have htail : dottedTail (withTail (gapText left right) tail) =
        some (gapText left right, tailGroups tail) :=
      dottedTail_withTail (period_notMem_gapText left right)
        (hright.imp id fun hne => gapText_last left hne)
    have hneed : left.length + right.length ≤ 8 - tailLength tail := by omega
    rw [text_compressed hlen hright] at hcolon ⊢
    rw [parseIPv6_of_head hcolon htail (le_of_eq (countPairs_gap left right))
      (expandGroups_gap hneed)]
    have hfill : 8 - tailLength tail - left.length - right.length =
        8 - (left.length + right.length + tailLength tail) := by omega
    rw [hfill]
    have hlength : (expanded left right (8 - (left.length + right.length + tailLength tail))).length
        = 8 - tailLength tail := by
      simp only [expanded, length_append, length_map, length_replicate]
      omega
    have hall (n : ℕ) : (expanded left right n).all hexGrpRe = true := by
      rw [expanded, all_append, all_append, all_hexGrpRe, all_hexGrpRe, all_replicate]
      split
      · rfl
      · decide
    have hgroups (n : ℕ) : (expanded left right n).map (numeral 16) =
        left.map Group.value ++ replicate n 0 ++ right.map Group.value := by
      rw [expanded, map_append, map_append, map_replicate, map_map, map_map]
      rfl
    rw [if_pos hlength, if_pos (hall _), hgroups, append_assoc]
    refine congrArg some (groupsValue_eq _ ?_)
    refine forall_mem_append.mpr ⟨forall_mem_append.mpr ⟨groups_lt left, ?_⟩,
      forall_mem_append.mpr ⟨groups_lt right, tailGroups_lt tail⟩⟩
    intro n hn
    rw [eq_of_mem_replicate hn]
    omega

/-- A tail right behind `::` is not read. -/
lemma parseIPv6_tailBehindGap {l : V6} (h : tailBehindGap l = true) : parseIPv6 l.text = none := by
  have hcolon := colon_mem_text l
  match l, h with
  | .compressed left [] (some q) hlen, _ =>
    have htext : V6.text (.compressed left [] (some q) hlen) =
        groupsText left ++ [colon] ++ colon :: q.text := by
      have hq : join (tailTexts (some q)) [colon] = q.text := by simp [tailTexts, join]
      rw [V6.text, map_nil, nil_append, hq, append_assoc]
      rfl
    have htrim : trimColon (groupsText left ++ [colon]) =
        groupsText left := by
      refine trimColon_append_colon ?_
      by_cases hleft : left = []
      · subst hleft
        exact .inl rfl
      · exact .inr (join_groups_last hleft)
    have htail := dottedTail_quad (groupsText left ++ [colon]) q
    rw [htrim] at htail
    have hshort : left.length ≠ 8 - tailLength (some q) := by
      change left.length + 0 + 2 ≤ 7 at hlen
      change left.length ≠ 6
      omega
    rw [htext] at hcolon ⊢
    rw [parseIPv6_of_head hcolon htail (by rw [countPairs_join]; omega)
      (expandGroups_join left _), length_map, if_neg hshort]

/-! ## Normalising -/

lemma normalizeIP_plain {s : Str} (hs : s ≠ []) (h : ∀ b ∈ s, IsPlain b)
    (zone : Option Str) : normalizeIP u (s ++ Literal.zoneText zone) = stripMapped u s := by
  have hpercent : percent ∉ s := fun hmem => (h percent hmem).ne_percent rfl
  have hbytes : ∀ b ∈ s, b < 0x80 ∧ isSpace b = false := fun b hb =>
    ⟨(h b hb).lt, (h b hb).not_space⟩
  cases zone with
  | none =>
    obtain ⟨t, htrim, ht⟩ := u.trimSpace_append hs hbytes []
    rw [ht rfl, append_nil] at htrim
    rw [Literal.zoneText, normalizeIP, append_nil, htrim, stripZone, cut_of_notMem hpercent]
  | some zone =>
    have hmarked : ∀ b ∈ s ++ [percent], b < 0x80 ∧ isSpace b = false :=
      forall_mem_append.mpr ⟨hbytes, by simp [percent, isSpace]⟩
    obtain ⟨t, htrim, -⟩ := u.trimSpace_append (by simp) hmarked zone
    rw [append_assoc, append_assoc, singleton_append, singleton_append] at htrim
    rw [Literal.zoneText, normalizeIP, htrim, stripZone, cut_append hpercent]

lemma lowerByte_of_digit_fifteen {b : UInt8} (h : isHex b = true) (hdigit : digit b = 15) :
    lowerByte b = 0x66 := by
  rw [digit_eq h] at hdigit
  rw [← UInt8.toNat_inj, toNat_lowerByte]
  change _ = 102
  split at hdigit
  · omega
  split at hdigit
  · rw [if_neg (by omega)]
    omega
  · rw [if_pos (by omega)]
    omega

/-- The group `ffff`, in any case. -/
lemma value_eq_ffff_iff : g.value = 0xffff ↔ g.text.map lowerByte = str "ffff" := by
  constructor
  · intro hvalue
    have hdigit : ∀ b ∈ g.text, digit b < 16 := fun b hb => digit_lt_sixteen (g.hex b hb)
    have hlen : g.text.length = 4 := by
      have hlt : 0xffff < 16 ^ g.text.length := hvalue ▸ numeral_lt hdigit
      have hshort := g.short
      by_contra hne
      have hle : 16 ^ g.text.length ≤ 16 ^ 3 := Nat.pow_le_pow_right (by omega) (by omega)
      omega
    obtain ⟨a, b, c, d, htext⟩ : ∃ a b c d, g.text = [a, b, c, d] := by
      match g.text, hlen with
      | [a, b, c, d], _ => exact ⟨a, b, c, d, rfl⟩
    have hhex := g.hex
    rw [htext] at hdigit hhex
    have hb := hdigit b (by simp)
    have hc := hdigit c (by simp)
    have hd := hdigit d (by simp)
    rw [Group.value, htext] at hvalue
    simp only [numeral, foldl_cons, foldl_nil] at hvalue
    rw [htext, map_cons, map_cons, map_cons, map_cons, lowerByte_of_digit_fifteen (hhex a (by simp))
      (by omega), lowerByte_of_digit_fifteen (hhex b (by simp)) (by omega),
      lowerByte_of_digit_fifteen (hhex c (by simp)) (by omega), lowerByte_of_digit_fifteen (hhex d
      (by simp)) (by omega)]
    rfl
  · intro htext
    rw [← g.value_lower]
    change numeral 16 (g.text.map lowerByte) = _
    rw [htext]
    decide

/-- A dotted address whose text begins with `::ffff:` -/
def mappedHead : V6 → Bool
  | .compressed [] (g :: _) (some _) _ => g.value == 0xffff
  | _ => false

lemma mappedHead_eq_true {l : V6} (h : mappedHead l = true) :
    ∃ g right q hlen, l = .compressed [] (g :: right) (some q) hlen ∧ g.value = 0xffff := by
  unfold mappedHead at h
  split at h
  · rename_i g right q hlen
    exact ⟨g, right, q, hlen, rfl, beq_iff_eq.mp h⟩
  · cases h

/-- What follows `::ffff:`, if it is the dotted tail alone. -/
def mappedTail : V6 → Option ℕ
  | .compressed _ [_] (some q) _ => some q.value
  | _ => none

lemma not_mapped_of_hex {b : UInt8} {s : Str} (hhex : isHex b = true)
    (h : ∀ c ∈ b :: s, IsPlain c) : stripMapped u (b :: s) = b :: s := by
  have hhead : lowerByte b ≠ colon := fun heq => absurd (heq ▸ isHex_lowerByte hhex) (by decide)
  have hbefore : (str "::ffff:").isPrefixOf (u.toLower (b :: s)) = false := by
    rw [u.toLower_of_isASCII (isASCII_of_plain h), ← Bool.not_eq_true, isPrefixOf_iff_prefix]
    intro hpre
    exact hhead (cons_prefix_cons.mp hpre).1.symm
  rw [stripMapped, hbefore]
  rfl

lemma withTail_cons (b : UInt8) (s : Str) (tail : Option Quad) :
    withTail (b :: s) tail = b :: withTail s tail := by cases tail <;> rfl

/-- A text that does not begin with `::` begins with a digit. -/
lemma text_head_hex {l : V6} (h : ∀ right tail hlen, l ≠ .compressed [] right tail hlen) :
    ∃ b rest, l.text = b :: rest ∧ isHex b = true := by
  cases l with
  | full groups tail hlen =>
    obtain ⟨b, rest, hjoin, hhex⟩ := join_groups_head (groups_ne_nil hlen)
    refine ⟨b, withTail rest tail, ?_, hhex⟩
    rw [V6.text, join_tailTexts (.inr (groups_ne_nil hlen)), hjoin, withTail_cons]
  | compressed left right tail hlen =>
    have hleft : left ≠ [] := by
      rintro rfl
      exact h right tail hlen rfl
    obtain ⟨b, rest, hjoin, hhex⟩ := join_groups_head hleft
    change ∃ b rest, groupsText left ++ _ = b :: rest ∧ _
    rw [hjoin]
    exact ⟨b, _, rfl, hhex⟩

lemma period_notMem_compressed {left : List Group}
    (hlen : left.length + right.length + tailLength none ≤ 7) :
    period ∉ V6.text (.compressed left right none hlen) := by
  rw [text_compressed hlen (.inl rfl)]
  exact period_notMem_gapText left right

/-- What is behind `::ffff:` -/
lemma drop_mapped {g : Group} (h : g.value = 0xffff) (more : Str) :
    (colon :: colon :: (g.text ++ colon :: more)).drop 7 = more := by
  have hfour : g.text.length = 4 := by
    rw [← length_map lowerByte]
    exact congrArg length ((value_eq_ffff_iff g).mp h)
  change (g.text ++ colon :: more).drop 5 = more
  rw [drop_append, hfour, drop_eq_nil_of_le (by omega)]
  rfl

/-- `::ffff:` is taken off the texts `::g:...:d.d.d.d` where it is the beginning. -/
lemma stripMapped_group {g : Group} {more : Str} (hmore : ∀ b ∈ more, IsPlain b)
    (hperiod : period ∈ more) : stripMapped u (colon :: colon :: (g.text ++ colon :: more)) =
      if g.value = 0xffff then (colon :: colon :: (g.text ++ colon :: more)).drop 7
      else colon :: colon :: (g.text ++ colon :: more) := by
  have hcolon : IsPlain colon := .inr (.inr (.inr (.inl rfl)))
  have hplain : ∀ b ∈ colon :: colon :: (g.text ++ colon :: more), IsPlain b := by
    refine forall_mem_cons.mpr ⟨hcolon, forall_mem_cons.mpr ⟨hcolon, ?_⟩⟩
    exact forall_mem_append.mpr ⟨g.plain, forall_mem_cons.mpr ⟨hcolon, hmore⟩⟩
  have hcontains : contains (colon :: colon :: (g.text ++ colon :: more)) [period] = true := by
    refine contains_singleton.mpr (mem_cons_of_mem _ (mem_cons_of_mem _ ?_))
    exact mem_append_right _ (mem_cons_of_mem _ hperiod)
  have hlower : u.toLower (colon :: colon :: (g.text ++ colon :: more)) =
      colon :: colon :: (g.lower.text ++ colon :: more.map lowerByte) := by
    rw [u.toLower_of_isASCII (isASCII_of_plain hplain), map_cons, map_cons, map_append, map_cons]
    rfl
  have hmapped : str "::ffff:" = colon :: colon :: (str "ffff" ++ [colon]) := by decide
  rw [stripMapped, hcontains, Bool.and_true, hlower, hmapped]
  by_cases hvalue : g.value = 0xffff
  · have htext : g.lower.text = str "ffff" := (value_eq_ffff_iff g).mp hvalue
    have hpre : (colon :: colon :: (str "ffff" ++ [colon])).isPrefixOf
        (colon :: colon :: (g.lower.text ++ colon :: more.map lowerByte)) = true := by
      rw [List.isPrefixOf_iff_prefix, htext]
      exact ⟨more.map lowerByte, by simp⟩
    rw [if_pos hpre, if_pos hvalue]
  · have hpre : ¬ (colon :: colon :: (str "ffff" ++ [colon])).isPrefixOf
        (colon :: colon :: (g.lower.text ++ colon :: more.map lowerByte)) = true := by
      rw [List.isPrefixOf_iff_prefix]
      rintro ⟨t, ht⟩
      have heq : str "ffff" ++ colon :: t = g.lower.text ++ colon :: more.map lowerByte := by
        simpa using ht
      have hffff := append_byte_injective_left (by decide) g.lower.colon_notMem heq
      exact hvalue ((value_eq_ffff_iff g).mpr hffff.1.symm)
    rw [if_neg hpre, if_neg hvalue]

lemma quad_head : ∃ b rest, q.text = b :: rest ∧ isDigit b = true := by
  obtain ⟨b, rest, hb⟩ := exists_cons_of_ne_nil q.a.ne_nil
  have hdigit := q.a.digits b (by rw [hb]; exact mem_cons_self)
  rw [Quad.text, Quad.octets, map_cons, map_cons, hb]
  exact ⟨b, _, rfl, hdigit⟩

/-- The text of a literal that begins with `::`, behind its first group. -/
def behindGroup (right : List Group) (q : Quad) : Str :=
  join (right.map Group.text ++ [q.text]) [colon]

lemma text_group (right : List Group) (q : Quad)
    (hlen : ([] : List Group).length + (g :: right).length + tailLength (some q) ≤ 7) :
    V6.text (.compressed [] (g :: right) (some q) hlen) =
      colon :: colon :: (g.text ++ colon :: behindGroup right q) := by
  change colon :: colon :: join (g.text :: (right.map Group.text ++ [q.text])) [colon] = _
  rw [join_cons_of_ne_nil g.text (by simp)]
  rfl

lemma plain_behindGroup (right : List Group) (q : Quad) :
    ∀ b ∈ behindGroup right q, IsPlain b := plain_join_groups right (some q)

lemma period_mem_behindGroup (right : List Group) (q : Quad) : period ∈ behindGroup right q :=
  (isInfix_join (by simp)).subset (period_mem_text q)

/-- The texts that `::ffff:` is taken off. -/
lemma stripMapped_text : stripMapped u l.text = if mappedHead l then l.text.drop 7 else l.text := by
  match l with
  | .full groups tail hlen =>
    obtain ⟨b, rest, htext, hhex⟩ := text_head_hex (l := .full groups tail hlen) nofun
    have hplain := V6.plain (.full groups tail hlen)
    rw [htext] at hplain ⊢
    exact not_mapped_of_hex u hhex hplain
  | .compressed (g :: left) right tail hlen =>
    obtain ⟨b, rest, htext, hhex⟩ :=
      text_head_hex (l := .compressed (g :: left) right tail hlen) nofun
    have hplain := V6.plain (.compressed (g :: left) right tail hlen)
    rw [htext] at hplain ⊢
    exact not_mapped_of_hex u hhex hplain
  | .compressed [] right none hlen =>
    have hno : contains (V6.text (.compressed [] right none hlen)) [period] = false :=
      Bool.eq_false_iff.mpr (contains_singleton.not.mpr (period_notMem_compressed hlen))
    rw [stripMapped, hno, Bool.and_false]
    cases right <;> rfl
  | .compressed [] [] (some q) hlen =>
    -- behind the colons there is a decimal digit, not an f
    obtain ⟨b, rest, hq, hdigit⟩ := quad_head q
    have htext : V6.text (.compressed [] [] (some q) hlen) = colon :: colon :: b :: rest := by
      rw [← hq]
      simp [V6.text, tailTexts, join]
    have hne : lowerByte b ≠ 0x66 := by
      rw [lowerByte_of_isDigit hdigit]
      rintro rfl
      exact absurd hdigit (by decide)
    have hplain := V6.plain (.compressed [] [] (some q) hlen)
    rw [htext] at hplain ⊢
    have hpre : (str "::ffff:").isPrefixOf (u.toLower (colon :: colon :: b :: rest)) = false := by
      rw [u.toLower_of_isASCII (isASCII_of_plain hplain), ← Bool.not_eq_true, isPrefixOf_iff_prefix]
      intro hpre
      have hrest := (cons_prefix_cons.mp (cons_prefix_cons.mp hpre).2).2
      exact hne (cons_prefix_cons.mp hrest).1.symm
    rw [stripMapped, hpre]
    rfl
  | .compressed [] (g :: right) (some q) hlen =>
    rw [text_group, stripMapped_group u (plain_behindGroup right q)
      (period_mem_behindGroup right q)]
    simp only [mappedHead, beq_iff_eq]

/-! ## What is parsed -/

/-- What `parseIP` makes of a literal. -/
def parsed (l : V6) : Option ParsedIP :=
  if mappedHead l then (mappedTail l).map fun v => ⟨4, v⟩
  else if tailBehindGap l then none
  else some ⟨6, l.value⟩

lemma text_ne_nil : l.text ≠ [] := ne_nil_of_mem (colon_mem_text l)

lemma parseIPv6_behindGroup (hright : right ≠ []) (hlen : right.length ≤ 5) :
    parseIPv6 (behindGroup right q) = none := by
  have htext : behindGroup right q = withTail (groupsText right) (some q) := by
    change join (right.map Group.text ++ tailTexts (some q)) [colon] = _
    exact join_tailTexts (.inr hright)
  have hcolon : colon ∈ withTail (groupsText right) (some q) :=
    mem_append_right _ mem_cons_self
  have hshort : right.length ≠ 8 - tailLength (some q) := by
    change right.length ≠ 6
    omega
  rw [htext, parseIPv6_join hright hcolon, if_neg hshort]

lemma parseIP_quad_body {u : Unicode} {raw : Str} {q : Quad} (h : normalizeIP u raw = q.text) :
    parseIP u raw = some ⟨4, q.value⟩ := by
  have hne : q.text ≠ [] := ne_nil_of_mem (period_mem_text q)
  have hcolon : ¬ contains q.text [colon] = true := contains_singleton.not.mpr q.colon_notMem
  rw [parseIP, h, if_neg hne, if_neg hcolon, parseIPv4_text]
  rfl

lemma parseIP_quad (q : Quad) (zone : Option Str) :
    parseIP u (q.text ++ Literal.zoneText zone) = some ⟨4, q.value⟩ := by
  have hne : q.text ≠ [] := ne_nil_of_mem (period_mem_text q)
  obtain ⟨b, rest, hq, hdigit⟩ := quad_head q
  have hplain := q.plain
  refine parseIP_quad_body ?_
  rw [normalizeIP_plain u hne hplain]
  rw [hq] at hplain ⊢
  exact not_mapped_of_hex u (isHex_of_isDigit hdigit) hplain

/-- Every literal of RFC 4291, in any case and with any zone. -/
lemma parseIP_text (zone : Option Str) :
    parseIP u (l.text ++ Literal.zoneText zone) = parsed l := by
  have hnormal := normalizeIP_plain u (text_ne_nil l) l.plain zone
  rw [stripMapped_text] at hnormal
  by_cases hmapped : mappedHead l = true
  · rw [if_pos hmapped] at hnormal
    rw [parsed, if_pos hmapped]
    obtain ⟨g, right, q, hlen, rfl, hvalue⟩ := mappedHead_eq_true hmapped
    rw [text_group, drop_mapped hvalue] at hnormal
    rw [text_group]
    cases right with
    | nil =>
      have hq : behindGroup [] q = q.text := by simp [behindGroup, join]
      rw [hq] at hnormal ⊢
      exact parseIP_quad_body hnormal
    | cons g' right =>
      have hcolon : colon ∈ behindGroup (g' :: right) q := by
        rw [behindGroup, map_cons, cons_append, join_cons_of_ne_nil _ (by simp)]
        exact mem_append_right _ (mem_append_left _ mem_cons_self)
      have hshort : (g' :: right).length ≤ 5 := by
        change 0 + (right.length + 1 + 1) + 2 ≤ 7 at hlen
        rw [length_cons]
        omega
      rw [parseIP, hnormal, if_neg (ne_nil_of_mem hcolon), if_pos (contains_singleton.mpr hcolon),
        parseIPv6_behindGroup q (cons_ne_nil _ _) hshort]
      rfl
  · rw [if_neg hmapped] at hnormal
    rw [parsed, if_neg hmapped, parseIP, hnormal, if_neg (text_ne_nil l),
      if_pos (contains_singleton.mpr (colon_mem_text l))]
    cases hgap : tailBehindGap l with
    | true =>
      rw [parseIPv6_tailBehindGap hgap]
      rfl
    | false =>
      rw [parseIPv6_text hgap]
      rfl

end StreamHub.Netaddr
