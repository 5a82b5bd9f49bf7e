import StreamHub.Netaddr.Parse

/-!
# Networks and internal addresses

`inCIDR` compares the first bits of an address with those of a network.  The networks
that are never dialled are the private, loopback and link-local ones of both families;
`isForbiddenEgress` adds the unspecified addresses.

What is forbidden is exactly what is parsed to an internal address
(`isForbiddenEgress_iff`).  For a literal of RFC 4291 that is its address, if it is
`Recognised`: a mapped address has to be written `::ffff:d.d.d.d`, any other one without
a dotted tail right behind `::` (`parsed_internal_iff`).  For the spellings that are read,
`matchesCIDR` compares prefixes (`matchesCIDR_spelling`).
-/

namespace StreamHub.Netaddr

open Library Text Runes Ip List

structure ParsedCIDR where
  version : ℕ
  network : ℕ
  prefixLen : ℕ
  cidr : Str
  deriving DecidableEq

/-- The bits of an address. -/
def bitsOf (version : ℕ) : ℕ := if version = 6 then 128 else 32

/-- An address with its last bits zeroed. -/
def mask (v host : ℕ) : ℕ := (v >>> host) <<< host

/-- The length of a prefix, all bits if none is given. -/
def parsePrefixLen (bits : ℕ) : Option Str → Option ℕ
  | none => some bits
  | some p =>
    if octetRe p then
      if bits < numeral 10 p then none else some (numeral 10 p)
    else none

def parseCIDR (u : Unicode) (raw : Str) : Option ParsedCIDR :=
  let entry := u.trimSpace raw
  if entry = [] then none
  else
    let (ipPart, prefixPart) : Str × Option Str :=
      match cut [slash] entry with
      | some (before, after) => (before, some after)
      | none => (entry, none)
    match parseIP u ipPart with
    | none => none
    | some ip =>
      match parsePrefixLen (bitsOf ip.version) prefixPart with
      | none => none
      | some n =>
        some ⟨ip.version, if n = 0 then 0 else mask ip.value (bitsOf ip.version - n), n,
          normalizeIP u ipPart ++ [slash] ++ natText n⟩

def inCIDR (ip : ParsedIP) (c : ParsedCIDR) : Bool :=
  if ip.version = c.version then
    if c.prefixLen = 0 then true
    else mask ip.value (bitsOf c.version - c.prefixLen) == c.network
  else false

/-- `MatchesCIDR` -/
def matchesCIDR (u : Unicode) (ip cidr : Str) : Bool :=
  match parseIP u ip, parseCIDR u cidr with
  | some p, some c => inCIDR p c
  | _, _ => false

/-- The networks, as the source writes them. -/
def privateTexts : List Str :=
  [str "127.0.0.0/8", str "10.0.0.0/8", str "172.16.0.0/12", str "192.168.0.0/16",
    str "169.254.0.0/16", str "::1/128", str "fc00::/7", str "fe80::/10"]

def privateCIDRs (u : Unicode) : List ParsedCIDR := privateTexts.filterMap (parseCIDR u)

def isPrivateOrLoopback (u : Unicode) (raw : Str) : Bool :=
  match parseIP u raw with
  | none => false
  | some ip => (privateCIDRs u).any (inCIDR ip)

def isForbiddenEgress (u : Unicode) (addr : Str) : Bool :=
  if isPrivateOrLoopback u addr then true
  else
    match parseIP u addr with
    | none => false
    | some p => p.value == 0

/-! ## Allowlists -/

structure Allowlist where
  hostnames : List Str
  cidrs : List ParsedCIDR
  deriving DecidableEq

def compileAllowlist (u : Unicode) : List Str → Allowlist
  | [] => ⟨[], []⟩
  | e :: rest =>
    let c := compileAllowlist u rest
    match parseCIDR u e with
    | some p => { c with cidrs := p :: c.cidrs }
    | none => { c with hostnames := u.toLower e :: c.hostnames }

namespace Allowlist

def hasHostname (u : Unicode) (c : Allowlist) (host : Str) : Bool :=
  c.hostnames.contains (u.toLower host)

def hasAddress (u : Unicode) (c : Allowlist) (addr : Str) : Bool :=
  match parseIP u addr with
  | none => false
  | some ip => c.cidrs.any (inCIDR ip)

end Allowlist

/-! ## Membership -/

lemma mask_eq_iff (v w host : ℕ) : mask v host = mask w host ↔ v / 2 ^ host = w / 2 ^ host := by
  rw [mask, mask, Nat.shiftLeft_eq, Nat.shiftLeft_eq, Nat.shiftRight_eq_div_pow,
    Nat.shiftRight_eq_div_pow]
  exact Nat.mul_left_inj (by positivity)

variable {ip : ParsedIP}

/-- A network given by an address and the length of its prefix. -/
lemma parseCIDR_text {u : Unicode} {t : Str} {p : ℕ} (ht : ∀ b ∈ t, IsPlain b)
    (hip : parseIP u t = some ip) (hbits : p ≤ bitsOf ip.version) :
    parseCIDR u (t ++ slash :: natText p) =
      some ⟨ip.version, if p = 0 then 0 else mask ip.value (bitsOf ip.version - p), p,
        normalizeIP u t ++ [slash] ++ natText p⟩ := by
  have hlt : p < 256 := by
    unfold bitsOf at hbits
    split at hbits <;> omega
  have hvalue : numeral 10 (natText p) = p := Octet.numeral_ofNat p hlt
  have hoctet : octetRe (natText p) = true := octetRe_text (Octet.ofNat p hlt)
  have hslash : slash ∉ t := by
    intro hmem
    obtain h | h | h | h | h := ht slash hmem <;> exact absurd h (by decide)
  have hbytes : ∀ b ∈ t ++ slash :: natText p, b < 0x80 ∧ isSpace b = false := by
    refine forall_mem_append.mpr ⟨fun b hb => ⟨(ht b hb).lt, (ht b hb).not_space⟩, ?_⟩
    refine forall_mem_cons.mpr ⟨by decide, fun b hb => ?_⟩
    have hplain : IsPlain b := .inl (isHex_of_isDigit ((Octet.ofNat p hlt).digits b hb))
    exact ⟨hplain.lt, hplain.not_space⟩
  obtain ⟨rest, htrim, hrest⟩ := u.trimSpace_append (by simp) hbytes []
  rw [hrest rfl, append_nil] at htrim
  have hbefore : parsePrefixLen (bitsOf ip.version) (some (natText p)) = some p := by
    rw [parsePrefixLen, if_pos hoctet, hvalue, if_neg (by omega)]
  rw [parseCIDR, htrim]
  dsimp only
  rw [if_neg (by simp), cut_append hslash]
  rw [hip]
  dsimp only
  rw [hbefore]

lemma parseIP_version {u : Unicode} {raw : Str} (h : parseIP u raw = some ip) :
    ip.version = 4 ∨ ip.version = 6 := by
  unfold parseIP at h
  dsimp only at h
  split at h
  · cases h
  split at h
  · obtain ⟨v, -, rfl⟩ := Option.map_eq_some_iff.mp h
    exact .inr rfl
  · obtain ⟨v, -, rfl⟩ := Option.map_eq_some_iff.mp h
    exact .inl rfl

/-- The first `p` bits of two addresses agree. -/
def SamePrefix (bits p v w : ℕ) : Prop := p = 0 ∨ v / 2 ^ (bits - p) = w / 2 ^ (bits - p)

/-- An address is in a network of its family if its first bits are. -/
lemma inCIDR_iff {version w n : ℕ} {cidr : Str} :
    inCIDR ip ⟨version, if n = 0 then 0 else mask w (bitsOf version - n), n, cidr⟩ = true ↔
      ip.version = version ∧ SamePrefix (bitsOf version) n ip.value w := by
  unfold inCIDR SamePrefix
  rw [← mask_eq_iff]
  by_cases hn : n = 0
  · simp [hn]
  · simp [hn]

/-! ## The internal networks -/

def oneGroup : Group := ⟨str "1", all_eq_true.mp rfl, by decide, by decide⟩

/-- `::1` -/
def loopback6 : V6 := .compressed [] [oneGroup] none (by decide)

/-- `fc00::` -/
def uniqueLocal6 : V6 :=
  .compressed [⟨str "fc00", all_eq_true.mp rfl, by decide, by decide⟩] [] none (by decide)

/-- `fe80::` -/
def linkLocal6 : V6 :=
  .compressed [⟨str "fe80", all_eq_true.mp rfl, by decide, by decide⟩] [] none (by decide)

/-- The addresses of the networks, as they are written and parsed, and the prefix lengths. -/
def privateNets : List (Str × ParsedIP × ℕ) :=
  ([(127 * 2 ^ 24, 8), (10 * 2 ^ 24, 8), (172 * 2 ^ 24 + 16 * 2 ^ 16, 12),
      (192 * 2 ^ 24 + 168 * 2 ^ 16, 16), (169 * 2 ^ 24 + 254 * 2 ^ 16, 16)].map
    fun x => ((Quad.ofNat x.1).text, ⟨4, x.1⟩, x.2)) ++
  [(loopback6, 1, 128), (uniqueLocal6, 0xfc00 * 2 ^ 112, 7), (linkLocal6, 0xfe80 * 2 ^ 112, 10)].map
    fun x => (x.1.text, ⟨6, x.2.1⟩, x.2.2)

lemma parseIP_privateNets (u : Unicode) :
    ∀ x ∈ privateNets, (∀ b ∈ x.1, IsPlain b) ∧ parseIP u x.1 = some x.2.1 := by
  refine forall_mem_append.mpr ⟨forall_mem_map.mpr fun x hx => ?_, forall_mem_map.mpr fun x hx => ?_⟩
  · have hlt : x.1 < 2 ^ 32 := by
      revert x
      decide
    have hip := parseIP_quad u (Quad.ofNat x.1) none
    rw [Literal.zoneText, append_nil, Quad.value_ofNat hlt] at hip
    exact ⟨(Quad.ofNat x.1).plain, hip⟩
  · have hparsed : parsed x.1 = some ⟨6, x.2.1⟩ := by
      revert x
      decide +kernel
    have hip := parseIP_text u x.1 none
    rw [Literal.zoneText, append_nil, hparsed] at hip
    exact ⟨x.1.plain, hip⟩

lemma any_privateCIDRs (u : Unicode) : (privateCIDRs u).any (inCIDR ip) = true ↔
    ∃ x ∈ privateNets, ip.version = x.2.1.version ∧
      SamePrefix (bitsOf x.2.1.version) x.2.2 ip.value x.2.1.value := by
  have htexts : privateTexts = privateNets.map fun x => x.1 ++ slash :: natText x.2.2 := by
    decide +kernel
  have hlengths : ∀ x ∈ privateNets, x.2.2 ≤ bitsOf x.2.1.version := by decide +kernel
  have hparse : ∀ x ∈ privateNets, parseCIDR u (x.1 ++ slash :: natText x.2.2) = _ := fun x hx =>
    parseCIDR_text (parseIP_privateNets u x hx).1 (parseIP_privateNets u x hx).2 (hlengths x hx)
  rw [privateCIDRs, htexts, any_eq_true]
  constructor
  · rintro ⟨c, hc, hin⟩
    obtain ⟨t, ht, hcidr⟩ := mem_filterMap.mp hc
    obtain ⟨x, hx, rfl⟩ := mem_map.mp ht
    rw [hparse x hx, Option.some.injEq] at hcidr
    rw [← hcidr, inCIDR_iff] at hin
    exact ⟨x, hx, hin⟩
  · rintro ⟨x, hx, hin⟩
    exact ⟨_, mem_filterMap.mpr ⟨_, mem_map_of_mem hx, hparse x hx⟩, inCIDR_iff.mpr hin⟩

/-- An address that was parsed. -/
def ParsedIP.address (ip : ParsedIP) : Address :=
  if ip.version = 4 then .v4 ip.value else .v6 ip.value

/-- The networks and the unspecified addresses are the internal addresses. -/
lemma internal_iff (u : Unicode) (h : ip.version = 4 ∨ ip.version = 6) :
    (privateCIDRs u).any (inCIDR ip) = true ∨ ip.value = 0 ↔ ip.address.Internal := by
  rw [any_privateCIDRs]
  obtain hversion | hversion := h <;>
    simp [privateNets, hversion, bitsOf, SamePrefix, ParsedIP.address, Address.Internal, or_assoc]

lemma isForbiddenEgress_iff (u : Unicode) (addr : Str) : isForbiddenEgress u addr = true ↔
      ∃ ip, parseIP u addr = some ip ∧ ip.address.Internal := by
  rw [isForbiddenEgress, isPrivateOrLoopback]
  cases hip : parseIP u addr with
  | none => simp
  | some ip =>
    have hinternal := internal_iff u (parseIP_version hip)
    simp only [Option.some.injEq, exists_eq_left']
    rw [← hinternal]
    cases (privateCIDRs u).any (inCIDR ip) <;> simp

lemma isForbiddenEgress_of_parse {u : Unicode} {addr : Str} (h : parseIP u addr = some ip) :
    isForbiddenEgress u addr = true ↔ ip.address.Internal := by
  rw [isForbiddenEgress_iff, h]
  simp only [Option.some.injEq, exists_eq_left']

/-! ## Literals -/

/-- A mapped address is written `::ffff:d.d.d.d`, any other one without a dotted tail right
behind `::`. -/
def Recognised (l : V6) : Prop :=
  if Mapped l.value then mappedHead l = true ∧ (mappedTail l).isSome = true
  else tailBehindGap l = false

instance (l : V6) : Decidable (Recognised l) :=
  inferInstanceAs (Decidable (if Mapped l.value then
    mappedHead l = true ∧ (mappedTail l).isSome = true else tailBehindGap l = false))

lemma ofGroups_append_singleton (gs : List ℕ) (g : ℕ) :
    V6.ofGroups (gs ++ [g]) = V6.ofGroups gs * 65536 + g := by
  rw [V6.ofGroups, foldl_append]
  rfl

lemma ofGroups_zeros (n : ℕ) (gs : List ℕ) :
    V6.ofGroups (replicate n 0 ++ gs) = V6.ofGroups gs := by
  rw [V6.ofGroups, foldl_append, V6.ofGroups]
  have hzero : (replicate n 0).foldl (fun v g => v * 65536 + g) 0 = 0 := by
    induction n with
    | zero => rfl
    | succ n ih => exact ih
  rw [hzero]

lemma ofGroups_cons_bounds {g : ℕ} {gs : List ℕ} (h : ∀ x ∈ gs, x < 65536) :
    g * 65536 ^ gs.length ≤ V6.ofGroups (g :: gs) ∧
      V6.ofGroups (g :: gs) < (g + 1) * 65536 ^ gs.length := by
  induction gs using reverseRecOn with
  | nil => simp [V6.ofGroups]
  | append_singleton gs x ih =>
    obtain ⟨hlow, hhigh⟩ := ih fun y hy => h y (mem_append_left [x] hy)
    have hx := h x (mem_append_right gs mem_cons_self)
    rw [← cons_append, ofGroups_append_singleton, length_append, length_singleton,
      pow_succ, ← mul_assoc, ← mul_assoc]
    constructor
    · omega
    · have hsucc : V6.ofGroups (g :: gs) + 1 ≤ (g + 1) * 65536 ^ gs.length := hhigh
      omega

lemma not_internal_of_mapped {n : ℕ} (h : Mapped n) : ¬ (Address.v6 n).Internal := by
  rw [Mapped] at h
  rw [Address.Internal]
  omega

lemma value_mapped (g : Group) (q : Quad)
    (hlen : ([] : List Group).length + [g].length + tailLength (some q) ≤ 7) :
    V6.value (.compressed [] [g] (some q) hlen) = g.value * 2 ^ 32 + q.value := by
  have hgroups : V6.groups (.compressed [] [g] (some q) hlen) =
      replicate 5 0 ++ [g.value, q.value / 65536, q.value % 65536] := rfl
  rw [V6.value, hgroups, ofGroups_zeros]
  simp only [V6.ofGroups, foldl_cons, foldl_nil]
  omega

/-- `::ffff:d.d.d.d` stands for the IPv4 address. -/
lemma mapped_alone {g : Group} {q : Quad} (hg : g.value = 0xffff)
    (hlen : ([] : List Group).length + [g].length + tailLength (some q) ≤ 7) :
    Mapped (V6.value (.compressed [] [g] (some q) hlen)) ∧
      V6.value (.compressed [] [g] (some q) hlen) % 2 ^ 32 = q.value := by
  have hq := q.value_lt
  rw [Mapped, value_mapped g q hlen]
  omega

/-- With more groups between `::ffff:` and the tail the address is neither mapped nor internal. -/
lemma not_mapped_of_more {g g' : Group} {right : List Group} {q : Quad} (hg : g.value = 0xffff)
    (hlen : ([] : List Group).length + (g :: g' :: right).length + tailLength (some q) ≤ 7) :
    ¬ Mapped (V6.value (.compressed [] (g :: g' :: right) (some q) hlen)) ∧
      ¬ (Address.v6 (V6.value (.compressed [] (g :: g' :: right) (some q) hlen))).Internal := by
  let rest : List ℕ := (g' :: right).map Group.value ++ tailGroups (some q)
  have hvalue : V6.value (.compressed [] (g :: g' :: right) (some q) hlen) =
      V6.ofGroups (g.value :: rest) := by
    exact ofGroups_zeros _ (g.value :: rest)
  have hrest : ∀ x ∈ rest, x < 65536 :=
    forall_mem_append.mpr ⟨groups_lt (g' :: right), tailGroups_lt (some q)⟩
  have hlength : rest.length = right.length + 3 := by simp [rest, tailGroups, Quad.groups]
  obtain ⟨hlow, hhigh⟩ := ofGroups_cons_bounds hrest (g := g.value)
  rw [← hvalue, hg, hlength] at hlow hhigh
  have hright : right.length ≤ 3 := by
    change 0 + (right.length + 1 + 1) + 2 ≤ 7 at hlen
    omega
  have hsmall : 65536 ^ (right.length + 3) ≤ 65536 ^ 6 := Nat.pow_le_pow_right (by omega) (by omega)
  have hlarge : 65536 ^ 3 ≤ 65536 ^ (right.length + 3) :=
    Nat.pow_le_pow_right (by omega) (by omega)
  rw [Mapped, Address.Internal]
  omega

/-- What is parsed to an internal address is a recognised literal of one. -/
lemma parsed_internal_iff (l : V6) :
    (∃ ip, parsed l = some ip ∧ ip.address.Internal) ↔ Recognised l ∧ l.address.Internal := by
  by_cases hmapped : mappedHead l = true
  · obtain ⟨g, right, q, hlen, rfl, hvalue⟩ := mappedHead_eq_true hmapped
    rw [parsed, if_pos hmapped]
    cases right with
    | nil =>
      obtain ⟨his, hlow⟩ := mapped_alone hvalue hlen
      have haddress : V6.address (.compressed [] [g] (some q) hlen) = .v4 q.value := by
        rw [V6.address, if_pos his, hlow]
      have hrecognised : Recognised (.compressed [] [g] (some q) hlen) := by
        rw [Recognised, if_pos his]
        exact ⟨hmapped, rfl⟩
      rw [haddress]
      constructor
      · rintro ⟨ip, hip, hint⟩
        cases hip
        exact ⟨hrecognised, hint⟩
      · intro h
        exact ⟨⟨4, q.value⟩, rfl, h.2⟩
    | cons g' right =>
      constructor
      · rintro ⟨ip, hip, -⟩
        cases hip
      · rintro ⟨-, hint⟩
        obtain ⟨hnot, hnotInternal⟩ := not_mapped_of_more hvalue hlen
        rw [V6.address, if_neg hnot] at hint
        exact absurd hint hnotInternal
  · rw [parsed, if_neg hmapped]
    by_cases his : Mapped l.value
    · have hnot : ¬ Recognised l := by
        rw [Recognised, if_pos his]
        exact fun h => hmapped h.1
      constructor
      · rintro ⟨ip, hip, hint⟩
        split at hip
        · cases hip
        cases hip
        exact absurd hint (not_internal_of_mapped his)
      · intro h
        exact absurd h.1 hnot
    · rw [Recognised, if_neg his, V6.address, if_neg his]
      cases hgap : tailBehindGap l with
      | true => simp
      | false =>
        constructor
        · rintro ⟨ip, hip, hint⟩
          cases hip
          exact ⟨rfl, hint⟩
        · intro h
          exact ⟨⟨6, l.value⟩, rfl, h.2⟩

/-! ## Spellings -/

/-- A dotted quad or a form of RFC 4291. -/
inductive Spelling
  | quad (q : Quad)
  | v6 (l : V6)

namespace Spelling

def text : Spelling → Str
  | .quad q => q.text
  | .v6 l => l.text

/-- The address that is spelled; one of `::ffff:0:0/96` is the IPv4 address. -/
def meaning : Spelling → ParsedIP
  | .quad q => ⟨4, q.value⟩
  | .v6 l => if Mapped l.value then ⟨4, l.value % 2 ^ 32⟩ else ⟨6, l.value⟩

/-- An address of `::ffff:0:0/96` is spelled with a dotted tail, beginning with `::ffff:`. -/
def Plain : Spelling → Prop
  | .quad _ => True
  | .v6 l => Mapped l.value → mappedHead l = true

/-- Any other address has no dotted tail right behind `::` and none in a text that begins
with `::ffff:`. -/
def Read : Spelling → Prop
  | .quad _ => True
  | .v6 l => Mapped l.value ∨ tailBehindGap l = false ∧ mappedHead l = false

lemma plain_text (s : Spelling) : ∀ b ∈ s.text, IsPlain b := by
  cases s with
  | quad q => exact q.plain
  | v6 l => exact l.plain

lemma parseIP_iff (u : Unicode) {s : Spelling} (h : s.Plain) :
    parseIP u s.text = some s.meaning ↔ s.Read := by
  cases s with
  | quad q =>
    have hip := parseIP_quad u q none
    rw [Literal.zoneText, append_nil] at hip
    exact iff_of_true hip trivial
  | v6 l =>
    have hip := parseIP_text u l none
    rw [Literal.zoneText, append_nil] at hip
    rw [text, hip, parsed, meaning, Read]
    by_cases hmapped : mappedHead l = true
    · obtain ⟨g, right, q, hlen, rfl, hvalue⟩ := mappedHead_eq_true hmapped
      rw [hmapped]
      cases right with
      | nil =>
        obtain ⟨his, hlow⟩ := mapped_alone hvalue hlen
        rw [if_pos his, hlow]
        exact iff_of_true rfl (.inl his)
      | cons g' right =>
        have hnot := (not_mapped_of_more hvalue hlen).1
        simp [mappedTail, hnot]
    · have hnot : ¬ Mapped l.value := fun his => hmapped (h his)
      cases tailBehindGap l <;> simp [hnot, hmapped]

end Spelling

/-- An address is parsed to its value exactly if its spelling is one of those that are read,
and such addresses match a network exactly if the first bits agree. -/
theorem matchesCIDR_spelling (u : Unicode) (a n : Spelling) (ha : a.Plain) (hn : n.Plain) :
    (parseIP u a.text = some a.meaning ↔ a.Read) ∧
      ∀ p ≤ bitsOf n.meaning.version, a.Read → n.Read →
        (matchesCIDR u a.text (n.text ++ slash :: natText p) = true ↔
          a.meaning.version = n.meaning.version ∧
            SamePrefix (bitsOf n.meaning.version) p a.meaning.value n.meaning.value) := by
  refine ⟨Spelling.parseIP_iff u ha, fun p hp haRead hnRead => ?_⟩
  have hnetwork := parseCIDR_text n.plain_text ((Spelling.parseIP_iff u hn).mpr hnRead) hp
  rw [matchesCIDR, (Spelling.parseIP_iff u ha).mpr haRead, hnetwork]
  exact inCIDR_iff

/-- An address in `::1/128`, which is the loopback address alone. -/
theorem matchesCIDR_spelling_loopback :
    matchesCIDR asciiCase loopback6.text (loopback6.text ++ slash :: natText 128) = true :=
  ((matchesCIDR_spelling asciiCase (.v6 loopback6) (.v6 loopback6)
    (fun h => absurd h (by decide +kernel)) (fun h => absurd h (by decide +kernel))).2 128
      (by decide +kernel) (.inr ⟨rfl, rfl⟩) (.inr ⟨rfl, rfl⟩)).mpr ⟨rfl, .inr rfl⟩

/-- `64:ff9b::192.0.2.33`, an address of the well-known NAT64 network -/
def nat64 : V6 :=
  .compressed [⟨str "64", all_eq_true.mp rfl, by decide, by decide⟩,
    ⟨str "ff9b", all_eq_true.mp rfl, by decide, by decide⟩] [] (some (Quad.ofNat 0xc0000221))
    (by decide)

/-- An address with a dotted tail behind `::` is not parsed. -/
theorem parseIP_nat64 : nat64.text = str "64:ff9b::192.0.2.33" ∧ ¬ Mapped nat64.value ∧
    ∀ u : Unicode, parseIP u nat64.text = none := by
  refine ⟨by decide +kernel, by decide +kernel, fun u => ?_⟩
  have hip := parseIP_text u nat64 none
  rwa [Literal.zoneText] at hip

end StreamHub.Netaddr
