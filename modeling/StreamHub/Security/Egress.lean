import StreamHub.Netaddr.Cidr

/-!
# The guard of outgoing URLs

A URL that the server is to dial is parsed, its host is lower-cased and, if it is an IPv4
address in one of the forms of the WHATWG, written in dotted decimals; then the host must
not be an internal address, or resolve to one.

`assertSafeEgressURL_literal` says which literals of internal addresses are refused: all
IPv4 ones, and the IPv6 ones that `parseIP` recognises.  The IPv4-mapped addresses in
hexadecimal are not among them (`assertSafeEgressURL_hexMapped`).
-/

namespace StreamHub.Security

open Library Text Runes Ip Netaddr
open List hiding contains

/-! ## Hosts and ports -/

def validOptionalPort : Str → Bool
  | [] => true
  | c :: rest => c == colon && rest.all isDigit

/-- The host of an address without the brackets of an IPv6 literal. -/
def stripBrackets (host : Str) : Str :=
  if host.head? = some 0x5b ∧ host.getLast? = some 0x5d then (host.drop 1).dropLast else host

/-- `splitHostPort` of `net/url` -/
def splitHostPort (hostPort : Str) : Str × Str :=
  match cutLast colon hostPort with
  | some (host, port) =>
    if validOptionalPort (colon :: port) then (stripBrackets host, port)
    else (stripBrackets hostPort, [])
  | none => (stripBrackets hostPort, [])

/-- `u.Hostname()` -/
def hostname (url : URL) : Str := (splitHostPort url.host).1

/-- `u.Port()` -/
def port (url : URL) : Str := (splitHostPort url.host).2

/-- `net.JoinHostPort` -/
def joinHostPort (host port : Str) : Str :=
  if colon ∈ host then 0x5b :: (host ++ [0x5d, colon] ++ port) else host ++ [colon] ++ port

/-! ## IPv4 in the forms of the WHATWG -/

/-- `strconv.ParseUint` in bases up to 16, with 64 bits -/
def parseUint (base : ℕ) (s : Str) : Option ℕ :=
  if s ≠ [] ∧ s.all (fun b => isHex b && decide (digit b < base)) ∧ numeral base s < 2 ^ 64 then
    some (numeral base s)
  else none

/-- The base of a number and its digits. -/
def numberBase (p : Str) : ℕ × Str :=
  if (str "0x").isPrefixOf p || (str "0X").isPrefixOf p then (16, p.drop 2)
  else if 1 < p.length ∧ p.head? = some 0x30 then (8, p.drop 1)
  else (10, p)

def parseNumber (p : Str) : Option ℕ :=
  if p = [] then none
  else if (numberBase p).2 = [] then some 0
  else parseUint (numberBase p).1 (numberBase p).2

/-- The loop over the parts. -/
def parseNumbers : List Str → Option (List ℕ)
  | [] => some []
  | p :: rest =>
    match parseNumber p with
    | none => none
    | some n => (parseNumbers rest).map fun nums => n :: nums

/-- `%d.%d.%d.%d` of the bytes of a number -/
def dotted (v : ℕ) : Str :=
  join [natText (v >>> 24 &&& 255), natText (v >>> 16 &&& 255), natText (v >>> 8 &&& 255),
    natText (v &&& 255)] [period]

/-- The numbers of an address as one. -/
def assemble (nums : List ℕ) : ℕ :=
  nums.dropLast.zipIdx.foldl (fun v n => v + n.1 <<< (8 * (3 - n.2))) (nums.getLastD 0)

/-- The parts between periods; one at the end is left out. -/
def hostParts (host : Str) : List Str :=
  if 1 < (split period host).length ∧ (split period host).getLast? = some [] then
    (split period host).dropLast
  else split period host

def whatwgIPv4 (host : Str) : Option Str :=
  if (hostParts host).length = 0 ∨ 4 < (hostParts host).length then none
  else
    match parseNumbers (hostParts host) with
    | none => none
    | some nums =>
      if nums.dropLast.any fun n => decide (255 < n) then none
      else if 1 <<< (8 * (5 - nums.length)) ≤ nums.getLastD 0 then none
      else some (dotted (assemble nums))

/-! ## The guard -/

structure EgressOptions where
  allowedSchemes : List Str
  label : Str
  allowPrivate : Bool
  allowlist : List Str
  /-- the addresses a name resolves to, nothing on an error -/
  resolve : Str → Option (List Str)

/-- The host the guard looks at. -/
def canonicalHost (u : Unicode) (url : URL) : Str :=
  let host := u.toLower (hostname url)
  match whatwgIPv4 host with
  | some v4 => v4
  | none => host

/-- The host of the URL that is returned. -/
def rebuildHost (host port : Str) : Str :=
  if port ≠ [] then joinHostPort host port
  else if contains host [colon] then 0x5b :: (host ++ [0x5d])
  else host

def parseEgressURL (u : Unicode) (go : Go) (opts : EgressOptions) (raw : Str) : Except Str URL :=
  let invalid := str "invalid " ++ opts.label ++ str ": '" ++ raw ++ str "'"
  match go.parseURL raw with
  | .error _ => .error invalid
  | .ok url =>
    if url.scheme = [] then .error invalid
    else
      let proto := u.toLower url.scheme ++ [colon]
      if proto ∈ opts.allowedSchemes then
        if hostname url = [] then .error (opts.label ++ str " has no host")
        else .ok { url with host := rebuildHost (canonicalHost u url) (port url) }
      else
        .error (opts.label ++ str " scheme '" ++ trimSuffix proto [colon] ++
          str "' is not allowed (allowed: " ++
          join (opts.allowedSchemes.map fun s => trimSuffix s [colon]) (str ", ") ++ str ")")

def pointsAtPrivate (opts : EgressOptions) : Str :=
  opts.label ++ str " points at a private/loopback/link-local address"

def assertSafeEgressURLSync (u : Unicode) (go : Go) (opts : EgressOptions) (raw : Str) :
    Except Str Unit :=
  match parseEgressURL u go opts raw with
  | .error e => .error e
  | .ok url =>
    if opts.allowPrivate then .ok ()
    else
      let host := hostname url
      let allow := compileAllowlist u opts.allowlist
      if allow.hasHostname u host then .ok ()
      else if (parseIP u host).isSome && !allow.hasAddress u host && isForbiddenEgress u host then
        .error (pointsAtPrivate opts)
      else .ok ()

def assertSafeEgressURL (u : Unicode) (go : Go) (opts : EgressOptions) (raw : Str) :
    Except Str Unit :=
  match parseEgressURL u go opts raw with
  | .error e => .error e
  | .ok url =>
    if opts.allowPrivate then .ok ()
    else
      let host := hostname url
      let allow := compileAllowlist u opts.allowlist
      if allow.hasHostname u host then .ok ()
      else if (parseIP u host).isSome then
        if !allow.hasAddress u host && isForbiddenEgress u host then .error (pointsAtPrivate opts)
        else .ok ()
      else
        match opts.resolve host with
        | none | some [] => .error (opts.label ++ str " host '" ++ host ++ str "' does not resolve")
        | some addrs =>
          if addrs.any fun a => isForbiddenEgress u a && !allow.hasAddress u a then
            .error (opts.label ++ str " resolves to a private/loopback/link-local address")
          else .ok ()

/-! ## The host survives -/

lemma stripBrackets_bracketed (host : Str) : stripBrackets (0x5b :: (host ++ [0x5d])) = host := by
  have hlast : (0x5b :: (host ++ [0x5d])).getLast? = some (0x5d : UInt8) := by
    rw [← cons_append, getLast?_concat]
  rw [stripBrackets, if_pos ⟨rfl, hlast⟩]
  exact dropLast_concat

lemma stripBrackets_of_head {host : Str} (h : host.head? ≠ some 0x5b) : stripBrackets host = host :=
  if_neg fun hboth => h hboth.1

lemma port_digits (hostPort : Str) : ∀ b ∈ (splitHostPort hostPort).2, isDigit b = true := by
  unfold splitHostPort
  split
  · split
    · rename_i hvalid
      exact all_eq_true.mp hvalid
    · intro b hb
      cases hb
  · intro b hb
    cases hb

lemma splitHostPort_append {host port : Str} (hport : ∀ b ∈ port, isDigit b = true) :
    splitHostPort (host ++ colon :: port) = (stripBrackets host, port) := by
  have hcolon : colon ∉ port := fun hmem => absurd (hport colon hmem) (by decide)
  have hvalid : validOptionalPort (colon :: port) = true := by
    exact all_eq_true.mpr hport
  rw [splitHostPort, cutLast_append host hcolon]
  dsimp only
  rw [if_pos hvalid]

lemma splitHostPort_bracketed (host : Str) :
    (splitHostPort (0x5b :: (host ++ [0x5d]))).1 = host := by
  unfold splitHostPort
  split
  · rename_i before after hcut
    have hparts := cutLast_some hcut
    split
    · -- the bracket would be a digit of the port
      rename_i hvalid
      have hlast : (before ++ [colon] ++ after).getLast? = some (0x5d : UInt8) := by
        rw [← hparts, ← cons_append, getLast?_concat]
      have hmem : (0x5d : UInt8) ∈ colon :: after := by
        rw [append_assoc, singleton_append, getLast?_append_cons] at hlast
        exact mem_of_getLast? hlast
      obtain hbracket | hbracket := mem_cons.mp hmem
      · exact absurd hbracket (by decide)
      · exact absurd (all_eq_true.mp hvalid _ hbracket) (by decide)
    · exact stripBrackets_bracketed host
  · exact stripBrackets_bracketed host

lemma hostname_rebuildHost {host port : Str} (hport : ∀ b ∈ port, isDigit b = true)
    (hhost : colon ∈ host ∨ host.head? ≠ some 0x5b) :
    (splitHostPort (rebuildHost host port)).1 = host := by
  rw [rebuildHost]
  by_cases hempty : port = []
  · rw [if_neg (not_not.mpr hempty)]
    by_cases hcolon : colon ∈ host
    · rw [if_pos (contains_singleton.mpr hcolon), splitHostPort_bracketed]
    have hnone : cutLast colon host = none := by
      rw [cutLast, cut_of_notMem (by simpa using hcolon)]
    rw [if_neg (contains_singleton.not.mpr hcolon), splitHostPort, hnone]
    exact stripBrackets_of_head (hhost.resolve_left hcolon)
  · rw [if_pos hempty, joinHostPort]
    by_cases hcolon : colon ∈ host
    · have hjoin : 0x5b :: (host ++ [0x5d, colon] ++ port) =
          (0x5b :: (host ++ [0x5d])) ++ colon :: port := by simp
      rw [if_pos hcolon, hjoin, splitHostPort_append hport]
      exact stripBrackets_bracketed host
    · rw [if_neg hcolon, append_assoc, singleton_append, splitHostPort_append hport]
      exact stripBrackets_of_head (hhost.resolve_left hcolon)

variable {u : Unicode}

lemma canonicalHost_some {url : URL} {v4 : Str}
    (h : whatwgIPv4 (u.toLower (hostname url)) = some v4) : canonicalHost u url = v4 := by
  unfold canonicalHost
  dsimp only
  rw [h]

lemma canonicalHost_none {url : URL} (h : whatwgIPv4 (u.toLower (hostname url)) = none) :
    canonicalHost u url = u.toLower (hostname url) := by
  unfold canonicalHost
  dsimp only
  rw [h]

lemma parseEgressURL_ok {go : Go} {opts : EgressOptions} {raw : Str} {url parsed : URL}
    (hurl : go.parseURL raw = .ok url) (h : parseEgressURL u go opts raw = .ok parsed) :
    parsed.host = rebuildHost (canonicalHost u url) (port url) := by
  rw [parseEgressURL, hurl] at h
  dsimp only at h
  split at h
  · cases h
  split at h
  · split at h
    · cases h
    · cases h
      rfl
  · cases h

/-! ## Numbers -/

lemma parseUint_numeral {base : ℕ} {s : Str} (hs : s ≠ [])
    (h : ∀ b ∈ s, isHex b = true ∧ digit b < base) (hsmall : numeral base s < 2 ^ 64) :
    parseUint base s = some (numeral base s) := if_pos ⟨hs, by simpa using h, hsmall⟩

/-- Decimal digits do not begin like a hexadecimal number. -/
lemma not_hexadecimal {s : Str} (h : ∀ b ∈ s, isDigit b = true) :
    ((str "0x").isPrefixOf s || (str "0X").isPrefixOf s) = false := by
  match s, h with
  | [], _ => rfl
  | [a], _ => simp [str, utf8, isPrefixOf]
  | a :: b :: rest, h =>
    have hb := h b (by simp)
    have hletter : ∀ x : UInt8, isDigit x = false →
        [0x30, x].isPrefixOf (a :: b :: rest) = false := by
      intro x hx
      rw [← Bool.not_eq_true, isPrefixOf_iff_prefix]
      intro hpre
      rw [(cons_prefix_cons.mp (cons_prefix_cons.mp hpre).2).1, hb] at hx
      cases hx
    have hlower : (str "0x").isPrefixOf (a :: b :: rest) = false := hletter 0x78 (by decide)
    have hupper : (str "0X").isPrefixOf (a :: b :: rest) = false := hletter 0x58 (by decide)
    rw [hlower, hupper]
    rfl

/-- A number is read as its value. -/
lemma parseNumber_text {p : Part} (hsmall : p.value < 2 ^ 64) :
    parseNumber p.text = some p.value := by
  cases p with
  | dec digits h hne hzero =>
    have hbase : numberBase digits = (10, digits) := by
      rw [numberBase, not_hexadecimal h, if_neg Bool.false_ne_true, if_neg]
      rintro ⟨hlen, hhead⟩
      have hone := hzero hhead
      omega
    change parseNumber digits = some (numeral 10 digits)
    rw [parseNumber, if_neg hne, hbase, if_neg hne]
    exact parseUint_numeral hne
      (fun b hb => ⟨isHex_of_isDigit (h b hb), digit_lt_ten (h b hb)⟩) hsmall
  | hex upper digits h =>
    have hbase : numberBase (Part.text (.hex upper digits h)) = (16, digits) := by
      rw [numberBase, if_pos]
      · rfl
      · cases upper <;> simp [Part.text, str, utf8, isPrefixOf]
    rw [parseNumber, hbase]
    by_cases hdigits : digits = []
    · subst hdigits
      rfl
    · rw [if_neg hdigits]
      exact parseUint_numeral hdigits (fun b hb => ⟨h b hb, digit_lt_sixteen (h b hb)⟩) hsmall
  | oct digits h hne =>
    have hall : ∀ b ∈ 0x30 :: digits, isDigit b = true :=
      forall_mem_cons.mpr ⟨by decide, fun b hb => (h b hb).1⟩
    have hpos := length_pos_iff.mpr hne
    have hbase : numberBase (0x30 :: digits) = (8, digits) := by
      rw [numberBase, not_hexadecimal hall, if_neg Bool.false_ne_true, if_pos]
      · rfl
      · exact ⟨by rw [length_cons]; omega, rfl⟩
    change parseNumber (0x30 :: digits) = some (numeral 8 digits)
    rw [parseNumber, hbase, if_neg hne]
    exact parseUint_numeral hne (fun b hb => ⟨isHex_of_isDigit (h b hb).1, (h b hb).2⟩) hsmall

lemma parseNumbers_texts {ps : List Part} (h : ∀ p ∈ ps, p.value < 2 ^ 64) :
    parseNumbers (ps.map Part.text) = some (ps.map Part.value) := by
  induction ps with
  | nil => rfl
  | cons p ps ih =>
    obtain ⟨hp, hps⟩ := forall_mem_cons.mp h
    rw [map_cons, parseNumbers, parseNumber_text hp]
    rw [ih hps]
    rfl

lemma colon_mem_numberBase {s : Str} (h : colon ∈ s) : colon ∈ (numberBase s).2 := by
  rw [numberBase]
  split
  · rename_i hhex
    obtain hpre | hpre := Bool.or_eq_true_iff.mp hhex
    all_goals
      obtain ⟨rest, rfl⟩ := isPrefixOf_iff_prefix.mp hpre
      exact (mem_append.mp h).resolve_left (by decide)
  · split
    · rename_i hoct
      obtain ⟨b, rest, rfl⟩ := exists_cons_of_ne_nil (ne_nil_of_mem h)
      obtain rfl : b = 0x30 := Option.some.inj hoct.2
      exact (mem_cons.mp h).resolve_left (by decide)
    · exact h

lemma parseNumber_colon {s : Str} (h : colon ∈ s) : parseNumber s = none := by
  have hdigits := colon_mem_numberBase h
  rw [parseNumber, if_neg (ne_nil_of_mem h), if_neg (ne_nil_of_mem hdigits), parseUint, if_neg]
  rintro ⟨-, hall, -⟩
  have hcolon := all_eq_true.mp hall colon hdigits
  exact absurd (Bool.and_eq_true_iff.mp hcolon).1 (by decide)

lemma parseNumbers_none {ps : List Str} {p : Str} (hp : p ∈ ps) (h : parseNumber p = none) :
    parseNumbers ps = none := by
  induction ps with
  | nil => cases hp
  | cons first ps ih =>
    rw [parseNumbers]
    obtain rfl | hp := mem_cons.mp hp
    · rw [h]
    cases parseNumber first with
    | none => rfl
    | some n =>
      rw [ih hp]
      rfl

/-! ## IPv4 -/

lemma dotted_eq (v : ℕ) : dotted v = (Quad.ofNat v).text := by
  have hlow : ∀ n : ℕ, n &&& 255 = n % 256 := fun n => Nat.and_two_pow_sub_one_eq_mod n 8
  rw [dotted, hlow, hlow, hlow, hlow, Nat.shiftRight_eq_div_pow, Nat.shiftRight_eq_div_pow,
    Nat.shiftRight_eq_div_pow]
  rfl

lemma split_texts (l : V4) : split period (join l.texts [period]) = l.texts := by
  refine split_join (by simp [V4.texts]) fun piece hpiece => ?_
  obtain ⟨p, -, rfl⟩ := mem_map.mp hpiece
  exact p.period_notMem

lemma hostParts_text (l : V4) : hostParts l.text = l.texts := by
  have hlength : l.texts.length = l.parts.length + 1 := by simp [V4.texts]
  cases hdot : l.dot with
  | false =>
    have htext : l.text = join l.texts [period] := by
      rw [V4.text, hdot]
      exact append_nil _
    have hlast : l.texts.getLast? ≠ some [] := by
      rw [V4.texts, map_append, map_singleton, getLast?_concat]
      exact fun h => l.last.text_ne_nil (Option.some.inj h)
    rw [hostParts, htext, split_texts, if_neg fun h => hlast h.2]
  | true =>
    have htext : l.text = join l.texts [period] ++ [period] ++ [] := by
      rw [V4.text, hdot, append_nil]
      rfl
    have hsplit : split period l.text = l.texts ++ [[]] := by
      rw [htext, split_append_line _ not_mem_nil, split_texts]
    rw [hostParts, hsplit, if_pos, dropLast_concat]
    refine ⟨?_, getLast?_concat⟩
    rw [length_append, length_singleton]
    omega

lemma part_value_lt (l : V4) : ∀ p ∈ l.parts ++ [l.last], p.value < 2 ^ 64 := by
  refine forall_mem_append.mpr ⟨fun p hp => ?_, fun p hp => ?_⟩
  · have hsmall := l.small p hp
    omega
  · rw [mem_singleton.mp hp]
    have hfits := l.fits
    have hpow : 256 ^ (4 - l.parts.length) ≤ 256 ^ 4 := Nat.pow_le_pow_right (by omega) (by omega)
    omega

/-- Each number but the last one counts by its place. -/
lemma assemble_concat : ∃ w : ℕ → ℕ, w 0 = 2 ^ 24 ∧ w 1 = 2 ^ 16 ∧ w 2 = 2 ^ 8 ∧
    ∀ (front : List ℕ) (last : ℕ), assemble (front ++ [last]) =
      front.zipIdx.foldl (fun v n => v + n.1 * w n.2) last := by
  refine ⟨fun i => 2 ^ (8 * (3 - i)), rfl, rfl, rfl, fun front last => ?_⟩
  rw [assemble, dropLast_concat, getLastD_concat]
  simp only [Nat.shiftLeft_eq]

/-- The sums of up to three numbers. -/
lemma foldl_weights (w : ℕ → ℕ) (last a b c : ℕ) :
    [a].zipIdx.foldl (fun v n => v + n.1 * w n.2) last = last + a * w 0 ∧
      [a, b].zipIdx.foldl (fun v n => v + n.1 * w n.2) last = last + a * w 0 + b * w 1 ∧
      [a, b, c].zipIdx.foldl (fun v n => v + n.1 * w n.2) last =
        last + a * w 0 + b * w 1 + c * w 2 := ⟨rfl, rfl, rfl⟩

/-- The numbers put together are the value, which has 32 bits. -/
lemma assemble_values (l : V4) :
    assemble ((l.parts ++ [l.last]).map Part.value) = l.value ∧ l.value < 2 ^ 32 := by
  have hfew := l.few
  have hsmall := l.small
  have hfits := l.fits
  obtain ⟨w, h0, h1, h2, hassemble⟩ := assemble_concat
  rw [map_append, map_singleton, hassemble, V4.value]
  generalize l.last.value = last at hfits ⊢
  generalize l.parts = parts at hfew hsmall hfits ⊢
  obtain _ | ⟨a, _ | ⟨b, _ | ⟨c, _ | ⟨d, rest⟩⟩⟩⟩ := parts
  · rw [length_nil] at hfits
    rw [map_nil, zipIdx_nil, foldl_nil, foldl_nil]
    omega
  · have ha := hsmall a (by simp)
    rw [length_singleton] at hfits
    rw [map_singleton, (foldl_weights w last a.value 0 0).1, h0, foldl_cons, foldl_nil,
      length_singleton]
    omega
  · have ha := hsmall a (by simp)
    have hb := hsmall b (by simp)
    rw [length_cons, length_singleton] at hfits
    rw [map_cons, map_singleton, (foldl_weights w last a.value b.value 0).2.1, h0,
      h1, foldl_cons, foldl_cons, foldl_nil, length_cons, length_singleton]
    omega
  · have ha := hsmall a (by simp)
    have hb := hsmall b (by simp)
    have hc := hsmall c (by simp)
    rw [length_cons, length_cons, length_singleton] at hfits
    rw [map_cons, map_cons, map_singleton,
      (foldl_weights w last a.value b.value c.value).2.2, h0, h1, h2, foldl_cons, foldl_cons,
      foldl_cons, foldl_nil, length_cons, length_cons, length_singleton]
    omega
  · simp only [length_cons] at hfew
    omega

/-- Every form of an address is written in dotted decimals. -/
lemma whatwgIPv4_text (l : V4) : whatwgIPv4 l.text = some (Quad.ofNat l.value).text := by
  have hfew := l.few
  have hfits := l.fits
  have hlength : l.texts.length = l.parts.length + 1 := by simp [V4.texts]
  have hnumbers : parseNumbers l.texts = some ((l.parts ++ [l.last]).map Part.value) :=
    parseNumbers_texts (part_value_lt l)
  have hsmall : (l.parts.map Part.value).any (fun n => decide (255 < n)) = false := by
    rw [any_eq_false]
    intro n hn
    obtain ⟨p, hp, rfl⟩ := mem_map.mp hn
    have hp := l.small p hp
    rw [decide_eq_true_eq]
    omega
  have hroom : 1 <<< (8 * (5 - (l.parts.length + 1))) = 256 ^ (4 - l.parts.length) := by
    have hexp : 5 - (l.parts.length + 1) = 4 - l.parts.length := by omega
    have hbyte : 2 ^ 8 = 256 := by decide
    rw [Nat.shiftLeft_eq, Nat.one_mul, pow_mul, hexp, hbyte]
  rw [whatwgIPv4, hostParts_text, if_neg (by omega), hnumbers]
  dsimp only
  rw [map_append, map_singleton, dropLast_concat, hsmall, if_neg Bool.false_ne_true,
    getLastD_concat, length_append, length_map, length_singleton, if_neg (by omega),
    ← map_singleton, ← map_append, (assemble_values l).1, dotted_eq]

lemma whatwgIPv4_colon {host : Str} (h : colon ∈ host) : whatwgIPv4 host = none := by
  rw [← join_split period host] at h
  obtain hperiod | ⟨piece, hpiece, hcolon⟩ := mem_join h
  · exact absurd hperiod (by decide)
  have hmem : piece ∈ hostParts host := by
    rw [hostParts]
    split
    · rename_i hlast
      obtain ⟨front, hsplit⟩ := getLast?_eq_some_iff.mp hlast.2
      rw [hsplit] at hpiece ⊢
      rw [dropLast_concat]
      obtain hpiece | hpiece := mem_append.mp hpiece
      · exact hpiece
      rw [mem_singleton.mp hpiece] at hcolon
      cases hcolon
    · exact hpiece
  rw [whatwgIPv4]
  split
  · rfl
  · rw [parseNumbers_none hmem (parseNumber_colon hcolon)]

/-! ## Literals -/

/-- The literals that are seen as what they are. -/
def RecognisedLiteral : Literal → Prop
  | .v4 _ => True
  | .v6 l _ => Recognised l

lemma recognised_lower (l : V6) : Recognised l.lower ↔ Recognised l := by
  have hhead : mappedHead l.lower = mappedHead l := by
    match l with
    | .full _ _ _ => rfl
    | .compressed [] [] _ _ => rfl
    | .compressed (_ :: _) _ _ _ => rfl
    | .compressed [] (g :: _) none _ => rfl
    | .compressed [] (g :: _) (some _) _ => exact congrArg (· == 0xffff) g.value_lower
  have htail : mappedTail l.lower = mappedTail l := by
    match l with
    | .full _ _ _ => rfl
    | .compressed _ [] _ _ => rfl
    | .compressed _ [_] none _ => rfl
    | .compressed _ [_] (some _) _ => rfl
    | .compressed _ (_ :: _ :: _) _ _ => rfl
  have hgap : tailBehindGap l.lower = tailBehindGap l := by
    match l with
    | .full _ _ _ => rfl
    | .compressed _ [] none _ => rfl
    | .compressed _ [] (some _) _ => rfl
    | .compressed _ (_ :: _) _ _ => rfl
  rw [Recognised, Recognised, l.value_lower, hhead, htail, hgap]

lemma address_lower (l : V6) : l.lower.address = l.address := by
  rw [V6.address, V6.address, l.value_lower]

lemma toLower_zone (u : Unicode) (l : V6) (zone : Option Str) :
    u.toLower (l.text ++ Literal.zoneText zone) =
      l.lower.text ++ Literal.zoneText (zone.map u.toLower) := by
  cases zone with
  | none =>
    rw [Literal.zoneText, append_nil, u.toLower_of_isASCII (isASCII_of_plain l.plain), l.text_lower]
    exact (append_nil _).symm
  | some zone =>
    have hascii : isASCII (l.text ++ [percent]) = true := by
      rw [isASCII, all_append, Bool.and_eq_true]
      exact ⟨isASCII_of_plain l.plain, by decide⟩
    have happend : l.text ++ percent :: zone = l.text ++ [percent] ++ zone := by simp
    rw [Literal.zoneText, happend, u.toLower_append_of_isASCII hascii, map_append,
      l.text_lower, append_assoc]
    rfl

/-- What the guard finds at the host of a URL. -/
lemma forbidden_literal {url : URL} {l : Literal} (hhost : hostname url = l.text) :
    (splitHostPort (rebuildHost (canonicalHost u url) (port url))).1 = canonicalHost u url ∧
      (isForbiddenEgress u (canonicalHost u url) = true ↔
        RecognisedLiteral l ∧ l.address.Internal) := by
  have hport : ∀ b ∈ port url, isDigit b = true := port_digits url.host
  cases l with
  | v4 l =>
    obtain ⟨q, hvalue, hcanonical⟩ : ∃ q : Quad, q.value = l.value ∧ canonicalHost u url = q.text := by
      refine ⟨Quad.ofNat l.value, Quad.value_ofNat (assemble_values l).2, ?_⟩
      refine canonicalHost_some ?_
      rw [hhost, Literal.text, u.toLower_of_isASCII (isASCII_of_plain l.plain), ← l.text_lower,
        whatwgIPv4_text, l.value_lower]
    have hparse := parseIP_quad u q none
    rw [Literal.zoneText, append_nil, hvalue] at hparse
    obtain ⟨b, rest, htext, hdigit⟩ := quad_head q
    rw [hcanonical]
    refine ⟨hostname_rebuildHost hport (.inr ?_), ?_⟩
    · rw [htext]
      intro hbracket
      cases Option.some.inj hbracket
      exact absurd hdigit (by decide)
    · rw [isForbiddenEgress_of_parse hparse]
      exact ⟨fun h => ⟨trivial, h⟩, fun h => h.2⟩
  | v6 l zone =>
    have hcolon : colon ∈ l.lower.text ++ Literal.zoneText (zone.map u.toLower) :=
      mem_append_left _ (colon_mem_text l.lower)
    have hcanonical :
        canonicalHost u url = l.lower.text ++ Literal.zoneText (zone.map u.toLower) := by
      have hlower : u.toLower (hostname url) =
          l.lower.text ++ Literal.zoneText (zone.map u.toLower) := by
        rw [hhost, Literal.text, toLower_zone]
      rw [canonicalHost_none (by rw [hlower, whatwgIPv4_colon hcolon]), hlower]
    rw [hcanonical]
    refine ⟨hostname_rebuildHost hport (.inl hcolon), ?_⟩
    rw [isForbiddenEgress_iff, parseIP_text, parsed_internal_iff, recognised_lower, address_lower]
    rfl

/-- With nothing allowed, a URL whose host is a literal passes the guard without a lookup
exactly if the literal is not a recognised one of an internal address, and passes the full
guard only then. -/
theorem assertSafeEgressURL_literal (u : Unicode) (go : Go) (opts : EgressOptions) (raw : Str)
    (url parsed : URL) (l : Literal) (hprivate : opts.allowPrivate = false)
    (hallow : opts.allowlist = []) (hurl : go.parseURL raw = .ok url)
    (hparsed : parseEgressURL u go opts raw = .ok parsed) (hhost : hostname url = l.text) :
    (assertSafeEgressURLSync u go opts raw = .ok () ↔
        ¬ (RecognisedLiteral l ∧ l.address.Internal)) ∧
      (assertSafeEgressURL u go opts raw = .ok () →
        ¬ (RecognisedLiteral l ∧ l.address.Internal)) := by
  obtain ⟨hname, hforbidden⟩ := forbidden_literal hhost (u := u)
  have hhostname : hostname parsed = canonicalHost u url := by
    rw [hostname, parseEgressURL_ok hurl hparsed, hname]
  rw [← hforbidden]
  generalize canonicalHost u url = host at hhostname
  have hnoHost : (compileAllowlist u opts.allowlist).hasHostname u host = false := by
    rw [hallow]
    rfl
  have hnoAddress : (compileAllowlist u opts.allowlist).hasAddress u host = false := by
    rw [hallow, Allowlist.hasAddress]
    cases parseIP u host <;> rfl
  -- what is forbidden is an address
  have hsome : isForbiddenEgress u host = true → (parseIP u host).isSome = true := by
    intro h
    obtain ⟨ip, hip, -⟩ := (isForbiddenEgress_iff u host).mp h
    rw [hip]
    rfl
  constructor
  · rw [assertSafeEgressURLSync, hparsed]
    dsimp only
    rw [hprivate, if_neg Bool.false_ne_true, hhostname, hnoHost, if_neg Bool.false_ne_true,
      hnoAddress, Bool.not_false, Bool.and_true]
    by_cases h : isForbiddenEgress u host = true
    · rw [h, hsome h]
      simp
    · rw [Bool.eq_false_iff.mpr h]
      simp
  · rw [assertSafeEgressURL, hparsed]
    dsimp only
    rw [hprivate, if_neg Bool.false_ne_true, hhostname, hnoHost, if_neg Bool.false_ne_true,
      hnoAddress, Bool.not_false, Bool.true_and]
    intro hok h
    rw [hsome h, if_pos rfl, h, if_pos rfl] at hok
    cases hok

/-! ## Two loopback addresses -/

def httpSchemes : List Str := [str "http:", str "https:"]

/-- The guard of a callback URL, on a host where no name resolves. -/
def callbackOptions : EgressOptions where
  allowedSchemes := httpSchemes
  label := str "callback URL"
  allowPrivate := false
  allowlist := []
  resolve := fun _ => none

/-- `0x7f.1` -/
def loopbackHex : Literal :=
  .v4 { parts := [.hex false (str "7f") (all_eq_true.mp rfl)]
        last := .dec (str "1") (all_eq_true.mp rfl) oneGroup.ne_nil (by decide)
        dot := false
        few := by decide
        small := by decide
        fits := by decide }

theorem assertSafeEgressURL_literal_hex :
    (assertSafeEgressURLSync asciiCase Go.plain callbackOptions (str "http://0x7f.1/") = .ok () ↔
        ¬ (RecognisedLiteral loopbackHex ∧ loopbackHex.address.Internal)) ∧
      (assertSafeEgressURL asciiCase Go.plain callbackOptions (str "http://0x7f.1/") = .ok () →
        ¬ (RecognisedLiteral loopbackHex ∧ loopbackHex.address.Internal)) :=
  assertSafeEgressURL_literal asciiCase Go.plain callbackOptions (str "http://0x7f.1/")
    ⟨str "http", str "0x7f.1", str "/"⟩ ⟨str "http", str "127.0.0.1", str "/"⟩ loopbackHex rfl rfl
    (by decide +kernel) (by decide +kernel) (by decide +kernel)

/-- `::ffff:7f00:1` -/
def hexMapped : V6 :=
  .compressed [] [⟨str "ffff", all_eq_true.mp rfl, by decide, by decide⟩,
    ⟨str "7f00", all_eq_true.mp rfl, by decide, by decide⟩,
    oneGroup] none (by decide)

/-- 127.0.0.1 as a mapped address in hexadecimal passes both guards. -/
theorem assertSafeEgressURL_hexMapped :
    hexMapped.text = str "::ffff:7f00:1" ∧ hexMapped.address = .v4 (127 * 2 ^ 24 + 1) ∧
      hexMapped.address.Internal ∧
      assertSafeEgressURLSync asciiCase Go.plain callbackOptions
        (str "http://[::ffff:7f00:1]/") = .ok () ∧
      assertSafeEgressURL asciiCase Go.plain callbackOptions
        (str "http://[::ffff:7f00:1]/") = .ok () := by decide +kernel

end StreamHub.Security
