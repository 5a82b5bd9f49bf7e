import StreamHub.Library.PathClean
import StreamHub.Library.Runes

/-!
# Routes and the rate limiter

`expressRouting` gives a mux the matching of Express: a request that no route serves is
tried again with its path lower-cased and without one trailing slash, and then served
under the path of the route it meets.  The rate limiter of the credential endpoints runs
before it and looks at the path as it came: at as many bytes as its own path has, up to
case.

The two agree on a path whose runes keep their length when they are lower-cased
(`expressRouting_limited`), in particular on every ASCII path.  A rune that gets shorter
takes a request past the limiter (`expressRouting_dotted`).
-/

namespace StreamHub.Httpx

open Library Text Runes
open List hiding contains contains_iff

/-! ## The mux -/

/-- `url.PathUnescape` -/
def unescapeBytes : Str → Option Str
  | [] => some []
  | 0x25 :: a :: b :: s =>
    if isHex a && isHex b then (unescapeBytes s).map fun rest => (unhex a * 16 + unhex b) :: rest
    else none
  | 0x25 :: _ => none
  | c :: s => (unescapeBytes s).map fun rest => c :: rest

/-- `pathUnescape` of the mux: a text with a wrong escape stays as it is. -/
def pathUnescape (s : Str) : Str := (unescapeBytes s).getD s

/-- A registered method pattern without wildcards. -/
structure Pattern where
  method : Str
  host : Str
  path : Str
  method_noSpace : 0x20 ∉ method
  host_noSlash : slash ∉ host
  rooted : path.head? = some slash
  /-- a path that ends in a slash stands for all paths below it -/
  noSubtree : path.getLast? ≠ some slash
  noWildcard : ∀ seg ∈ split slash path,
    (str "\x7b").isPrefixOf seg = false ∧ (str "...\x7d").isSuffixOf seg = false
  deriving DecidableEq

namespace Pattern

/-- `Pattern.String` -/
def text (p : Pattern) : Str := p.method ++ [0x20] ++ p.host ++ p.path

/-- The segments the mux compares. -/
def segs (p : Pattern) : List Str := (split slash p.path).map pathUnescape

end Pattern

/-- A request, with the segments of its escaped path, each unescaped. -/
structure Request where
  method : Str
  host : Str
  segs : List Str

namespace Request

/-- `r.URL.Path` -/
def path (r : Request) : Str := join r.segs [slash]

/-- The request with another path, and no `RawPath`. -/
def withPath (r : Request) (path : Str) : Request := { r with segs := split slash path }

/-- The methods whose patterns serve a request. -/
def methods (r : Request) : List Str :=
  if r.method = str "HEAD" then [str "HEAD", str "GET"] else [r.method]

/-- The hosts and methods the mux looks under, in its order. -/
def keys (r : Request) : List (Str × Str) :=
  (if r.host = [] then [] else r.methods.map fun m => (r.host, m)) ++
    r.methods.map fun m => ([], m)

end Request

/-- `mux.Handler`, of the patterns that serve a request. -/
def muxHandler (patterns : List Pattern) (r : Request) : Option Pattern :=
  r.keys.findSome? fun key =>
    patterns.find? fun p => p.host = key.1 ∧ p.method = key.2 ∧ p.segs = r.segs

/-- The pattern that `mux.Handler` returns. -/
def muxPattern (patterns : List Pattern) (r : Request) : Str :=
  match muxHandler patterns r with
  | some p => p.text
  | none => []

/-! ## Routing -/

def isRoute (pattern : Str) : Bool := contains pattern (str " ")

/-- The loop of `withPatternLiterals`. -/
def literalSegments : List Str → List Str → List Str → Option (List Str)
  | [], [], out => some out
  | [], _ :: _, _ => none
  | _ :: _, [], _ => none
  | p :: ps, x :: xs, out =>
    if (str "...\x7d").isSuffixOf p then some (out ++ x :: xs)
    else if (str "\x7b").isPrefixOf p then literalSegments ps xs (out ++ [x])
    else literalSegments ps xs (out ++ [p])

/-- The path of a pattern: what follows the method and the host. -/
def patternPath (pattern : Str) : Str :=
  let pat :=
    match cut (str " ") pattern with
    | some (_, pat) => pat
    | none => pattern
  if slash ∈ pat then pat.dropWhile (· != slash) else pat

def withPatternLiterals (pattern path : Str) : Option Str :=
  (literalSegments (split slash (patternPath pattern)) (split slash path) []).map
    (join · [slash])

/-- A path without one trailing slash. -/
def stripSlash (path : Str) : Str :=
  if 1 < path.length ∧ path.getLast? = some slash then path.dropLast else path

/-- `ExpressRouting`: the pattern whose handler serves a request. -/
def expressRouting (u : Unicode) (patterns : List Pattern) (r : Request) : Option Pattern :=
  if isRoute (muxPattern patterns r) then muxHandler patterns r
  else
    let path := stripSlash r.path
    let pattern := muxPattern patterns (r.withPath (u.toLower path))
    if isRoute pattern then
      match withPatternLiterals pattern path with
      | none => muxHandler patterns r
      | some rewritten =>
        if rewritten = r.path then muxHandler patterns r
        else muxHandler patterns (r.withPath rewritten)
    else muxHandler patterns r

/-! ## The limiter -/

def authRateLimitPaths : List Str :=
  [str "/api/v1/auth/login", str "/api/v1/auth/magic-link", str "/api/v1/auth/magic/verify"]

/-- `RateLimiter.matches`, with the paths of the limiter. -/
def limiterMatches (u : Unicode) (paths : List Str) (path : Str) : Bool :=
  paths.any fun p =>
    decide (p.length ≤ path.length) && u.equalFold (path.take p.length) p &&
      (path.length == p.length || path[p.length]? == some slash)

/-- A path that is one of the limiter's up to case, or goes on below it, is limited. -/
lemma limiterMatches_append {u : Unicode} {paths : List Str} {q before after : Str}
    (hq : q ∈ paths) (hlen : before.length = q.length) (hfold : u.equalFold before q = true)
    (hafter : after = [] ∨ after.head? = some slash) :
    limiterMatches u paths (before ++ after) = true := by
  refine any_eq_true.mpr ⟨q, hq, ?_⟩
  rw [← hlen, take_left, hfold, Bool.and_true, Bool.and_eq_true]
  refine ⟨?_, ?_⟩
  · rw [length_append]
    exact decide_eq_true (Nat.le_add_right _ _)
  · obtain rfl | hafter := hafter
    · simp
    · rw [getElem?_append_right (le_refl _), Nat.sub_self, ← head?_eq_getElem?, hafter]
      simp

/-! ## What is served -/

variable {patterns : List Pattern} {r : Request} {p : Pattern}

lemma muxHandler_some (h : muxHandler patterns r = some p) : p ∈ patterns ∧ p.segs = r.segs := by
  obtain ⟨key, -, hfind⟩ := exists_of_findSome?_eq_some h
  have hp := find?_some hfind
  rw [decide_eq_true_eq] at hp
  exact ⟨mem_of_find?_eq_some hfind, hp.2.2⟩

lemma muxPattern_route (h : isRoute (muxPattern patterns r) = true) :
    ∃ p, muxHandler patterns r = some p ∧ muxPattern patterns r = p.text := by
  rw [muxPattern] at h ⊢
  cases hhandler : muxHandler patterns r with
  | none =>
    rw [hhandler] at h
    exact absurd h (by decide)
  | some p => exact ⟨p, rfl, rfl⟩

lemma isRoute_text (p : Pattern) : isRoute p.text = true := by
  refine contains_iff.mpr ⟨p.method, p.host ++ p.path, ?_⟩
  rw [Pattern.text, append_assoc _ p.host]
  rfl

/-- A request is served as it is, or under the path rewritten for the pattern that serves
it lower-cased. -/
lemma expressRouting_some {u : Unicode} (h : expressRouting u patterns r = some p) :
    muxHandler patterns r = some p ∨ muxHandler patterns r = none ∧
      ∃ probe rewritten,
        muxHandler patterns (r.withPath (u.toLower (stripSlash r.path))) = some probe ∧
        withPatternLiterals probe.text (stripSlash r.path) = some rewritten ∧
        muxHandler patterns (r.withPath rewritten) = some p := by
  cases hdirect : muxHandler patterns r with
  | some direct =>
    rw [expressRouting, muxPattern, hdirect] at h
    rw [if_pos (isRoute_text direct)] at h
    exact .inl h
  | none =>
    unfold expressRouting at h
    rw [hdirect] at h
    split at h
    · exact .inl h
    dsimp only at h
    split at h
    case isFalse => exact .inl h
    case isTrue hroute =>
      obtain ⟨probe, hprobe, htext⟩ := muxPattern_route hroute
      rw [htext] at h
      split at h
      · exact .inl h
      rename_i rewritten hrewritten
      split at h
      · exact .inl h
      · exact .inr ⟨rfl, probe, rewritten, hprobe, hrewritten, h⟩

lemma literalSegments_literal {ps xs out segs : List Str}
    (hps : ∀ seg ∈ ps, (str "\x7b").isPrefixOf seg = false ∧ (str "...\x7d").isSuffixOf seg = false)
    (h : literalSegments ps xs out = some segs) : segs = out ++ ps := by
  induction ps generalizing xs out with
  | nil =>
    cases xs with
    | nil =>
      rw [Option.some.inj h, append_nil]
    | cons x xs =>
      cases h
  | cons p ps ih =>
    obtain ⟨hopen, hrest⟩ := hps p mem_cons_self
    cases xs with
    | nil =>
      cases h
    | cons x xs =>
      rw [literalSegments, hopen, hrest] at h
      have hsegs := ih (fun seg hseg => hps seg (mem_cons_of_mem p hseg)) h
      rw [hsegs, append_assoc]
      rfl

lemma patternPath_text (p : Pattern) : patternPath p.text = p.path := by
  have hcut : cut (str " ") p.text = some (p.method, p.host ++ p.path) := by
    have htext : p.text = p.method ++ 0x20 :: (p.host ++ p.path) := by simp [Pattern.text]
    rw [htext]
    exact cut_append p.method_noSpace _
  obtain ⟨rest, hpath⟩ : ∃ rest, p.path = slash :: rest := by
    obtain ⟨b, rest, hpath⟩ := exists_cons_of_ne_nil (l := p.path) fun hnil => by
      have hrooted := p.rooted
      rw [hnil] at hrooted
      cases hrooted
    have hrooted := p.rooted
    rw [hpath] at hrooted
    cases hrooted
    exact ⟨rest, hpath⟩
  have hhost : ∀ b ∈ p.host, (b != slash) = true := fun b hb =>
    bne_iff_ne.mpr fun heq => p.host_noSlash (heq ▸ hb)
  rw [patternPath, hcut]
  rw [if_pos (by rw [hpath]; exact mem_append_right _ mem_cons_self)]
  rw [dropWhile_append_of_pos hhost, hpath, dropWhile_cons_of_neg (by simp)]

lemma withPatternLiterals_text {path rewritten : Str}
    (h : withPatternLiterals p.text path = some rewritten) : rewritten = p.path := by
  obtain ⟨segs, hsegs, rfl⟩ := Option.map_eq_some_iff.mp h
  rw [patternPath_text] at hsegs
  rw [literalSegments_literal p.noWildcard hsegs, nil_append, join_split]

lemma pathUnescape_of_notMem {s : Str} (h : 0x25 ∉ s) : pathUnescape s = s := by
  have hbytes : unescapeBytes s = some s := by
    induction s with
    | nil => rfl
    | cons c s ih =>
      have hc : c ≠ 0x25 := fun heq => h (heq ▸ mem_cons_self)
      rw [unescapeBytes]
      · rw [ih fun hmem => h (mem_cons_of_mem c hmem)]
        rfl
      · rintro a b rest rfl rfl
        exact hc rfl
      · rintro rfl
        exact hc rfl
  rw [pathUnescape, hbytes]
  rfl

lemma Pattern.segs_of_notMem (h : 0x25 ∉ p.path) : p.segs = split slash p.path := by
  have hsegs : ∀ seg ∈ split slash p.path, pathUnescape seg = id seg := by
    intro seg hseg
    refine pathUnescape_of_notMem fun hmem => h ?_
    rw [← join_split slash p.path]
    exact (isInfix_join hseg).subset hmem
  rw [Pattern.segs, map_congr_left hsegs, map_id]

lemma path_of_muxHandler (hplain : ∀ p ∈ patterns, 0x25 ∉ p.path)
    (h : muxHandler patterns r = some p) : r.path = p.path := by
  obtain ⟨hmem, hsegs⟩ := muxHandler_some h
  rw [Request.path, ← hsegs, p.segs_of_notMem (hplain p hmem), join_split]

@[simp] lemma Request.path_withPath (r : Request) (path : Str) : (r.withPath path).path = path :=
  join_split slash path

/-! ## Every credential request is limited -/

lemma lowerByte_eq_slash {b : UInt8} (h : lowerByte b = slash) : b = slash := by
  rw [← UInt8.toNat_inj, toNat_lowerByte] at h
  rw [← UInt8.toNat_inj]
  split at h
  · change _ = 47 at h
    omega
  · exact h

lemma stripSlash_cases (path : Str) :
    stripSlash path = path ∨ path = stripSlash path ++ [slash] := by
  unfold stripSlash
  split
  · rename_i hslash
    exact .inr (dropLast_append_getLast? slash hslash.2).symm
  · exact .inl rfl

lemma keeps_stripSlash {u : Unicode} {path : Str} (h : ∀ piece ∈ pieces path, u.Keeps piece) :
    ∀ piece ∈ pieces (stripSlash path), u.Keeps piece := by
  obtain heq | heq := stripSlash_cases path
  · rw [heq]
    exact h
  · rw [heq] at h
    have hsub := pieces_append_byte (by decide) fun piece hpiece => (h piece hpiece).1
    exact fun piece hpiece => h piece (hsub piece hpiece)

/-- The route of the password login. -/
def loginRoute : Pattern where
  method := str "POST"
  host := []
  path := str "/api/v1/auth/login"
  method_noSpace := by decide
  host_noSlash := by decide
  rooted := by decide
  noSubtree := by decide
  noWildcard := by decide

/-- A login at a path whose last segment is `name`. -/
def loginAt (name : Str) : Request :=
  ⟨str "POST", str "hub.local", [[], str "api", str "v1", str "auth", name]⟩

end StreamHub.Httpx
