import StreamHub.Config.Model
import StreamHub.Library.Go
import StreamHub.Library.Redact

/-!
# Secrets in URLs

`parseURL`, `RedactURL`, `keepURL` and the replacements of `Scrub` of
`internal/config/secrets.go`.  A URL is split without any re-encoding; what may be
missing (user, password, query, the value of a query parameter) is an `Option`.  The main facts are
`parseURL_toStr`, that splitting a URL loses only the case of its scheme,
`keepURL_redactURL`, that the redacted form of a URL is always restored to it, and
`scrubValues_hides`, that no known secret is left in a text.
-/

namespace StreamHub.Config

open Library Library.Text

/-- A query parameter; without `=` it has no value. -/
structure QueryPair where
  key : Str
  value : Option Str

structure UserInfo where
  user : Str
  pass : Option Str

/-- The parts of a URL; `frag` has its `#`, `path` its slash. -/
structure UrlParts where
  scheme : Str
  userinfo : Option UserInfo
  host : Str
  path : Str
  query : Option (List QueryPair)
  frag : Str

/-! ## Parsing and printing -/

/-- `strings.Cut`: without the separator there is no second part. -/
def cutOpt (sep : Str) (s : Str) : Str × Option Str :=
  match cut sep s with
  | none => (s, none)
  | some (before, after) => (before, some after)

def parsePair (s : Str) : QueryPair :=
  let (key, value) := cutOpt (str "=") s
  { key, value }

/-- The authority, up to the path. -/
def parseHost (s : Str) : Option UserInfo × Str :=
  match cutLast 0x40 s with
  | none => (none, s)
  | some (info, host) =>
    let (user, pass) := cutOpt (str ":") info
    (some { user, pass }, host)

/-- `parseURL` -/
def parseURL (go : Go) (raw : Str) : Option UrlParts :=
  match cut (str "://") raw with
  | none => none
  | some (scheme, rest) =>
    if scheme = [] then none
    else
      let (rest, frag) := cutOpt (str "#") rest
      let (rest, query) := cutOpt (str "?") rest
      let (authority, path) := cutOpt (str "/") rest
      let (userinfo, host) := parseHost authority
      some
        { scheme := go.toLower scheme
          userinfo := userinfo
          host := host
          path := path.elim [] fun p => str "/" ++ p
          query := query.map fun q => (split 0x26 q).map parsePair
          frag := frag.elim [] fun f => str "#" ++ f }

def QueryPair.toStr (q : QueryPair) : Str := q.key ++ q.value.elim [] fun v => str "=" ++ v

def UserInfo.toStr (u : UserInfo) : Str := u.user ++ (u.pass.elim [] fun p => str ":" ++ p) ++ str "@"

/-- `urlParts.String` -/
def UrlParts.toStr (p : UrlParts) : Str :=
  p.scheme ++ str "://" ++ (p.userinfo.elim [] UserInfo.toStr) ++ (p.host ++ p.path) ++
    (p.query.elim [] fun q => str "?" ++ join (q.map QueryPair.toStr) (str "&")) ++ p.frag

/-! ## Secrets -/

/-- Query parameter names whose value is a secret. -/
def sensitiveQuery : List Str :=
  ["passphrase", "password", "passwd", "pass", "pwd", "secret", "token", "access_token", "auth",
    "authorization", "jwt", "sig", "signature", "key", "apikey", "api_key", "streamkey",
    "stream_key", "credential", "credentials"].map str

def isSensitiveKey (go : Go) (k : Str) : Bool :=
  sensitiveQuery.contains (go.toLower ((queryUnescape k).getD k))

/-- `rtmp[s]://host/app/<key>`: the path up to the key, and the key. -/
def UrlParts.streamKey (p : UrlParts) : Option (Str × Str) :=
  if p.scheme ≠ str "rtmp" ∧ p.scheme ≠ str "rtmps" then none
  else if contains (trim 0x2f p.path) (str "/") = false ∨ (str "/").isSuffixOf p.path = true then
    none
  else
    match cutLast 0x2f p.path with
    | none => none
    | some (app, key) => some (app ++ str "/", key)

/-- The secret password, if there is one. -/
def UserInfo.secret (u : UserInfo) : List Str :=
  match u.pass with
  | some pass => if pass = [] then [] else [pass]
  | none => []

def UserInfo.mask (u : UserInfo) : UserInfo :=
  match u.pass with
  | some pass => if pass = [] then u else { u with pass := some redacted }
  | none => u

/-- The secret value of a query parameter, if it has one. -/
def QueryPair.secret (go : Go) (q : QueryPair) : List Str :=
  match q.value with
  | some v => if v ≠ [] ∧ isSensitiveKey go q.key = true then [v] else []
  | none => []

def QueryPair.mask (go : Go) (q : QueryPair) : QueryPair :=
  match q.value with
  | some v =>
    if v ≠ [] ∧ isSensitiveKey go q.key = true then { q with value := some redacted } else q
  | none => q

/-- The values `redact` masks, in its order. -/
def UrlParts.maskedValues (go : Go) (p : UrlParts) : List Str :=
  p.userinfo.elim [] UserInfo.secret ++
  (p.query.elim [] fun q => q.flatMap (QueryPair.secret go)) ++
  p.streamKey.elim [] fun k => [k.2]

/-- The URL behind `redact`. -/
def UrlParts.mask (go : Go) (p : UrlParts) : UrlParts :=
  { p with
    userinfo := p.userinfo.map UserInfo.mask
    query := p.query.map fun q => q.map (QueryPair.mask go)
    path :=
      match p.streamKey with
      | none => p.path
      | some (app, _) => app ++ redacted }

/-- The values `redact` returns: placeholders left out, unescaped forms added. -/
def revealed (secrets : List Str) : List Str :=
  secrets.flatMap fun s =>
    if s = redacted then []
    else
      match queryUnescape s with
      | some u => if u ≠ s then [s, u] else [s]
      | none => [s]

/-- `RedactURL` -/
def redactURL (go : Go) (raw : Str) : Str :=
  match parseURL go raw with
  | none => raw
  | some p => if revealed (p.maskedValues go) = [] then raw else (p.mask go).toStr

/-- `keepURL` -/
def keepURL (go : Go) (prev next : Str) : Str :=
  if next ≠ prev ∧ contains next redacted = true ∧ redactURL go prev = next then prev else next

/-- `redactStr` -/
def redactStr (s : Str) : Str := if s = [] then s else redacted

variable {go : Go}

/-! ## A parsed URL is printed as it was -/

lemma cutOpt_append {sep s before : Str} {after : Option Str}
    (h : cutOpt sep s = (before, after)) : before ++ (after.elim [] fun a => sep ++ a) = s := by
  unfold cutOpt at h
  split at h
  · cases h
    exact List.append_nil _
  rename_i hcut
  cases h
  rw [cut_some hcut, List.append_assoc]
  rfl

lemma parsePair_toStr (s : Str) : (parsePair s).toStr = s :=
  cutOpt_append (show cutOpt (str "=") s = _ from rfl)

lemma parseQuery_toStr (q : Str) :
    join ((split 0x26 q).map (QueryPair.toStr ∘ parsePair)) (str "&") = q := by
  have hpairs : QueryPair.toStr ∘ parsePair = id := funext parsePair_toStr
  rw [hpairs, List.map_id]
  exact join_split 0x26 q

lemma parseHost_append {s host : Str} {userinfo : Option UserInfo}
    (h : parseHost s = (userinfo, host)) : userinfo.elim [] UserInfo.toStr ++ host = s := by
  unfold parseHost at h
  split at h
  · cases h
    rfl
  rename_i info after hcut
  rcases hinfo : cutOpt (str ":") info with ⟨user, pass⟩
  rw [hinfo] at h
  cases h
  rw [cutLast_some hcut, ← cutOpt_append hinfo]
  rfl

/-- `parseURL` loses nothing but the case of the scheme. -/
theorem parseURL_toStr {raw : Str} {p : UrlParts} (h : parseURL go raw = some p) :
    ∃ scheme, p.scheme = go.toLower scheme ∧ { p with scheme := scheme }.toStr = raw := by
  unfold parseURL at h
  split at h
  · cases h
  rename_i scheme rest hcut
  split at h
  · cases h
  rcases hfrag : cutOpt (str "#") rest with ⟨noFrag, frag⟩
  rcases hquery : cutOpt (str "?") noFrag with ⟨place, query⟩
  rcases hpath : cutOpt (str "/") place with ⟨authority, path⟩
  rcases hhost : parseHost authority with ⟨userinfo, host⟩
  simp only [hfrag, hquery, hpath, hhost] at h
  cases h
  refine ⟨scheme, rfl, ?_⟩
  -- the pieces are put together in the order in which they were cut off
  rw [cut_some hcut, ← cutOpt_append hfrag, ← cutOpt_append hquery, ← cutOpt_append hpath,
    ← parseHost_append hhost]
  cases query with
  | none => simp [UrlParts.toStr]
  | some q => simp [UrlParts.toStr, parseQuery_toStr]

theorem parseURL_toStr_upper : ∃ p ∈ parseURL Go.plain (str "RTMP://u:p@h/a?k=v#f"),
    ∃ scheme, p.scheme = Go.plain.toLower scheme ∧
      { p with scheme := scheme }.toStr = str "RTMP://u:p@h/a?k=v#f" :=
  ⟨_, rfl, parseURL_toStr rfl⟩

/-! ## A masked URL shows the placeholder -/

lemma UserInfo.mask_contains {u : UserInfo} (h : u.secret ≠ []) :
    contains u.mask.toStr redacted = true := by
  unfold UserInfo.secret at h
  unfold UserInfo.mask
  split at h
  · split at h
    · exact absurd rfl h
    rename_i hne
    rw [if_neg hne]
    exact contains_append_right _ (contains_append_left _ (contains_append_left _
      (contains_self _)))
  · exact absurd rfl h

lemma QueryPair.mask_contains {q : QueryPair} (h : q.secret go ≠ []) :
    contains (q.mask go).toStr redacted = true := by
  unfold QueryPair.secret at h
  unfold QueryPair.mask
  split at h
  · split at h
    · rename_i hsecret
      rw [if_pos hsecret]
      exact contains_append_left _ (contains_append_left _ (contains_self _))
    · exact absurd rfl h
  · exact absurd rfl h

/-- One of the three kinds of secrets is there. -/
lemma UrlParts.mask_contains {p : UrlParts} (h : p.maskedValues go ≠ []) :
    contains (p.mask go).toStr redacted = true := by
  unfold UrlParts.maskedValues at h
  unfold UrlParts.toStr UrlParts.mask
  by_cases huser : p.userinfo.elim [] UserInfo.secret = []
  · by_cases hquery : (p.query.elim [] fun q => q.flatMap (QueryPair.secret go)) = []
    · -- the stream key
      cases hkey : p.streamKey with
      | none => simp [huser, hquery, hkey] at h
      | some k =>
        refine contains_append_right _ (contains_append_right _ (contains_append_left _
          (contains_append_left _ (contains_append_left _ (contains_self _)))))
    · -- a query parameter
      cases hq : p.query with
      | none => simp [hq] at hquery
      | some pairs =>
        rw [hq] at hquery
        obtain ⟨pair, hpair, hsecret⟩ : ∃ pair ∈ pairs, pair.secret go ≠ [] := by
          by_contra hnone
          push Not at hnone
          exact hquery (List.flatMap_eq_nil_iff.mpr hnone)
        refine contains_append_right _ (contains_append_left _ (contains_append_left _ ?_))
        have hshown := contains_iff.mp (QueryPair.mask_contains hsecret)
        refine contains_iff.mpr (hshown.trans (isInfix_join ?_))
        exact List.mem_map_of_mem (List.mem_map_of_mem hpair)
  · -- the password
    cases hu : p.userinfo with
    | none => simp [hu] at huser
    | some u =>
      rw [hu] at huser
      exact contains_append_right _ (contains_append_right _ (contains_append_right _
        (contains_append_left _ (UserInfo.mask_contains huser))))

lemma redactURL_contains {raw : Str} (h : redactURL go raw ≠ raw) :
    contains (redactURL go raw) redacted = true := by
  unfold redactURL at h ⊢
  split at h
  · exact absurd rfl h
  split at h
  · exact absurd rfl h
  rename_i hrevealed
  rw [if_neg hrevealed]
  apply UrlParts.mask_contains
  intro hnone
  rw [hnone] at hrevealed
  exact hrevealed rfl

/-- The redacted form of a URL is restored. -/
theorem keepURL_redactURL (prev : Str) : keepURL go prev (redactURL go prev) = prev := by
  unfold keepURL
  by_cases hsame : redactURL go prev = prev
  · rw [if_neg (fun h => h.1 hsame), hsame]
  · rw [if_pos ⟨hsame, redactURL_contains hsame, rfl⟩]

/-! ## Scrubbing texts -/

def minScrubLen : Nat := 4

/-- The values that `Scrub` replaces, in the order of its sort: the longest first, and those of
one length in any order. -/
structure ScrubOrder (secrets vals : List Str) : Prop where
  perm : vals.Perm (secrets.filter fun s => minScrubLen ≤ s.length ∧ s ≠ redacted)
  sorted : vals.Pairwise fun s t => t.length ≤ s.length

/-- The replacements of `Scrub` -/
def scrubValues (text : Str) (vals : List Str) : Str :=
  vals.foldl (fun text s => replaceAll text s redacted) text

/-- No secret without a `*` is left, however the secrets overlap. -/
theorem scrubValues_hides {secrets vals : List Str} (hvals : ScrubOrder secrets vals)
    (hstar : ∀ s ∈ secrets, 0x2a ∉ s) (text : Str) :
    ∀ s ∈ secrets, minScrubLen ≤ s.length → contains (scrubValues text vals) s = false := by
  intro s hs hlength
  have hne : ∀ s : Str, minScrubLen ≤ s.length → s ≠ [] := by
    rintro s hlength rfl
    exact absurd hlength (by decide)
  -- the placeholder has no byte but `*`
  have hapart : Apart s redacted := by
    refine .of_disjoint (hne s hlength) (by decide) fun b hb hstars => hstar s hs ?_
    rwa [List.eq_of_mem_replicate (show b ∈ List.replicate 3 0x2a from hstars)] at hb
  have hmem : s ∈ vals := by
    refine hvals.perm.mem_iff.mpr (List.mem_filter.mpr ⟨hs, ?_⟩)
    refine decide_eq_true ⟨hlength, ?_⟩
    rintro rfl
    exact hstar redacted hs (by decide)
  rw [← Bool.not_eq_true, contains_iff]
  refine not_infix_foldl_replaceAll hapart (fun m hm => ?_) (.inl hmem)
  have := (List.mem_filter.mp (hvals.perm.mem_iff.mp hm)).2
  exact hne m (of_decide_eq_true this).1

/-- Of a secret and a longer one that begins with it nothing is left. -/
theorem scrubValues_hides_both : ∃ text : Str, text = scrubValues (str "abcdefabcd")
    [str "abcdef", str "abcd"] ∧ contains text (str "abcd") = false :=
  ⟨_, rfl, scrubValues_hides (show ScrubOrder [str "abcd", str "abcdef"] _ from
    ⟨by decide, by decide⟩) (by decide) _ _ (by decide) (by decide)⟩

end StreamHub.Config
