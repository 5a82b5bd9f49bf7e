import StreamHub.Library.PathClean

/-!
# HLS requests

`hlsHandler` asks a gate about the app and the directory in the decoded path of a
request, and serves the file that the segments of the path lead to.  The two come from
one path in different ways: the gate is asked about the segments as they stand, the
file is found by joining and cleaning them.

A path whose segments never lead above the directory they name reads a file of that
directory (`hlsHandler_liesUnder`).  Others may not (`hlsHandler_otherApp`).
-/

namespace StreamHub.Web

open Library Text

/-! ## The gate -/

structure HLSDecision where
  status : ℕ
  code : Str
  message : Str
  isPrivate : Bool
  token : Str
  deriving DecidableEq

/-- `Allowed` -/
def HLSDecision.allowed (d : HLSDecision) : Bool := d.status == 0

/-- The verdict that lets a request for a public app pass. -/
def HLSDecision.pass : HLSDecision := ⟨0, [], [], false, []⟩

/-- `denied` -/
def denied (code message : Str) : HLSDecision := ⟨403, code, message, false, []⟩

/-- The verdict on a token. -/
inductive Verdict
  | ok
  | missing
  | invalid
  | expired
  deriving DecidableEq

/-- What the gate of the core knows: the directories of apps, whether an app is private
if its config can be read, the geo rules and the tokens. -/
structure Guard where
  isDir : Str → Bool
  isPrivate : Str → Option Bool
  geoAllowed : Str → Bool
  verifyHLS : Str → Str → Str → Verdict

def Guard.appExists (g : Guard) (app : Str) : Bool :=
  !(app = [] || (str ".").isPrefixOf app || app.any fun b => b == slash || b == 0x5c) && g.isDir app

def msgHLSToken : Str := str "HLS playback for this app requires a valid token (?st=)"

def msgHLSExpired : Str := str "HLS token expired"

def msgHLSConfig : Str := str "HLS playback is unavailable for this app"

def msgGeoBlocked : Str := str "playback is not available in your region"

/-- `AuthorizeHLS`, with the trimmed `st` of the request. -/
def Guard.authorizeHLS (g : Guard) (st app dir : Str) : HLSDecision :=
  if g.appExists app then
    match g.isPrivate app with
    | none => denied (str "forbidden") msgHLSConfig
    | some isPrivate =>
      if g.geoAllowed app then
        if isPrivate then
          match g.verifyHLS app dir st with
          | .ok => ⟨0, [], [], true, st⟩
          | .expired => denied (str "forbidden") msgHLSExpired
          | _ => denied (str "forbidden") msgHLSToken
        else .pass
      else denied (str "geo_blocked") msgGeoBlocked
  else .pass

/-! ## The handler -/

/-- `hlsPath`: the app, the directory and the rest of a path.  A dot of a regular
expression matches any byte but the end of a line. -/
def hlsPath (p : Str) : Option (Str × Str × Str) :=
  if (str "/hls/").isPrefixOf p then
    match cut [slash] (p.drop 5) with
    | none => none
    | some (app, behind) =>
      match cut [slash] behind with
      | none => none
      | some (dir, rest) =>
        if app = [] ∨ dir = [] ∨ rest = [] ∨ 0x0a ∈ rest then none else some (app, dir, rest)
  else none

/-- `safeJoin`, with the path below the root: the root is put before it as it is. -/
def safeJoin (segs : List Str) : Option Str :=
  let rel := clean (slash :: pathJoin segs)
  if (split slash rel).any fun part => (str ".").isPrefixOf part then none else some rel

/-- What becomes of a request. -/
inductive HlsResponse
  | preflight
  | notFound
  | denied (d : HLSDecision)
  | served (file : Str)
  deriving DecidableEq

/-- `hlsHandler`; `regular` are the regular files below the root that can be read. -/
def hlsHandler (regular : Str → Bool) (gate : Option (Str → Str → HLSDecision))
    (method path : Str) : HlsResponse :=
  if method = str "OPTIONS" then .preflight
  else
    match hlsPath path with
    | none => .notFound
    | some (app, dir, rest) =>
      if method ≠ str "GET" ∧ method ≠ str "HEAD" then .notFound
      else
        match safeJoin [app, str "hls", dir, rest] with
        | none => .notFound
        | some file =>
          let dec := (gate.map fun g => g app dir).getD .pass
          if dec.allowed then (if regular file then .served file else .notFound)
          else .denied dec

/-! ## Where a file lies -/

/-- A file in the directory of the app, at any depth. -/
def LiesUnder (app dir file : Str) : Prop :=
  ∃ name, name ≠ [] ∧ file = str "/" ++ app ++ str "/hls/" ++ dir ++ str "/" ++ name

lemma hlsPath_eq_some {p app dir rest : Str} (h : hlsPath p = some (app, dir, rest)) :
    app ≠ [] ∧ slash ∉ app ∧ dir ≠ [] ∧ slash ∉ dir ∧ rest ≠ [] := by
  rw [hlsPath] at h
  split at h
  · split at h
    · cases h
    rename_i app' behind happ
    split at h
    · cases h
    rename_i dir' rest' hdir
    split at h
    · cases h
    rename_i hparts
    cases h
    simp only [not_or] at hparts
    exact ⟨hparts.1, notMem_of_cut happ, hparts.2.1, notMem_of_cut hdir, hparts.2.2.1⟩
  · cases h

lemma safeJoin_liesUnder {app dir rest file : Str} (happ : IsName app) (hdir : IsName dir)
    (hrest : rest ≠ []) (hstays : stays 0 (split slash rest) = true)
    (hjoin : safeJoin [app, str "hls", dir, rest] = some file) : LiesUnder app dir file := by
  have hnames : ∀ seg ∈ [app, str "hls", dir], IsName seg := by
    simp only [List.forall_mem_cons]
    exact ⟨happ, by decide, hdir, by simp⟩
  obtain ⟨below, hbelow, hbelowNames, hpath⟩ := pathJoin_stays hnames hrest hstays
  have hall : ∀ seg ∈ app :: [str "hls", dir] ++ below, IsName seg :=
    List.forall_mem_append.mpr ⟨hnames, hbelowNames⟩
  rw [safeJoin] at hjoin
  have hpath' : pathJoin [app, str "hls", dir, rest] =
    join (app :: [str "hls", dir] ++ below) [slash] := hpath
  rw [hpath', clean_rooted_names (by simp) hall] at hjoin
  split at hjoin
  · cases hjoin
  cases hjoin
  refine ⟨join below [slash], join_ne_nil hbelow hbelowNames _, ?_⟩
  rw [join_append hbelow]
  simp [str, utf8, slash]

/-- A file that is served was asked for at the gate, and lies in the directory the gate
was asked about if the path names an app and a directory and never leads above it. -/
theorem hlsHandler_liesUnder (regular : Str → Bool) (gate : Option (Str → Str → HLSDecision))
    (method path file : Str) (hserved : hlsHandler regular gate method path = .served file) :
    ∃ app dir rest, hlsPath path = some (app, dir, rest) ∧
      (∀ g ∈ gate, (g app dir).allowed = true) ∧
      (app ≠ dot ∧ app ≠ dotdot ∧ dir ≠ dot ∧ dir ≠ dotdot ∧ stays 0 (split slash rest) = true →
        LiesUnder app dir file) := by
  rw [hlsHandler] at hserved
  split at hserved
  · cases hserved
  split at hserved
  · cases hserved
  rename_i app dir rest hpath
  obtain ⟨happ, happSlash, hdir, hdirSlash, hrest⟩ := hlsPath_eq_some hpath
  refine ⟨app, dir, rest, hpath, ?_⟩
  split at hserved
  · cases hserved
  split at hserved
  · cases hserved
  rename_i file' hjoin
  dsimp only at hserved
  split at hserved
  · rename_i hallowed
    split at hserved
    · cases hserved
      refine ⟨fun g hg => ?_, fun ⟨hdot, hdotdot, hdot', hdotdot', hstays⟩ => ?_⟩
      · rw [Option.mem_def.mp hg] at hallowed
        exact hallowed
      · exact safeJoin_liesUnder ⟨happ, hdot, hdotdot, happSlash⟩
          ⟨hdir, hdot', hdotdot', hdirSlash⟩ hrest hstays hjoin
    · cases hserved
  · cases hserved

/-- An app that is public and one that is private, without a token. -/
def twoApps : Guard where
  isDir app := app = str "pub" ∨ app = str "priv"
  isPrivate app := some (app = str "priv")
  geoAllowed _ := true
  verifyHLS _ _ _ := .missing

theorem hlsHandler_liesUnder_index :
    ∃ app dir rest, hlsPath (str "/hls/pub/room/a/../index.m3u8") = some (app, dir, rest) ∧
      (∀ g ∈ some (twoApps.authorizeHLS []), (g app dir).allowed = true) ∧
      (app ≠ dot ∧ app ≠ dotdot ∧ dir ≠ dot ∧ dir ≠ dotdot ∧ stays 0 (split slash rest) = true →
        LiesUnder app dir (str "/pub/hls/room/index.m3u8")) :=
  hlsHandler_liesUnder (fun _ => true) (some (twoApps.authorizeHLS [])) (str "GET") _ _
    (by decide +kernel)

/-- A request allowed for the public app reads a playlist of the private one, for which
the gate would have denied it. -/
theorem hlsHandler_otherApp :
    hlsPath (str "/hls/pub/room/../../../priv/hls/room/index.m3u8") =
        some (str "pub", str "room", str "../../../priv/hls/room/index.m3u8") ∧
      (twoApps.authorizeHLS [] (str "pub") (str "room")).allowed = true ∧
      (twoApps.authorizeHLS [] (str "priv") (str "room")).allowed = false ∧
      hlsHandler (fun _ => true) (some (twoApps.authorizeHLS [])) (str "GET")
        (str "/hls/pub/room/../../../priv/hls/room/index.m3u8") =
          .served (str "/priv/hls/room/index.m3u8") := by decide +kernel

end StreamHub.Web
