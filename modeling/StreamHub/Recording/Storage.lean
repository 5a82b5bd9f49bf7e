import StreamHub.Library.Transition
import StreamHub.Recording.Naming

/-!
# What recordings keep, and where

Recordings are started, split into parts, uploaded, transcoded and deleted.  Each part has a
row, a local file that the egress writes, a snapshot, and objects in the bucket of its app;
every place is computed from the name of the part.

A step is one call of the service or one job of its workers; the tools, the store and the
database answer as the labels say.  The snapshots that the egress takes on its own while it
records are not modelled.
-/

namespace StreamHub.Recording

open Library Text FileTree Transition OrderedMap Function

/-! ## Configuration -/

/-- Where objects are kept: the fields of `S3Config` that lead to a bucket. -/
structure Bucket where
  provider : Str
  name : Str
  region : Str
  endpoint : Str
  deriving DecidableEq

structure RecordingConfig where
  enabled : Bool
  mode : Str
  localDir : Str
  deleteLocalAfterUpload : Bool
  splitMinutes : Yamljs.Num
  snapshotSeconds : Yamljs.Num
  filenameTemplate : Str
  snapshotTemplate : Str

/-- `TranscodePlan`, with the heights as texts -/
structure TranscodePlan where
  renditions : List Str
  webm : Bool

/-- `AppConfig`, with the plan that `PlanFor` makes of it -/
structure AppConfig where
  recording : RecordingConfig
  bucket : Bucket
  keyPrefix : Str
  vars : List (Str × Str)
  plan : TranscodePlan

/-- `Needed` -/
def TranscodePlan.needed (plan : TranscodePlan) : Bool := plan.renditions ≠ [] || plan.webm

/-- The apps, whose names are names of directories; `config` is `GetConfig`. -/
structure Server where
  dataDir : Path
  config : Str → Except Str AppConfig
  named : ∀ app cfg, config app = .ok cfg → IsName app

structure Failure where
  status : ℕ
  message : Str

namespace Server

variable (srv : Server) (app : Str)

/-- `AppDir` -/
def appDir : Path := joinPath srv.dataDir [str "apps", app]

def snapshotPath (stem : Str) : Path := joinPath (srv.appDir app) [str "snapshots", stem ++ str ".jpg"]

def workDir (base : Str) : Path := joinPath (srv.appDir app) [str "transcode", base]

end Server

def RecordingConfig.dir (cfg : RecordingConfig) : Str :=
  if cfg.localDir = [] then str "recordings" else cfg.localDir

/-- `recordingDir`; a valid directory is below the one of the app. -/
def recordingDir (srv : Server) (app : Str) (cfg : RecordingConfig) : Except Failure Path :=
  if validLocalDir cfg.dir then .ok (joinPath (srv.appDir app) [cfg.dir])
  else
    .error ⟨400, str "invalid recording.local_dir \"" ++ cfg.dir ++
      str "\": must be a single directory name ([A-Za-z0-9._-], 1-64 chars, no \"..\")"⟩

/-! ## Starting -/

/-- An object in a bucket. -/
structure Object where
  bucket : Bucket
  key : Str
  deriving DecidableEq

/-- A row of `vod_variants`: its key and those in its `segmentKeys`. -/
structure Variant where
  fileKey : Str
  segmentKeys : List Str

/-- A row of `vods`.  `out` is the file that was given to the egress and `shots` are the stems
of the snapshots that were taken; a deleted row is kept for what it once had. -/
structure Vod where
  app : Str
  streamID : Str
  room : Str
  name : Str
  localPath : Option Path
  fileKey : Option Str
  snapshotKey : Option Str
  variants : List Variant
  deleted : Bool
  out : Path
  shots : List Str

/-- The name without its extension, which the snapshot and the renditions are named by. -/
def Vod.base (v : Vod) : Str := baseNoExt v.name

def Vod.names (v : Vod) : List Str := v.base :: v.shots

/-- `StartInput` -/
structure StartInput where
  appName : Str
  roomName : Str
  streamID : Str
  recordMode : Str

/-- `session` -/
structure Session where
  id : Str
  app : Str
  room : Str
  streamID : Str
  fileStem : Str
  splitMinutes : ℚ
  snapshotSeconds : ℚ
  partIndex : ℕ

/-- The readings of the clock in `StartRecording`. -/
structure Clock where
  stamp : Reading
  now : Reading
  wall : Reading

/-- `normalize` -/
def normalize (v : Yamljs.Num) (allowed : List ℚ) : ℚ :=
  match v with
  | .finite q => if q ∈ allowed then q else 0
  | _ => 0

def splitAllowed : List ℚ := [0, 15, 30, 60, 90, 120]

def snapshotAllowed : List ℚ := [0, 1, 30, 60, 120, 360]

/-- The stream that a recording is of: the room's own when none is given. -/
def StartInput.stream (input : StartInput) : Str :=
  let streamID := jsTrim input.streamID
  if streamID = [] then input.roomName else streamID

/-- The session that `StartRecording` makes. -/
def newSession (cfg : AppConfig) (input : StartInput) (clock : Clock) : Session :=
  let byTrack := input.recordMode = str "track" ∨ input.recordMode = str "audio"
  let mode :=
    if byTrack then input.recordMode
    else if cfg.recording.mode = [] then str "room-composite" else cfg.recording.mode
  let base := baseSlug input.stream clock.stamp
  let stem := renderFilenameTemplate cfg.recording.filenameTemplate
    { app := input.appName, streamID := input.stream, room := input.roomName, type := str "mp4",
      vars := cfg.vars, now := clock.now } clock.wall
  { id := input.appName ++ str ":" ++ base
    app := input.appName
    room := input.roomName
    streamID := input.stream
    fileStem := if stem = [] then base else stem
    splitMinutes := normalize cfg.recording.splitMinutes splitAllowed
    snapshotSeconds :=
      if mode = str "track" ∨ mode = str "audio" then 0
      else normalize cfg.recording.snapshotSeconds snapshotAllowed
    partIndex := 0 }

/-- The name of the current part without its extension. -/
def Session.base (sess : Session) : Str :=
  sess.fileStem ++ if 0 < sess.splitMinutes then partTag sess.partIndex else []

/-- The row of the current part. -/
def Session.row (sess : Session) (dir : Path) : Vod :=
  let filename := sess.base ++ str ".mp4"
  let out := joinPath dir [filename]
  { app := sess.app, streamID := sess.streamID, room := sess.room, name := filename,
    localPath := some out, fileKey := none, snapshotKey := none, variants := [],
    deleted := false, out := out, shots := [] }

/-- `launchPart`; `refusal` is the error of the directory, the egress or the database. -/
def launchPart (srv : Server) (cfg : AppConfig) (sess : Session) (refusal : Option Failure) :
    Except Failure Vod :=
  match recordingDir srv sess.app cfg.recording, refusal with
  | .error e, _ => .error e
  | .ok _, some e => .error e
  | .ok dir, none => .ok (sess.row dir)

/-- `StartRecording` up to the row of its first part -/
def startRecording (srv : Server) (input : StartInput) (clock : Clock) (refusal : Option Failure) :
    Except Failure (Session × Vod) :=
  if input.roomName = [] then .error ⟨400, str "roomName is required"⟩
  else
    match srv.config input.appName with
    | .error e => .error ⟨404, str "app '" ++ input.appName ++ str "' config unavailable: " ++ e⟩
    | .ok cfg =>
      if !cfg.recording.enabled then
        .error ⟨400, str "recording is disabled for app '" ++ input.appName ++ str "'"⟩
      else if jsTrim cfg.bucket.name = [] then
        .error ⟨409, str "app '" ++ input.appName ++
          str "' has no S3 storage bucket configured; recordings cannot be uploaded"⟩
      else
        let sess := newSession cfg input clock
        (launchPart srv cfg sess refusal).map fun vod => (sess, vod)

/-! ## Keeping -/

/-- A row with the files and the objects. -/
structure Media where
  vod : Vod
  files : FileTree
  objects : Object → Option Str

namespace Media

def write (m : Media) (p : Path) (content : Str) : Media :=
  { m with files := update m.files p (some (.file content)) }

/-- `removeLocal` -/
def remove (m : Media) (p : Path) : Media := { m with files := update m.files p none }

/-- `s3.Upload` -/
def put (m : Media) (cfg : AppConfig) (key content : Str) : Media :=
  { m with objects := update m.objects ⟨cfg.bucket, resolveKey cfg.keyPrefix key⟩ (some content) }

/-- `s3.Delete` -/
def drop (m : Media) (cfg : AppConfig) (key : Str) : Media :=
  { m with objects := update m.objects ⟨cfg.bucket, resolveKey cfg.keyPrefix key⟩ none }

end Media

/-- `filepath.Base` -/
def fileName (p : Path) : Str := p.getLast?.getD []

/-- How an upload goes: what the snapshot leaves in its file, and which steps succeed. -/
structure Uploading where
  snapshot : Option Str
  snapshotStored : Bool
  stored : Bool
  updated : Bool

/-- The stem of the snapshot in `buildSnapshot`. -/
def snapshotStem (cfg : AppConfig) (v : Vod) (path : Path) (now wall : Reading) : Str :=
  let stem := renderFilenameTemplate cfg.recording.snapshotTemplate
    { app := v.app, streamID := v.streamID, room := v.room, type := str "jpg", vars := cfg.vars,
      now := now } wall
  if stem = [] then baseNoExt (fileName path) else stem

/-- `buildSnapshot`, with the key of the object -/
def buildSnapshot (srv : Server) (cfg : AppConfig) (stem : Str) (o : Uploading) (m : Media) :
    Option Str × Media :=
  match o.snapshot with
  | none => (none, m)
  | some jpeg =>
    let taken := m.write (srv.snapshotPath m.vod.app stem) jpeg
    let taken := { taken with vod := { m.vod with shots := m.vod.shots ++ [stem] } }
    if o.snapshotStored then
      (some (resolveKey cfg.keyPrefix (stem ++ str ".jpg")), taken.put cfg (stem ++ str ".jpg") jpeg)
    else (none, taken)

/-- The local files that an upload deletes. -/
def cleanUp (srv : Server) (cfg : AppConfig) (path : Path) (stem : Str) (snapKey : Option Str)
    (m : Media) : Media :=
  if cfg.recording.deleteLocalAfterUpload then
    let m := if cfg.plan.needed then m else m.remove path
    if snapKey.isSome then m.remove (srv.snapshotPath m.vod.app stem) else m
  else m

/-- `processUpload` -/
def processUpload (srv : Server) (cfg : AppConfig) (now wall : Reading) (o : Uploading)
    (m : Media) : Media :=
  match m.vod.localPath with
  | none => m
  | some path =>
    match m.files path with
    | some (.file content) =>
      let stem := snapshotStem cfg m.vod path now wall
      let shot := buildSnapshot srv cfg stem o m
      if !o.stored then shot.2
      else
        let kept := cleanUp srv cfg path stem shot.1 (shot.2.put cfg (fileName path) content)
        if !o.updated then kept
        else
          { kept with vod := { kept.vod with
              fileKey := some (resolveKey cfg.keyPrefix (fileName path))
              snapshotKey := shot.1
              localPath :=
                if cfg.recording.deleteLocalAfterUpload && !cfg.plan.needed then none
                else some path } }
    | _ => m

/-! ## Transcoding -/

/-- `DrmMode`; a degraded packaging is a clear one. -/
inductive Drm
  | clear
  | encrypt
  | skip
  deriving DecidableEq

/-- What the tools make of a recording: the files of each rendition of the plan, if it did not
fail; the packaged renditions with the files of the packager; the alternate.  The first
`stored` uploads succeed. -/
structure Work where
  decision : Drm
  ladder : List (Option (List (Str × Str)))
  master : Str
  packaged : Option (List Str × List (Str × Str))
  webm : Option Str
  stored : ℕ

/-- Uploads, and the rows that are inserted behind them. -/
structure Piece where
  uploads : List (Str × Str)
  variants : List Variant

def hasSuffix (s suffix : Str) : Bool := suffix.isSuffixOf s

/-- One clear rendition. -/
def renditionPiece (base height : Str) (files : List (Str × Str)) : Piece :=
  let dir := str "hls/" ++ base ++ str "/" ++ (height ++ str "p/")
  let files := files.filter fun f => hasSuffix f.1 (str ".m3u8") || hasSuffix f.1 (str ".ts")
  let keys := files.map fun f => dir ++ f.1
  { uploads := files.map fun f => (dir ++ f.1, f.2)
    variants := [⟨dir ++ str "index.m3u8", keys.filter (· ≠ dir ++ str "index.m3u8")⟩] }

/-- The master playlist. -/
def masterPiece (base content : Str) : Piece :=
  let key := str "hls/" ++ base ++ str "/" ++ str "master.m3u8"
  ⟨[(key, content)], [⟨key, []⟩]⟩

/-- `packageDrm` -/
def drmPiece (base : Str) (heights : List Str) (files : List (Str × Str)) : Piece :=
  let dir := str "hls/" ++ base ++ str "/"
  let files := files.filter fun f =>
    hasSuffix f.1 (str ".m3u8") || hasSuffix f.1 (str ".mp4") || hasSuffix f.1 (str ".m4s")
  let made := heights.filter fun h => files.any fun f => f.1 == h ++ str "p.m3u8"
  { uploads := files.map fun f => (dir ++ f.1, f.2)
    variants := made.map (fun h => ⟨dir ++ (h ++ str "p.m3u8"), [dir ++ (h ++ str "p.mp4")]⟩) ++
      [⟨dir ++ str "master.m3u8", []⟩] }

def webmPiece (base content : Str) : Piece :=
  ⟨[(base ++ str ".webm", content)], [⟨base ++ str ".webm", []⟩]⟩

/-- The ladder of `run`, with its master playlist. -/
def ladderPieces (plan : TranscodePlan) (w : Work) (base : Str) : List Piece :=
  let ok := (plan.renditions.zip w.ladder).filterMap fun r => r.2.map (renditionPiece base r.1)
  if ok = [] then [] else ok ++ [masterPiece base w.master]

/-- `run` -/
def pieces (plan : TranscodePlan) (w : Work) (base : Str) : List Piece :=
  match w.decision with
  | .clear =>
    ladderPieces plan w base ++
      if plan.webm then (w.webm.map (webmPiece base)).toList else []
  | .encrypt =>
    if plan.renditions = [] then []
    else (w.packaged.map fun p => drmPiece base p.1 p.2).toList
  | .skip => []

/-- The uploads and rows of the pieces up to the first upload that fails. -/
def perform : ℕ → List Piece → List (Str × Str) × List Variant
  | _, [] => ([], [])
  | n, p :: rest =>
    if p.uploads.length ≤ n then
      let r := perform (n - p.uploads.length) rest
      (p.uploads ++ r.1, p.variants ++ r.2)
    else (p.uploads.take n, [])

/-- `xcBaseNoExt` -/
def xcBaseNoExt (p : Path) : Str :=
  match cutLast period (fileName p) with
  | none => fileName p
  | some (before, after) =>
    if before = [] then fileName p else trimSuffix (fileName p) (period :: after)

/-- The rows of a job are inserted and its objects stored. -/
def publish (cfg : AppConfig) (done : List (Str × Str) × List Variant) (m : Media) : Media :=
  done.1.foldl (fun m upload => m.put cfg upload.1 upload.2)
    { m with vod := { m.vod with variants := m.vod.variants ++ done.2 } }

/-- What `ProcessJob` defers. -/
def finishJob (srv : Server) (cfg : AppConfig) (base : Str) (m : Media) : Media :=
  let m := { m with files := removeAll (srv.workDir m.vod.app base) (fun _ => false) m.files }
  if cfg.recording.deleteLocalAfterUpload then
    { m.remove m.vod.out with vod := { m.vod with localPath := none } }
  else m

/-- `ProcessJob` of a job for the file of the row -/
def processJob (srv : Server) (cfg : AppConfig) (w : Work) (m : Media) : Media :=
  if m.files m.vod.out = none then m
  else
    let base := xcBaseNoExt m.vod.out
    finishJob srv cfg base (publish cfg (perform w.stored (pieces cfg.plan w base)) m)

/-! ## Deleting -/

/-- How a deletion goes: which keys cannot be deleted, and whether the row is. -/
structure Deleting where
  kept : List Str
  rowDeleted : Bool

/-- The keys of `DeleteVodCascade`. -/
def Vod.keys (v : Vod) : List Str :=
  (v.fileKey.toList ++ v.snapshotKey.toList).filter (· ≠ []) ++
    v.variants.flatMap fun x => [x.fileKey].filter (· ≠ []) ++ x.segmentKeys

/-- `removeLocalCascade` -/
def removeLocalCascade (srv : Server) (m : Media) : Media :=
  match m.vod.localPath with
  | none => m
  | some path => (m.remove path).remove (srv.snapshotPath m.vod.app (baseNoExt (fileName path)))

/-- `DeleteVodCascade` -/
def deleteVodCascade (srv : Server) (cfg : AppConfig) (o : Deleting) (m : Media) : Media :=
  let m := (m.vod.keys.filter (· ∉ o.kept)).foldl (fun m key => m.drop cfg key) m
  let m := removeLocalCascade srv m
  if o.rowDeleted then { m with vod := { m.vod with deleted := true } } else m

/-! ## Runs -/

/-- The rows of every app in the order of their insertion, the live sessions, and what is
kept. -/
structure State where
  rows : List Vod
  sessions : List (Str × Session)
  files : FileTree
  objects : Object → Option Str

def State.initial : State := ⟨[], [], fun _ => none, fun _ => none⟩

/-- What is done for one row. -/
inductive Act
  /-- the egress writes its file -/
  | record (content : Str)
  | upload (now wall : Reading) (o : Uploading)
  | transcode (w : Work)
  | delete (o : Deleting)

inductive Label
  | start (input : StartInput) (clock : Clock) (refusal : Option Failure)
  | rotate (id : Str) (refusal : Option Failure)
  | clear (id : Str)
  | act (i : ℕ) (a : Act)

/-- A deleted row is not found any more; its egress may still be writing. -/
def Act.run (srv : Server) (cfg : AppConfig) (m : Media) : Act → Media
  | record content => m.write m.vod.out content
  | upload now wall o => if m.vod.deleted then m else processUpload srv cfg now wall o m
  | transcode w => if m.vod.deleted then m else processJob srv cfg w m
  | delete o => if m.vod.deleted then m else deleteVodCascade srv cfg o m

/-- `rotate`; only a session that is split has a timer for it. -/
def rotate (srv : Server) (s : State) (id : Str) (refusal : Option Failure) : State :=
  match s.sessions.lookup id with
  | none => s
  | some sess =>
    match srv.config sess.app, decide (0 < sess.splitMinutes) with
    | .ok cfg, true =>
      let next := { sess with partIndex := sess.partIndex + 1 }
      let s := { s with sessions := OrderedMap.set id next s.sessions }
      match launchPart srv cfg next refusal with
      | .error _ => s
      | .ok vod => { s with rows := s.rows ++ [vod] }
    | _, _ => s

def step (srv : Server) (s : State) : Label → Option State
  | .start input clock refusal =>
    match startRecording srv input clock refusal with
    | .error _ => some s
    | .ok (sess, vod) =>
      some { s with
        rows := s.rows ++ [vod]
        sessions :=
          if 0 < sess.splitMinutes ∨ 0 < sess.snapshotSeconds then
            OrderedMap.set sess.id sess s.sessions
          else s.sessions }
  | .rotate id refusal => some (rotate srv s id refusal)
  | .clear id => some { s with sessions := s.sessions.filter fun e => e.1 != id }
  | .act i a =>
    match s.rows[i]? with
    | none => none
    | some v =>
      match srv.config v.app with
      | .error _ => none
      | .ok cfg =>
        let m := a.run srv cfg ⟨v, s.files, s.objects⟩
        some { s with rows := s.rows.set i m.vod, files := m.files, objects := m.objects }

end StreamHub.Recording
