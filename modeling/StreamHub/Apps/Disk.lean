import StreamHub.Apps.SecretRef
import StreamHub.Yamljs.Value

/-!
# `config.yaml`

The file of an app is kept as the tree it is parsed to.  `readDisk` lays it over the tree
of a new app and then writes over every place that repeats the key of a secret
(`pinSecretRefs`): whatever a file says there, the tree has the derived key or, for the one
place that may be empty, nothing (`pinned_pinSecretRefs`).
-/

namespace StreamHub.Apps

open Library Text OrderedMap Yamljs

abbrev Tree := List (Str × Value)

/-! ## Trees -/

/-- `prop`: a member of an object, `undefined` of anything else. -/
def prop (v : Value) (k : String) : Value :=
  match v with
  | .obj m => get m (str k)
  | _ => .undefined

/-- `ToNumber` -/
def toNumber (js : Js) : Value → Yamljs.Num
  | .undefined => .nan
  | .null => .finite 0
  | .bool true => .finite 1
  | .bool false => .finite 0
  | .num n => n
  | .str s => js.stringToNumber s
  | .arr items => js.stringToNumber (Value.toText js (.arr items))
  | .obj _ => .nan

/-- `IsObject`: an array counts. -/
def isObject : Value → Bool
  | .obj _ => true
  | .arr _ => true
  | _ => false

/-- `Assign` -/
def assign (dst : Tree) (src : Value) : Tree :=
  (keys (spread src)).foldl (fun m k => set k (get (spread src) k) m) dst

/-- `spreadOver` -/
def spreadOver (base file : Value) : Value :=
  .obj (assign (spread base) (file.coalesce (.obj [])))

/-- `blockAt` -/
def blockAt (m : Tree) : List Str → Option Tree
  | [] => some m
  | k :: path =>
    match get m k with
    | .obj b => blockAt b path
    | _ => none

/-- The tree with a member of one of its blocks set. -/
def setAt (path : List Str) (key : Str) (v : Value) (m : Tree) : Tree :=
  match path with
  | [] => set key v m
  | k :: path =>
    match get m k with
    | .obj b => set k (.obj (setAt path key v b)) m
    | _ => m

/-! ## A new app -/

section Literals

def text (s : String) : Value := .str (str s)

def number (q : ℚ) : Value := .num (.finite q)

def object (members : List (String × Value)) : Value := .obj (members.map fun e => (str e.1, e.2))

end Literals

/-- `defaultDisk` -/
def defaultDisk (names : Names) (name displayName roomPrefix : Str) : Tree :=
  [("name", .str name),
   ("display_name", .str displayName),
   ("room_prefix", .str roomPrefix),
   ("timezone", text ""),
   ("recording", object
     [("enabled", .bool true), ("mode", text "room-composite"), ("layout", text "grid"),
      ("local_dir", text "recordings"), ("delete_local_after_upload", .bool true),
      ("split_minutes", number 0), ("snapshot_seconds", number 0),
      ("filename_template", text ""), ("snapshot_template", text ""),
      ("retention_days", number 0)]),
   ("s3", object
     [("provider", text "wasabi"), ("bucket", text ""), ("region", text "us-east-1"),
      ("endpoint", text "https://s3.us-east-1.wasabisys.com"),
      ("force_path_style", .bool false), ("prefix", .str (str "streamhub/" ++ name)),
      ("public_url", text ""), ("access_key_env", .str (secretRef names name .s3Key)),
      ("secret_key_env", .str (secretRef names name .s3Secret))]),
   ("webrtc", object
     [("adaptive", .bool true),
      ("layers", .arr
        [object [("name", text "high"), ("height", number 720)],
         object [("name", text "med"), ("height", number 480)],
         object [("name", text "low"), ("height", number 240)]]),
      ("transcode_max_height", number 720)]),
   ("rtmp", object
     [("enabled", .bool true), ("transcode", .bool true), ("passthrough", .bool false)]),
   ("transcoding", object
     [("enabled", .bool false), ("encoding", text "h264"), ("vod_adaptive", .bool false),
      ("vod_renditions", .arr [])]),
   ("callbacks", object [("url", text ""), ("secret", text "")]),
   ("mqtt", object
     [("enabled", .bool false), ("url", text ""), ("username", text ""),
      ("password_env", .str (secretRef names name .mqttPassword)),
      ("topic_prefix", .str (str "streamhub/" ++ name)), ("qos", number 0),
      ("tls", .bool false), ("events", .arr [text "all"]),
      ("logs", object [("enabled", .bool false), ("level", text "info")])]),
   ("latency_alert", object
     [("enabled", .bool false), ("threshold_ms", number 1000),
      ("cooldown_seconds", number 60), ("interval_seconds", number 10)]),
   ("smtp", object
     [("enabled", .bool false), ("host", text ""), ("port", number 587), ("user", text ""),
      ("from", text ""), ("pass_env", .str (secretRef names name .smtpPass))]),
   ("features", object
     [("rtmp_password", .bool false), ("viewer_counter", .bool true), ("chat", .bool false),
      ("reactions", .bool false), ("hidden_qc", .bool true), ("adaptive_player", .bool true),
      ("public_playback", .bool true),
      ("linear", object
        [("persistent_room", .bool false), ("room_empty_timeout_seconds", number 86400),
         ("always_on_hls", .bool false), ("dvr", .bool false),
         ("dvr_window_seconds", number 3600)])]),
   ("variables", .obj [])].map fun e => (str e.1, e.2)

/-! ## Laying a file over it -/

def transcodeHeights : List ℕ := [360, 480, 720, 1080]

def defaultTranscodeMaxHeight : ℕ := 720

/-- The nearest of the heights, the default where there is no number. -/
def sanitizeTranscodeMaxHeight (js : Js) (v : Value) : ℕ :=
  match toNumber js v with
  | .finite q =>
    let n := ⌊q⌋
    if n.toNat ∈ transcodeHeights then n.toNat
    else if n ≤ 0 then defaultTranscodeMaxHeight
    else
      transcodeHeights.foldl
        (fun (best h : ℕ) => if |(h : ℤ) - n| < |(best : ℤ) - n| then h else best)
        defaultTranscodeMaxHeight
  | _ => defaultTranscodeMaxHeight

/-- The blocks that `mergeDisk` knows, and the names that JavaScript finds on every
object. -/
def knownKeys : List Str :=
  ["name", "display_name", "room_prefix", "timezone", "recording", "s3", "webrtc", "rtmp",
   "quotas", "transcoding", "callbacks", "mqtt", "latency_alert", "smtp", "features",
   "variables", "constructor", "__defineGetter__", "__defineSetter__", "hasOwnProperty",
   "__lookupGetter__", "__lookupSetter__", "isPrototypeOf", "propertyIsEnumerable",
   "toString", "valueOf", "__proto__", "toLocaleString"].map str

def isTrue : Value → Bool
  | .bool b => b
  | _ => false

/-- The block `mqtt` of the merged tree. -/
def mergeMqtt (base file : Value) : Value :=
  let events :=
    match prop file "events" with
    | .arr (e :: rest) => .arr (e :: rest)
    | _ => prop base "events"
  .obj (set (str "logs") (spreadOver (prop base "logs") (prop file "logs"))
    (set (str "events") events (spread (spreadOver base file))))

/-- The block `webrtc` of the merged tree. -/
def mergeWebrtc (js : Js) (base file : Value) : Value :=
  let layers :=
    match prop file "layers" with
    | .arr items => .arr items
    | _ => prop base "layers"
  object
    [("adaptive", (prop file "adaptive").coalesce (prop base "adaptive")),
     ("layers", layers),
     ("transcode_max_height", number (sanitizeTranscodeMaxHeight js
       ((prop file "transcode_max_height").coalesce (prop base "transcode_max_height"))))]

/-- The block `transcoding`: a file without it takes `rtmp.transcode`. -/
def mergeTranscoding (base file : Value) : Value :=
  let block := prop file "transcoding"
  if block.truthy then spreadOver (prop base "transcoding") block
  else
    let transcode := (prop (prop file "rtmp") "transcode").coalesce
      (prop (prop base "rtmp") "transcode")
    .obj (set (str "enabled") (.bool (isTrue transcode)) (spread (prop base "transcoding")))

/-- The block `features` of the merged tree. -/
def mergeFeatures (base file : Value) : Value :=
  .obj (set (str "linear") (spreadOver (prop base "linear") (prop file "linear"))
    (spread (spreadOver base file)))

/-- The known blocks of the merged tree. -/
def mergedBlocks (js : Js) (base file : Value) : Tree :=
  let same (k : String) := (str k, (prop file k).coalesce (prop base k))
  let block (k : String) := (str k, spreadOver (prop base k) (prop file k))
  let quotas := (prop file "quotas").coalesce (prop base "quotas")
  let vars := prop file "variables"
  [same "name", same "display_name", same "room_prefix", same "timezone",
   block "recording", block "s3",
   (str "webrtc", mergeWebrtc js (prop base "webrtc") (prop file "webrtc")), block "rtmp"] ++
  (if quotas.isNullish then [] else [(str "quotas", quotas)]) ++
  [(str "transcoding", mergeTranscoding base file), block "callbacks",
   (str "mqtt", mergeMqtt (prop base "mqtt") (prop file "mqtt")),
   block "latency_alert", block "smtp",
   (str "features", mergeFeatures (prop base "features") (prop file "features")),
   (str "variables",
     if vars.truthy && isObject vars then vars else prop base "variables")]

/-- `mergeDisk`: unknown blocks of the file first. -/
def mergeDisk (js : Js) (base : Tree) (file : Value) : Tree :=
  let extras := (keys (spread file)).filter fun k => !knownKeys.contains k
  assign (extras.foldl (fun m k => set k (get (spread file) k) m) [])
    (.obj (mergedBlocks js (.obj base) file))

/-- `mergeOver` -/
def mergeOver (js : Js) (names : Names) (name : Str) (parsed : Value) : Tree :=
  mergeDisk js (defaultDisk names name name name) (if parsed.truthy then parsed else .obj [])

/-! ## Pinning -/

/-- One place of `pinSecretRefs`. -/
def pinField (js : Js) (names : Names) (app : Str) (m : Tree) (f : SecretField) : Tree :=
  match blockAt m f.path with
  | none => m
  | some b =>
    let cur := get b f.key
    let want := secretRef names app f.kind
    if f.optional && (cur.isNullish || js.trimSpace (cur.toText js) == []) then m
    else if cur.toText js = want then m
    else setAt f.path f.key (.str want) m

def pinSecretRefs (js : Js) (names : Names) (app : Str) (m : Tree) : Tree :=
  secretFields.foldl (pinField js names app) m

/-! ## What a pinned tree repeats -/

/-- The member of a block, if the block is there. -/
def readAt (m : Tree) (path : List Str) (key : Str) : Option Value :=
  (blockAt m path).map fun b => get b key

/-- The place has the derived key, or is the one that may be empty and is so. -/
def Pinned (js : Js) (names : Names) (app : Str) (m : Tree) (f : SecretField) : Prop :=
  ∀ v ∈ readAt m f.path f.key, v.toText js = secretRef names app f.kind ∨
    f.optional = true ∧ (v.isNullish = true ∨ js.trimSpace (v.toText js) = [])

/-- Two places of which neither lies inside the other. -/
def Apart (f g : SecretField) : Prop :=
  f.path.head? ≠ g.path.head? ∨ f.path = g.path ∧ f.key ≠ g.key

lemma get_set (k k' : Str) (v : Value) (m : Tree) :
    get (set k v m) k' = if k' = k then v else get m k' := by
  change lookupOr .undefined (set k v m) k' = _
  rw [lookupOr_set]
  rfl

lemma readAt_cons (m : Tree) (k : Str) (path : List Str) (key : Str) :
    readAt m (k :: path) key =
      match get m k with
      | .obj b => readAt b path key
      | _ => none := by
  rw [readAt, blockAt]
  cases get m k <;> rfl

lemma readAt_setAt_self {m : Tree} {path : List Str} {key : Str} {v w : Value}
    (h : readAt m path key = some w) : readAt (setAt path key v m) path key = some v := by
  induction path generalizing m with
  | nil =>
    change some (get (set key v m) key) = some v
    rw [get_set, if_pos rfl]
  | cons k path ih =>
    rw [readAt_cons] at h
    cases hblock : get m k with
    | obj b =>
      rw [hblock] at h
      rw [setAt, hblock]
      rw [readAt_cons, get_set, if_pos rfl]
      exact ih h
    | _ =>
      rw [hblock] at h
      cases h

lemma readAt_setAt_of_key_ne {m : Tree} {path : List Str} {key key' : Str} {v : Value}
    (h : key ≠ key') : readAt (setAt path key' v m) path key = readAt m path key := by
  induction path generalizing m with
  | nil =>
    change some (get (set key' v m) key) = some (get m key)
    rw [get_set, if_neg h]
  | cons k path ih =>
    rw [setAt, readAt_cons, readAt_cons]
    cases hblock : get m k with
    | obj b =>
      rw [get_set, if_pos rfl]
      exact ih
    | _ => simp only [hblock]

lemma readAt_setAt_of_head_ne {m : Tree} {path path' : List Str} {key key' : Str} {v : Value}
    (hne : path ≠ []) (hne' : path' ≠ []) (h : path.head? ≠ path'.head?) :
    readAt (setAt path' key' v m) path key = readAt m path key := by
  obtain ⟨k, path, rfl⟩ := List.exists_cons_of_ne_nil hne
  obtain ⟨k', path', rfl⟩ := List.exists_cons_of_ne_nil hne'
  have hk : k ≠ k' := fun heq => h (congrArg some heq)
  rw [setAt]
  cases hblock : get m k' with
  | obj b => rw [readAt_cons, readAt_cons, get_set, if_neg hk]
  | _ => rfl

section Pinning

variable {js : Js} {names : Names} {app : Str} {m : Tree} {f g : SecretField}

lemma pinned_pinField : Pinned js names app (pinField js names app m f) f := by
  cases hblock : blockAt m f.path with
  | none =>
    intro v hv
    rw [pinField, hblock] at hv
    rw [readAt, hblock] at hv
    cases hv
  | some b =>
    have hread : readAt m f.path f.key = some (get b f.key) := by
      rw [readAt, hblock]
      rfl
    intro v hv
    rw [pinField, hblock] at hv
    dsimp only at hv
    split at hv
    · rename_i hempty
      rw [hread, Option.mem_some_iff] at hv
      subst hv
      rw [Bool.and_eq_true, Bool.or_eq_true, beq_iff_eq] at hempty
      exact .inr hempty
    · split at hv
      · rename_i heq
        rw [hread, Option.mem_some_iff] at hv
        subst hv
        exact .inl heq
      · rw [readAt_setAt_self hread, Option.mem_some_iff] at hv
        subst hv
        exact .inl rfl

lemma readAt_pinField (hf : f.path ≠ []) (hg : g.path ≠ []) (h : Apart f g) :
    readAt (pinField js names app m g) f.path f.key = readAt m f.path f.key := by
  rw [pinField]
  split
  · rfl
  dsimp only
  split
  · rfl
  split
  · rfl
  obtain hhead | ⟨hpath, hkey⟩ := h
  · exact readAt_setAt_of_head_ne hf hg hhead
  rw [← hpath]
  exact readAt_setAt_of_key_ne hkey

lemma readAt_foldl_pinField {fields : List SecretField} (hf : f.path ≠ [])
    (h : ∀ g ∈ fields, g.path ≠ [] ∧ Apart f g) :
    readAt (fields.foldl (pinField js names app) m) f.path f.key = readAt m f.path f.key := by
  induction fields generalizing m with
  | nil => rfl
  | cons g rest ih =>
    obtain ⟨hg, hapart⟩ := h g List.mem_cons_self
    rw [List.foldl_cons, ih fun x hx => h x (List.mem_cons_of_mem g hx)]
    exact readAt_pinField hf hg hapart

/-- A place that is pinned stays so while the places apart from it are. -/
lemma pinned_foldl {fields : List SecretField} (hne : ∀ f ∈ fields, f.path ≠ [])
    (hapart : fields.Pairwise Apart) (m : Tree) :
    ∀ f ∈ fields, Pinned js names app (fields.foldl (pinField js names app) m) f := by
  induction fields generalizing m with
  | nil => simp
  | cons g rest ih =>
    obtain ⟨hg, hrest⟩ := List.pairwise_cons.mp hapart
    have hneRest := fun f hf => hne f (List.mem_cons_of_mem g hf)
    intro f hf
    obtain rfl | hf := List.mem_cons.mp hf
    · rw [List.foldl_cons, Pinned,
        readAt_foldl_pinField (hne f List.mem_cons_self) fun x hx => ⟨hneRest x hx, hg x hx⟩]
      exact pinned_pinField
    · exact ih hneRest hrest _ f hf

end Pinning

instance (f g : SecretField) : Decidable (Apart f g) := inferInstanceAs (Decidable (_ ∨ _))

/-- Whatever the file says, every place has the derived key. -/
theorem pinned_pinSecretRefs (js : Js) (names : Names) (app : Str) (m : Tree) :
    secretFields.Forall (Pinned js names app (pinSecretRefs js names app m)) :=
  List.forall_iff_forall_mem.mpr (pinned_foldl (by decide) (by decide) m)

end StreamHub.Apps
