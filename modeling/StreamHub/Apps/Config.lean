import StreamHub.Apps.Disk
import StreamHub.S3.Secrets

/-!
# The config of an app, with its credentials

An app has a row in the registry, a `config.yaml` and up to five entries in the secrets
file.  `getConfig` resolves all of it for the server's own use, credentials included; the
views of the blocks `s3`, `mqtt` and `smtp` that a client may read and set have a mask in
place of each credential.

The blocks without credentials are the same for all views and are left open (`Setup`): how
they are resolved from the tree, patched and checked.
-/

namespace StreamHub.Apps

open Library Text OrderedMap Runes Yamljs S3

/-- What the service is built from. -/
structure Setup where
  js : Js
  names : Names
  /-- what `json.Indent` makes of a value, see `SecretValue.laidOut` -/
  layout : Str → Str
  /-- the blocks without credentials -/
  Other : Type
  resolveOther : Tree → Other
  /-- a patch of them -/
  OtherPatch : Type
  applyOther : OtherPatch → Tree → Tree

/-! ## State -/

inductive Failure
  | http (status : ℕ) (message : Str)
  | plain (message : Str)
  deriving DecidableEq

structure AppRow where
  name : Str
  tenantId : Option Str
  displayName : Value
  roomPrefix : Value

/-- What is found in a `config.yaml`. -/
inductive ConfigFile
  | invalid (error : Str)
  | parsed (v : Value)

structure World where
  rows : List AppRow
  /-- has the table of the apps a column for the tenant? -/
  tenantColumn : Bool
  config : Str → Option ConfigFile
  secrets : SecretsStore
  env : Str → Str

def platformTenantId : Str := str "platform"

def quoted (s : Str) : Str := str "\"" ++ s ++ str "\""

def notFound (name : Str) : Failure := .http 404 (str "app " ++ quoted name ++ str " not found")

namespace World

/-- `Get` -/
def find (w : World) (name : Str) : Option AppRow := w.rows.find? fun r => r.name == name

def isPlatformApp (w : World) (app : Str) : Bool :=
  w.tenantColumn &&
    match w.find app with
    | none => false
    | some row => row.tenantId == some platformTenantId

def writeDisk (name : Str) (tree : Tree) (w : World) : World :=
  { w with config := Function.update w.config name (some (.parsed (.obj tree))) }

end World

variable (p : Setup)

/-- `readDisk` -/
def readDisk (w : World) (name : Str) : Except Failure Tree :=
  match w.config name with
  | none => .error (.http 404 (str "config.yaml missing for app " ++ quoted name))
  | some (.invalid e) =>
    .error (.http 500 (str "invalid config.yaml for app " ++ quoted name ++ str ": " ++ e))
  | some (.parsed v) => .ok (pinSecretRefs p.js p.names name (mergeOver p.js p.names name v))

/-- `resolveSecret`; every kind may come from the environment of a platform app. -/
def resolveSecret (w : World) (app : Str) (kind : SecretKind) : Str :=
  let key := secretRef p.names app kind
  let v := value w.secrets.file key
  if v ≠ [] then v else if w.isPlatformApp app then w.env key else []

/-- `writeSecret` -/
def writeSecret (app : Str) (kind : SecretKind) (v : Str) (w : World) : World :=
  { w with secrets := w.secrets.writeSecret p.layout (secretRef p.names app kind) v }

/-- `storeSecret`: the key is written twice, and an empty value not at all. -/
def storeSecret (app : Str) (w : World) (entry : SecretKind × Str) : World :=
  if entry.2 = [] then w
  else
    let written := (writeSecret p app entry.1 entry.2 w).secrets.invalidate
    { w with secrets := written.setOne p.layout (secretRef p.names app entry.1) entry.2 }

/-! ## Reading a tree -/

/-- `str` -/
def strOf (js : Js) (v : Value) : Str := if v.isNullish then [] else v.toText js

def orEmpty (js : Js) (v : Value) : Str := if v.truthy then strOf js v else []

def trimTrailingSlashes (s : Str) : Str := trimRight 0x2f s

def storageClasses : List Str :=
  ["STANDARD", "REDUCED_REDUNDANCY", "STANDARD_IA", "ONEZONE_IA", "INTELLIGENT_TIERING",
   "GLACIER", "DEEP_ARCHIVE", "GLACIER_IR", "OUTPOSTS", "EXPRESS_ONEZONE"].map str

/-- `NormalizeStorageClass`, the class. -/
def normalizeStorageClass (raw : Str) : Str :=
  let c := p.names.toUpper (p.js.trimSpace raw)
  if c ∈ storageClasses then c else []

def storageClassOf : Value → Str
  | .str s => normalizeStorageClass p s
  | _ => []

/-- Is it this number? -/
def isNumber (q : ℚ) : Value → Bool
  | .num n => n == .finite q
  | _ => false

/-! ## Resolved blocks -/

structure S3Config where
  provider : Str
  bucket : Str
  region : Str
  endpoint : Str
  forcePathStyle : Bool
  prefix_ : Str
  publicUrl : Str
  accessKey : Str
  secretKey : Str
  storageClass : Str
  deriving DecidableEq

structure MqttLogsConfig where
  enabled : Bool
  level : Str
  deriving DecidableEq

structure MqttConfig where
  enabled : Bool
  url : Str
  username : Str
  password : Str
  topicPrefix : Str
  qos : ℕ
  tls : Bool
  events : List Str
  logs : MqttLogsConfig
  deriving DecidableEq

structure SmtpConfig where
  enabled : Bool
  host : Str
  port : ℚ
  user : Str
  from_ : Str
  pass : Str
  deriving DecidableEq

structure LatencyAlertConfig where
  enabled : Bool
  thresholdMs : ℚ
  cooldownSeconds : ℚ
  intervalSeconds : ℚ
  deriving DecidableEq

/-- `AppConfig` -/
structure AppConfig where
  name : Str
  displayName : Str
  roomPrefix : Str
  s3 : S3Config
  mqtt : MqttConfig
  smtp : SmtpConfig
  latencyAlert : LatencyAlertConfig
  other : p.Other

def mqttLogLevels : List Str :=
  [str "trace", str "debug", str "info", str "warn", str "error", str "fatal"]

/-- The credentials of an app, as they are resolved. -/
abbrev Secrets := SecretKind → Str

def resolveS3 (secret : Secrets) (tree : Tree) : S3Config :=
  let b := get tree (str "s3")
  { provider := strOf p.js (prop b "provider")
    bucket := strOf p.js (prop b "bucket")
    region := strOf p.js (prop b "region")
    endpoint := orEmpty p.js (prop b "endpoint")
    forcePathStyle := (prop b "force_path_style").truthy
    prefix_ := strOf p.js (prop b "prefix")
    publicUrl := orEmpty p.js (prop b "public_url")
    accessKey := secret .s3Key
    secretKey := secret .s3Secret
    storageClass := storageClassOf p (prop b "storage_class") }

def resolveMqtt (secret : Secrets) (tree : Tree) : MqttConfig :=
  let m := get tree (str "mqtt")
  let events := ((prop m "events").items.map fun e => p.js.trimSpace (e.toText p.js)).filter (· ≠ [])
  let logs := prop m "logs"
  let level := (prop logs "level").toText p.js
  let topic := p.js.trimSpace (orEmpty p.js (prop m "topic_prefix"))
  { enabled := (prop m "enabled").truthy
    url := p.js.trimSpace (orEmpty p.js (prop m "url"))
    username := orEmpty p.js (prop m "username")
    password := secret .mqttPassword
    topicPrefix :=
      if topic = [] then str "streamhub/" ++ strOf p.js (get tree (str "name")) else topic
    qos := if isNumber 1 (prop m "qos") then 1 else if isNumber 2 (prop m "qos") then 2 else 0
    tls := (prop m "tls").truthy
    events := if events = [] then [str "all"] else events
    logs := ⟨(prop logs "enabled").truthy, if level ∈ mqttLogLevels then level else str "info"⟩ }

/-- A port, 587 for anything that is none. -/
def portOf : Yamljs.Num → ℚ
  | .finite q => if q.isInt && decide (0 < q) && decide (q < 65536) then q else 587
  | _ => 587

def resolveSmtp (secret : Secrets) (tree : Tree) : SmtpConfig :=
  let sm := get tree (str "smtp")
  { enabled := (prop sm "enabled").truthy
    host := p.js.trimSpace (orEmpty p.js (prop sm "host"))
    port := portOf (toNumber p.js (prop sm "port"))
    user := orEmpty p.js (prop sm "user")
    from_ := orEmpty p.js (prop sm "from")
    pass := secret .smtpPass }

/-- A number from `least` on, or the fallback. -/
def numberFrom (js : Js) (v : Value) (fallback least : ℚ) : ℚ :=
  match toNumber js v with
  | .finite q => if least ≤ q then q else fallback
  | _ => fallback

def resolveLatencyAlert (js : Js) (d : Value) : LatencyAlertConfig where
  enabled := (prop d "enabled").truthy
  thresholdMs := numberFrom js (prop d "threshold_ms") 1000 1
  cooldownSeconds := numberFrom js (prop d "cooldown_seconds") 60 0
  intervalSeconds := numberFrom js (prop d "interval_seconds") 10 2

def toResolved (secret : Secrets) (tree : Tree) : AppConfig p where
  name := strOf p.js (get tree (str "name"))
  displayName := strOf p.js (get tree (str "display_name"))
  roomPrefix := strOf p.js (get tree (str "room_prefix"))
  s3 := resolveS3 p secret tree
  mqtt := resolveMqtt p secret tree
  smtp := resolveSmtp p secret tree
  latencyAlert := resolveLatencyAlert p.js (get tree (str "latency_alert"))
  other := p.resolveOther tree

/-! ## Masked blocks -/

/-- A unit of UTF-16: a rune, or one half of the pair that a rune takes. -/
inductive Unit16
  | whole (r : Str)
  | high (r : Str)
  | low (r : Str)

/-- `utf16.Encode` -/
def utf16Encode (s : Str) : List Unit16 :=
  (runes s).flatMap fun r => if r.length = 4 then [.high r, .low r] else [.whole r]

/-- `utf16.Decode` of units that stood next to each other; a half alone is U+FFFD. -/
def utf16Decode : List Unit16 → Str
  | [] => []
  | .whole r :: rest => r ++ utf16Decode rest
  | .high r :: .low _ :: rest => r ++ utf16Decode rest
  | .high _ :: rest => replacement ++ utf16Decode rest
  | .low _ :: rest => replacement ++ utf16Decode rest

/-- The first and the last two units of a secret. -/
def mask (v : Str) : Str :=
  if v = [] then []
  else
    let u := utf16Encode v
    if u.length ≤ 4 then str "****"
    else utf16Decode (u.take 2) ++ str "***" ++ utf16Decode (u.drop (u.length - 2))

def publicVodsWarning : Str :=
  str "VODs públicos: con public_url activo las grabaciones quedan accesibles sin firma. Preferí una URL firmada de CDN sobre un bucket abierto."

structure AppMaskedS3 where
  provider : Str
  bucket : Str
  region : Str
  endpoint : Str
  forcePathStyle : Bool
  prefix_ : Str
  publicUrl : Str
  accessKeyEnv : Str
  secretKeyEnv : Str
  key : Str
  secret : Str
  configured : Bool
  keyMasked : Str
  secretMasked : Str
  hasKey : Bool
  hasSecret : Bool
  publicVods : Bool
  publicWarning : Option Str
  storageClass : Str
  deriving DecidableEq

def maskedS3 (secret : Secrets) (tree : Tree) : AppMaskedS3 :=
  let b := get tree (str "s3")
  let publicVods := (prop b "public_url").truthy && strOf p.js (prop b "public_url") != []
  { provider := strOf p.js (prop b "provider")
    bucket := strOf p.js (prop b "bucket")
    region := strOf p.js (prop b "region")
    endpoint := strOf p.js (prop b "endpoint")
    forcePathStyle := (prop b "force_path_style").truthy
    prefix_ := strOf p.js (prop b "prefix")
    publicUrl := orEmpty p.js (prop b "public_url")
    accessKeyEnv := strOf p.js (prop b "access_key_env")
    secretKeyEnv := strOf p.js (prop b "secret_key_env")
    key := mask (secret .s3Key)
    secret := mask (secret .s3Secret)
    configured := secret .s3Key != [] && secret .s3Secret != []
    keyMasked := mask (secret .s3Key)
    secretMasked := mask (secret .s3Secret)
    hasKey := secret .s3Key != []
    hasSecret := secret .s3Secret != []
    publicVods := publicVods
    publicWarning := if publicVods then some publicVodsWarning else none
    storageClass := storageClassOf p (prop b "storage_class") }

structure AppMaskedMqtt where
  enabled : Bool
  url : Str
  username : Str
  topicPrefix : Str
  qos : ℕ
  tls : Bool
  events : List Str
  logs : MqttLogsConfig
  passwordEnv : Str
  password : Str
  hasPassword : Bool
  configured : Bool
  latencyAlert : LatencyAlertConfig
  deriving DecidableEq

def maskedMqtt (secret : Secrets) (tree : Tree) : AppMaskedMqtt :=
  let r := resolveMqtt p secret tree
  { enabled := r.enabled
    url := r.url
    username := r.username
    topicPrefix := r.topicPrefix
    qos := r.qos
    tls := r.tls
    events := r.events
    logs := r.logs
    passwordEnv := strOf p.js (prop (get tree (str "mqtt")) "password_env")
    password := mask r.password
    hasPassword := r.password != []
    configured := r.enabled && r.url != []
    latencyAlert := resolveLatencyAlert p.js (get tree (str "latency_alert")) }

structure AppMaskedSmtp where
  enabled : Bool
  host : Str
  port : ℚ
  user : Str
  from_ : Str
  passEnv : Str
  pass : Str
  hasPass : Bool
  configured : Bool
  deriving DecidableEq

def maskedSmtp (secret : Secrets) (tree : Tree) : AppMaskedSmtp :=
  let r := resolveSmtp p secret tree
  { enabled := r.enabled
    host := r.host
    port := r.port
    user := r.user
    from_ := r.from_
    passEnv := strOf p.js (prop (get tree (str "smtp")) "pass_env")
    pass := mask r.pass
    hasPass := r.pass != []
    configured := r.enabled && r.host != [] && r.pass != [] }

/-! ## Reading -/

section Reading

variable {α : Type}

/-- The getters: the app, its tree, and a view of the tree with the credentials. -/
def getBlock (view : Secrets → Tree → α) (w : World) (name : Str) : Except Failure α :=
  match w.find name with
  | none => .error (notFound name)
  | some _ => (readDisk p w name).map (view (resolveSecret p w name))

/-- The setters: the tree is edited and written, then the secrets are stored. -/
def setBlock (edit : Tree → Except Failure Tree) (secrets : List (SecretKind × Str))
    (view : Secrets → Tree → α) (name : Str) (w : World) : Except Failure α × World :=
  match w.find name with
  | none => (.error (notFound name), w)
  | some _ =>
    match readDisk p w name with
    | .error e => (.error e, w)
    | .ok tree =>
      match edit tree with
      | .error e => (.error e, w)
      | .ok edited =>
        let stored := secrets.foldl (storeSecret p name) (w.writeDisk name edited)
        let after := { stored with secrets := stored.secrets.invalidate }
        (.ok (view (resolveSecret p after name) edited), after)

end Reading

def getConfig (w : World) (name : Str) : Except Failure (AppConfig p) :=
  getBlock p (toResolved p) w name

def getS3 (w : World) (name : Str) : Except Failure AppMaskedS3 := getBlock p (maskedS3 p) w name

def getMqtt (w : World) (name : Str) : Except Failure AppMaskedMqtt :=
  getBlock p (maskedMqtt p) w name

def getSmtp (w : World) (name : Str) : Except Failure AppMaskedSmtp :=
  getBlock p (maskedSmtp p) w name

/-! ## Setting -/

/-- The block of a tree, edited; a missing one is made. -/
def editBlock (k : String) (f : Tree → Tree) (tree : Tree) : Tree :=
  let block :=
    match get tree (str k) with
    | .obj b => b
    | _ => []
  set (str k) (.obj (f block)) tree

def setStr (k : String) (v : Option Str) (b : Tree) : Tree :=
  v.elim b fun s => set (str k) (.str s) b

def setBool (k : String) (v : Option Bool) (b : Tree) : Tree :=
  v.elim b fun x => set (str k) (.bool x) b

def setNum (k : String) (v : Option ℚ) (b : Tree) : Tree :=
  v.elim b fun q => set (str k) (number q) b

structure SetS3Input where
  provider : Option Str
  bucket : Option Str
  region : Option Str
  endpoint : Option Str
  forcePathStyle : Option Bool
  prefix_ : Option Str
  publicUrl : Option Str
  key : Str
  secret : Str
  confirmPublic : Bool
  storageClass : Option Str

/-- The endpoint: none given for `aws` clears the one of a new app. -/
def setEndpoint (input : SetS3Input) (b : Tree) : Tree :=
  match input.endpoint with
  | some e => set (str "endpoint") (.str e) b
  | none => if input.provider = some (str "aws") then set (str "endpoint") (.str []) b else b

/-- Making recordings public has to be confirmed. -/
def setPublicUrl (input : SetS3Input) (b : Tree) : Except Failure Tree :=
  match input.publicUrl with
  | none => .ok b
  | some url =>
    let next := trimTrailingSlashes url
    if next ≠ [] ∧ (get b (str "public_url")).truthy = false ∧ input.confirmPublic = false then
      .error (.http 400 (str "enabling public_url makes recordings publicly accessible; resend with confirmPublic=true to proceed"))
    else .ok (set (str "public_url") (.str next) b)

def setStorageClass (input : SetS3Input) (b : Tree) : Tree :=
  match input.storageClass with
  | none => b
  | some raw =>
    let c := normalizeStorageClass p raw
    if c = [] then b.filter fun e => e.1 != str "storage_class"
    else set (str "storage_class") (.str c) b

def editS3 (input : SetS3Input) (tree : Tree) : Except Failure Tree :=
  let edited := editBlock "s3" (fun b =>
    setStr "prefix" input.prefix_ (setBool "force_path_style" input.forcePathStyle
      (setEndpoint input (setStr "region" input.region (setStr "bucket" input.bucket
        (setStr "provider" input.provider b)))))) tree
  match get edited (str "s3") with
  | .obj b =>
    (setPublicUrl input b).map fun b => set (str "s3") (.obj (setStorageClass p input b)) edited
  | _ => .ok edited

def setS3 (name : Str) (input : SetS3Input) (w : World) : Except Failure AppMaskedS3 × World :=
  setBlock p (editS3 p input) [(.s3Key, input.key), (.s3Secret, input.secret)] (maskedS3 p) name w

structure MqttLogsPatch where
  enabled : Option Bool
  level : Option Str

structure LatencyAlertPatch where
  enabled : Option Bool
  thresholdMs : Option ℚ
  cooldownSeconds : Option ℚ
  intervalSeconds : Option ℚ

structure SetMqttInput where
  enabled : Option Bool
  url : Option Str
  username : Option Str
  password : Str
  topicPrefix : Option Str
  qos : Option ℚ
  tls : Option Bool
  events : Option (List Str)
  logs : Option MqttLogsPatch
  latencyAlert : Option LatencyAlertPatch

/-- The events of a setter: blank ones are left out, and none means all. -/
def eventsOf (js : Js) (events : List Str) : Value :=
  let kept := (events.map js.trimSpace).filter (· ≠ [])
  .arr ((if kept = [] then [str "all"] else kept).map .str)

def setLogs (logs : MqttLogsPatch) (b : Tree) : Tree :=
  setStr "level" (logs.level.map fun l => if l ∈ mqttLogLevels then l else str "info")
    (setBool "enabled" logs.enabled b)

def editLatencyAlert (la : LatencyAlertPatch) (tree : Tree) : Tree :=
  editBlock "latency_alert" (fun b =>
    setNum "interval_seconds" la.intervalSeconds (setNum "cooldown_seconds" la.cooldownSeconds
      (setNum "threshold_ms" la.thresholdMs (setBool "enabled" la.enabled b)))) tree

def editMqtt (input : SetMqttInput) (tree : Tree) : Tree :=
  let qos := input.qos.map fun q => if q = 1 ∨ q = 2 then q else 0
  let edited := editBlock "mqtt" (fun b =>
    let b := setStr "topic_prefix" (input.topicPrefix.map p.js.trimSpace)
      (setStr "username" input.username (setStr "url" (input.url.map p.js.trimSpace)
        (setBool "enabled" input.enabled b)))
    let b := setBool "tls" input.tls (setNum "qos" qos b)
    let b := input.events.elim b fun events => set (str "events") (eventsOf p.js events) b
    input.logs.elim b fun logs => editBlock "logs" (setLogs logs) b) tree
  input.latencyAlert.elim edited fun la => editLatencyAlert la edited

def setMqtt (name : Str) (input : SetMqttInput) (w : World) :
    Except Failure AppMaskedMqtt × World :=
  setBlock p (fun tree => .ok (editMqtt p input tree)) [(.mqttPassword, input.password)]
    (maskedMqtt p) name w

structure SetSmtpInput where
  enabled : Option Bool
  host : Option Str
  port : Option ℚ
  user : Option Str
  from_ : Option Str
  pass : Str

def editSmtp (input : SetSmtpInput) (tree : Tree) : Tree :=
  editBlock "smtp" (fun b =>
    setStr "from" (input.from_.map p.js.trimSpace) (setStr "user" input.user
      (setNum "port" (input.port.map fun q => portOf (.finite q))
        (setStr "host" (input.host.map p.js.trimSpace) (setBool "enabled" input.enabled b))))) tree

def setSmtp (name : Str) (input : SetSmtpInput) (w : World) :
    Except Failure AppMaskedSmtp × World :=
  setBlock p (fun tree => .ok (editSmtp p input tree)) [(.smtpPass, input.pass)] (maskedSmtp p)
    name w

/-! ## Patching -/

structure S3Patch where
  provider : Option Str
  bucket : Option Str
  region : Option Str
  endpoint : Option Str
  forcePathStyle : Option Bool
  prefix_ : Option Str
  publicUrl : Option Str
  accessKey : Str
  secretKey : Str

structure MqttPatch where
  enabled : Option Bool
  url : Option Str
  username : Option Str
  topicPrefix : Option Str
  qos : Option ℤ
  tls : Option Bool
  events : Option (List Str)
  logs : Option MqttLogsPatch
  password : Str

/-- `AppConfigPatch`; `drmTokenRef` is the key that `features.drm` names. -/
structure AppConfigPatch where
  displayName : Option Str
  roomPrefix : Option Str
  s3 : Option S3Patch
  mqtt : Option MqttPatch
  latencyAlert : Option LatencyAlertPatch
  drmTokenRef : Option Str
  other : p.OtherPatch

variable {p} in
/-- The credentials that a patch stores, in the order of the blocks. -/
def AppConfigPatch.secrets (patch : AppConfigPatch p) : List (SecretKind × Str) :=
  let s3 := patch.s3.elim [] fun s =>
    [(SecretKind.s3Key, s.accessKey), (SecretKind.s3Secret, s.secretKey)]
  let mqtt := patch.mqtt.elim [] fun m => [(SecretKind.mqttPassword, m.password)]
  (s3 ++ mqtt).filter fun e => e.2 != []

def patchS3 (s : S3Patch) (b : Tree) : Tree :=
  setStr "public_url" (s.publicUrl.map trimTrailingSlashes) (setStr "prefix" s.prefix_
    (setBool "force_path_style" s.forcePathStyle (setStr "endpoint" s.endpoint
      (setStr "region" s.region (setStr "bucket" s.bucket (setStr "provider" s.provider b))))))

def patchMqtt (m : MqttPatch) (b : Tree) : Tree :=
  let b := setStr "topic_prefix" (m.topicPrefix.map p.js.trimSpace)
    (setStr "username" m.username (setStr "url" (m.url.map p.js.trimSpace)
      (setBool "enabled" m.enabled b)))
  let b := setBool "tls" m.tls (setNum "qos" (m.qos.map fun q => (q : ℚ)) b)
  let b := m.events.elim b fun events => set (str "events") (.arr (events.map .str)) b
  m.logs.elim b fun logs =>
    editBlock "logs" (fun l => setStr "level" logs.level (setBool "enabled" logs.enabled l)) b

/-- The tree after `applyResolvedPatch`. -/
def patchTree (patch : AppConfigPatch p) (tree : Tree) : Tree :=
  let tree := setStr "display_name" patch.displayName tree
  let tree := setStr "room_prefix" (patch.roomPrefix.map p.js.toLower) tree
  let tree := patch.s3.elim tree fun s => editBlock "s3" (patchS3 s) tree
  let tree := patch.mqtt.elim tree fun m => editBlock "mqtt" (patchMqtt p m) tree
  let tree := patch.latencyAlert.elim tree fun la => editLatencyAlert la tree
  p.applyOther patch.other tree

/-- `applyResolvedPatch`, its writes to the secrets. -/
def applySecrets (name : Str) (patch : AppConfigPatch p) (w : World) : World :=
  patch.secrets.foldl (fun w e => writeSecret p name e.1 e.2 w) w

def validateDrmTokenRef (app : Str) (patch : AppConfigPatch p) : Option Failure :=
  match patch.drmTokenRef with
  | none => none
  | some raw =>
    let ref := p.js.trimSpace raw
    let want := secretRef p.names app .drmToken
    if ref ≠ [] ∧ ref ≠ want then
      some (.http 400 (str "secret refs are managed by the server; features.drm.key_server_token_env must be empty or "
        ++ quoted want ++ str " (store the token in data/secrets.json under that key)"))
    else none

/-- May the value be a column of the registry? -/
def bindable : Value → Bool
  | .null => true
  | .str _ => true
  | .num _ => true
  | _ => false

def bindFailure : Failure :=
  .plain (str "SQLite3 can only bind numbers, strings, bigints, buffers, and null")

/-- The row of an app after `UpdateConfig`. -/
def syncRow (name : Str) (tree : Tree) (w : World) : World :=
  { w with rows := w.rows.map fun r =>
      if r.name = name then
        { r with displayName := get tree (str "display_name")
                 roomPrefix := get tree (str "room_prefix") }
      else r }

/-- `UpdateConfig`; `callbackRefused` is what the guard says of the patch's callback address. -/
def updateConfig (name : Str) (patch : AppConfigPatch p) (callbackRefused : Option Failure)
    (w : World) : Except Failure (AppConfig p) × World :=
  match w.find name, validateDrmTokenRef p name patch, callbackRefused, readDisk p w name with
  | none, _, _, _ => (.error (notFound name), w)
  | some _, some e, _, _ => (.error e, w)
  | some _, none, some e, _ => (.error e, w)
  | some _, none, none, .error e => (.error e, w)
  | some _, none, none, .ok old =>
    let tree := patchTree p patch old
    let after := (applySecrets p name patch w).writeDisk name tree
    let named := patch.displayName.isSome || patch.roomPrefix.isSome
    if named && !(bindable (get tree (str "display_name")) &&
        bindable (get tree (str "room_prefix"))) then (.error bindFailure, after)
    else
      (.ok (toResolved p (resolveSecret p after name) tree),
        if named then syncRow name tree after else after)

variable {p} in
/-- The MQTT password is covered in the answer of a patch. -/
def AppConfig.coverPassword (c : AppConfig p) : AppConfig p :=
  if c.mqtt.password = [] then c
  else { c with mqtt := { c.mqtt with password := str "****" } }

/-- `PATCH /apps/:name` answers with the resolved config. -/
def patchApp (name : Str) (patch : AppConfigPatch p) (callbackRefused : Option Failure)
    (w : World) : Except Failure (AppConfig p) × World :=
  let (answer, after) := updateConfig p name patch callbackRefused w
  (answer.map AppConfig.coverPassword, after)

end StreamHub.Apps
