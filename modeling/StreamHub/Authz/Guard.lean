import StreamHub.Library.Runes
import StreamHub.Library.Transition

/-!
# The permission guard

The guard runs behind authentication and before every operation that declares a
permission.  It compares an app-scoped credential with the app of the route, and for a
user session it asks the role policy and the tenant of the app.  The ids and the tenants
are looked up for each request; whether the table of the apps has a column for the tenant
at all is asked once, and the answer kept for as long as the process lives.

Every failed query reads as "no objection".  So the guard is as tight as its queries are
reliable: in a run in which each of them is answered, only entitled callers pass
(`entitled_of_passes`), and one failed query lets a stranger through at once or from then on
(`stranger_passes_after_cancelled_probe`).
-/

namespace StreamHub.Authz

open Library Text Runes Transition List

/-! ## Callers -/

inductive Scope
  | global | app | user
  deriving DecidableEq

inductive Via
  | apiToken | adminJwt | userJwt
  deriving DecidableEq

def platformTenantId : Str := str "platform"

/-- The fields of the resolved caller that the guard reads. -/
structure Principal where
  tenantId : Str
  role : Str
  isSuperadmin : Bool
  scope : Scope
  via : Via
  appId : Option ℤ
  deriving DecidableEq

/-- A row of `api_tokens`.  The column is checked to be one of two words, and a token with
scope `app` is only made for an existing app. -/
structure TokenRow where
  isGlobal : Bool
  appId : Option ℤ
  tenantId : Option Str
  hasApp : isGlobal = false → appId.isSome

/-- What a credential proves: a row of `api_tokens`, the break-glass admin, or a session
of a user in the tenant and role of one of their memberships. -/
inductive Identity
  | token (row : TokenRow)
  | admin
  | session (membership : Option (Str × Str))

/-- The principals that `Authenticate` and `validateJWT` build. -/
def Identity.principal : Identity → Principal
  | .token row =>
    { tenantId := row.tenantId.getD platformTenantId
      role := str "service"
      isSuperadmin := row.isGlobal
      scope := if row.isGlobal then .global else .app
      via := .apiToken
      appId := row.appId }
  | .admin =>
    { tenantId := platformTenantId
      role := str "superadmin"
      isSuperadmin := true
      scope := .global
      via := .adminJwt
      appId := none }
  | .session membership =>
    { tenantId := (membership.map Prod.fst).getD []
      role := (membership.map Prod.snd).getD (str "viewer")
      isSuperadmin := false
      scope := .user
      via := .userJwt
      appId := none }

/-! ## The policy -/

structure Permission where
  resource : Str
  action : Str
  deriving DecidableEq

/-- One rule. -/
structure Policy where
  sub : Str
  dom : Str
  obj : Str
  act : Str

/-- What an editor may do. -/
def editorGrants : List Permission :=
  [⟨str "app", str "create"⟩, ⟨str "app", str "write"⟩,
   ⟨str "config", str "read"⟩, ⟨str "config", str "write"⟩,
   ⟨str "s3", str "read"⟩, ⟨str "s3", str "write"⟩,
   ⟨str "stream", str "read"⟩, ⟨str "stream", str "write"⟩, ⟨str "stream", str "start"⟩,
   ⟨str "stream", str "stop"⟩, ⟨str "stream", str "delete"⟩,
   ⟨str "recording", str "read"⟩, ⟨str "recording", str "start"⟩,
   ⟨str "recording", str "stop"⟩, ⟨str "recording", str "write"⟩,
   ⟨str "vod", str "read"⟩, ⟨str "vod", str "write"⟩, ⟨str "vod", str "delete"⟩,
   ⟨str "broadcast", str "read"⟩, ⟨str "broadcast", str "start"⟩,
   ⟨str "broadcast", str "stop"⟩, ⟨str "broadcast", str "write"⟩,
   ⟨str "sample", str "read"⟩, ⟨str "sample", str "write"⟩,
   ⟨str "ingress", str "read"⟩, ⟨str "ingress", str "create"⟩,
   ⟨str "ingress", str "write"⟩, ⟨str "ingress", str "delete"⟩,
   ⟨str "usage", str "read"⟩]

def star : Str := str "*"

def policies : List Policy :=
  [⟨str "owner", star, star, star⟩, ⟨str "viewer", star, star, str "read"⟩] ++
    editorGrants.map (fun g => ⟨str "editor", star, g.resource, g.action⟩) ++
    [⟨str "service", star, star, star⟩]

def Policy.grants (p : Policy) (role tenant : Str) (required : Permission) : Bool :=
  p.sub == role && (p.dom == star || p.dom == tenant) &&
    (p.obj == star || p.obj == required.resource) &&
    (p.act == star || p.act == required.action)

/-- `Can` -/
def can (role tenant : Str) (required : Permission) : Bool :=
  policies.any fun p => p.grants role tenant required

def canPrincipal (p : Principal) (required : Permission) : Bool :=
  can p.role (if p.tenantId = [] then platformTenantId else p.tenantId) required

/-- What the roles are for: an owner and a service may do everything, a viewer may read,
an editor may do what is listed, in whatever tenant they hold the role. -/
def RoleGrants (role : Str) (required : Permission) : Prop :=
  role = str "owner" ∨ role = str "service" ∨
    role = str "viewer" ∧ required.action = str "read" ∨
    role = str "editor" ∧ required ∈ editorGrants

lemma editorGrants_not_star : ∀ g ∈ editorGrants, g.resource ≠ star ∧ g.action ≠ star := by decide

lemma can_iff (role tenant : Str) (required : Permission) :
    can role tenant required = true ↔ RoleGrants role required := by
  have heditor : (∃ g ∈ editorGrants, str "editor" = role ∧
      (g.resource = star ∨ g.resource = required.resource) ∧
      (g.action = star ∨ g.action = required.action)) ↔
      role = str "editor" ∧ required ∈ editorGrants := by
    constructor
    · rintro ⟨g, hg, hrole, hresource, haction⟩
      obtain ⟨hobj, hact⟩ := editorGrants_not_star g hg
      have heq : g = required := by
        cases g
        cases required
        exact congrArg₂ _ (hresource.resolve_left hobj) (haction.resolve_left hact)
      exact ⟨hrole.symm, heq ▸ hg⟩
    · rintro ⟨hrole, hmem⟩
      exact ⟨required, hmem, hrole.symm, .inr rfl, .inr rfl⟩
  have hread : str "read" ≠ star := by decide
  simp only [can, policies, Policy.grants, any_append, any_cons, any_nil,
    any_map, Bool.or_eq_true, Bool.and_eq_true, beq_iff_eq, any_eq_true,
    Function.comp_apply, true_or, and_true, Bool.or_false, or_assoc, hread, false_or,
    and_assoc, heditor, RoleGrants, eq_comm (a := role)]
  constructor
  · rintro (h | ⟨h, ha⟩ | h | h)
    · exact .inl h
    · exact .inr (.inr (.inl ⟨h, ha.symm⟩))
    · exact .inr (.inr (.inr h))
    · exact .inr (.inl h)
  · rintro (h | h | ⟨h, ha⟩ | h)
    · exact .inl h
    · exact .inr (.inr (.inr h))
    · exact .inr (.inl ⟨h, ha.symm⟩)
    · exact .inr (.inr (.inl h))

/-! ## The registry and its queries -/

structure AppRow where
  id : ℤ
  name : Str
  tenantId : Option Str
  deriving DecidableEq

def tenantColumn : Str := str "tenant_id"

/-- The table `apps`, with these columns. -/
structure Registry (columns : List Str) where
  rows : List AppRow
  unique : (rows.map AppRow.name).Nodup
  named : ∀ row ∈ rows, row.name ≠ []
  untenanted : tenantColumn ∉ columns → ∀ row ∈ rows, row.tenantId = none

variable {columns : List Str}

/-- The row of a name. -/
def Registry.find (t : Registry columns) (app : Str) : Option AppRow :=
  t.rows.find? fun row => row.name == app

lemma Registry.find_of_mem (t : Registry columns) {row : AppRow} (h : row ∈ t.rows) :
    t.find row.name = some row := by
  cases hfind : t.find row.name with
  | none =>
    have hnone := find?_eq_none.mp hfind row h
    simp at hnone
  | some found =>
    have hname : found.name = row.name := by simpa using find?_some hfind
    rw [inj_on_of_nodup_map t.unique (mem_of_find?_eq_some hfind) h hname]

/-- How the queries of one request end: whether the two lookups are answered, and of the
table's columns how many are read, `none` when that query fails at once. -/
structure Answers where
  idLookup : Bool
  tenantLookup : Bool
  tableInfo : Option ℕ
  deriving DecidableEq

def appIdByName (t : Registry columns) (answers : Answers) (app : Str) : Option ℤ :=
  if answers.idLookup then (t.find app).map AppRow.id else none

/-- What the one look at the columns finds. -/
def probe (columns : List Str) : Option ℕ → Bool
  | none => false
  | some read => (columns.take read).contains tenantColumn

/-- The comparison of the tenants, when the column is there. -/
def tenantAllows (hasTenantCol : Bool) (t : Registry columns) (answers : Answers)
    (p : Principal) (app : Str) : Bool :=
  if !hasTenantCol then true
  else if !answers.tenantLookup then true
  else
    match t.find app with
    | none => true
    | some row =>
      match row.tenantId with
      | none => true
      | some tenant => tenant == p.tenantId

/-- The verdict, and what is known of the column afterwards. -/
def appBelongsToTenant (hasTenantCol : Option Bool) (t : Registry columns) (answers : Answers)
    (p : Principal) (app : Str) : Bool × Option Bool :=
  if p.isSuperadmin then (true, hasTenantCol)
  else if p.tenantId = [] ∨ app = [] then (false, hasTenantCol)
  else
    -- `once.Do`: the first caller's query decides for all that follow
    let has := hasTenantCol.getD (probe columns answers.tableInfo)
    (tenantAllows has t answers p app, some has)

/-! ## The guard -/

inductive EnforcementMode
  | off | log | on
  deriving DecidableEq

/-- `Mode`, of the value of the environment variable. -/
def mode (u : Unicode) (env : Str) : EnforcementMode :=
  let raw := u.toLower (u.trimSpace env)
  if raw = str "off" then .off else if raw = str "log" then .log else .on

/-- A request as the guard sees it. -/
structure Request (columns : List Str) where
  required : Option Permission
  enforce : Str
  caller : Option Identity
  appParam : Str
  nameParam : Str
  registry : Registry columns
  answers : Answers

/-- The app that the route names. -/
def Request.app (r : Request columns) : Str := if r.appParam = [] then r.nameParam else r.appParam

inductive Verdict
  | next
  | wouldDeny (reason : Str)
  | forbidden (reason : Str)
  deriving DecidableEq

def Verdict.passes : Verdict → Bool
  | .forbidden _ => false
  | _ => true

/-- `decide` -/
def deny (m : EnforcementMode) (reason : Str) : Verdict :=
  if m = .on then .forbidden reason else .wouldDeny reason

def sampleWrite : Permission := ⟨str "sample", str "write"⟩

/-- The permissions of a superadmin alone. -/
def superadminOnly (samplesIsolated : Bool) (required : Permission) : Bool :=
  !samplesIsolated && required == sampleWrite

def crossAppViolation (t : Registry columns) (answers : Answers) (p : Principal) (app : Str) :
    Bool :=
  if p.isSuperadmin ∨ p.scope ≠ .app ∨ app = [] then false
  else
    match p.appId with
    | none => false
    | some own =>
      match appIdByName t answers app with
      | none => false
      | some routeApp => routeApp != own

def nullStr (s : Str) : Str := if s = [] then str "null" else s

def quoted (s : Str) : Str := str "'" ++ s ++ str "'"

/-- The guard's answer to a request that needs a permission, from a known caller. -/
def judge (m : EnforcementMode) (samplesIsolated : Bool) (hasTenantCol : Option Bool)
    (t : Registry columns) (answers : Answers) (p : Principal) (required : Permission)
    (app : Str) : Verdict × Option Bool :=
  if crossAppViolation t answers p app then
    (deny m (str "app " ++ quoted app ++ str " is outside this credential's app scope"),
      hasTenantCol)
  else if !p.isSuperadmin && superadminOnly samplesIsolated required then
    (deny m (required.resource ++ str ":" ++ required.action ++
      str " is restricted to superadmin"), hasTenantCol)
  else if p.isSuperadmin || p.via == .apiToken then (.next, hasTenantCol)
  else
    let rbacOK := canPrincipal p required
    let (scopeOK, known) :=
      if app = [] then (true, hasTenantCol)
      else appBelongsToTenant hasTenantCol t answers p app
    if rbacOK && scopeOK then (.next, known)
    else if rbacOK then
      (deny m (str "app " ++ quoted app ++ str " is outside tenant " ++
        quoted (nullStr p.tenantId)), known)
    else
      (deny m (str "role " ++ quoted p.role ++ str " lacks " ++ required.resource ++ str ":" ++
        required.action), known)

/-- `Middleware` -/
def middleware (u : Unicode) (samplesIsolated : Bool) (hasTenantCol : Option Bool)
    (r : Request columns) : Verdict × Option Bool :=
  match r.required, mode u r.enforce, r.caller with
  | none, _, _ => (.next, hasTenantCol)
  | _, .off, _ => (.next, hasTenantCol)
  | _, _, none => (.next, hasTenantCol)
  | some required, m, some caller =>
    judge m samplesIsolated hasTenantCol r.registry r.answers caller.principal required r.app

/-- The process: what it knows of the column, and every request with its verdict. -/
structure State (columns : List Str) where
  hasTenantCol : Option Bool
  served : List (Request columns × Verdict)

def start : State columns := ⟨none, []⟩

def step (u : Unicode) (samplesIsolated : Bool) (s : State columns) (r : Request columns) :
    Option (State columns) :=
  let (verdict, known) := middleware u samplesIsolated s.hasTenantCol r
  some ⟨known, s.served ++ [(r, verdict)]⟩

/-- Every query that the request makes is answered. -/
def answered (s : State columns) (r : Request columns) : Bool :=
  r.answers.idLookup && r.answers.tenantLookup &&
    (s.hasTenantCol.isSome || r.answers.tableInfo.any (columns.length ≤ ·))

/-! ## Who may pass -/

/-- An app-scoped credential is for its own app.  A user session is for what its role
grants, on apps of its tenant and of none. -/
def Entitled (p : Principal) (required : Permission) (row : AppRow) : Prop :=
  (p.scope = .app → p.appId = some row.id) ∧
    (p.scope = .user → RoleGrants p.role required ∧
      (row.tenantId = none ∨ row.tenantId = some p.tenantId))

/-- The verdict is right: in the enforcing mode a caller that is no superadmin passes on a
registered app only when entitled to it. -/
def Closed (u : Unicode) (r : Request columns) (v : Verdict) : Prop :=
  ∀ caller required row, mode u r.enforce = .on → r.caller = some caller →
    r.required = some required → caller.principal.isSuperadmin = false →
    row ∈ r.registry.rows → row.name = r.app → v.passes = true →
      Entitled caller.principal required row

/-! ## One request whose queries are answered -/

/-- What the process may know of the column. -/
def Known (columns : List Str) (hasTenantCol : Option Bool) : Prop :=
  ∀ has ∈ hasTenantCol, has = columns.contains tenantColumn

lemma probe_of_complete {read : ℕ} (h : columns.length ≤ read) :
    probe columns (some read) = columns.contains tenantColumn := by
  rw [probe, take_of_length_le h]

lemma getD_probe {hasTenantCol : Option Bool} {tableInfo : Option ℕ}
    (hknown : Known columns hasTenantCol)
    (hinfo : (hasTenantCol.isSome || tableInfo.any (columns.length ≤ ·)) = true) :
    hasTenantCol.getD (probe columns tableInfo) = columns.contains tenantColumn := by
  cases hasTenantCol with
  | some has => exact hknown has rfl
  | none =>
    cases tableInfo with
    | none => cases hinfo
    | some read => exact probe_of_complete (of_decide_eq_true hinfo)

section Answered

variable {t : Registry columns} {answers : Answers} {p : Principal} {row : AppRow}

lemma appIdByName_of_mem (hanswer : answers.idLookup = true) (hrow : row ∈ t.rows) :
    appIdByName t answers row.name = some row.id := by
  rw [appIdByName, if_pos hanswer, t.find_of_mem hrow]
  rfl

lemma appId_of_not_violation {own : ℤ} (hanswer : answers.idLookup = true)
    (hrow : row ∈ t.rows) (hsuper : p.isSuperadmin = false) (hscope : p.scope = .app)
    (hown : p.appId = some own) (h : crossAppViolation t answers p row.name = false) :
    own = row.id := by
  have hguard : ¬ (p.isSuperadmin = true ∨ p.scope ≠ .app ∨ row.name = []) := by
    simp [hsuper, hscope, t.named row hrow]
  rw [crossAppViolation, if_neg hguard, hown, appIdByName_of_mem hanswer hrow] at h
  have heq : row.id = own := by simpa using h
  exact heq.symm

lemma tenant_of_tenantAllows (hanswer : answers.tenantLookup = true) (hrow : row ∈ t.rows)
    (h : tenantAllows (columns.contains tenantColumn) t answers p row.name = true) :
    row.tenantId = none ∨ row.tenantId = some p.tenantId := by
  rw [tenantAllows, hanswer, t.find_of_mem hrow] at h
  split at h
  · rename_i hmissing
    exact .inl (t.untenanted (by simpa using hmissing) row hrow)
  cases htenant : row.tenantId with
  | none => exact .inl rfl
  | some tenant =>
    simp only [htenant, Bool.not_true, Bool.false_eq_true, if_false, beq_iff_eq] at h
    exact .inr (congrArg some h)

variable {hasTenantCol : Option Bool}

lemma tenant_of_appBelongsToTenant
    (hhas : hasTenantCol.getD (probe columns answers.tableInfo) = columns.contains tenantColumn)
    (hanswer : answers.tenantLookup = true) (hrow : row ∈ t.rows)
    (hsuper : p.isSuperadmin = false)
    (h : (appBelongsToTenant hasTenantCol t answers p row.name).1 = true) :
    row.tenantId = none ∨ row.tenantId = some p.tenantId := by
  rw [appBelongsToTenant, if_neg (by simp [hsuper])] at h
  split at h
  · cases h
  rw [hhas] at h
  exact tenant_of_tenantAllows hanswer hrow h

lemma known_appBelongsToTenant {app : Str} (hknown : Known columns hasTenantCol)
    (hhas : hasTenantCol.getD (probe columns answers.tableInfo) = columns.contains tenantColumn) :
    Known columns (appBelongsToTenant hasTenantCol t answers p app).2 := by
  rw [appBelongsToTenant]
  split
  · exact hknown
  split
  · exact hknown
  rintro has ⟨⟩
  exact hhas

lemma judge_passes {samplesIsolated : Bool} {required : Permission} {app : Str}
    (happ : app ≠ []) (hsuper : p.isSuperadmin = false)
    (h : (judge .on samplesIsolated hasTenantCol t answers p required app).1.passes = true) :
    crossAppViolation t answers p app = false ∧
      (p.via ≠ .apiToken → canPrincipal p required = true ∧
        (appBelongsToTenant hasTenantCol t answers p app).1 = true) := by
  rw [judge] at h
  split at h
  · cases h
  rename_i hcross
  refine ⟨by simpa using hcross, fun hvia => ?_⟩
  split at h
  · cases h
  rw [if_neg (by simp [hsuper, hvia])] at h
  dsimp only at h
  split at h
  · rename_i hok
    exact Bool.and_eq_true_iff.mp hok
  · split at h <;> cases h

lemma judge_snd (m : EnforcementMode) (samplesIsolated : Bool) (hasTenantCol : Option Bool)
    (t : Registry columns) (answers : Answers) (p : Principal) (required : Permission)
    (app : Str) :
    (judge m samplesIsolated hasTenantCol t answers p required app).2 = hasTenantCol ∨
      (judge m samplesIsolated hasTenantCol t answers p required app).2 =
        (appBelongsToTenant hasTenantCol t answers p app).2 := by
  rw [judge]
  split
  · exact .inl rfl
  split
  · exact .inl rfl
  split
  · exact .inl rfl
  by_cases happ : app = []
  · simp only [if_pos happ]
    repeat' split
    all_goals exact .inl rfl
  · simp only [if_neg happ]
    repeat' split
    all_goals exact .inr rfl

end Answered

lemma Identity.cases_of_not_superadmin (caller : Identity)
    (h : caller.principal.isSuperadmin = false) :
    (∃ own, caller.principal.scope = .app ∧ caller.principal.appId = some own) ∨
      caller.principal.scope = .user ∧ caller.principal.via = .userJwt := by
  cases caller with
  | token row =>
    have hglobal : row.isGlobal = false := h
    obtain ⟨own, hown⟩ := Option.isSome_iff_exists.mp (row.hasApp hglobal)
    refine .inl ⟨own, ?_, hown⟩
    change (if row.isGlobal then Scope.global else Scope.app) = .app
    rw [hglobal]
    rfl
  | admin => cases h
  | session membership => exact .inr ⟨rfl, rfl⟩

section Request

variable {u : Unicode} {samplesIsolated : Bool} {s : State columns} {r : Request columns}

lemma answered_iff : answered s r = true ↔ r.answers.idLookup = true ∧
    r.answers.tenantLookup = true ∧
    (s.hasTenantCol.isSome || r.answers.tableInfo.any (columns.length ≤ ·)) = true := by
  rw [answered, Bool.and_eq_true, Bool.and_eq_true, and_assoc]

lemma middleware_of_on {required : Permission} {caller : Identity}
    (hmode : mode u r.enforce = .on) (hrequired : r.required = some required)
    (hcaller : r.caller = some caller) (hasTenantCol : Option Bool) :
    middleware u samplesIsolated hasTenantCol r =
      judge .on samplesIsolated hasTenantCol r.registry r.answers caller.principal required
        r.app := by rw [middleware, hmode, hrequired, hcaller]

lemma closed_middleware (hknown : Known columns s.hasTenantCol) (h : answered s r = true) :
    Closed u r (middleware u samplesIsolated s.hasTenantCol r).1 := by
  intro caller required row hmode hcaller hrequired hsuper hrow hname hpasses
  obtain ⟨hid, htenant, hinfo⟩ := answered_iff.mp h
  rw [middleware_of_on hmode hrequired hcaller, ← hname] at hpasses
  obtain ⟨hcross, hsession⟩ := judge_passes (r.registry.named row hrow) hsuper hpasses
  obtain ⟨own, hscope, hown⟩ | ⟨hscope, hvia⟩ := caller.cases_of_not_superadmin hsuper
  · refine ⟨fun _ => ?_, fun huser => ?_⟩
    · rw [hown, appId_of_not_violation hid hrow hsuper hscope hown hcross]
    · rw [hscope] at huser
      cases huser
  refine ⟨fun happ => ?_, fun _ => ?_⟩
  · rw [hscope] at happ
    cases happ
  · obtain ⟨hcan, hbelongs⟩ := hsession (by simp [hvia])
    exact ⟨(can_iff _ _ _).mp hcan, tenant_of_appBelongsToTenant
      (getD_probe hknown hinfo) htenant hrow hsuper hbelongs⟩

lemma known_middleware (hknown : Known columns s.hasTenantCol) (h : answered s r = true) :
    Known columns (middleware u samplesIsolated s.hasTenantCol r).2 := by
  rw [middleware]
  split
  · exact hknown
  · exact hknown
  · exact hknown
  · obtain heq | heq := judge_snd _ samplesIsolated s.hasTenantCol r.registry r.answers _ _ r.app
    · rw [heq]
      exact hknown
    · rw [heq]
      exact known_appBelongsToTenant hknown (getD_probe hknown (answered_iff.mp h).2.2)

end Request

/-! ## Runs -/

/-- What holds of the process while its queries are answered. -/
structure Sound (u : Unicode) (s : State columns) : Prop where
  known : Known columns s.hasTenantCol
  closed : ∀ e ∈ s.served, Closed u e.1 e.2

variable {samplesIsolated : Bool}

lemma Sound.step {u : Unicode} {s s' : State columns} {r : Request columns} (hs : Sound u s)
    (h : answered s r = true) (hstep : step u samplesIsolated s r = some s') : Sound u s' := by
  cases hstep
  refine ⟨known_middleware hs.known h, fun e he => ?_⟩
  obtain he | he := mem_append.mp he
  · exact hs.closed e he
  rw [mem_singleton.mp he]
  exact closed_middleware hs.known h

/-- In every run whose queries are all answered the guard fails closed. -/
theorem entitled_of_passes (u : Unicode) (columns : List Str) (samplesIsolated : Bool)
    (s : State columns)
    (h : Reached (step u samplesIsolated) answered (start : State columns) s) :
    ∀ e ∈ s.served, Closed u e.1 e.2 := by
  have hstart : Sound u (start : State columns) :=
    ⟨fun _ hhas => (Option.not_mem_none _ hhas).elim, fun _ he => (not_mem_nil he).elim⟩
  exact (h.invariant hstart fun _ _ _ hs hanswered hstep => hs.step hanswered hstep).closed

/-- The table with one app, of the tenant `acme`. -/
def acmeColumns : List Str := [str "id", str "name", tenantColumn]

def acmeApp : AppRow := ⟨1, str "live", some (str "acme")⟩

def acmeRegistry : Registry acmeColumns where
  rows := [acmeApp]
  unique := by decide
  named := by decide
  untenanted := by decide

/-- A viewer of a tenant reads the app. -/
def viewerReads (tenant : Str) (answers : Answers) : Request acmeColumns where
  required := some ⟨str "config", str "read"⟩
  enforce := []
  caller := some (.session (some (tenant, str "viewer")))
  appParam := str "live"
  nameParam := []
  registry := acmeRegistry
  answers := answers

/-- The app's own viewer is served while a stranger is not. -/
theorem entitled_of_passes_live :
    ∃ s : State acmeColumns, Reached (step asciiCase false) answered start s ∧
      s.served.map Prod.snd = [.next, .forbidden (str "app 'live' is outside tenant 'globex'")] ∧
      ∀ e ∈ s.served, Closed asciiCase e.1 e.2 := by
  have hreached : Reached (step asciiCase false) answered (start : State acmeColumns)
      ⟨some true, [(viewerReads (str "acme") ⟨true, true, some 3⟩, .next),
        (viewerReads (str "globex") ⟨true, true, none⟩,
          .forbidden (str "app 'live' is outside tenant 'globex'"))]⟩ :=
    (Reached.start.next (l := viewerReads (str "acme") ⟨true, true, some 3⟩) rfl rfl).next
      (l := viewerReads (str "globex") ⟨true, true, none⟩) rfl rfl
  exact ⟨_, hreached, rfl, entitled_of_passes asciiCase acmeColumns false _ hreached⟩

/-! ## Failed queries -/

/-- The first request after the start is cancelled while the columns are looked up; the
next, a stranger's, is let through though all its queries are answered. -/
theorem stranger_passes_after_cancelled_probe :
    ∃ s : State acmeColumns, Reached (step asciiCase false) (fun _ _ => true) start s ∧
      s.served.getLast? = some (viewerReads (str "globex") ⟨true, true, some 3⟩, .next) ∧
      ¬ Closed asciiCase (viewerReads (str "globex") ⟨true, true, some 3⟩) .next := by
  refine ⟨⟨some false, [(viewerReads (str "acme") ⟨true, true, none⟩, .next),
    (viewerReads (str "globex") ⟨true, true, some 3⟩, .next)]⟩, ?_, rfl, ?_⟩
  · exact (Reached.start.next rfl (l := viewerReads (str "acme") ⟨true, true, none⟩) rfl).next
      (l := viewerReads (str "globex") ⟨true, true, some 3⟩) rfl rfl
  · intro hclosed
    obtain ⟨-, hsession⟩ := hclosed (.session (some (str "globex", str "viewer")))
      ⟨str "config", str "read"⟩ acmeApp rfl rfl rfl rfl mem_cons_self rfl rfl
    exact absurd (hsession rfl).2 (by decide)

end StreamHub.Authz
