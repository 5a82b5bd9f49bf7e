import StreamHub.Edge.Scheduler

/-!
# The reconciliation of an app with its active rooms

`ReconcileApp` reads the rooms with an active stream and goes through the installed plugins of
the app.  For a plugin that is enabled, edge-capable and has a valid configuration it schedules
an assignment for every room that has none, and revokes the assignments of other rooms.

What a pass does to the table is one statement (`exists_rows_reconcileApp`): the strays of the
plugins it goes through are revoked, all other rows stay and new ones are added.  Assignments of
a plugin that is disabled, removed or misconfigured are not looked at, so the pass mirrors the
rooms exactly if none of those is astray (`reconcileApp_mirrors_iff`).  A room that could not be
read counts as ended (`reconcileApp_revokes_ended_iff`).
-/

namespace StreamHub.Edge

open Library Text Yamljs Rows
open List hiding beq_eq_decide

/-- `plugins.Installed` -/
structure Install where
  pluginId : Str
  enabled : Bool
  config : List (Str × Value)

/-- The plugins: what is installed in an app, which plugins have a worker for the edge, and
`plugins.ValidateConfig` -/
structure Catalog where
  installs : Str → List Install
  edge : Str → Bool
  validateConfig : Str → List (Str × Value) → Option (List (Str × Value))

/-- A row of `streams` in the database of the app -/
structure StreamRow where
  room : Option Str
  active : Bool
  deriving DecidableEq

/-- What the reads of `activeRooms` come to: opening the database, the query, scanning each row,
and after how many rows the iteration ends if it does not go on to the last. -/
structure RoomReads where
  opened : Bool
  queried : Bool
  scanned : Str → Bool
  ends : Option ℕ

/-- `SELECT DISTINCT room FROM streams WHERE status = 'active' AND …` -/
def activeStreamRooms (streams : List StreamRow) : List Str :=
  ((streams.filter fun r => r.active).filterMap fun r => r.room.filter fun room => room ≠ []).dedup
    |>.insertionSort fun a b => ¬ b < a

/-- `activeRooms` -/
def activeRooms (streams : List StreamRow) (reads : RoomReads) : List Str :=
  let rooms := activeStreamRooms streams
  if reads.opened && reads.queried then
    ((reads.ends.map fun n => rooms.take n).getD rooms).filter reads.scanned
  else []

/-- Neither revoked nor stopped -/
def Assignment.live (a : Assignment) : Bool := a.status ≠ .revoked && a.status ≠ .stopped

/-- What the statements for one plugin come to: the list, and for each room and each assignment
what `Schedule` and `Revoke` do. -/
structure PluginOutcome where
  listed : Bool
  schedule : Str → Outcome
  revoke : ℕ → Outcome

/-- The existing assignments of `reconcilePlugin` -/
def existing (app pluginId : Str) (a : Assignment) : Bool :=
  a.app = app && a.pluginId = pluginId && a.live

/-- An assignment of one of the rooms that are not wanted -/
def stray (rooms : List Str) (a : Assignment) : Bool :=
  a.streamId.any fun sid => sid ≠ [] && !rooms.contains sid

/-- The loop of `reconcilePlugin` over the rooms -/
def scheduleRooms (env : Env) (now : ℤ) (app pluginId : Str) (cfg : List (Str × Value))
    (found : List (Assignment × ℕ)) (o : PluginOutcome) (s : State) (rooms : List Str) : State :=
  rooms.foldl (fun s room =>
    if found.any fun x => x.1.streamId = some room then s
    else
      schedule env s now
        ⟨app, pluginId, some room, OrderedMap.set (str "room") (.str room) cfg, none, none⟩
        (o.schedule room)) s

/-- The loop of `reconcilePlugin` over the existing assignments -/
def revokeStrays (rooms : List Str) (o : PluginOutcome) (s : State)
    (found : List (Assignment × ℕ)) : State :=
  found.foldl (fun s x => if stray rooms x.1 then revoke s x.2 (o.revoke x.2) else s) s

/-- `reconcilePlugin` -/
def reconcilePlugin (env : Env) (now : ℤ) (app pluginId : Str) (rooms : List Str)
    (cfg : List (Str × Value)) (o : PluginOutcome) (s : State) : State :=
  if o.listed then
    let found := select (existing app pluginId) s.rows
    revokeStrays rooms o (scheduleRooms env now app pluginId cfg found o s rooms) found
  else s

/-- One turn of `ReconcileApp` -/
def reconcileInstall (env : Env) (cat : Catalog) (now : ℤ) (app : Str) (rooms : List Str)
    (o : Str → PluginOutcome) (s : State) (row : Install) : State :=
  if row.enabled && cat.edge row.pluginId then
    match cat.validateConfig row.pluginId row.config with
    | none => s
    | some cfg => reconcilePlugin env now app row.pluginId rooms cfg (o row.pluginId) s
  else s

/-- `edgeNodeCount` -/
def edgeNodeCount (s : State) : ℕ :=
  s.nodes.countP fun n => n.type = .edge && (s.conns n.id).isSome

/-- `ReconcileApp` -/
def reconcileApp (env : Env) (cat : Catalog) (now : ℤ) (app : Str) (streams : List StreamRow)
    (reads : RoomReads) (o : Str → PluginOutcome) (s : State) : State :=
  if edgeNodeCount s = 0 then s
  else
    (cat.installs app).foldl
      (reconcileInstall env cat now app (activeRooms streams reads) o) s

/-! ## What a pass does to the table -/

/-- The statements succeed; pushes need not. -/
structure PluginOutcome.Ok (o : PluginOutcome) : Prop where
  listed : o.listed = true
  views : ∀ room, (o.schedule room).views = true
  write : ∀ room, (o.schedule room).write = true
  fetched : ∀ id, (o.revoke id).fetched = true
  revoked : ∀ id, (o.revoke id).write = true

/-- A new row: live, and on one of the rooms -/
structure Added (app pluginId : Str) (room : Str) (a : Assignment) : Prop where
  app : a.app = app
  pluginId : a.pluginId = pluginId
  streamId : a.streamId = some room
  live : a.live = true

variable {app pluginId : Str} {rooms : List Str} {a : Assignment}

lemma exists_room_of_added {added : List Assignment}
    (h : Forall₂ (Added app pluginId) rooms added) (ha : a ∈ added) :
    ∃ room ∈ rooms, Added app pluginId room a := by
  induction h with
  | nil => cases ha
  | @cons room b rooms added hnew hrest ih =>
    rcases mem_cons.mp ha with rfl | hlater
    · exact ⟨room, mem_cons_self, hnew⟩
    obtain ⟨r, hr, hadded⟩ := ih hlater
    exact ⟨r, mem_cons_of_mem _ hr, hadded⟩

/-- `Schedule` adds one row for its work, whatever becomes of the push. -/
lemma exists_rows_schedule (env : Env) (s : State) (now : ℤ) (input : ScheduleInput)
    {o : Outcome} (hviews : o.views = true) (hwrite : o.write = true) :
    ∃ a : Assignment, (schedule env s now input o).rows = s.rows ++ [a] ∧ a.app = input.app ∧
      a.pluginId = input.pluginId ∧ a.streamId = input.streamId ∧ a.live = true := by
  rw [schedule, if_pos hviews]
  dsimp only
  rw [if_pos hwrite]
  split
  · unfold State.offer
    split
    · rename_i s' hsent
      refine ⟨_, rows_send hsent, rfl, rfl, rfl, ?_⟩
      split <;> rfl
    split
    · exact ⟨_, modify_length_append _ _ _, rfl, rfl, rfl, rfl⟩
    · refine ⟨_, rfl, rfl, rfl, rfl, ?_⟩
      split <;> rfl
  · refine ⟨_, rfl, rfl, rfl, rfl, ?_⟩
    split <;> rfl

/-- `Assignment` behind `Revoke` -/
def Assignment.revoked (a : Assignment) : Assignment :=
  { a with status := .revoked, detail := none }

variable {s : State}

lemma rows_revoke {id : ℕ} {o : Outcome} (hfetched : o.fetched = true)
    (hwrite : o.write = true) : (revoke s id o).rows = s.rows.modify id Assignment.revoked := by
  unfold revoke
  split
  · rename_i hnone
    rw [modify_eq_self]
    exact List.getElem?_eq_none_iff.mp hnone
  rename_i a hrow
  rw [if_pos hfetched]
  rw [if_pos hwrite]
  have hsent : (if a.nodeId ≠ [] then (s.send a.nodeId (.revoke id) o.push).getD s
      else s).rows = s.rows := by
    split
    · cases hsend : s.send a.nodeId (.revoke id) o.push with
      | none => rfl
      | some t => exact rows_send hsend
    · rfl
  rw [State.updateStatus, hsent]
  rfl

/-- The rooms of `scheduleRooms` that have no assignment yet -/
def missing (found : List (Assignment × ℕ)) (rooms : List Str) : List Str :=
  rooms.filter fun room => !found.any fun x => x.1.streamId = some room

variable {o : PluginOutcome}

lemma exists_rows_scheduleRooms (env : Env) (now : ℤ) (app pluginId : Str)
    (cfg : List (Str × Value)) (found : List (Assignment × ℕ)) (hok : o.Ok) (s : State)
    (rooms : List Str) : ∃ added : List Assignment,
      (scheduleRooms env now app pluginId cfg found o s rooms).rows = s.rows ++ added ∧
      Forall₂ (Added app pluginId) (missing found rooms) added := by
  induction rooms generalizing s with
  | nil => exact ⟨[], (append_nil _).symm, .nil⟩
  | cons room rooms ih =>
    rw [scheduleRooms, foldl_cons]
    by_cases hfound : (found.any fun x => x.1.streamId = some room) = true
    · rw [if_pos hfound]
      have hmissing : missing found (room :: rooms) = missing found rooms := by
        simp [missing, hfound]
      rw [hmissing]
      exact ih s
    · rw [if_neg hfound]
      obtain ⟨a, hrows, happ, hplugin, hstream, hlive⟩ :=
        exists_rows_schedule env s now
          ⟨app, pluginId, some room, OrderedMap.set (str "room") (.str room) cfg, none, none⟩
          (hok.views room) (hok.write room)
      obtain ⟨added, hadded, hall⟩ := ih (schedule env s now
        ⟨app, pluginId, some room, OrderedMap.set (str "room") (.str room) cfg, none, none⟩
        (o.schedule room))
      have hmissing : missing found (room :: rooms) = room :: missing found rooms := by
        rw [missing, filter_cons_of_pos (by simpa using hfound)]
        rfl
      refine ⟨a :: added, ?_, hmissing ▸ .cons ⟨happ, hplugin, hstream, hlive⟩ hall⟩
      rw [scheduleRooms] at hadded
      rw [hadded, hrows, append_assoc]
      rfl

lemma rows_revokeStrays (hok : o.Ok) (s : State) (found : List (Assignment × ℕ)) :
    (revokeStrays rooms o s found).rows =
      ((found.filter fun x => stray rooms x.1).map Prod.snd).foldl
        (fun rows id => rows.modify id Assignment.revoked) s.rows := by
  induction found generalizing s with
  | nil => rfl
  | cons x found ih =>
    rw [revokeStrays, foldl_cons]
    by_cases hstray : stray rooms x.1 = true
    · rw [if_pos hstray, filter_cons_of_pos (by exact hstray), map_cons,
        foldl_cons, ← rows_revoke (s := s) (hok.fetched x.2) (hok.revoked x.2)]
      exact ih _
    · rw [if_neg hstray, filter_cons_of_neg (by exact hstray)]
      exact ih s

/-- What becomes of a row when the rooms of one plugin are reconciled -/
def retire (rooms : List Str) (app pluginId : Str) (a : Assignment) : Assignment :=
  if existing app pluginId a && stray rooms a then a.revoked else a

lemma mem_strays_iff {rows : List Assignment} {k : ℕ} :
    k ∈ ((select (existing app pluginId) rows).filter fun x => stray rooms x.1).map Prod.snd ↔
      ∃ a, rows[k]? = some a ∧ (existing app pluginId a && stray rooms a) = true := by
  constructor
  · intro hk
    obtain ⟨⟨a, id⟩, hmem, rfl⟩ := mem_map.mp hk
    obtain ⟨hselect, hstray⟩ := mem_filter.mp hmem
    obtain ⟨hrow, hexisting⟩ := mem_select.mp hselect
    exact ⟨a, hrow, Bool.and_eq_true_iff.mpr ⟨hexisting, hstray⟩⟩
  · rintro ⟨a, hrow, hboth⟩
    obtain ⟨hexisting, hstray⟩ := Bool.and_eq_true_iff.mp hboth
    exact mem_map.mpr
      ⟨(a, k), mem_filter.mpr ⟨mem_select.mpr ⟨hrow, hexisting⟩, hstray⟩, rfl⟩

/-- The pass over one plugin: its strays are revoked, and every room that had no assignment gets
one. -/
lemma exists_rows_reconcilePlugin (env : Env) (now : ℤ) (app pluginId : Str)
    (cfg : List (Str × Value)) (hok : o.Ok) (s : State) (rooms : List Str) :
    ∃ added : List Assignment,
      (reconcilePlugin env now app pluginId rooms cfg o s).rows =
        s.rows.map (retire rooms app pluginId) ++ added ∧
      Forall₂ (Added app pluginId)
        (missing (select (existing app pluginId) s.rows) rooms) added := by
  obtain ⟨added, hadded, hall⟩ := exists_rows_scheduleRooms env now app pluginId cfg
    (select (existing app pluginId) s.rows) hok s rooms
  refine ⟨added, ?_, hall⟩
  rw [reconcilePlugin, if_pos hok.listed]
  rw [rows_revokeStrays hok, hadded]
  have hnodup : (((select (existing app pluginId) s.rows).filter
      fun x => stray rooms x.1).map Prod.snd).Nodup :=
    (nodup_select _ _).sublist (filter_sublist.map Prod.snd)
  apply ext_getElem?
  intro k
  rw [getElem?_foldl_modify hnodup]
  rcases Nat.lt_or_ge k s.rows.length with hlt | hge
  · rw [getElem?_append_left hlt, getElem?_append_left (by simpa using hlt), getElem?_map]
    cases hrow : s.rows[k]? with
    | none => rfl
    | some a =>
      simp only [Option.map_some, mem_strays_iff, hrow, Option.some.injEq, exists_eq_left', retire]
  · -- a new row is none of the strays
    have hnot : ¬ k ∈ ((select (existing app pluginId) s.rows).filter
        fun x => stray rooms x.1).map Prod.snd := by
      rw [mem_strays_iff]
      rintro ⟨a, hrow, -⟩
      rw [getElem?_eq_none hge] at hrow
      cases hrow
    rw [getElem?_append_right hge, getElem?_append_right (by simpa using hge), length_map]
    simp only [hnot, if_false, Option.map_id']

/-! ## How many assignments a room has -/

/-- The live assignments of a plugin on a room -/
def onRoom (app pluginId room : Str) (a : Assignment) : Bool :=
  existing app pluginId a && a.streamId = some room

def held (app pluginId room : Str) (rows : List Assignment) : ℕ :=
  rows.countP (onRoom app pluginId room)

variable {room : Str}

lemma onRoom_retire (hroom : room ∈ rooms) (app pluginId other : Str) (a : Assignment) :
    onRoom app pluginId room (retire rooms app other a) = onRoom app pluginId room a := by
  unfold retire
  split
  · rename_i hretired
    have hstray := (Bool.and_eq_true_iff.mp hretired).2
    -- the row is on a room that is not wanted, so not on this one
    have hne : a.streamId ≠ some room := by
      intro heq
      simp [stray, heq, hroom] at hstray
    simp [onRoom, Assignment.revoked, hne]
  · rfl

lemma countP_added {other : Str} {added : List Assignment}
    (h : Forall₂ (Added app other) rooms added) :
    added.countP (onRoom app pluginId room) = if other = pluginId then rooms.count room else 0 := by
  induction h with
  | nil => simp
  | @cons r a rooms added hnew hrest ih =>
    have htest : onRoom app pluginId room a = (decide (other = pluginId) && r == room) := by
      unfold onRoom existing
      rw [hnew.app, hnew.pluginId, hnew.streamId, hnew.live]
      simp [beq_eq_decide]
    rw [countP_cons, ih, htest, count_cons]
    by_cases heq : other = pluginId <;> simp [heq]

lemma any_select_iff (app pluginId room : Str) (rows : List Assignment) :
    ((select (existing app pluginId) rows).any fun x => x.1.streamId = some room) = true ↔
      0 < held app pluginId room rows := by
  rw [held, countP_pos_iff, any_eq_true]
  constructor
  · rintro ⟨⟨a, k⟩, hselect, hstream⟩
    obtain ⟨hrow, hexisting⟩ := mem_select.mp hselect
    exact ⟨a, mem_of_getElem? hrow, Bool.and_eq_true_iff.mpr ⟨hexisting, hstream⟩⟩
  · rintro ⟨a, hmem, hon⟩
    obtain ⟨hexisting, hstream⟩ := Bool.and_eq_true_iff.mp hon
    obtain ⟨k, hrow⟩ := getElem?_of_mem hmem
    exact ⟨(a, k), mem_select.mpr ⟨hrow, hexisting⟩, hstream⟩

lemma count_missing {rows : List Assignment} (hnodup : rooms.Nodup) (hroom : room ∈ rooms) :
    (missing (select (existing app pluginId) rows) rooms).count room =
      if held app pluginId room rows = 0 then 1 else 0 := by
  have hany := any_select_iff app pluginId room rows
  by_cases hzero : held app pluginId room rows = 0
  · rw [if_pos hzero]
    refine count_eq_one_of_mem (hnodup.filter _) (mem_filter.mpr ⟨hroom, ?_⟩)
    rw [hzero] at hany
    simpa using hany.not.mpr (Nat.lt_irrefl 0)
  rw [if_neg hzero]
  refine count_eq_zero_of_not_mem fun hmem => ?_
  have hfound := hany.mpr (Nat.pos_of_ne_zero hzero)
  simp only [missing, mem_filter, hfound, Bool.not_true, Bool.false_eq_true, and_false] at hmem

variable {env : Env} {now : ℤ} {cfg : List (Str × Value)}

/-- On a room that is wanted, the plugin gets an assignment if it had none, and nothing else
changes. -/
lemma held_reconcilePlugin {other : Str} (hok : o.Ok) (s : State) (hnodup : rooms.Nodup)
    (hroom : room ∈ rooms) (pluginId : Str) :
    held app pluginId room (reconcilePlugin env now app other rooms cfg o s).rows =
      if other = pluginId ∧ held app pluginId room s.rows = 0 then 1
      else held app pluginId room s.rows := by
  obtain ⟨added, hrows, hall⟩ := exists_rows_reconcilePlugin env now app other cfg hok s rooms
  have hmap : (s.rows.map (retire rooms app other)).countP (onRoom app pluginId room) =
      held app pluginId room s.rows := by
    rw [countP_map]
    exact countP_congr fun a _ => by rw [Function.comp_apply, onRoom_retire hroom]
  rw [hrows, held, countP_append, hmap, countP_added hall]
  by_cases heq : other = pluginId
  · subst heq
    rw [count_missing hnodup hroom]
    by_cases hzero : held app other room s.rows = 0 <;> simp [hzero]
  · simp [heq]

/-! ## The pass over all plugins -/

/-- The pass goes through this install. -/
def runs (cat : Catalog) (row : Install) : Bool :=
  row.enabled && cat.edge row.pluginId && (cat.validateConfig row.pluginId row.config).isSome

/-- One of the installs is of this plugin, and the pass goes through it. -/
def managedBy (cat : Catalog) (installs : List Install) (pluginId : Str) : Bool :=
  installs.any fun row => runs cat row && row.pluginId = pluginId

/-- Installed, enabled, edge-capable, and with a configuration that validates -/
def managed (cat : Catalog) (app pluginId : Str) : Bool := managedBy cat (cat.installs app) pluginId

lemma reconcileInstall_cases (env : Env) (cat : Catalog) (now : ℤ) (app : Str)
    (rooms : List Str) (o : Str → PluginOutcome) (s : State) (row : Install) :
    (runs cat row = false ∧ reconcileInstall env cat now app rooms o s row = s) ∨
      (runs cat row = true ∧ ∃ cfg, reconcileInstall env cat now app rooms o s row =
        reconcilePlugin env now app row.pluginId rooms cfg (o row.pluginId) s) := by
  unfold reconcileInstall
  split
  · rename_i henabled
    split
    · rename_i hinvalid
      exact .inl ⟨by rw [runs, hinvalid]; simp, rfl⟩
    · rename_i cfg hvalid
      exact .inr ⟨by rw [runs, henabled, hvalid]; rfl, cfg, rfl⟩
  · rename_i hdisabled
    have hfalse : (row.enabled && cat.edge row.pluginId) = false := by simpa using hdisabled
    exact .inl ⟨by rw [runs, hfalse]; rfl, rfl⟩

/-- The strays of the plugins that the pass goes through -/
def astray (cat : Catalog) (installs : List Install) (rooms : List Str) (app : Str)
    (a : Assignment) : Bool :=
  a.app = app && a.live && managedBy cat installs a.pluginId && stray rooms a

/-- What becomes of a row in a pass -/
def retireAll (cat : Catalog) (installs : List Install) (rooms : List Str) (app : Str)
    (a : Assignment) : Assignment := if astray cat installs rooms app a then a.revoked else a

/-- A row that was added by the pass -/
structure Placed (cat : Catalog) (installs : List Install) (rooms : List Str) (app : Str)
    (a : Assignment) : Prop where
  app : a.app = app
  live : a.live = true
  managed : managedBy cat installs a.pluginId = true
  room : ∃ room ∈ rooms, a.streamId = some room

variable {cat : Catalog} {installs : List Install}

lemma managedBy_cons {row : Install} : managedBy cat (row :: installs) pluginId =
      (runs cat row && decide (row.pluginId = pluginId) || managedBy cat installs pluginId) := rfl

lemma Placed.cons {row : Install} (h : Placed cat installs rooms app a) :
    Placed cat (row :: installs) rooms app a :=
  ⟨h.app, h.live, by rw [managedBy_cons, h.managed, Bool.or_true], h.room⟩

lemma retireAll_of_room (h : ∃ room ∈ rooms, a.streamId = some room) :
    retireAll cat installs rooms app a = a := by
  obtain ⟨room, hroom, hstream⟩ := h
  have hnot : stray rooms a = false := by simp [stray, hstream, hroom]
  rw [retireAll, astray, hnot, Bool.and_false]
  rfl

lemma retireAll_retire {row : Install} (hruns : runs cat row = true) (installs : List Install)
    (rooms : List Str) (app : Str) (a : Assignment) :
    retireAll cat installs rooms app (retire rooms app row.pluginId a) =
      retireAll cat (row :: installs) rooms app a := by
  have hnone : ∀ b : Assignment, b.live = false → astray cat installs rooms app b = false := by
    intro b hb
    simp [astray, hb]
  by_cases hretired : (existing app row.pluginId a && stray rooms a) = true
  · have hall : astray cat (row :: installs) rooms app a = true := by
      simp only [existing, Bool.and_eq_true, decide_eq_true_eq] at hretired
      obtain ⟨⟨⟨happ, hplugin⟩, hlive⟩, hstray⟩ := hretired
      simp [astray, managedBy_cons, happ, hplugin, hlive, hstray, hruns]
    rw [retire, if_pos hretired, retireAll, hnone a.revoked rfl, retireAll, if_pos hall]
    rfl
  · have hsame : astray cat (row :: installs) rooms app a = astray cat installs rooms app a := by
      rw [astray, astray, managedBy_cons, hruns]
      simp only [existing, Bool.and_eq_true, decide_eq_true_eq, not_and] at hretired
      by_cases happ : a.app = app
      · by_cases hplugin : row.pluginId = a.pluginId
        · cases hlive : a.live with
          | false => simp
          | true =>
            have hstray := hretired ⟨⟨happ, hplugin.symm⟩, hlive⟩
            simp [hstray]
        · simp [hplugin]
      · simp [happ]
    rw [retire, if_neg hretired, retireAll, retireAll, hsame]

lemma exists_rows_installs {o : Str → PluginOutcome} (hok : ∀ p, (o p).Ok)
    (installs : List Install) (s : State) : ∃ added : List Assignment,
      (installs.foldl (reconcileInstall env cat now app rooms o) s).rows =
        s.rows.map (retireAll cat installs rooms app) ++ added ∧
      ∀ a ∈ added, Placed cat installs rooms app a := by
  induction installs generalizing s with
  | nil =>
    have hid : retireAll cat [] rooms app = id := by
      funext a
      rw [retireAll, astray]
      simp [managedBy]
    exact ⟨[], by simp [hid], by simp⟩
  | cons row installs ih =>
    rw [foldl_cons]
    rcases reconcileInstall_cases env cat now app rooms o s row with
      ⟨hskipped, hsame⟩ | ⟨hruns, cfg, hplugin⟩
    · -- an install that the pass leaves out changes nothing
      obtain ⟨added, hrows, hplaced⟩ := ih s
      have hmanaged : ∀ p, managedBy cat (row :: installs) p = managedBy cat installs p := by
        intro p
        rw [managedBy_cons, hskipped]
        rfl
      refine ⟨added, ?_, fun a ha => (hplaced a ha).cons⟩
      rw [hsame, hrows]
      congr 1
      refine map_congr_left fun a _ => ?_
      rw [retireAll, retireAll, astray, astray, hmanaged]
    · obtain ⟨first, hfirst, hall⟩ :=
        exists_rows_reconcilePlugin env now app row.pluginId cfg (hok row.pluginId) s rooms
      obtain ⟨added, hrows, hplaced⟩ := ih (reconcileInstall env cat now app rooms o s row)
      have hnew : ∀ a ∈ first, Placed cat (row :: installs) rooms app a := by
        intro a ha
        obtain ⟨room, hroom, hadded⟩ := exists_room_of_added hall ha
        refine ⟨hadded.app, hadded.live, ?_, room, (mem_filter.mp hroom).1, hadded.streamId⟩
        simp [managedBy_cons, hruns, hadded.pluginId]
      refine ⟨first ++ added, ?_, ?_⟩
      · have hfirstSame : first.map (retireAll cat installs rooms app) = first := by
          refine (map_congr_left fun a ha => ?_).trans (map_id first)
          exact retireAll_of_room (hnew a ha).room
        rw [hrows, hplugin, hfirst, map_append, map_map, hfirstSame, append_assoc]
        congr 1
        exact map_congr_left fun a _ => retireAll_retire hruns installs rooms app a
      · exact forall_mem_append.mpr ⟨hnew, fun a ha => (hplaced a ha).cons⟩

lemma held_installs {o : Str → PluginOutcome} (hok : ∀ p, (o p).Ok) (hnodup : rooms.Nodup)
    (hroom : room ∈ rooms) (pluginId : Str) (installs : List Install) (s : State) :
    held app pluginId room (installs.foldl (reconcileInstall env cat now app rooms o) s).rows =
      if managedBy cat installs pluginId = true ∧ held app pluginId room s.rows = 0 then 1
      else held app pluginId room s.rows := by
  induction installs generalizing s with
  | nil => simp [managedBy]
  | cons row installs ih =>
    rw [foldl_cons, ih, managedBy_cons]
    rcases reconcileInstall_cases env cat now app rooms o s row with
      ⟨hskipped, hsame⟩ | ⟨hruns, cfg, hplugin⟩
    · rw [hsame, hskipped]
      simp
    rw [hplugin, held_reconcilePlugin (hok row.pluginId) s hnodup hroom, hruns]
    by_cases hzero : held app pluginId room s.rows = 0
    · by_cases heq : row.pluginId = pluginId
      · simp [hzero, heq]
      · simp [hzero, heq]
    · simp [hzero]

/-! ## A pass that has nothing to do -/

lemma scheduleRooms_eq_self {found : List (Assignment × ℕ)}
    (h : ∀ room ∈ rooms, (found.any fun x => x.1.streamId = some room) = true) :
    scheduleRooms env now app pluginId cfg found o s rooms = s := by
  induction rooms with
  | nil => rfl
  | cons room rooms ih =>
    rw [scheduleRooms, foldl_cons, if_pos (h room mem_cons_self)]
    exact ih fun r hr => h r (mem_cons_of_mem _ hr)

lemma revokeStrays_eq_self {found : List (Assignment × ℕ)}
    (h : ∀ x ∈ found, stray rooms x.1 = false) : revokeStrays rooms o s found = s := by
  induction found with
  | nil => rfl
  | cons x found ih =>
    rw [revokeStrays, foldl_cons, h x mem_cons_self]
    exact ih fun y hy => h y (mem_cons_of_mem _ hy)

lemma reconcilePlugin_eq_self (hrooms : ∀ room ∈ rooms, 0 < held app pluginId room s.rows)
    (hstrays : ∀ a ∈ s.rows, existing app pluginId a = true → stray rooms a = false) :
    reconcilePlugin env now app pluginId rooms cfg o s = s := by
  unfold reconcilePlugin
  split
  · dsimp only
    rw [scheduleRooms_eq_self fun room hroom => (any_select_iff _ _ _ _).mpr (hrooms room hroom)]
    refine revokeStrays_eq_self fun x hx => ?_
    obtain ⟨hrow, hexisting⟩ := mem_select.mp hx
    exact hstrays x.1 (mem_of_getElem? hrow) hexisting
  · rfl

lemma installs_eq_self {o : Str → PluginOutcome}
    (hrooms : ∀ p, managedBy cat installs p = true → ∀ room ∈ rooms, 0 < held app p room s.rows)
    (hstrays : ∀ a ∈ s.rows, astray cat installs rooms app a = false) :
    installs.foldl (reconcileInstall env cat now app rooms o) s = s := by
  induction installs with
  | nil => rfl
  | cons row installs ih =>
    have hfirst : reconcileInstall env cat now app rooms o s row = s := by
      rcases reconcileInstall_cases env cat now app rooms o s row with
        ⟨-, hsame⟩ | ⟨hruns, cfg, hplugin⟩
      · exact hsame
      rw [hplugin]
      refine reconcilePlugin_eq_self (hrooms row.pluginId (by simp [managedBy_cons, hruns])) ?_
      intro a ha hexisting
      have hnone := hstrays a ha
      simp only [existing, Bool.and_eq_true, decide_eq_true_eq] at hexisting
      obtain ⟨⟨happ, hplug⟩, hlive⟩ := hexisting
      simpa [astray, managedBy_cons, hruns, happ, hplug, hlive] using hnone
    rw [foldl_cons, hfirst]
    refine ih (fun p hp => hrooms p (by rw [managedBy_cons, hp, Bool.or_true])) fun a ha => ?_
    -- a stray of the later installs would be one of all
    have hnone := hstrays a ha
    rw [astray, managedBy_cons] at hnone
    rw [astray]
    cases hm : managedBy cat installs a.pluginId with
    | false => simp
    | true => simpa [hm] using hnone

/-! ## The results -/

/-- Every read of `activeRooms` is answered. -/
structure RoomReads.Complete (reads : RoomReads) : Prop where
  opened : reads.opened = true
  queried : reads.queried = true
  scanned : ∀ room, reads.scanned room = true
  ends : reads.ends = none

lemma activeRooms_of_complete (streams : List StreamRow) {reads : RoomReads}
    (h : reads.Complete) : activeRooms streams reads = activeStreamRooms streams := by
  unfold activeRooms
  rw [h.opened, h.queried, h.ends]
  exact filter_eq_self.mpr fun room _ => h.scanned room

lemma nodup_activeStreamRooms (streams : List StreamRow) : (activeStreamRooms streams).Nodup :=
  (perm_insertionSort _ _).nodup_iff.mpr (nodup_dedup _)

lemma ne_nil_of_mem_activeStreamRooms {streams : List StreamRow}
    (h : room ∈ activeStreamRooms streams) : room ≠ [] := by
  rw [activeStreamRooms, mem_insertionSort, mem_dedup, mem_filterMap] at h
  obtain ⟨row, -, hrow⟩ := h
  have hroom := Option.filter_eq_some_iff.mp hrow
  simpa using hroom.2

lemma exists_rows_reconcileApp (env : Env) (cat : Catalog) (now : ℤ) (app : Str)
    (streams : List StreamRow) (reads : RoomReads) {o : Str → PluginOutcome}
    (hnode : edgeNodeCount s ≠ 0) (hok : ∀ p, (o p).Ok) : ∃ added : List Assignment,
      (reconcileApp env cat now app streams reads o s).rows =
        s.rows.map (retireAll cat (cat.installs app) (activeRooms streams reads) app) ++ added ∧
      ∀ a ∈ added, Placed cat (cat.installs app) (activeRooms streams reads) app a := by
  rw [reconcileApp, if_neg hnode]
  exact exists_rows_installs hok (cat.installs app) s

/-- The assignment is on one of the rooms, and its plugin is installed and enabled. -/
def Wanted (cat : Catalog) (app : Str) (rooms : List Str) (a : Assignment) : Prop :=
  ∀ sid, a.streamId = some sid → sid ≠ [] →
    sid ∈ rooms ∧ ∃ row ∈ cat.installs app, row.pluginId = a.pluginId ∧ row.enabled = true

lemma wanted_of_managed (hmanaged : managed cat app a.pluginId = true)
    (hstray : stray rooms a = false) : Wanted cat app rooms a := by
  intro sid hsid hne
  constructor
  · simpa [stray, hsid, hne] using hstray
  · obtain ⟨row, hrow, hruns⟩ := any_eq_true.mp hmanaged
    simp only [runs, Bool.and_eq_true, decide_eq_true_eq] at hruns
    exact ⟨row, hrow, hruns.2, hruns.1.1.1⟩

lemma astray_eq_false_of_mem {rows added : List Assignment}
    (hadded : ∀ a ∈ added, Placed cat installs rooms app a)
    (ha : a ∈ rows.map (retireAll cat installs rooms app) ++ added) :
    astray cat installs rooms app a = false := by
  rcases mem_append.mp ha with hold | hnew
  · obtain ⟨b, -, rfl⟩ := mem_map.mp hold
    unfold retireAll
    split
    · simp [astray, Assignment.live, Assignment.revoked]
    rename_i hnone
    simpa using hnone
  · obtain ⟨room, hroom, hstream⟩ := (hadded a hnew).room
    simp [astray, stray, hstream, hroom]

section Examples

/-- The app has the counting plugin enabled and another one disabled. -/
def liveCatalog : Catalog where
  installs _ := [⟨str "counting", true, []⟩, ⟨str "lpr", false, []⟩]
  edge _ := true
  validateConfig _ cfg := some cfg

/-- One active room and one that ended -/
def liveStreams : List StreamRow := [⟨some (str "cam"), true⟩, ⟨some (str "gate"), false⟩]

/-- An assignment that runs on the node -/
def runningOn (pluginId room : Str) : Assignment :=
  ⟨str "e1", str "live", pluginId, some room, [], .running, none⟩

/-- The node is connected; the table has these assignments. -/
def withRows (rows : List Assignment) : State :=
  ⟨rows, [edgeOne], fun id => if id = str "e1" then some 0 else none, fun _ => none, 0, [], rfl⟩

def answered : PluginOutcome := ⟨true, fun _ => outcome true, fun _ => outcome true⟩

lemma answered_ok : answered.Ok := ⟨rfl, fun _ => rfl, fun _ => rfl, fun _ => rfl, fun _ => rfl⟩

/-- The reads, with the query answered or not -/
def roomReads (queried : Bool) : RoomReads := ⟨true, queried, fun _ => true, none⟩

lemma roomReads_complete : (roomReads true).Complete := ⟨rfl, rfl, fun _ => rfl, rfl⟩

/-- A pass over the app, where every statement succeeds -/
def livePass (queried : Bool) (s : State) : State :=
  reconcileApp roundRobinEnv liveCatalog 0 (str "live") liveStreams (roomReads queried)
    (fun _ => answered) s

end Examples

/-- With a connected edge node and every read and write answered, a pass over an app gives every
active room an assignment of every plugin it goes through, exactly one if there was at most one,
and a second pass changes nothing.  All that is live then is wanted exactly if that was so of the
assignments of the other plugins, which the pass does not look at. -/
theorem reconcileApp_mirrors_iff (env : Env) (cat : Catalog) (now : ℤ) (app : Str)
    (streams : List StreamRow) (reads : RoomReads) (o : Str → PluginOutcome) (s : State)
    (hnode : edgeNodeCount s ≠ 0) (hreads : reads.Complete) (hok : ∀ p, (o p).Ok) :
    (∀ p, managed cat app p = true → ∀ room ∈ activeStreamRooms streams,
      1 ≤ held app p room (reconcileApp env cat now app streams reads o s).rows ∧
        (held app p room s.rows ≤ 1 →
          held app p room (reconcileApp env cat now app streams reads o s).rows = 1)) ∧
    (∀ now' o', reconcileApp env cat now' app streams reads o'
      (reconcileApp env cat now app streams reads o s) =
        reconcileApp env cat now app streams reads o s) ∧
    ((∀ a ∈ (reconcileApp env cat now app streams reads o s).rows, a.app = app → a.live = true →
        Wanted cat app (activeStreamRooms streams) a) ↔
      ∀ a ∈ s.rows, a.app = app → a.live = true → managed cat app a.pluginId = false →
        Wanted cat app (activeStreamRooms streams) a) := by
  have hrooms := activeRooms_of_complete streams hreads
  have hheld : ∀ p, ∀ room ∈ activeStreamRooms streams,
      held app p room (reconcileApp env cat now app streams reads o s).rows =
        if managed cat app p = true ∧ held app p room s.rows = 0 then 1
        else held app p room s.rows := by
    intro p room hroom
    rw [reconcileApp, if_neg hnode, hrooms]
    exact held_installs hok (nodup_activeStreamRooms streams) hroom p _ s
  obtain ⟨added, hrows, hadded⟩ := exists_rows_reconcileApp env cat now app streams reads
    hnode hok
  rw [hrooms] at hrows hadded
  have hmirrored : ∀ p, managed cat app p = true → ∀ room ∈ activeStreamRooms streams,
      1 ≤ held app p room (reconcileApp env cat now app streams reads o s).rows ∧
        (held app p room s.rows ≤ 1 →
          held app p room (reconcileApp env cat now app streams reads o s).rows = 1) := by
    intro p hp room hroom
    rw [hheld p room hroom]
    by_cases hzero : held app p room s.rows = 0
    · simp [hp, hzero]
    simp only [hzero, and_false, if_false]
    omega
  refine ⟨hmirrored, ?_, ?_⟩
  · intro now' o'
    generalize ht : reconcileApp env cat now app streams reads o s = t at hrows hmirrored ⊢
    rw [reconcileApp, hrooms]
    split
    · rfl
    refine installs_eq_self (fun p hp room hroom => (hmirrored p hp room hroom).1) ?_
    intro a ha
    rw [hrows] at ha
    exact astray_eq_false_of_mem hadded ha
  · rw [hrows]
    constructor
    · intro hwanted a ha happ hlive hmanaged
      -- a row of another plugin stays as it is
      have hsame : retireAll cat (cat.installs app) (activeStreamRooms streams) app a = a := by
        have hfalse : managedBy cat (cat.installs app) a.pluginId = false := hmanaged
        rw [retireAll, astray, hfalse, Bool.and_false, Bool.false_and]
        rfl
      have hmem := mem_map_of_mem
        (f := retireAll cat (cat.installs app) (activeStreamRooms streams) app) ha
      rw [hsame] at hmem
      exact hwanted a (mem_append_left _ hmem) happ hlive
    · intro hwanted a ha happ hlive
      have hnone := astray_eq_false_of_mem hadded ha
      cases hmanaged : managed cat app a.pluginId with
      | true =>
        refine wanted_of_managed hmanaged ?_
        have hmanaged' : managedBy cat (cat.installs app) a.pluginId = true := hmanaged
        simpa [astray, happ, hlive, hmanaged'] using hnone
      | false =>
        rcases mem_append.mp ha with hold | hnew
        · obtain ⟨b, hb, rfl⟩ := mem_map.mp hold
          unfold retireAll at happ hlive hmanaged hnone ⊢
          split at hlive
          · cases hlive
          rename_i hkept
          rw [if_neg hkept] at happ hmanaged ⊢
          exact hwanted b hb happ hlive hmanaged
        · have hcontra := (hadded a hnew).managed
          rw [show managedBy cat (cat.installs app) a.pluginId = false from hmanaged] at hcontra
          cases hcontra

/-- The active room gets the assignment it lacks. -/
theorem reconcileApp_mirrors_cam :
    held (str "live") (str "counting") (str "cam") (livePass true (withRows [])).rows = 1 :=
  ((reconcileApp_mirrors_iff roundRobinEnv liveCatalog 0 (str "live") liveStreams (roomReads true)
    (fun _ => answered) (withRows []) (by decide) roomReads_complete fun _ => answered_ok).1
      (str "counting") (by decide) (str "cam") (by decide)).2 (by decide)

/-- The work of a plugin that was disabled runs on, on a room that ended. -/
theorem disabled_plugin_keeps_running :
    ∃ a ∈ (livePass true (withRows [runningOn (str "lpr") (str "gate")])).rows,
      a.app = str "live" ∧ a.live = true ∧
        ¬ Wanted liveCatalog (str "live") (activeStreamRooms liveStreams) a := by
  refine ⟨runningOn (str "lpr") (str "gate"), ?_, rfl, rfl, ?_⟩
  · refine mem_of_getElem? (i := 0) ?_
    rfl
  · intro hwanted
    have hgate := (hwanted (str "gate") rfl (by decide)).1
    revert hgate
    decide

/-- A pass revokes only assignments of rooms without an active stream, exactly if no edge node
is connected or every active room was read that an assignment it looks at is on. -/
theorem reconcileApp_revokes_ended_iff (env : Env) (cat : Catalog) (now : ℤ) (app : Str)
    (streams : List StreamRow) (reads : RoomReads) (o : Str → PluginOutcome) (s : State)
    (hok : ∀ p, (o p).Ok) :
    (∀ (k : ℕ) (a b : Assignment), s.rows[k]? = some a →
        (reconcileApp env cat now app streams reads o s).rows[k]? = some b →
        a.status ≠ .revoked → b.status = .revoked →
        ∀ room, a.streamId = some room → room ∉ activeStreamRooms streams) ↔
      edgeNodeCount s = 0 ∨
        ∀ a ∈ s.rows, a.app = app → a.live = true → managed cat app a.pluginId = true →
          ∀ room ∈ activeStreamRooms streams, a.streamId = some room →
            room ∈ activeRooms streams reads := by
  by_cases hnode : edgeNodeCount s = 0
  · simp only [hnode, true_or, iff_true]
    intro k a b ha hb hlive hrevoked
    rw [reconcileApp, if_pos hnode, ha] at hb
    cases hb
    exact absurd hrevoked hlive
  · simp only [hnode, false_or]
    obtain ⟨added, hrows, -⟩ := exists_rows_reconcileApp env cat now app streams reads
      hnode hok
    -- the row at a key that was there before
    have hrow : ∀ (k : ℕ) (a : Assignment), s.rows[k]? = some a →
        (reconcileApp env cat now app streams reads o s).rows[k]? =
          some (retireAll cat (cat.installs app) (activeRooms streams reads) app a) := by
      intro k a ha
      obtain ⟨hlt, -⟩ := List.getElem?_eq_some_iff.mp ha
      rw [hrows, getElem?_append_left (by simpa using hlt), getElem?_map, ha]
      rfl
    constructor
    · intro hended a ha happ hlive hmanaged room hroom hstream
      obtain ⟨k, hk⟩ := getElem?_of_mem ha
      by_contra hunread
      have hastray : astray cat (cat.installs app) (activeRooms streams reads) app a = true := by
        have hmanaged' : managedBy cat (cat.installs app) a.pluginId = true := hmanaged
        have hne := ne_nil_of_mem_activeStreamRooms hroom
        simp [astray, stray, happ, hlive, hmanaged', hstream, hne, hunread]
      have hbehind := hrow k a hk
      rw [retireAll, if_pos hastray] at hbehind
      have hstatus : a.status ≠ .revoked := by
        simp only [Assignment.live, Bool.and_eq_true, decide_eq_true_eq] at hlive
        exact hlive.1
      exact hended k a a.revoked hk hbehind hstatus rfl room hstream hroom
    · intro hread k a b ha hb hstatus hrevoked room hstream hroom
      rw [hrow k a ha] at hb
      unfold retireAll at hb
      split at hb
      · rename_i hastray
        simp only [astray, Bool.and_eq_true, decide_eq_true_eq] at hastray
        obtain ⟨⟨⟨happ, hlive⟩, hmanaged⟩, hstray⟩ := hastray
        have hmem := hread a (mem_of_getElem? ha) happ hlive hmanaged room hroom hstream
        simp [stray, hstream, hmem] at hstray
      · cases hb
        exact hstatus hrevoked

/-- With the rooms read, only the assignment of the room that ended is revoked. -/
theorem reconcileApp_revokes_gate :
    ((livePass true (withRows [runningOn (str "counting") (str "cam"),
        runningOn (str "counting") (str "gate")])).rows.map Assignment.status) =
          [.running, .revoked] ∧
      ∀ (k : ℕ) (a b : Assignment),
        (withRows [runningOn (str "counting") (str "cam"),
          runningOn (str "counting") (str "gate")]).rows[k]? = some a →
        (livePass true (withRows [runningOn (str "counting") (str "cam"),
          runningOn (str "counting") (str "gate")])).rows[k]? = some b →
        a.status ≠ .revoked → b.status = .revoked →
        ∀ room, a.streamId = some room → room ∉ activeStreamRooms liveStreams :=
  ⟨by decide, (reconcileApp_revokes_ended_iff roundRobinEnv liveCatalog 0 (str "live") liveStreams
    (roomReads true) (fun _ => answered) _ fun _ => answered_ok).mpr
      (.inr fun _ _ _ _ _ _ hroom _ => (activeRooms_of_complete liveStreams
        roomReads_complete).symm ▸ hroom)⟩

/-- The query of the rooms fails once and work on an active room is revoked. -/
theorem failed_query_revokes_running :
    str "cam" ∈ activeStreamRooms liveStreams ∧
      (livePass false (withRows [runningOn (str "counting") (str "cam")])).rows.map
        Assignment.status = [.revoked] := by decide

end StreamHub.Edge
