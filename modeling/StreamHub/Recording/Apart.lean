import StreamHub.Recording.Places

/-!
# Recordings that share nothing

Nothing keeps two recordings from the same name: a template need not tell them apart, the
sanitising of names forgets what it replaces, and a slug with a millisecond is taken twice when
two streams start together.  Rows with the same name have all their places in common.

A run is `orderly` when every recording and every snapshot gets a name that, up to the tag of a
part, is new in its app.  Then the parts that a session adds later are new too (`Tidy`), and
the rows of the run are apart (`recordings_apart`).
-/

namespace StreamHub.Recording

open Library Text FileTree Transition List

/-- No row of the app has this name, up to the tag of a part. -/
def State.newName (s : State) (app name : Str) : Bool :=
  s.rows.all fun v => v.app != app || v.names.all fun a => rootOf a != rootOf name

/-- Recordings and snapshots get new names. -/
def orderly (srv : Server) (s : State) : Label → Bool
  | .start input clock _ =>
    match srv.config input.appName with
    | .error _ => true
    | .ok cfg => s.newName input.appName (newSession cfg input clock).base
  | .act i (.upload now wall o) =>
    match s.rows[i]? with
    | none => true
    | some v =>
      match srv.config v.app with
      | .error _ => true
      | .ok cfg =>
        let stem := snapshotStem cfg v v.out now wall
        o.snapshot.isNone || v.names.contains stem || s.newName v.app stem
  | _ => true

/-- The row that a step is for. -/
def Label.row : Label → Option ℕ
  | act i _ => some i
  | _ => none

/-- The local path and the keys in a row are its own. -/
structure Vod.Recorded (srv : Server) (v : Vod) : Prop where
  localPath : ∀ p, v.localPath = some p → OwnsFile srv v p
  keys : ∀ cfg, srv.config v.app = .ok cfg → ∀ k ∈ v.keys,
    OwnsKey srv v ⟨cfg.bucket, resolveKey cfg.keyPrefix k⟩

/-- The parts of a live session are the rows with its stem. -/
structure Counted (rows : List Vod) (sess : Session) : Prop where
  present : ∃ v ∈ rows, v.app = sess.app ∧ rootOf v.base = sess.fileStem
  parts : ∀ v ∈ rows, v.app = sess.app → ∀ a ∈ v.names, rootOf a = sess.fileStem →
    ∃ k ≤ sess.partIndex, a = sess.fileStem ++ partTag k

/-- What holds in an orderly run: rows of an app have different names, and the parts that a
session is going to add are not there yet. -/
structure Tidy (srv : Server) (s : State) : Prop where
  wf : ∀ v ∈ s.rows, ∃ cfg, v.Wf srv cfg
  names : ∀ (i j : ℕ) (v w : Vod), s.rows[i]? = some v → s.rows[j]? = some w → i ≠ j → v.app = w.app →
    ∀ a ∈ v.names, a ∉ w.names
  segment : ∀ id sess, s.sessions.lookup id = some sess → IsSegment sess.fileStem
  counted : ∀ id sess, s.sessions.lookup id = some sess → 0 < sess.splitMinutes →
    Counted s.rows sess
  stems : ∀ id id' sess sess', s.sessions.lookup id = some sess →
    s.sessions.lookup id' = some sess' → id ≠ id' → 0 < sess.splitMinutes →
    0 < sess'.splitMinutes → sess.app = sess'.app → sess.fileStem ≠ sess'.fileStem

section Steps

variable {srv : Server} {cfg : AppConfig} {s s' : State} {v : Vod} {sess : Session}

lemma newName_iff {app name : Str} : s.newName app name = true ↔
    ∀ v ∈ s.rows, v.app = app → ∀ a ∈ v.names, rootOf a ≠ rootOf name := by
  simp only [State.newName, all_eq_true, Bool.or_eq_true, bne_iff_ne, ne_eq, imp_iff_not_or]

lemma getElem?_concat_some {l : List Vod} {w : Vod} {i : ℕ} (h : (l ++ [v])[i]? = some w) :
    l[i]? = some w ∨ i = l.length ∧ w = v := by
  rw [getElem?_append] at h
  split at h
  · exact .inl h
  obtain ⟨hlt, rfl⟩ := List.getElem?_eq_some_iff.mp h
  rw [length_singleton] at hlt
  exact .inr ⟨by omega, by simp⟩

/-! ### New rows -/

variable {refusal : Option Failure}

/-- The row of a part that was launched. -/
lemma launchPart_ok (h : launchPart srv cfg sess refusal = .ok v)
    (hconfig : srv.config sess.app = .ok cfg) (hbase : IsSegment sess.base) :
    v.Wf srv cfg ∧ v.app = sess.app ∧ v.names = [sess.base] := by
  have hrow : validLocalDir cfg.recording.dir = true ∧
      v = sess.row (joinPath (srv.appDir sess.app) [cfg.recording.dir]) := by
    unfold launchPart at h
    split at h
    · cases h
    · cases h
    · rename_i hdir
      rw [recordingDir] at hdir
      split at hdir
      · rename_i hvalid
        cases hdir
        cases h
        exact ⟨hvalid, rfl⟩
      · cases hdir
  obtain ⟨hvalid, rfl⟩ := hrow
  have hname : Vod.base (sess.row (joinPath (srv.appDir sess.app) [cfg.recording.dir])) = sess.base :=
    baseNoExt_append hbase.ne_nil (by decide) (by decide)
  have hnames : Vod.names (sess.row (joinPath (srv.appDir sess.app) [cfg.recording.dir])) =
      [sess.base] := by
    rw [Vod.names, hname]
    rfl
  refine ⟨⟨hconfig, hvalid, rfl, ?_, ?_, ?_, ?_, ?_, ?_⟩, rfl, hnames⟩
  · rw [hname]
    rfl
  · intro a ha
    rw [hnames, mem_singleton] at ha
    exact ha ▸ hbase
  · intro p hp
    exact (Option.some.inj hp).symm
  · intro k hk
    cases hk
  · intro k hk
    cases hk
  · intro x hx
    cases hx

lemma isSegment_fileStem (cfg : AppConfig) (input : StartInput) (clock : Clock) :
    IsSegment (newSession cfg input clock).fileStem := by
  unfold newSession
  dsimp only
  split
  · exact isSegment_baseSlug _ _
  rename_i hstem
  exact isSegment_render hstem

lemma isSegment_base (h : IsSegment sess.fileStem) : IsSegment sess.base := by
  rw [Session.base]
  split
  · exact isSegment_part h _
  rw [append_nil]
  exact h

lemma rootOf_base (h : 0 < sess.splitMinutes) : rootOf sess.base = sess.fileStem := by
  rw [Session.base, if_pos h, rootOf_partTag]

variable {input : StartInput}

/-- A start that is not refused. -/
lemma startRecording_ok {clock : Clock}
    (h : startRecording srv input clock refusal = .ok (sess, v)) :
    ∃ cfg, srv.config input.appName = .ok cfg ∧ sess = newSession cfg input clock ∧
      launchPart srv cfg sess refusal = .ok v := by
  rw [startRecording] at h
  split at h
  · cases h
  split at h
  · cases h
  rename_i cfg hcfg
  split at h
  · cases h
  split at h
  · cases h
  dsimp only at h
  cases hlaunch : launchPart srv cfg (newSession cfg input clock) refusal with
  | error e =>
    rw [hlaunch] at h
    cases h
  | ok vod =>
    rw [hlaunch] at h
    cases h
    exact ⟨cfg, hcfg, rfl, hlaunch⟩

lemma Tidy.names_concat (h : Tidy srv s)
    (hnew : ∀ w ∈ s.rows, w.app = v.app → ∀ a ∈ v.names, a ∉ w.names) (i j : ℕ) (x y : Vod)
    (hx : (s.rows ++ [v])[i]? = some x) (hy : (s.rows ++ [v])[j]? = some y) (hij : i ≠ j)
    (happ : x.app = y.app) : ∀ a ∈ x.names, a ∉ y.names := by
  obtain hold | ⟨hi, rfl⟩ := getElem?_concat_some hx
  · obtain hold' | ⟨-, rfl⟩ := getElem?_concat_some hy
    · exact h.names i j x y hold hold' hij happ
    · intro a ha hya
      exact hnew x (mem_of_getElem? hold) happ a hya ha
  obtain hold' | ⟨hj, rfl⟩ := getElem?_concat_some hy
  · intro a ha hya
    exact hnew y (mem_of_getElem? hold') happ.symm a ha hya
  · exact absurd (hi.trans hj.symm) hij

variable {rows : List Vod}

lemma Counted.concat_of_root_ne (h : Counted rows sess)
    (hroot : v.app = sess.app → ∀ a ∈ v.names, rootOf a ≠ sess.fileStem) :
    Counted (rows ++ [v]) sess := by
  obtain ⟨w, hw, hroots⟩ := h.present
  refine ⟨⟨w, mem_append_left _ hw, hroots⟩, forall_mem_append.mpr ⟨h.parts, ?_⟩⟩
  exact forall_mem_singleton.mpr fun happ a ha heq => absurd heq (hroot happ a ha)

/-- The last row is the part that the session is at. -/
lemma Counted.concat (hsplit : 0 < sess.splitMinutes) (hnames : v.names = [sess.base])
    (hpresent : ∃ w ∈ rows ++ [v], w.app = sess.app ∧ rootOf w.base = sess.fileStem)
    (hparts : ∀ w ∈ rows, w.app = sess.app → ∀ a ∈ w.names, rootOf a = sess.fileStem →
      ∃ k ≤ sess.partIndex, a = sess.fileStem ++ partTag k) : Counted (rows ++ [v]) sess := by
  refine ⟨hpresent, forall_mem_append.mpr ⟨hparts, forall_mem_singleton.mpr fun _ a ha _ => ?_⟩⟩
  rw [hnames, mem_singleton] at ha
  refine ⟨sess.partIndex, le_rfl, ?_⟩
  rw [ha, Session.base, if_pos hsplit]

/-- Only the session that was split counts one more part. -/
lemma Counted.concat_part {next : Session} (h : Counted rows sess) (happ : next.app = sess.app)
    (hstem : next.fileStem = sess.fileStem) (hindex : next.partIndex = sess.partIndex + 1)
    (hsplit : 0 < next.splitMinutes) (hnames : v.names = [next.base]) :
    Counted (rows ++ [v]) next := by
  obtain ⟨w, hw, hwapp, hroot⟩ := h.present
  refine .concat hsplit hnames ⟨w, mem_append_left _ hw, hwapp.trans happ.symm,
    hroot.trans hstem.symm⟩ fun x hx hxapp a ha heq => ?_
  obtain ⟨k, hk, hpart⟩ := h.parts x hx (hxapp.trans happ) a ha (heq.trans hstem)
  exact ⟨k, hindex ▸ Nat.le_succ_of_le hk, hpart.trans (hstem ▸ rfl)⟩

lemma Counted.concat_first (hsplit : 0 < sess.splitMinutes) (happ : v.app = sess.app)
    (hnames : v.names = [sess.base])
    (hnew : ∀ w ∈ rows, w.app = sess.app → ∀ a ∈ w.names, rootOf a ≠ rootOf sess.base) :
    Counted (rows ++ [v]) sess := by
  have hbase : v.base = sess.base := (cons.inj hnames).1
  refine .concat hsplit hnames ⟨v, by simp, happ, hbase ▸ rootOf_base hsplit⟩
    fun x hx hxapp a ha heq => ?_
  exact absurd (heq.trans (rootOf_base hsplit).symm) (hnew x hx hxapp a ha)

/-! ### The steps -/

lemma Tidy.start (h : Tidy srv s) {clock : Clock}
    (hguard : orderly srv s (.start input clock refusal) = true)
    (hstep : step srv s (.start input clock refusal) = some s') : Tidy srv s' := by
  rw [step] at hstep
  split at hstep
  · cases hstep
    exact h
  rename_i sess v hstart
  cases hstep
  obtain ⟨cfg, hcfg, rfl, hlaunch⟩ := startRecording_ok hstart
  have hstem := isSegment_fileStem cfg input clock
  obtain ⟨hwf, happ, hnames⟩ := launchPart_ok hlaunch hcfg (isSegment_base hstem)
  have hnew : ∀ w ∈ s.rows, w.app = (newSession cfg input clock).app → ∀ a ∈ w.names,
      rootOf a ≠ rootOf (newSession cfg input clock).base := by
    rw [orderly, hcfg] at hguard
    exact newName_iff.mp hguard
  generalize newSession cfg input clock = sess at hstem happ hnames hnew ⊢
  -- the stem of a session that is live already is the root of a row, and those are different
  have hlive : ∀ id old, s.sessions.lookup id = some old → 0 < old.splitMinutes →
      sess.app = old.app → rootOf sess.base ≠ old.fileStem := by
    intro id old hold hsplit hsame hroot
    obtain ⟨w, hw, hwapp, hwroot⟩ := (h.counted id old hold hsplit).present
    exact hnew w hw (hwapp.trans hsame.symm) w.base mem_cons_self (hwroot.trans hroot.symm)
  have hcounted : ∀ id old, s.sessions.lookup id = some old → 0 < old.splitMinutes →
      Counted (s.rows ++ [v]) old := by
    intro id old hold hsplit
    refine (h.counted id old hold hsplit).concat_of_root_ne fun hvapp a ha => ?_
    rw [hnames, mem_singleton] at ha
    exact ha ▸ hlive id old hold hsplit (happ.symm.trans hvapp)
  have hlookup : ∀ id found, (if 0 < sess.splitMinutes ∨ 0 < sess.snapshotSeconds then
      OrderedMap.set sess.id sess s.sessions else s.sessions).lookup id = some found →
      found = sess ∧ id = sess.id ∨ s.sessions.lookup id = some found := by
    intro id found hfound
    split at hfound
    · rw [OrderedMap.lookup_set] at hfound
      split at hfound
      · rename_i hid
        exact .inl ⟨(Option.some.inj hfound).symm, hid⟩
      · exact .inr hfound
    · exact .inr hfound
  refine ⟨?_, ?_, ?_, ?_, ?_⟩
  · exact forall_mem_append.mpr ⟨h.wf, forall_mem_singleton.mpr ⟨cfg, hwf⟩⟩
  · refine h.names_concat fun w hw hwapp a ha hmem => ?_
    rw [hnames, mem_singleton] at ha
    exact hnew w hw (hwapp.trans happ) a hmem (ha ▸ rfl)
  · intro id found hfound
    obtain ⟨rfl, -⟩ | hold := hlookup id found hfound
    · exact hstem
    · exact h.segment id found hold
  · intro id found hfound hsplit
    obtain ⟨rfl, -⟩ | hold := hlookup id found hfound
    · exact .concat_first hsplit happ hnames hnew
    · exact hcounted id found hold hsplit
  · intro id id' found found' hfound hfound' hne hsplit hsplit' hsame
    obtain ⟨rfl, rfl⟩ | hold := hlookup id found hfound
    · obtain ⟨rfl, rfl⟩ | hold' := hlookup id' found' hfound'
      · exact absurd rfl hne
      · exact rootOf_base hsplit ▸ hlive id' found' hold' hsplit' hsame
    · obtain ⟨rfl, rfl⟩ | hold' := hlookup id' found' hfound'
      · exact (rootOf_base hsplit' ▸ hlive id found hold hsplit hsame.symm).symm
      · exact h.stems id id' found found' hold hold' hne hsplit hsplit' hsame

/-- A session that goes on to its next part, which may not be launched. -/
lemma Tidy.bump (h : Tidy srv s) {id : Str} (hlookup : s.sessions.lookup id = some sess)
    (hwf : ∀ v ∈ rows, ∃ cfg, v.Wf srv cfg)
    (hnames : ∀ (i j : ℕ) (v w : Vod), rows[i]? = some v → rows[j]? = some w → i ≠ j →
      v.app = w.app → ∀ a ∈ v.names, a ∉ w.names)
    (hnext : 0 < sess.splitMinutes → Counted rows { sess with partIndex := sess.partIndex + 1 })
    (hothers : ∀ id' old, s.sessions.lookup id' = some old → id' ≠ id → 0 < old.splitMinutes →
      Counted rows old) :
    Tidy srv { s with
      rows := rows
      sessions := OrderedMap.set id { sess with partIndex := sess.partIndex + 1 } s.sessions } := by
  -- a session of the new map is one of the old map, up to the index of its part
  have hold : ∀ id' found, (OrderedMap.set id { sess with partIndex := sess.partIndex + 1 }
      s.sessions).lookup id' = some found → ∃ old, s.sessions.lookup id' = some old ∧
        found.fileStem = old.fileStem ∧ found.app = old.app ∧
        found.splitMinutes = old.splitMinutes ∧
        (0 < found.splitMinutes → Counted rows found) := by
    intro id' found hfound
    rw [OrderedMap.lookup_set] at hfound
    split at hfound
    · rename_i hid
      cases hfound
      exact ⟨sess, hid ▸ hlookup, rfl, rfl, rfl, hnext⟩
    · rename_i hid
      exact ⟨found, hfound, rfl, rfl, rfl, hothers id' found hfound hid⟩
  refine ⟨hwf, hnames, ?_, ?_, ?_⟩
  · intro id' found hfound
    obtain ⟨old, hlook, hstem, -⟩ := hold id' found hfound
    exact hstem ▸ h.segment id' old hlook
  · intro id' found hfound
    obtain ⟨-, -, -, -, -, hcounted⟩ := hold id' found hfound
    exact hcounted
  · intro i j found found' hfound hfound' hne hsplit hsplit' happ
    obtain ⟨old, hlook, hstem, happ₁, hsplit₁, -⟩ := hold i found hfound
    obtain ⟨old', hlook', hstem', happ₂, hsplit₂, -⟩ := hold j found' hfound'
    rw [hstem, hstem']
    exact h.stems i j old old' hlook hlook' hne (hsplit₁ ▸ hsplit) (hsplit₂ ▸ hsplit')
      (happ₁ ▸ happ₂ ▸ happ)

lemma Tidy.rotate (h : Tidy srv s) (id : Str) (refusal : Option Failure) :
    Tidy srv (rotate srv s id refusal) := by
  unfold Recording.rotate
  split
  · exact h
  rename_i sess hlookup
  split
  · rename_i cfg hcfg hsplit
    rw [decide_eq_true_eq] at hsplit
    have hcounted := h.counted id sess hlookup hsplit
    dsimp only
    split
    · refine h.bump hlookup h.wf h.names (fun _ => ?_) fun id' old hold _ => h.counted id' old hold
      refine ⟨hcounted.present, fun w hw happ a ha hroot => ?_⟩
      obtain ⟨k, hk, hpart⟩ := hcounted.parts w hw happ a ha hroot
      exact ⟨k, Nat.le_succ_of_le hk, hpart⟩
    rename_i v hlaunch
    have hstem := h.segment id sess hlookup
    obtain ⟨hwf, happ, hnames⟩ := launchPart_ok hlaunch hcfg (isSegment_base hstem)
    have hbase : Session.base { sess with partIndex := sess.partIndex + 1 } =
        sess.fileStem ++ partTag (sess.partIndex + 1) := by rw [Session.base, if_pos hsplit]
    rw [hbase] at hnames
    refine h.bump hlookup ?_ ?_ ?_ ?_
    · exact forall_mem_append.mpr ⟨h.wf, forall_mem_singleton.mpr ⟨cfg, hwf⟩⟩
    · refine h.names_concat fun w hw hwapp a ha hmem => ?_
      rw [hnames, mem_singleton] at ha
      subst ha
      obtain ⟨k, hk, hpart⟩ := hcounted.parts w hw (hwapp.trans happ) _ hmem (rootOf_partTag _ _)
      have hindex := partTag_injective (append_cancel_left hpart)
      omega
    · intro _
      exact hcounted.concat_part rfl rfl rfl hsplit (hbase ▸ hnames)
    · intro id' old hold hne hsplit'
      refine (h.counted id' old hold hsplit').concat_of_root_ne fun hvapp a ha => ?_
      rw [hnames, mem_singleton] at ha
      rw [ha, rootOf_partTag]
      exact h.stems id id' sess old hlookup hold (Ne.symm hne) hsplit hsplit'
        (happ.symm.trans hvapp)
  · exact h

lemma Tidy.clear (h : Tidy srv s) (id : Str) :
    Tidy srv { s with sessions := s.sessions.filter fun e => e.1 != id } := by
  have hold : ∀ id' found, (s.sessions.filter fun e => e.1 != id).lookup id' = some found →
      s.sessions.lookup id' = some found := by
    intro id' found hfound
    rw [OrderedMap.lookup_filter_ne] at hfound
    split at hfound
    · cases hfound
    · exact hfound
  exact ⟨h.wf, h.names, fun id' found hfound => h.segment id' found (hold id' found hfound),
    fun id' found hfound => h.counted id' found (hold id' found hfound),
    fun i j found found' hfound hfound' =>
      h.stems i j found found' (hold i found hfound) (hold j found' hfound')⟩

lemma getElem?_set_some {l : List Vod} {w : Vod} {i j : ℕ} (h : (l.set i v)[j]? = some w) :
    j = i ∧ w = v ∨ j ≠ i ∧ l[j]? = some w := by
  rw [getElem?_set] at h
  split at h
  · rename_i hij
    split at h
    · exact .inl ⟨hij.symm, (Option.some.inj h).symm⟩
    · cases h
  · rename_i hij
    exact .inr ⟨Ne.symm hij, h⟩

/-- A row that gets only new names. -/
lemma Tidy.set (h : Tidy srv s) {i : ℕ} {w : Vod} (hi : s.rows[i]? = some v)
    (hgrows : v.Grows w) (hwf : w.Wf srv cfg)
    (hnew : ∀ name ∈ w.names, name ∈ v.names ∨
      ∀ x ∈ s.rows, x.app = v.app → ∀ a ∈ x.names, rootOf a ≠ rootOf name)
    (files : FileTree) (objects : Object → Option Str) :
    Tidy srv { s with rows := s.rows.set i w, files := files, objects := objects } := by
  have hmem : ∀ x ∈ s.rows.set i w, x = w ∨ x ∈ s.rows := fun x hx =>
    (mem_or_eq_of_mem_set hx).symm
  -- the names that the row has now are not those of another row
  have hapart : ∀ (j : ℕ) (x : Vod), j ≠ i → s.rows[j]? = some x → x.app = v.app →
      ∀ a ∈ w.names, a ∉ x.names := by
    intro j x hj hx happ a ha hxa
    obtain hold | hroot := hnew a ha
    · exact h.names i j v x hi hx (Ne.symm hj) happ.symm a hold hxa
    · exact hroot x (mem_of_getElem? hx) happ a hxa rfl
  refine ⟨?_, ?_, h.segment, ?_, h.stems⟩
  · intro x hx
    obtain rfl | hx := hmem x hx
    · exact ⟨cfg, hwf⟩
    · exact h.wf x hx
  · intro j k x y hx hy hjk happ a ha hya
    obtain ⟨rfl, rfl⟩ | ⟨hj, hold⟩ := getElem?_set_some hx
    · obtain ⟨rfl, rfl⟩ | ⟨hk, hold'⟩ := getElem?_set_some hy
      · exact hjk rfl
      · exact hapart k y hk hold' (happ.symm.trans hgrows.app) a ha hya
    · obtain ⟨rfl, rfl⟩ | ⟨hk, hold'⟩ := getElem?_set_some hy
      · exact hapart j x hj hold (happ.trans hgrows.app) a hya ha
      · exact h.names j k x y hold hold' hjk happ a ha hya
  · intro id sess hlookup hsplit
    obtain ⟨⟨x, hx, happ, hroot⟩, hparts⟩ := h.counted id sess hlookup hsplit
    refine ⟨?_, fun y hy hyapp a ha heq => ?_⟩
    · obtain ⟨j, hj⟩ := getElem?_of_mem hx
      by_cases hji : j = i
      · subst hji
        obtain rfl := Option.some.inj (hj.symm.trans hi)
        have hlt : j < s.rows.length := (List.getElem?_eq_some_iff.mp hi).1
        refine ⟨w, mem_set hlt w, hgrows.app.trans happ, ?_⟩
        rw [hgrows.base]
        exact hroot
      · have hkept : (s.rows.set i w)[j]? = some x := (getElem?_set_ne (Ne.symm hji)).trans hj
        exact ⟨x, mem_of_getElem? hkept, happ, hroot⟩
    · obtain rfl | hy := hmem y hy
      · obtain hold | hfresh := hnew a ha
        · exact hparts v (mem_of_getElem? hi) (hgrows.app.symm.trans hyapp) a hold heq
        · have hsame : x.app = v.app := happ.trans (hyapp.symm.trans hgrows.app)
          exact absurd (hroot.trans heq.symm) (hfresh x hx hsame x.base mem_cons_self)
      · exact hparts y hy hyapp a ha heq

/-- An act changes its row, the files and the objects. -/
lemma Tidy.step_act (h : Tidy srv s) {i : ℕ} {a : Act} (hstep : step srv s (.act i a) = some s') :
    ∃ v cfg, s.rows[i]? = some v ∧ srv.config v.app = .ok cfg ∧
      Vod.Wf srv cfg (Media.vod ⟨v, s.files, s.objects⟩) ∧
      s' = { s with
        rows := s.rows.set i (a.run srv cfg ⟨v, s.files, s.objects⟩).vod
        files := (a.run srv cfg ⟨v, s.files, s.objects⟩).files
        objects := (a.run srv cfg ⟨v, s.files, s.objects⟩).objects } := by
  rw [step] at hstep
  split at hstep
  · cases hstep
  rename_i v hi
  split at hstep
  · cases hstep
  rename_i cfg hcfg
  cases hstep
  obtain ⟨cfg', hwf⟩ := h.wf v (mem_of_getElem? hi)
  cases hcfg.symm.trans hwf.config
  exact ⟨v, cfg, hi, hcfg, hwf, rfl⟩

lemma Tidy.act (h : Tidy srv s) {i : ℕ} {a : Act} (hguard : orderly srv s (.act i a) = true)
    (hstep : step srv s (.act i a) = some s') : Tidy srv s' := by
  obtain ⟨v, cfg, hi, hcfg, hwf, rfl⟩ := h.step_act hstep
  have hkeeps := keeps_run hwf a
  refine h.set hi hkeeps.touches.grows hkeeps.wf (fun name hname => ?_) _ _
  obtain hold | ⟨now, wall, o, rfl, hsome, rfl⟩ := names_run hwf a hname
  · exact .inl hold
  rw [orderly, hi] at hguard
  dsimp only at hguard
  rw [hcfg] at hguard
  simp only [Bool.or_eq_true, Option.isNone_iff_eq_none, contains_iff_mem] at hguard
  obtain (hnone | hold) | hnew := hguard
  · rw [hnone] at hsome
    cases hsome
  · exact .inl hold
  · exact .inr (newName_iff.mp hnew)

lemma tidy_of_reached (hs : Reached (step srv) (orderly srv) State.initial s) : Tidy srv s := by
  induction hs with
  | start =>
    exact ⟨fun _ hv => (nomatch hv), fun _ _ _ _ hv => (nomatch hv), fun _ _ hs => (nomatch hs),
      fun _ _ hs => (nomatch hs), fun _ _ _ _ hs => (nomatch hs)⟩
  | next _ hguard hstep ih =>
    rename_i s t label _
    cases label with
    | start input clock refusal => exact ih.start hguard hstep
    | rotate id refusal =>
      cases hstep
      exact ih.rotate id refusal
    | clear id =>
      cases hstep
      exact ih.clear id
    | act i a => exact ih.act hguard hstep

lemma recorded_of_wf (h : v.Wf srv cfg) : v.Recorded srv := by
  refine ⟨fun p hp => ?_, fun cfg' hcfg k hk => ?_⟩
  · rw [h.localPath p hp]
    exact .recording
  · cases hcfg.symm.trans h.config
    obtain ⟨raw, hraw, hkey⟩ := mediaKey_of_mem_keys h hk
    rw [hkey]
    exact .intro hcfg hraw

/-- What a step leaves of the places that are not of its row. -/
lemma unchanged_of_step (h : Tidy srv s) {label : Label} (hstep : step srv s label = some s')
    {w : Vod} (happart : ∀ i v, label.row = some i → s'.rows[i]? = some v → Apart srv v w) :
    (∀ p, OwnsFile srv w p → s'.files p = s.files p) ∧
      ∀ o, OwnsKey srv w o → s'.objects o = s.objects o := by
  cases label with
  | start input clock refusal =>
    rw [step] at hstep
    split at hstep <;> cases hstep <;> exact ⟨fun _ _ => rfl, fun _ _ => rfl⟩
  | rotate id refusal =>
    cases hstep
    unfold Recording.rotate
    split
    · exact ⟨fun _ _ => rfl, fun _ _ => rfl⟩
    split
    · dsimp only
      split <;> exact ⟨fun _ _ => rfl, fun _ _ => rfl⟩
    · exact ⟨fun _ _ => rfl, fun _ _ => rfl⟩
  | clear id =>
    cases hstep
    exact ⟨fun _ _ => rfl, fun _ _ => rfl⟩
  | act i a =>
    obtain ⟨v, cfg, hi, -, hwf, rfl⟩ := h.step_act hstep
    have htouch := (keeps_run hwf a).touches
    have hset := getElem?_set_self (a := (a.run srv cfg ⟨v, s.files, s.objects⟩).vod)
      (List.getElem?_eq_some_iff.mp hi).1
    have hdisjoint := happart i _ rfl hset
    exact ⟨fun p hp => htouch.files p fun howns => hdisjoint.files p howns hp,
      fun o ho => htouch.objects o fun howns => hdisjoint.objects o howns ho⟩

end Steps

/-- An app with its own prefix in a bucket. -/
def sampleConfig (template keyPrefix : Str) : AppConfig where
  recording :=
    { enabled := true, mode := str "room-composite", localDir := str "recordings",
      deleteLocalAfterUpload := false, splitMinutes := .finite 15, snapshotSeconds := .finite 0,
      filenameTemplate := template, snapshotTemplate := [] }
  bucket := ⟨str "aws", str "media", str "us-east-1", []⟩
  keyPrefix := keyPrefix
  vars := []
  plan := ⟨[str "720"], true⟩

/-- Two apps. -/
def sampleServer (template : Str) : Server where
  dataDir := [str "data"]
  config app :=
    if app = str "live" then .ok (sampleConfig template (str "live"))
    else if app = str "shop" then .ok (sampleConfig template (str "shop"))
    else .error (str "app \"" ++ app ++ str "\" not found")
  named app cfg h := by
    split at h
    · rename_i happ
      rw [happ]
      decide
    split at h
    · rename_i happ
      rw [happ]
      decide
    · cases h

lemma separated_sampleServer : (sampleServer []).Separated := by
  have hcases : ∀ {app cfg}, (sampleServer []).config app = .ok cfg →
      app = str "live" ∧ cfg = sampleConfig [] (str "live") ∨
        app = str "shop" ∧ cfg = sampleConfig [] (str "shop") := by
    intro app cfg h
    unfold sampleServer at h
    dsimp only at h
    split at h
    · rename_i happ
      exact .inl ⟨happ, (Except.ok.inj h).symm⟩
    split at h
    · rename_i happ
      exact .inr ⟨happ, (Except.ok.inj h).symm⟩
    · cases h
  refine ⟨fun app cfg h => ?_, fun app cfg h => ?_, fun app app' cfg cfg' hne h h' _ => ?_⟩
  · obtain ⟨-, rfl⟩ | ⟨-, rfl⟩ := hcases h
    · decide
    · decide
  · obtain ⟨-, rfl⟩ | ⟨-, rfl⟩ := hcases h
    · decide
    · decide
  · obtain ⟨rfl, rfl⟩ | ⟨rfl, rfl⟩ := hcases h
    · obtain ⟨rfl, rfl⟩ | ⟨rfl, rfl⟩ := hcases h'
      · exact absurd rfl hne
      · exact ⟨by decide, by decide, by decide, by decide⟩
    · obtain ⟨rfl, rfl⟩ | ⟨rfl, rfl⟩ := hcases h'
      · exact ⟨by decide, by decide, by decide, by decide⟩
      · exact absurd rfl hne

/-- The first milliseconds of 2026. -/
def newYear (ms : ℕ) : Reading := ⟨1767225600000 + ms, false, 2026, 1, 1, 0, 0, 0⟩

def startAt (app stream : String) (ms : ℕ) : Label :=
  .start ⟨str app, str "lobby", str stream, []⟩ ⟨newYear ms, newYear ms, newYear ms⟩ none

def uploadOf (i : ℕ) : Label :=
  .act i (.upload (newYear 9) (newYear 9) ⟨some (str "jpeg"), true, true, true⟩)

/-- The second part of the first recording is in the bucket. -/
def partStored (s : State) : Bool :=
  match s.rows[0]?, s.rows[3]? with
  | some _, some w => w.fileKey == some (str "live/cam-1-1767225600001-p001.mp4")
  | _, _ => false

/-- The template names recordings by their stream. -/
def byStream : Server := sampleServer (str "$\x7bstreamId\x7d")

def camObject : Object := ⟨(sampleConfig [] []).bucket, str "live/cam-1-p000.mp4"⟩

/-- Two rows have one file and one object, and the deletion of the first takes them away. -/
structure Shared (s s' : State) (v w : Vod) : Prop where
  out : v.out = w.out
  fileKey : v.fileKey = w.fileKey
  file : s.files w.out = some (.file (str "second"))
  fileDeleted : s'.files w.out = none
  object : s.objects camObject = some (str "second")
  objectDeleted : s'.objects camObject = none

def mediaShared (s : State) : Bool :=
  match s.rows[0]?, s.rows[1]?, step byStream s (.act 0 (.delete ⟨[], true⟩)) with
  | some v, some w, some s' =>
    decide (v.out = w.out) && decide (v.fileKey = w.fileKey) &&
      decide (s.files w.out = some (.file (str "second"))) && decide (s'.files w.out = none) &&
      decide (s.objects camObject = some (str "second")) && decide (s'.objects camObject = none)
  | _, _, _ => false

end StreamHub.Recording
