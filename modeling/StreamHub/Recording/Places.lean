import StreamHub.Recording.Storage

/-!
# The places of a recording

`OwnsFile` and `OwnsKey` are the local files and the objects of a row.  Rows with different
names have no place in common (`apart_of_names`), and nothing that is done for a row touches a
place that is not of that row (`keeps_run`).
-/

namespace StreamHub.Recording

open Library Text FileTree Function
open List hiding removeAll

/-! ## Places -/

/-- The keys of a row, before they are put below the prefix of the app. -/
inductive MediaKey (v : Vod) : Str → Prop
  | recording : MediaKey v (v.base ++ str ".mp4")
  | snapshot {a : Str} (ha : a ∈ v.names) : MediaKey v (a ++ str ".jpg")
  | webm : MediaKey v (v.base ++ str ".webm")
  | hls (rest : Str) : MediaKey v (str "hls/" ++ v.base ++ str "/" ++ rest)

/-- The objects of a row. -/
inductive OwnsKey (srv : Server) (v : Vod) : Object → Prop
  | intro {cfg : AppConfig} {key : Str} (hcfg : srv.config v.app = .ok cfg) (hkey : MediaKey v key) :
      OwnsKey srv v ⟨cfg.bucket, resolveKey cfg.keyPrefix key⟩

/-- The local files of a row. -/
inductive OwnsFile (srv : Server) (v : Vod) : Path → Prop
  | recording : OwnsFile srv v v.out
  | snapshot {a : Str} (ha : a ∈ v.names) : OwnsFile srv v (srv.snapshotPath v.app a)
  | work {p : Path} (h : srv.workDir v.app v.base <+: p) : OwnsFile srv v p

/-- A row is as it was launched, and records nothing that it does not own. -/
structure Vod.Wf (srv : Server) (cfg : AppConfig) (v : Vod) : Prop where
  config : srv.config v.app = .ok cfg
  dir : validLocalDir cfg.recording.dir = true
  out : v.out = joinPath (joinPath (srv.appDir v.app) [cfg.recording.dir]) [v.name]
  name : v.name = v.base ++ str ".mp4"
  segment : ∀ a ∈ v.names, IsSegment a
  localPath : ∀ p, v.localPath = some p → p = v.out
  fileKey : ∀ k, v.fileKey = some k → k = resolveKey cfg.keyPrefix v.name
  snapshotKey : ∀ k, v.snapshotKey = some k →
    ∃ a ∈ v.names, k = resolveKey cfg.keyPrefix (a ++ str ".jpg")
  variants : ∀ x ∈ v.variants, ∀ k ∈ x.fileKey :: x.segmentKeys, MediaKey v k

/-- The name that a key belongs to. -/
def keyName (key : Str) : Str :=
  if (str "hls/").isPrefixOf key then (key.drop 4).takeWhile (· != slash) else baseNoExt key

/-- The name that a file in the directory of an app belongs to. -/
def placeName : List Str → Str
  | dir :: name :: _ => if dir = str "transcode" then name else baseNoExt name
  | _ => []

/-- Neither prefix is above the other. -/
def Unrelated (keyPrefix keyPrefix' : Str) : Prop :=
  trim slash keyPrefix ≠ [] ∧ trim slash keyPrefix' ≠ [] ∧
    ¬trim slash keyPrefix ++ [slash] <+: trim slash keyPrefix' ++ [slash] ∧
    ¬trim slash keyPrefix' ++ [slash] <+: trim slash keyPrefix ++ [slash]

/-- The configurations of the apps leave their places apart: recordings are not kept among the
working directories of the transcoder, prefixes not in the tree of renditions, and apps with
one bucket have prefixes of their own. -/
structure Server.Separated (srv : Server) : Prop where
  dir : ∀ app cfg, srv.config app = .ok cfg → cfg.recording.dir ≠ str "transcode"
  clear : ∀ app cfg, srv.config app = .ok cfg → clearOfHls cfg.keyPrefix = true
  apart : ∀ app app' cfg cfg', app ≠ app' → srv.config app = .ok cfg → srv.config app' = .ok cfg' →
    cfg.bucket = cfg'.bucket → Unrelated cfg.keyPrefix cfg'.keyPrefix

/-- Two rows have no file and no object in common. -/
structure Apart (srv : Server) (v w : Vod) : Prop where
  files : ∀ p, OwnsFile srv v p → ¬OwnsFile srv w p
  objects : ∀ o, OwnsKey srv v o → ¬OwnsKey srv w o

lemma isName_of_validLocalDir {dir : Str} (h : validLocalDir dir = true) : IsName dir := by
  simp only [validLocalDir, Bool.and_eq_true, decide_eq_true_eq, all_eq_true,
    Bool.not_eq_true'] at h
  obtain ⟨⟨⟨⟨hsafe, hne⟩, -⟩, hdot⟩, hdotdot⟩ := h
  refine ⟨hne, hdot, ?_, fun hslash => absurd (hsafe slash hslash) (by decide)⟩
  rintro rfl
  exact absurd hdotdot (by decide)

section Places

variable {srv : Server} {cfg cfg' : AppConfig} {v w : Vod} {p : Path} {a key : Str}

lemma appDir_eq (h : IsName a) : srv.appDir a = srv.dataDir ++ [str "apps", a] :=
  joinPath_names srv.dataDir (by simpa using ⟨by decide, h⟩)

lemma snapshotPath_eq {app : Str} (happ : IsName app) (ha : IsSegment a) :
    srv.snapshotPath app a = srv.dataDir ++ [str "apps", app, str "snapshots", a ++ str ".jpg"] := by
  have hfile : IsName (a ++ str ".jpg") := (ha.append (by decide) (by decide)).isName
  rw [Server.snapshotPath, joinPath_names _ (by simpa using ⟨by decide, hfile⟩), appDir_eq happ,
    append_assoc]
  rfl

lemma workDir_eq {app : Str} (happ : IsName app) (ha : IsSegment a) :
    srv.workDir app a = srv.dataDir ++ [str "apps", app, str "transcode", a] := by
  rw [Server.workDir, joinPath_names _ (by simpa using ⟨by decide, ha.isName⟩), appDir_eq happ,
    append_assoc]
  rfl

namespace Vod.Wf

variable (h : v.Wf srv cfg)

include h

lemma isName_app : IsName v.app := srv.named v.app cfg h.config

lemma base : IsSegment v.base := h.segment v.base mem_cons_self

lemma out_eq :
    v.out = srv.dataDir ++ [str "apps", v.app, cfg.recording.dir, v.base ++ str ".mp4"] := by
  have hfile : IsName (v.base ++ str ".mp4") := (h.base.append (by decide) (by decide)).isName
  have hdir : IsName cfg.recording.dir := isName_of_validLocalDir h.dir
  rw [h.out, h.name, joinPath_names _ (by simpa using hfile), joinPath_names _ (by simpa using hdir),
    appDir_eq h.isName_app, append_assoc, append_assoc]
  rfl

lemma fileName_out : fileName v.out = v.base ++ str ".mp4" := by
  rw [h.out_eq, fileName]
  simp

lemma baseNoExt_out : baseNoExt (fileName v.out) = v.base := by
  rw [h.fileName_out]
  exact baseNoExt_append h.base.ne_nil (by decide) (by decide)

lemma xcBaseNoExt_out : xcBaseNoExt v.out = v.base := by
  have hcut : cutLast period (v.base ++ str ".mp4") = some (v.base, str "mp4") :=
    cutLast_append v.base (by decide)
  rw [xcBaseNoExt, h.fileName_out, hcut]
  dsimp only
  rw [if_neg h.base.ne_nil]
  exact trimSuffix_append v.base (str ".mp4")

end Vod.Wf

lemma keyName_of_segment {ext : Str} (ha : IsSegment a) (hext : period ∉ ext) (hne : ext ≠ [])
    (hslash : slash ∉ ext) : keyName (a ++ period :: ext) = a := by
  have hflat : slash ∉ a ++ period :: ext := by
    rw [mem_append, mem_cons]
    rintro (hmem | hmem | hmem)
    · exact ha.no_slash hmem
    · cases hmem
    · exact hslash hmem
  have hhls : (str "hls/").isPrefixOf (a ++ period :: ext) ≠ true := fun hpre =>
    hflat ((List.isPrefixOf_iff_prefix.mp hpre).mem (by decide))
  rw [keyName, if_neg hhls]
  exact baseNoExt_append ha.ne_nil hext hne

/-- A key of a row has one of its names. -/
lemma keyName_mem (h : v.Wf srv cfg) (hkey : MediaKey v key) : keyName key ∈ v.names := by
  have hflat : ∀ a ∈ v.names, ∀ ext : Str, period ∉ ext → ext ≠ [] → slash ∉ ext →
      keyName (a ++ period :: ext) ∈ v.names := by
    intro a ha ext hext hne hslash
    rw [keyName_of_segment (h.segment a ha) hext hne hslash]
    exact ha
  cases hkey with
  | recording => exact hflat _ mem_cons_self (str "mp4") (by decide) (by decide) (by decide)
  | snapshot ha => exact hflat _ ha (str "jpg") (by decide) (by decide) (by decide)
  | webm => exact hflat _ mem_cons_self (str "webm") (by decide) (by decide) (by decide)
  | hls rest =>
    have hkey : str "hls/" ++ v.base ++ str "/" ++ rest =
        str "hls/" ++ (v.base ++ slash :: rest) := by
      rw [append_assoc]
      rfl
    have hall : ∀ b ∈ v.base, (b != slash) = true := fun b hb =>
      bne_iff_ne.mpr fun heq => h.base.no_slash (heq ▸ hb)
    have hname : keyName (str "hls/" ++ (v.base ++ slash :: rest)) = v.base := by
      change (v.base ++ slash :: rest).takeWhile (· != slash) = v.base
      rw [takeWhile_append_of_pos hall]
      simp
    rw [hkey, hname]
    exact mem_cons_self

lemma MediaKey.isKey (h : v.Wf srv cfg) (hkey : MediaKey v key) : IsKey key := by
  have hflat : ∀ a ∈ v.names, ∀ ext : Str, ext.all isSafe = true →
      ext.getLast? ≠ some period → IsKey (a ++ ext) := fun a ha ext hsafe hlast =>
    have hseg := (h.segment a ha).append hsafe hlast
    .inl ⟨hseg.ne_nil, hseg.no_slash⟩
  cases hkey with
  | recording => exact hflat _ mem_cons_self _ (by decide) (by decide)
  | snapshot ha => exact hflat _ ha _ (by decide) (by decide)
  | webm => exact hflat _ mem_cons_self _ (by decide) (by decide)
  | hls rest =>
    exact .inr (prefix_append _ _)

/-- A file of a row is below the directory of its app and has one of its names. -/
lemma OwnsFile.place (h : v.Wf srv cfg) (hdir : cfg.recording.dir ≠ str "transcode")
    (hp : OwnsFile srv v p) :
    ∃ rel, p = srv.dataDir ++ (str "apps" :: v.app :: rel) ∧ placeName rel ∈ v.names := by
  cases hp with
  | recording =>
    refine ⟨[cfg.recording.dir, v.base ++ str ".mp4"], h.out_eq, ?_⟩
    have hname : baseNoExt (v.base ++ str ".mp4") = v.base :=
      baseNoExt_append h.base.ne_nil (by decide) (by decide)
    rw [placeName, if_neg hdir, hname]
    exact mem_cons_self
  | snapshot ha =>
    rename_i a
    refine ⟨[str "snapshots", a ++ str ".jpg"], snapshotPath_eq h.isName_app (h.segment a ha), ?_⟩
    have hname : baseNoExt (a ++ str ".jpg") = a :=
      baseNoExt_append (h.segment a ha).ne_nil (by decide) (by decide)
    rw [placeName, hname]
    exact ha
  | work hp =>
    obtain ⟨rest, rfl⟩ := hp
    refine ⟨str "transcode" :: v.base :: rest, ?_, ?_⟩
    · rw [workDir_eq h.isName_app h.base, append_assoc]
      rfl
    · exact mem_cons_self

/-- Rows with different names, or of different apps, have nothing in common. -/
lemma apart_of_names (hsep : srv.Separated) (hv : v.Wf srv cfg) (hw : w.Wf srv cfg')
    (hnames : v.app = w.app → ∀ a ∈ v.names, a ∉ w.names) : Apart srv v w := by
  refine ⟨fun p hp hp' => ?_, fun o ho ho' => ?_⟩
  · obtain ⟨rel, rfl, hmem⟩ := hp.place hv (hsep.dir _ _ hv.config)
    obtain ⟨rel', heq, hmem'⟩ := hp'.place hw (hsep.dir _ _ hw.config)
    obtain ⟨-, happ, rfl⟩ : str "apps" = str "apps" ∧ v.app = w.app ∧ rel = rel' := by
      simpa using append_cancel_left heq
    exact hnames happ _ hmem hmem'
  · cases ho with
    | intro hcfg hkey =>
      rename_i cfg₁ key
      cases hv.config.symm.trans hcfg
      generalize hobject : (⟨cfg.bucket, resolveKey cfg.keyPrefix key⟩ : Object) = o at ho'
      cases ho' with
      | intro hcfg' hkey' =>
        rename_i cfg₂ key'
        cases hw.config.symm.trans hcfg'
        obtain ⟨hbucket, hresolved⟩ := Object.mk.inj hobject
        by_cases happ : v.app = w.app
        · have hsame : cfg = cfg' := by
            have hconfig := hv.config.symm.trans (happ ▸ hw.config)
            exact Except.ok.inj hconfig
          subst hsame
          have hkeys := resolveKey_injOn (hsep.clear _ _ hv.config) (hkey.isKey hv)
            (hkey'.isKey hw) hresolved
          subst hkeys
          exact hnames happ _ (keyName_mem hv hkey) (keyName_mem hw hkey')
        · obtain ⟨hne, hne', hout, hout'⟩ := hsep.apart _ _ _ _ happ hv.config hw.config hbucket
          have hbelow := below_resolveKey hne key
          have hbelow' := below_resolveKey hne' key'
          rw [← hresolved] at hbelow'
          exact (List.prefix_or_prefix_of_prefix hbelow hbelow').elim hout hout'

end Places

/-! ## What is done for a row -/

/-- A row is the same up to what it records and to further snapshots. -/
structure Vod.Grows (v w : Vod) : Prop where
  app : w.app = v.app
  name : w.name = v.name
  out : w.out = v.out
  shots : v.shots ⊆ w.shots

/-- Only places of the row are touched. -/
structure Touches (srv : Server) (m m' : Media) : Prop where
  grows : m.vod.Grows m'.vod
  files : ∀ p, ¬OwnsFile srv m'.vod p → m'.files p = m.files p
  objects : ∀ o, ¬OwnsKey srv m'.vod o → m'.objects o = m.objects o

section Touch

variable {srv : Server} {cfg : AppConfig} {v w : Vod} {m m' m'' : Media} {p : Path} {key : Str}

namespace Vod.Grows

variable (h : v.Grows w)

include h

lemma base : w.base = v.base := congrArg baseNoExt h.name

lemma names {a : Str} (ha : a ∈ v.names) : a ∈ w.names := by
  obtain rfl | ha := mem_cons.mp ha
  · exact h.base ▸ mem_cons_self
  · exact mem_cons_of_mem _ (h.shots ha)

lemma mediaKey (hkey : MediaKey v key) : MediaKey w key := by
  cases hkey with
  | recording => exact h.base ▸ .recording
  | snapshot ha => exact .snapshot (h.names ha)
  | webm => exact h.base ▸ .webm
  | hls rest => exact h.base ▸ .hls rest

lemma ownsKey {o : Object} (ho : OwnsKey srv v o) : OwnsKey srv w o := by
  cases ho with
  | intro hcfg hkey => exact .intro (h.app.symm ▸ hcfg) (h.mediaKey hkey)

lemma ownsFile (hp : OwnsFile srv v p) : OwnsFile srv w p := by
  cases hp with
  | recording => exact h.out ▸ .recording
  | snapshot ha => exact h.app ▸ .snapshot (h.names ha)
  | work hp => exact .work (h.app.symm ▸ h.base.symm ▸ hp)

end Vod.Grows

lemma Vod.Grows.refl (v : Vod) : v.Grows v := ⟨rfl, rfl, rfl, Subset.refl _⟩

namespace Touches

lemma refl (m : Media) : Touches srv m m := ⟨.refl _, fun _ _ => rfl, fun _ _ => rfl⟩

lemma trans (h : Touches srv m m') (h' : Touches srv m' m'') : Touches srv m m'' where
  grows :=
    ⟨h'.grows.app.trans h.grows.app, h'.grows.name.trans h.grows.name,
      h'.grows.out.trans h.grows.out, Subset.trans h.grows.shots h'.grows.shots⟩
  files p hp := (h'.files p hp).trans (h.files p fun howns => hp (h'.grows.ownsFile howns))
  objects o ho := (h'.objects o ho).trans (h.objects o fun howns => ho (h'.grows.ownsKey howns))

lemma vod (h : m.vod.Grows v) : Touches srv m { m with vod := v } :=
  ⟨h, fun _ _ => rfl, fun _ _ => rfl⟩

lemma update_files (hp : OwnsFile srv m.vod p) (node : Option Node) :
    Touches srv m { m with files := update m.files p node } := by
  refine ⟨.refl _, fun q hq => ?_, fun _ _ => rfl⟩
  have hne : q ≠ p := by
    rintro rfl
    exact hq hp
  exact update_of_ne hne _ _

lemma update_objects {o : Object} (ho : OwnsKey srv m.vod o) (content : Option Str) :
    Touches srv m { m with objects := update m.objects o content } := by
  refine ⟨.refl _, fun _ _ => rfl, fun o' ho' => ?_⟩
  have hne : o' ≠ o := by
    rintro rfl
    exact ho' ho
  exact update_of_ne hne _ _

lemma put (hcfg : srv.config m.vod.app = .ok cfg) (hkey : MediaKey m.vod key) (content : Str) :
    Touches srv m (m.put cfg key content) := update_objects (.intro hcfg hkey) (some content)

lemma drop (hcfg : srv.config m.vod.app = .ok cfg) {raw : Str} (hkey : MediaKey m.vod raw)
    (hraw : resolveKey cfg.keyPrefix key = resolveKey cfg.keyPrefix raw) :
    Touches srv m (m.drop cfg key) := by
  rw [Media.drop, hraw]
  exact update_objects (.intro hcfg hkey) none

lemma foldl {α : Type} {f : Media → α → Media} {xs : List α}
    (hvod : ∀ m x, (f m x).vod = m.vod)
    (h : ∀ m', m'.vod = m.vod → ∀ x ∈ xs, Touches srv m' (f m' x)) :
    Touches srv m (xs.foldl f m) ∧ (xs.foldl f m).vod = m.vod := by
  induction xs using reverseRecOn with
  | nil => exact ⟨.refl m, rfl⟩
  | append_singleton xs x ih =>
    obtain ⟨htouch, hsame⟩ := ih fun m' hm' y hy => h m' hm' y (mem_append_left [x] hy)
    rw [foldl_append, foldl_cons]
    exact ⟨htouch.trans (h _ hsame x (by simp)), (hvod _ x).trans hsame⟩

end Touches

/-! ### Uploads -/

lemma isSegment_snapshotStem (h : v.Wf srv cfg) (now wall : Reading) :
    IsSegment (snapshotStem cfg v v.out now wall) := by
  rw [snapshotStem]
  split
  · rw [h.baseNoExt_out]
    exact h.base
  · rename_i hstem
    exact isSegment_render hstem

/-- What a row may become: it grows, and it is well formed still. -/
structure Keeps (srv : Server) (cfg : AppConfig) (m m' : Media) : Prop where
  touches : Touches srv m m'
  wf : m'.vod.Wf srv cfg

lemma Keeps.refl (h : m.vod.Wf srv cfg) : Keeps srv cfg m m := ⟨.refl m, h⟩

lemma Keeps.trans (h : Keeps srv cfg m m') (h' : Keeps srv cfg m' m'') : Keeps srv cfg m m'' :=
  ⟨h.touches.trans h'.touches, h'.wf⟩

lemma Vod.Wf.shots (h : v.Wf srv cfg) : ∀ a ∈ v.shots, IsSegment a := fun a ha =>
  h.segment a (mem_cons_of_mem _ ha)

/-- What is recorded in a row is its own. -/
lemma Keeps.vod (h : m.vod.Wf srv cfg) (hgrows : m.vod.Grows w)
    (hshots : ∀ a ∈ w.shots, IsSegment a) (hpath : ∀ p, w.localPath = some p → p = m.vod.out)
    (hfile : ∀ k, w.fileKey = some k → k = resolveKey cfg.keyPrefix m.vod.name)
    (hsnapshot : ∀ k, w.snapshotKey = some k →
      ∃ a ∈ m.vod.names, k = resolveKey cfg.keyPrefix (a ++ str ".jpg"))
    (hvariants : ∀ x ∈ w.variants, ∀ k ∈ x.fileKey :: x.segmentKeys, MediaKey m.vod k) :
    Keeps srv cfg m { m with vod := w } where
  touches := .vod hgrows
  wf := {
    config := hgrows.app ▸ h.config
    dir := h.dir
    out := by
      rw [hgrows.out, hgrows.app, hgrows.name]
      exact h.out
    name := by
      rw [hgrows.name, hgrows.base]
      exact h.name
    segment := forall_mem_cons.mpr ⟨hgrows.base ▸ h.base, hshots⟩
    localPath := fun p hp => hgrows.out ▸ hpath p hp
    fileKey := fun k hk => hgrows.name ▸ hfile k hk
    snapshotKey := fun k hk => by
      obtain ⟨a, ha, hka⟩ := hsnapshot k hk
      exact ⟨a, hgrows.names ha, hka⟩
    variants := fun x hx k hk => hgrows.mediaKey (hvariants x hx k hk) }

lemma keeps_buildSnapshot (h : m.vod.Wf srv cfg) {stem : Str} (hstem : IsSegment stem)
    (o : Uploading) : Keeps srv cfg m (buildSnapshot srv cfg stem o m).2 := by
  rw [buildSnapshot]
  split
  · exact .refl h
  rename_i jpeg _
  have hgrows : m.vod.Grows { m.vod with shots := m.vod.shots ++ [stem] } :=
    ⟨rfl, rfl, rfl, subset_append_left _ _⟩
  have hmem : stem ∈ Vod.names { m.vod with shots := m.vod.shots ++ [stem] } :=
    mem_cons_of_mem _ (mem_append_right _ mem_cons_self)
  have hshot : Keeps srv cfg m { m with vod := { m.vod with shots := m.vod.shots ++ [stem] } } :=
    .vod h hgrows (forall_mem_append.mpr ⟨h.shots, forall_mem_singleton.mpr hstem⟩) h.localPath
      h.fileKey h.snapshotKey h.variants
  have htaken : Keeps srv cfg m
      { m.write (srv.snapshotPath m.vod.app stem) jpeg with
        vod := { m.vod with shots := m.vod.shots ++ [stem] } } :=
    hshot.trans ⟨.update_files (.snapshot hmem) _, hshot.wf⟩
  split
  · exact htaken.trans ⟨.put htaken.wf.config (.snapshot hmem) jpeg, htaken.wf⟩
  · exact htaken

lemma key_buildSnapshot {stem k : Str} {o : Uploading}
    (hk : (buildSnapshot srv cfg stem o m).1 = some k) :
    stem ∈ (buildSnapshot srv cfg stem o m).2.vod.names ∧
      k = resolveKey cfg.keyPrefix (stem ++ str ".jpg") := by
  rw [buildSnapshot] at hk ⊢
  split at hk
  · cases hk
  split at hk
  · rename_i hstored
    cases hk
    rw [if_pos hstored]
    exact ⟨mem_cons_of_mem _ (mem_append_right _ mem_cons_self), rfl⟩
  · cases hk

lemma vod_cleanUp (path : Path) (stem : Str) (snapKey : Option Str) (m : Media) :
    (cleanUp srv cfg path stem snapKey m).vod = m.vod := by
  have hfile : (if cfg.plan.needed then m else m.remove path).vod = m.vod := by
    split
    · rfl
    · rfl
  rw [cleanUp]
  split
  · dsimp only
    split
    · exact hfile
    · exact hfile
  · rfl

lemma keeps_cleanUp (h : m.vod.Wf srv cfg) {stem : Str} {snapKey : Option Str}
    (hstem : snapKey.isSome = true → stem ∈ m.vod.names) :
    Keeps srv cfg m (cleanUp srv cfg m.vod.out stem snapKey m) := by
  refine ⟨?_, (vod_cleanUp _ _ _ _).symm ▸ h⟩
  have hfile : Touches srv m (if cfg.plan.needed then m else m.remove m.vod.out) ∧
      (if cfg.plan.needed then m else m.remove m.vod.out).vod = m.vod := by
    split
    · exact ⟨.refl m, rfl⟩
    · exact ⟨.update_files .recording none, rfl⟩
  rw [cleanUp]
  split
  · generalize (if cfg.plan.needed then m else m.remove m.vod.out) = kept at hfile ⊢
    split
    · rename_i hsome
      have hmem : stem ∈ kept.vod.names := hfile.2 ▸ hstem hsome
      exact hfile.1.trans (.update_files (.snapshot hmem) none)
    · exact hfile.1
  · exact .refl m

lemma keeps_processUpload (h : m.vod.Wf srv cfg) (now wall : Reading) (o : Uploading) :
    Keeps srv cfg m (processUpload srv cfg now wall o m) := by
  rw [processUpload]
  split
  · exact .refl h
  rename_i path hpath
  obtain rfl := h.localPath path hpath
  split
  · rename_i content _
    dsimp only
    have hshot := keeps_buildSnapshot h (isSegment_snapshotStem h now wall) o
    generalize snapshotStem cfg m.vod m.vod.out now wall = stem at hshot ⊢
    have hkey : ∀ k, (buildSnapshot srv cfg stem o m).1 = some k →
        stem ∈ (buildSnapshot srv cfg stem o m).2.vod.names ∧
          k = resolveKey cfg.keyPrefix (stem ++ str ".jpg") := fun k hk => key_buildSnapshot hk
    generalize buildSnapshot srv cfg stem o m = shot at hshot hkey ⊢
    split
    · exact hshot
    have hfile := hshot.wf.fileName_out
    have hmedia : MediaKey shot.2.vod (fileName shot.2.vod.out) := hfile ▸ .recording
    have hput : Keeps srv cfg shot.2 (shot.2.put cfg (fileName shot.2.vod.out) content) :=
      ⟨.put hshot.wf.config hmedia content, hshot.wf⟩
    have hsnap : shot.1.isSome = true → stem ∈ shot.2.vod.names := fun hsome => by
      obtain ⟨k, hk⟩ := Option.isSome_iff_exists.mp hsome
      exact (hkey k hk).1
    rw [← hshot.touches.grows.out]
    have hsame : (cleanUp srv cfg shot.2.vod.out stem shot.1
        (shot.2.put cfg (fileName shot.2.vod.out) content)).vod = shot.2.vod :=
      vod_cleanUp _ _ _ _
    have hkept : Keeps srv cfg m (cleanUp srv cfg shot.2.vod.out stem shot.1
        (shot.2.put cfg (fileName shot.2.vod.out) content)) :=
      (hshot.trans hput).trans (keeps_cleanUp hput.wf hsnap)
    split
    · exact hkept
    refine hkept.trans (.vod hkept.wf ⟨rfl, rfl, rfl, Subset.refl _⟩ hkept.wf.shots ?_ ?_ ?_
      hkept.wf.variants)
    · intro p hp
      rw [hsame]
      split at hp
      · cases hp
      · exact (Option.some.inj hp).symm
    · intro k hk
      rw [hkept.wf.name, hsame, ← hfile]
      exact (Option.some.inj hk).symm
    · intro k hk
      rw [hsame]
      exact ⟨stem, hkey k hk⟩
  · exact .refl h

/-- An upload gives a row no name but the one of its snapshot. -/
lemma shots_processUpload (h : m.vod.Wf srv cfg) (now wall : Reading) (o : Uploading) :
    (processUpload srv cfg now wall o m).vod.shots = m.vod.shots ∨
      o.snapshot.isSome = true ∧ (processUpload srv cfg now wall o m).vod.shots =
        m.vod.shots ++ [snapshotStem cfg m.vod m.vod.out now wall] := by
  have hshot : ∀ stem, (buildSnapshot srv cfg stem o m).2.vod.shots = m.vod.shots ∨
      o.snapshot.isSome = true ∧
        (buildSnapshot srv cfg stem o m).2.vod.shots = m.vod.shots ++ [stem] := by
    intro stem
    rw [buildSnapshot]
    split
    · exact .inl rfl
    rename_i jpeg hjpeg
    rw [hjpeg]
    split
    · exact .inr ⟨rfl, rfl⟩
    · exact .inr ⟨rfl, rfl⟩
  rw [processUpload]
  split
  · exact .inl rfl
  rename_i path hpath
  obtain rfl := h.localPath path hpath
  split
  · dsimp only
    split
    · exact hshot _
    split
    · rw [vod_cleanUp]
      exact hshot _
    · rw [vod_cleanUp]
      exact hshot _
  · exact .inl rfl

/-! ### Transcoding and deletion -/

/-- The keys of a piece are keys of the row. -/
structure Piece.Of (v : Vod) (piece : Piece) : Prop where
  uploads : ∀ u ∈ piece.uploads, MediaKey v u.1
  variants : ∀ x ∈ piece.variants, ∀ k ∈ x.fileKey :: x.segmentKeys, MediaKey v k

lemma renditionPiece_of (height : Str) (files : List (Str × Str)) :
    (renditionPiece v.base height files).Of v := by
  have hkey : ∀ f : Str, MediaKey v (str "hls/" ++ v.base ++ str "/" ++ (height ++ str "p/") ++ f) := by
    intro f
    rw [append_assoc]
    exact .hls _
  refine ⟨fun u hu => ?_, fun x hx k hk => ?_⟩
  · obtain ⟨f, -, rfl⟩ := mem_map.mp hu
    exact hkey f.1
  · obtain rfl := mem_singleton.mp hx
    obtain rfl | hk := mem_cons.mp hk
    · exact hkey _
    obtain ⟨f, -, rfl⟩ := mem_map.mp (mem_of_mem_filter hk)
    exact hkey f.1

lemma masterPiece_of (content : Str) : (masterPiece v.base content).Of v := by
  refine ⟨fun u hu => ?_, fun x hx k hk => ?_⟩
  · obtain rfl := mem_singleton.mp hu
    exact .hls _
  · obtain rfl := mem_singleton.mp hx
    obtain rfl := mem_singleton.mp hk
    exact .hls _

lemma drmPiece_of (heights : List Str) (files : List (Str × Str)) :
    (drmPiece v.base heights files).Of v := by
  refine ⟨fun u hu => ?_, fun x hx k hk => ?_⟩
  · obtain ⟨f, -, rfl⟩ := mem_map.mp hu
    exact .hls _
  · obtain hx | hx := mem_append.mp hx
    · obtain ⟨height, -, rfl⟩ := mem_map.mp hx
      obtain rfl | hk := mem_cons.mp hk
      · exact .hls _
      obtain rfl := mem_singleton.mp hk
      exact .hls _
    · obtain rfl := mem_singleton.mp hx
      obtain rfl := mem_singleton.mp hk
      exact .hls _

lemma webmPiece_of (content : Str) : (webmPiece v.base content).Of v := by
  refine ⟨fun u hu => ?_, fun x hx k hk => ?_⟩
  · obtain rfl := mem_singleton.mp hu
    exact .webm
  · obtain rfl := mem_singleton.mp hx
    obtain rfl := mem_singleton.mp hk
    exact .webm

lemma of_mem_pieces {plan : TranscodePlan} {wk : Work} {piece : Piece}
    (h : piece ∈ pieces plan wk v.base) : piece.Of v := by
  rw [pieces] at h
  split at h
  · obtain h | h := mem_append.mp h
    · rw [ladderPieces] at h
      split at h
      · cases h
      obtain h | h := mem_append.mp h
      · obtain ⟨r, -, hr⟩ := mem_filterMap.mp h
        obtain ⟨files, -, rfl⟩ := Option.map_eq_some_iff.mp hr
        exact renditionPiece_of _ _
      · obtain rfl := mem_singleton.mp h
        exact masterPiece_of _
    · split at h
      · obtain ⟨content, -, rfl⟩ := Option.map_eq_some_iff.mp (Option.mem_toList.mp h)
        exact webmPiece_of _
      · cases h
  · split at h
    · cases h
    · obtain ⟨made, -, rfl⟩ := Option.map_eq_some_iff.mp (Option.mem_toList.mp h)
      exact drmPiece_of _ _
  · cases h

lemma perform_of {ps : List Piece} (h : ∀ piece ∈ ps, piece.Of v) (n : ℕ) :
    Piece.Of v ⟨(perform n ps).1, (perform n ps).2⟩ := by
  induction ps generalizing n with
  | nil => exact ⟨fun _ hu => (nomatch hu), fun _ hx => (nomatch hx)⟩
  | cons piece rest ih =>
    obtain ⟨hpiece, hrest⟩ := forall_mem_cons.mp h
    rw [perform]
    split
    · refine ⟨fun u hu => ?_, fun x hx => ?_⟩
      · exact (mem_append.mp hu).elim (hpiece.uploads u) ((ih hrest _).uploads u)
      · exact (mem_append.mp hx).elim (hpiece.variants x) ((ih hrest _).variants x)
    · exact ⟨fun u hu => hpiece.uploads u (mem_of_mem_take hu), fun _ hx => (nomatch hx)⟩

lemma Touches.removeWork (m : Media) : Touches srv m { m with
      files := removeAll (srv.workDir m.vod.app m.vod.base) (fun _ => false) m.files } := by
  refine ⟨.refl _, fun p hp => ?_, fun _ _ => rfl⟩
  have hout : ¬srv.workDir m.vod.app m.vod.base <+: p := fun hpre => hp (.work hpre)
  exact if_neg (by simpa using hout)

lemma keeps_publish (h : m.vod.Wf srv cfg) {done : List (Str × Str) × List Variant}
    (hdone : Piece.Of m.vod ⟨done.1, done.2⟩) :
    Keeps srv cfg m (publish cfg done m) ∧ (publish cfg done m).vod.shots = m.vod.shots := by
  have hkept : Keeps srv cfg m { m with vod := { m.vod with
      variants := m.vod.variants ++ done.2 } } :=
    .vod h ⟨rfl, rfl, rfl, Subset.refl _⟩ h.shots h.localPath h.fileKey h.snapshotKey
      (forall_mem_append.mpr ⟨h.variants, hdone.variants⟩)
  generalize hrow : ({ m.vod with variants := m.vod.variants ++ done.2 } : Vod) = row at hkept
  have hshots : row.shots = m.vod.shots := hrow ▸ rfl
  obtain ⟨htouch, hsame⟩ : Touches srv { m with vod := row } (done.1.foldl
      (fun (m : Media) upload => m.put cfg upload.1 upload.2) { m with vod := row }) ∧
      (done.1.foldl (fun (m : Media) upload => m.put cfg upload.1 upload.2)
        { m with vod := row }).vod = row := by
    refine Touches.foldl (fun _ _ => rfl) fun m' hm' upload hmem => ?_
    have hkey : MediaKey m'.vod upload.1 := hm' ▸ hkept.touches.grows.mediaKey (hdone.uploads upload hmem)
    exact .put (hm' ▸ hkept.wf.config) hkey upload.2
  rw [publish, hrow]
  exact ⟨hkept.trans ⟨htouch, hsame.symm ▸ hkept.wf⟩, hsame.symm ▸ hshots⟩

lemma keeps_finishJob (h : m.vod.Wf srv cfg) :
    Keeps srv cfg m (finishJob srv cfg m.vod.base m) ∧
      (finishJob srv cfg m.vod.base m).vod.shots = m.vod.shots := by
  have hwork : Touches srv m { m with
      files := removeAll (srv.workDir m.vod.app m.vod.base) (fun _ => false) m.files } :=
    .removeWork m
  rw [finishJob]
  split
  · refine ⟨.trans ⟨hwork.trans (.update_files .recording none), h⟩ ?_, rfl⟩
    exact .vod h ⟨rfl, rfl, rfl, Subset.refl _⟩ h.shots nofun h.fileKey h.snapshotKey h.variants
  · exact ⟨⟨hwork, h⟩, rfl⟩

lemma keeps_processJob (h : m.vod.Wf srv cfg) (wk : Work) :
    Keeps srv cfg m (processJob srv cfg wk m) ∧ (processJob srv cfg wk m).vod.shots = m.vod.shots := by
  rw [processJob]
  split
  · exact ⟨.refl h, rfl⟩
  rw [h.xcBaseNoExt_out]
  have hdone : Piece.Of m.vod ⟨(perform wk.stored (pieces cfg.plan wk m.vod.base)).1,
      (perform wk.stored (pieces cfg.plan wk m.vod.base)).2⟩ :=
    perform_of (fun _ => of_mem_pieces) wk.stored
  obtain ⟨hpublish, hshots⟩ := keeps_publish h hdone
  obtain ⟨hfinish, hshots'⟩ := keeps_finishJob hpublish.wf
  rw [hpublish.touches.grows.base] at hfinish hshots'
  exact ⟨hpublish.trans hfinish, hshots'.trans hshots⟩

lemma mediaKey_of_mem_keys (h : v.Wf srv cfg) {k : Str} (hk : k ∈ v.keys) :
    ∃ raw, MediaKey v raw ∧ resolveKey cfg.keyPrefix k = resolveKey cfg.keyPrefix raw := by
  obtain hk | hk := mem_append.mp hk
  · obtain hk | hk := mem_append.mp (mem_of_mem_filter hk)
    · obtain rfl := h.fileKey k (Option.mem_toList.mp hk)
      refine ⟨v.name, ?_, resolveKey_resolveKey _ _⟩
      rw [h.name]
      exact .recording
    · obtain ⟨a, ha, rfl⟩ := h.snapshotKey k (Option.mem_toList.mp hk)
      exact ⟨a ++ str ".jpg", .snapshot ha, resolveKey_resolveKey _ _⟩
  · obtain ⟨x, hx, hk⟩ := mem_flatMap.mp hk
    refine ⟨k, h.variants x hx k ?_, rfl⟩
    obtain hk | hk := mem_append.mp hk
    · obtain rfl := mem_singleton.mp (mem_of_mem_filter hk)
      exact mem_cons_self
    · exact mem_cons_of_mem _ hk

lemma keeps_deleteVodCascade (h : m.vod.Wf srv cfg) (o : Deleting) :
    Keeps srv cfg m (deleteVodCascade srv cfg o m) ∧
      (deleteVodCascade srv cfg o m).vod.shots = m.vod.shots := by
  obtain ⟨htouch, hsame⟩ : Touches srv m ((m.vod.keys.filter (· ∉ o.kept)).foldl
      (fun m key => m.drop cfg key) m) ∧
      ((m.vod.keys.filter (· ∉ o.kept)).foldl (fun m key => m.drop cfg key) m).vod = m.vod := by
    refine Touches.foldl (fun _ _ => rfl) fun m' hm' key hmem => ?_
    obtain ⟨raw, hraw, hkey⟩ := mediaKey_of_mem_keys h (mem_of_mem_filter hmem)
    exact .drop (hm' ▸ h.config) (hm' ▸ hraw) hkey
  rw [deleteVodCascade]
  generalize (m.vod.keys.filter (· ∉ o.kept)).foldl (fun m key => m.drop cfg key) m = dropped
    at htouch hsame ⊢
  have hlocal : Touches srv m (removeLocalCascade srv dropped) ∧
      (removeLocalCascade srv dropped).vod = m.vod := by
    rw [removeLocalCascade]
    split
    · exact ⟨htouch, hsame⟩
    rename_i path hpath
    rw [hsame] at hpath
    obtain rfl := h.localPath path hpath
    rw [h.baseNoExt_out]
    refine ⟨(htouch.trans (.update_files ?_ none)).trans (.update_files ?_ none), hsame⟩
    · exact hsame.symm ▸ .recording
    · exact .snapshot (hsame.symm ▸ mem_cons_self)
  generalize removeLocalCascade srv dropped = left at hlocal ⊢
  have hwf : left.vod.Wf srv cfg := hlocal.2.symm ▸ h
  have hshots : left.vod.shots = m.vod.shots := congrArg Vod.shots hlocal.2
  split
  · refine ⟨.trans ⟨hlocal.1, hwf⟩ ?_, hshots⟩
    exact .vod hwf ⟨rfl, rfl, rfl, Subset.refl _⟩ hwf.shots hwf.localPath hwf.fileKey
      hwf.snapshotKey hwf.variants
  · exact ⟨⟨hlocal.1, hwf⟩, hshots⟩

/-- Everything that is done for a row touches only its places. -/
lemma keeps_run (h : m.vod.Wf srv cfg) (a : Act) : Keeps srv cfg m (a.run srv cfg m) := by
  have hdeleted : ∀ {m'}, Keeps srv cfg m m' → Keeps srv cfg m (if m.vod.deleted then m else m') := by
    intro m' hm'
    split
    · exact .refl h
    · exact hm'
  cases a with
  | record content => exact ⟨.update_files .recording _, h⟩
  | upload now wall o => exact hdeleted (keeps_processUpload h now wall o)
  | transcode wk => exact hdeleted (keeps_processJob h wk).1
  | delete o => exact hdeleted (keeps_deleteVodCascade h o).1

/-- The only name that a row is given later is the one of a snapshot. -/
lemma names_run (h : m.vod.Wf srv cfg) (a : Act) {name : Str}
    (hname : name ∈ (a.run srv cfg m).vod.names) :
    name ∈ m.vod.names ∨ ∃ now wall o, a = .upload now wall o ∧ o.snapshot.isSome = true ∧
      name = snapshotStem cfg m.vod m.vod.out now wall := by
  have hgrows := (keeps_run h a).touches.grows
  rw [Vod.names, hgrows.base] at hname
  obtain rfl | hname := mem_cons.mp hname
  · exact .inl mem_cons_self
  have hshots : ∀ {m' : Media}, m'.vod.shots = m.vod.shots →
      name ∈ (if m.vod.deleted then m else m').vod.shots → name ∈ m.vod.names := by
    intro m' hm' hmem
    split at hmem
    · exact mem_cons_of_mem _ hmem
    · exact mem_cons_of_mem _ (hm' ▸ hmem)
  cases a with
  | record content => exact .inl (mem_cons_of_mem _ hname)
  | upload now wall o =>
    obtain hsame | ⟨hsome, hmore⟩ := shots_processUpload h now wall o
    · exact .inl (hshots hsame hname)
    rw [Act.run] at hname
    split at hname
    · exact .inl (mem_cons_of_mem _ hname)
    rw [hmore] at hname
    obtain hname | hname := mem_append.mp hname
    · exact .inl (mem_cons_of_mem _ hname)
    · exact .inr ⟨now, wall, o, rfl, hsome, mem_singleton.mp hname⟩
  | transcode wk => exact .inl (hshots (keeps_processJob h wk).2 hname)
  | delete o => exact .inl (hshots (keeps_deleteVodCascade h o).2 hname)

end Touch

end StreamHub.Recording
