import StreamHub.Apps.Config

/-!
# What the callers of the config routes learn and change

Each credential is read under the derived key of the app alone, and written under it
alone.  So an app's answers depend on no other app's secrets and its setters change none
(`secrets_isolated`).

The views of the blocks show a credential through its mask only.  The answer of a patch is
the resolved config itself: it covers the MQTT password and shows the S3 credentials and
the SMTP password (`bodies_alike_iff`, `patchApp_shows_key`).
-/

namespace StreamHub.Apps

open Library Text OrderedMap Yamljs S3 List

variable (p : Setup)

/-! ## One key -/

section OneKey

variable {p} {w : World} {app : Str} {kind : SecretKind} {v : Str}

lemma lookup_file_writeSecret (k : Str) : (writeSecret p app kind v w).secrets.file.lookup k =
      if k = secretRef p.names app kind then some (.text v)
      else (w.secrets.file.lookup k).map (SecretValue.laidOut p.layout) :=
  lookup_writeSecret (secretRef_ne_nil p.names app kind) v w.secrets k

lemma lookup_file_storeSecret (hv : v ≠ []) (k : Str) :
    (storeSecret p app w (kind, v)).secrets.file.lookup k =
      if k = secretRef p.names app kind then some (.text v)
      else ((w.secrets.file.lookup k).map (SecretValue.laidOut p.layout)).map
        (SecretValue.laidOut p.layout) := by
  rw [storeSecret, if_neg hv]
  rw [lookup_setOne (secretRef_ne_nil p.names app kind)]
  change (if k = _ then _ else ((writeSecret p app kind v w).secrets.file.lookup k).map _) = _
  split
  · rfl
  rename_i hk
  rw [lookup_file_writeSecret, if_neg hk]

end OneKey

/-! ## Other apps' secrets -/

/-- One call on an app, with the state it leaves. -/
inductive Called (name : Str) (w : World) : World → Prop
  | updateConfig (patch : AppConfigPatch p) (refused : Option Failure) :
      Called name w (updateConfig p name patch refused w).2
  | setS3 (input : SetS3Input) : Called name w (setS3 p name input w).2
  | setMqtt (input : SetMqttInput) : Called name w (setMqtt p name input w).2
  | setSmtp (input : SetSmtpInput) : Called name w (setSmtp p name input w).2

section Frame

variable {p} {name : Str}

/-- What a call does to the secrets file: every kind it has a value for gets one of them,
every other entry is left. -/
structure Wrote (p : Setup) (name : Str) (entries : List (SecretKind × Str))
    (before after : World) : Prop where
  stored : ∀ kind ∈ entries.map Prod.fst, ∃ v ≠ [],
    after.secrets.file.lookup (secretRef p.names name kind) = some (.text v)
  left : ∀ k, (∀ kind ∈ entries.map Prod.fst, k ≠ secretRef p.names name kind) →
    SameEntry p.layout (before.secrets.file.lookup k) (after.secrets.file.lookup k)

/-- A step that sets one entry. -/
def Sets (p : Setup) (name : Str) (f : World → SecretKind × Str → World) : Prop :=
  ∀ w e k, e.2 ≠ [] →
    (k = secretRef p.names name e.1 → (f w e).secrets.file.lookup k = some (.text e.2)) ∧
    (k ≠ secretRef p.names name e.1 →
      SameEntry p.layout (w.secrets.file.lookup k) ((f w e).secrets.file.lookup k))

section

variable {f : World → SecretKind × Str → World} (hf : Sets p name f)
  {entries : List (SecretKind × Str)} (hne : ∀ e ∈ entries, e.2 ≠ [])

include hf hne

/-- The last value stored for a kind is found, whatever was there. -/
lemma Sets.stored {kind : SecretKind} (hkind : kind ∈ entries.map Prod.fst) : ∃ v ≠ [], ∀ w,
    (entries.foldl f w).secrets.file.lookup (secretRef p.names name kind) = some (.text v) := by
  induction entries using reverseRecOn with
  | nil => cases hkind
  | append_singleton entries e ih =>
    simp only [foldl_append, foldl_cons, foldl_nil]
    have hvalue := hne e (mem_append_right _ mem_cons_self)
    by_cases he : secretRef p.names name kind = secretRef p.names name e.1
    · exact ⟨e.2, hvalue, fun w => (hf _ e _ hvalue).1 he⟩
    rw [map_append, mem_append] at hkind
    have hbefore : kind ∈ entries.map Prod.fst :=
      hkind.resolve_right fun hlast => he (by rw [mem_singleton.mp hlast])
    obtain ⟨v, hv, hlookup⟩ := ih (fun x hx => hne x (mem_append_left _ hx)) hbefore
    refine ⟨v, hv, fun w => ?_⟩
    have hsame := (hf (entries.foldl f w) e _ hvalue).2 he
    rw [hlookup] at hsame
    exact hsame.eq_text

lemma Sets.foldl (w : World) : Wrote p name entries w (entries.foldl f w) where
  stored kind hkind := by
    obtain ⟨v, hv, hlookup⟩ := hf.stored hne hkind
    exact ⟨v, hv, hlookup w⟩
  left k hk := by
    induction entries generalizing w with
    | nil => exact .refl _
    | cons e rest ih =>
      have hfirst := (hf w e k (hne e mem_cons_self)).2 (hk e.1 mem_cons_self)
      have hrest := ih (fun x hx => hne x (mem_cons_of_mem _ hx)) (f w e)
        fun kind hkind => hk kind (mem_cons_of_mem _ hkind)
      exact hfirst.trans hrest

end

lemma sets_writeSecret : Sets p name fun w e => writeSecret p name e.1 e.2 w := by
  intro w e k _
  rw [lookup_file_writeSecret]
  refine ⟨fun hk => if_pos hk, fun hk => ?_⟩
  rw [if_neg hk]
  exact .laidOut _

lemma sets_storeSecret : Sets p name (storeSecret p name) := by
  intro w e k hv
  rw [lookup_file_storeSecret hv]
  refine ⟨fun hk => if_pos hk, fun hk => ?_⟩
  rw [if_neg hk]
  exact (SameEntry.laidOut _).trans (.laidOut _)

/-- The entries that are not empty. -/
def given (entries : List (SecretKind × Str)) : List (SecretKind × Str) :=
  entries.filter fun e => e.2 != []

lemma ne_nil_of_mem_given {entries : List (SecretKind × Str)} {e : SecretKind × Str}
    (h : e ∈ given entries) : e.2 ≠ [] := by simpa using (mem_filter.mp h).2

lemma foldl_storeSecret_given (entries : List (SecretKind × Str)) (w : World) :
    entries.foldl (storeSecret p name) w = (given entries).foldl (storeSecret p name) w := by
  induction entries generalizing w with
  | nil => rfl
  | cons e rest ih =>
    rw [foldl_cons, ih]
    by_cases hv : e.2 = []
    · have hsame : storeSecret p name w e = w := if_pos hv
      rw [hsame, given, given, filter_cons_of_neg (by simp [hv])]
    · rw [given, given, filter_cons_of_pos (by simp [hv]), foldl_cons]

/-- The entries that a setter stores: none when it is refused. -/
def setEntries (p : Setup) (edit : Tree → Except Failure Tree)
    (entries : List (SecretKind × Str)) (name : Str) (w : World) : List (SecretKind × Str) :=
  match w.find name, (readDisk p w name).bind edit with
  | some _, .ok _ => given entries
  | _, _ => []

lemma Wrote.refl (w : World) : Wrote p name [] w w := ⟨by simp, fun _ _ => .refl _⟩

lemma wrote_setBlock {α : Type} (edit : Tree → Except Failure Tree)
    (entries : List (SecretKind × Str)) (view : Secrets → Tree → α) (w : World) :
    Wrote p name (setEntries p edit entries name w) w
      (setBlock p edit entries view name w).2 := by
  rw [setBlock]
  unfold setEntries
  cases w.find name with
  | none => exact .refl w
  | some row =>
    cases readDisk p w name with
    | error e => exact .refl w
    | ok tree =>
      change Wrote p name (match some row, edit tree with
        | some _, .ok _ => given entries
        | _, _ => []) w _
      dsimp only
      cases edit tree with
      | error e => exact .refl w
      | ok edited =>
        have h : Wrote p name (given entries) (w.writeDisk name edited) _ :=
          sets_storeSecret.foldl (fun _ he => ne_nil_of_mem_given he) _
        rw [← foldl_storeSecret_given] at h
        exact ⟨h.stored, h.left⟩

/-- The entries that a patch stores: none when it is refused before it is applied. -/
def updateEntries (p : Setup) (name : Str) (patch : AppConfigPatch p)
    (refused : Option Failure) (w : World) : List (SecretKind × Str) :=
  match w.find name, validateDrmTokenRef p name patch, refused, readDisk p w name with
  | some _, none, none, .ok _ => patch.secrets
  | _, _, _, _ => []

lemma ne_nil_of_mem_secrets (patch : AppConfigPatch p) : ∀ e ∈ patch.secrets, e.2 ≠ [] :=
  fun _ he => by simpa using (mem_filter.mp he).2

lemma wrote_applySecrets (patch : AppConfigPatch p) (w : World) :
    Wrote p name patch.secrets w (applySecrets p name patch w) :=
  sets_writeSecret.foldl (ne_nil_of_mem_secrets patch) w

lemma wrote_updateConfig (patch : AppConfigPatch p) (refused : Option Failure) (w : World) :
    Wrote p name (updateEntries p name patch refused w) w
      (updateConfig p name patch refused w).2 := by
  unfold updateConfig updateEntries
  cases w.find name with
  | none => exact .refl w
  | some row =>
    cases validateDrmTokenRef p name patch with
    | some e => exact .refl w
    | none =>
      cases refused with
      | some e => exact .refl w
      | none =>
        cases readDisk p w name with
        | error e => exact .refl w
        | ok old =>
          have h : Wrote p name patch.secrets w _ := wrote_applySecrets patch w
          dsimp only
          split
          · exact ⟨h.stored, h.left⟩
          split
          · exact ⟨h.stored, h.left⟩
          · exact ⟨h.stored, h.left⟩

lemma Called.sameEntry {w after : World} (h : Called p name w after) {k : Str}
    (hk : ∀ kind, k ≠ secretRef p.names name kind) :
    SameEntry p.layout (w.secrets.file.lookup k) (after.secrets.file.lookup k) := by
  cases h with
  | updateConfig patch refused =>
    exact (wrote_updateConfig patch refused w).left k fun kind _ => hk kind
  | setS3 input => exact (wrote_setBlock _ _ (maskedS3 p) w).left k fun kind _ => hk kind
  | setMqtt input => exact (wrote_setBlock _ _ (maskedMqtt p) w).left k fun kind _ => hk kind
  | setSmtp input => exact (wrote_setBlock _ _ (maskedSmtp p) w).left k fun kind _ => hk kind

end Frame

lemma getBlock_congr {α : Type} {p : Setup} (view : Secrets → Tree → α) {w : World}
    {s₁ s₂ : SecretsStore} {name : Str}
    (h : ∀ kind, s₁.file.lookup (secretRef p.names name kind) =
      s₂.file.lookup (secretRef p.names name kind)) :
    getBlock p view { w with secrets := s₁ } name =
      getBlock p view { w with secrets := s₂ } name := by
  have hsecret : resolveSecret p { w with secrets := s₁ } name =
      resolveSecret p { w with secrets := s₂ } name := by
    funext kind
    have hvalue : value s₁.file (secretRef p.names name kind) =
        value s₂.file (secretRef p.names name kind) := by rw [value, value, h kind]
    change (if value s₁.file _ ≠ [] then value s₁.file _ else _) = _
    rw [hvalue]
    rfl
  have hfind : World.find { w with secrets := s₁ } name = World.find { w with secrets := s₂ } name :=
    rfl
  have hdisk : readDisk p { w with secrets := s₁ } name = readDisk p { w with secrets := s₂ } name :=
    rfl
  rw [getBlock, getBlock, hfind, hdisk, hsecret]

/-- A setup without further blocks. -/
def plainSetup : Setup where
  js := Js.plain
  names := ⟨fun _ => [], id⟩
  layout := id
  Other := Unit
  resolveOther _ := ()
  OtherPatch := Unit
  applyOther _ tree := tree

def live : Str := str "live"

def demo : Str := str "demo"

/-- Two apps with empty config files, and a store. -/
def twoApps (secrets : SecretsStore) : World where
  rows := [⟨live, some (str "acme"), text "Live", text "live"⟩,
    ⟨demo, some (str "globex"), text "Demo", text "demo"⟩]
  tenantColumn := true
  config _ := some (.parsed (.obj []))
  secrets := secrets
  env _ := []

/-- A store with one S3 key. -/
def keyStore (app key : Str) : SecretsStore :=
  ⟨[(secretRef plainSetup.names app .s3Key, .text key)], none⟩

def keyInput (key : Str) : SetS3Input :=
  ⟨none, none, none, none, none, none, none, key, [], false, none⟩

def emptyPatch : AppConfigPatch plainSetup := ⟨none, none, none, none, none, none, ()⟩

/-- Two values that look the same behind their masks. -/
def Alike (a b : Str) : Prop := mask a = mask b ∧ (a = [] ↔ b = [])

instance (a b : Str) : Decidable (Alike a b) := inferInstanceAs (Decidable (_ ∧ _))

lemma Alike.refl (a : Str) : Alike a a := ⟨rfl, Iff.rfl⟩

/-- The kinds that the config routes show. -/
def maskedKinds : List SecretKind := [.s3Key, .s3Secret, .mqttPassword, .smtpPass]

/-- Two states that differ in secrets that look the same, stored in the layout of the
service. -/
structure Similar (name : Str) (w₁ w₂ : World) : Prop where
  other : w₂ = { w₁ with secrets := w₂.secrets }
  alike : ∀ kind ∈ maskedKinds, Alike (value w₁.secrets.file (secretRef p.names name kind))
    (value w₂.secrets.file (secretRef p.names name kind))
  settled₁ : ∀ kind ∈ maskedKinds,
    Settled p.layout (w₁.secrets.file.lookup (secretRef p.names name kind))
  settled₂ : ∀ kind ∈ maskedKinds,
    Settled p.layout (w₂.secrets.file.lookup (secretRef p.names name kind))

/-- A view that sees credentials through their masks. -/
def Blind {α : Type} (view : Secrets → Tree → α) : Prop :=
  ∀ sec₁ sec₂ tree, (∀ kind ∈ maskedKinds, Alike (sec₁ kind) (sec₂ kind)) →
    view sec₁ tree = view sec₂ tree

lemma Alike.bne {a b : Str} (h : Alike a b) : (a != []) = (b != []) := by
  rw [Bool.eq_iff_iff, bne_iff_ne, bne_iff_ne, Ne, h.2]

lemma blind_maskedS3 : Blind (maskedS3 p) := by
  intro sec₁ sec₂ tree h
  have hkey := h .s3Key (by decide)
  have hsecret := h .s3Secret (by decide)
  simp only [maskedS3, hkey.1, hsecret.1, hkey.bne, hsecret.bne]

lemma blind_maskedMqtt : Blind (maskedMqtt p) := by
  intro sec₁ sec₂ tree h
  have hpassword := h .mqttPassword (by decide)
  simp only [maskedMqtt, resolveMqtt, hpassword.1, hpassword.bne]

lemma blind_maskedSmtp : Blind (maskedSmtp p) := by
  intro sec₁ sec₂ tree h
  have hpass := h .smtpPass (by decide)
  simp only [maskedSmtp, resolveSmtp, hpass.1, hpass.bne]

namespace Similar

variable {p} {name : Str} {w₁ w₂ : World}

section

variable (h : Similar p name w₁ w₂)

include h

lemma find : w₂.find name = w₁.find name := by
  rw [h.other]
  rfl

lemma readDisk : readDisk p w₂ name = readDisk p w₁ name := by
  rw [h.other]
  rfl

lemma resolveSecret_eq (kind : SecretKind) : resolveSecret p w₂ name kind =
      if value w₂.secrets.file (secretRef p.names name kind) ≠ [] then
        value w₂.secrets.file (secretRef p.names name kind)
      else if w₁.isPlatformApp name then w₁.env (secretRef p.names name kind) else [] := by
  rw [h.other]
  rfl

/-- The resolved credentials look the same too: the environment is the same. -/
lemma resolved :
    ∀ kind ∈ maskedKinds, Alike (resolveSecret p w₁ name kind) (resolveSecret p w₂ name kind) := by
  intro kind hkind
  have halike := h.alike kind hkind
  rw [h.resolveSecret_eq, resolveSecret]
  by_cases hempty : value w₁.secrets.file (secretRef p.names name kind) = []
  · rw [if_neg (not_not_intro hempty), if_neg (not_not_intro (halike.2.mp hempty))]
    exact .refl _
  · rw [if_pos hempty, if_pos fun hempty' => hempty (halike.2.mpr hempty')]
    exact halike

end

lemma getBlock {α : Type} {view : Secrets → Tree → α} (hview : Blind view)
    (h : Similar p name w₁ w₂) : getBlock p view w₁ name = getBlock p view w₂ name := by
  rw [Apps.getBlock, Apps.getBlock, h.find, h.readDisk]
  cases w₁.find name with
  | none => rfl
  | some row =>
    cases Apps.readDisk p w₁ name with
    | error e => rfl
    | ok tree => exact congrArg Except.ok (hview _ _ tree h.resolved)

section

variable (h : Similar p name w₁ w₂)

include h

lemma writeDisk (tree : Tree) :
    Similar p name (w₁.writeDisk name tree) (w₂.writeDisk name tree) where
  other := by
    rw [h.other]
    rfl
  alike := h.alike
  settled₁ := h.settled₁
  settled₂ := h.settled₂

/-- Each entry is left as it was on both sides, or set to one string on both. -/
lemma of_entries {after₁ after₂ : World}
    (hother : after₂ = { after₁ with secrets := after₂.secrets })
    (hentry : ∀ kind ∈ maskedKinds,
      (∃ v, after₁.secrets.file.lookup (secretRef p.names name kind) = some (.text v) ∧
        after₂.secrets.file.lookup (secretRef p.names name kind) = some (.text v)) ∨
      after₁.secrets.file.lookup (secretRef p.names name kind) =
          w₁.secrets.file.lookup (secretRef p.names name kind) ∧
        after₂.secrets.file.lookup (secretRef p.names name kind) =
          w₂.secrets.file.lookup (secretRef p.names name kind)) :
    Similar p name after₁ after₂ where
  other := hother
  alike kind hkind := by
    obtain ⟨v, h₁, h₂⟩ | ⟨h₁, h₂⟩ := hentry kind hkind
    · rw [value_of_text h₁, value_of_text h₂]
      exact .refl v
    have halike := h.alike kind hkind
    rw [value, value] at halike ⊢
    rw [h₁, h₂]
    exact halike
  settled₁ kind hkind := by
    obtain ⟨v, h₁, -⟩ | ⟨h₁, -⟩ := hentry kind hkind
    · rw [h₁]
      exact settled_text v
    · rw [h₁]
      exact h.settled₁ kind hkind
  settled₂ kind hkind := by
    obtain ⟨v, -, h₂⟩ | ⟨-, h₂⟩ := hentry kind hkind
    · rw [h₂]
      exact settled_text v
    · rw [h₂]
      exact h.settled₂ kind hkind

lemma writeSecret (kind : SecretKind) (v : Str) :
    Similar p name (writeSecret p name kind v w₁) (writeSecret p name kind v w₂) := by
  refine h.of_entries ?_ fun other hother => ?_
  · rw [Apps.writeSecret, h.other]
    rfl
  · rw [lookup_file_writeSecret, lookup_file_writeSecret]
    split
    · exact .inl ⟨v, rfl, rfl⟩
    · exact .inr ⟨h.settled₁ other hother, h.settled₂ other hother⟩

lemma applySecrets (patch : AppConfigPatch p) :
    Similar p name (applySecrets p name patch w₁) (applySecrets p name patch w₂) := by
  rw [Apps.applySecrets, Apps.applySecrets]
  induction patch.secrets generalizing w₁ w₂ with
  | nil => exact h
  | cons e rest ih => exact ih (h.writeSecret e.1 e.2)

lemma storeSecret (e : SecretKind × Str) :
    Similar p name (storeSecret p name w₁ e) (storeSecret p name w₂ e) := by
  by_cases hv : e.2 = []
  · have hsame : ∀ w, Apps.storeSecret p name w e = w := fun w => if_pos hv
    rw [hsame, hsame]
    exact h
  refine h.of_entries ?_ fun other hother => ?_
  · rw [Apps.storeSecret, if_neg hv, Apps.storeSecret, if_neg hv, h.other]
  · rw [lookup_file_storeSecret hv, lookup_file_storeSecret hv]
    split
    · exact .inl ⟨e.2, rfl, rfl⟩
    have hsettled₁ := h.settled₁ other hother
    have hsettled₂ := h.settled₂ other hother
    rw [Settled] at hsettled₁ hsettled₂
    rw [hsettled₁, hsettled₂]
    exact .inr ⟨hsettled₁, hsettled₂⟩

lemma foldl_storeSecret (entries : List (SecretKind × Str)) :
    Similar p name (entries.foldl (Apps.storeSecret p name) w₁)
      (entries.foldl (Apps.storeSecret p name) w₂) := by
  induction entries generalizing w₁ w₂ with
  | nil => exact h
  | cons e rest ih => exact ih (h.storeSecret e)

lemma invalidate : Similar p name { w₁ with secrets := w₁.secrets.invalidate }
      { w₂ with secrets := w₂.secrets.invalidate } where
  other := by rw [h.other]
  alike := h.alike
  settled₁ := h.settled₁
  settled₂ := h.settled₂

end

lemma setBlock {α : Type} {view : Secrets → Tree → α} (hview : Blind view)
    (h : Similar p name w₁ w₂) (edit : Tree → Except Failure Tree)
    (entries : List (SecretKind × Str)) :
    (setBlock p edit entries view name w₁).1 = (setBlock p edit entries view name w₂).1 := by
  rw [Apps.setBlock, Apps.setBlock, h.find, h.readDisk]
  cases w₁.find name with
  | none => rfl
  | some row =>
    cases Apps.readDisk p w₁ name with
    | error e => rfl
    | ok tree =>
      dsimp only
      cases edit tree with
      | error e => rfl
      | ok edited =>
        have hafter := ((h.writeDisk edited).foldl_storeSecret entries).invalidate
        exact congrArg Except.ok (hview _ _ edited hafter.resolved)

/-- A patch is refused alike, or answered from the same tree. -/
lemma updateConfig (h : Similar p name w₁ w₂) (patch : AppConfigPatch p)
    (refused : Option Failure) : (∃ e, (updateConfig p name patch refused w₁).1 = .error e ∧
      (updateConfig p name patch refused w₂).1 = .error e) ∨
    ∃ tree,
      (updateConfig p name patch refused w₁).1 =
        .ok (toResolved p (resolveSecret p (Apps.applySecrets p name patch w₁) name) tree) ∧
      (updateConfig p name patch refused w₂).1 =
        .ok (toResolved p (resolveSecret p (Apps.applySecrets p name patch w₂) name) tree) := by
  unfold Apps.updateConfig
  rw [h.find, h.readDisk]
  cases w₁.find name with
  | none => exact .inl ⟨_, rfl, rfl⟩
  | some row =>
    cases validateDrmTokenRef p name patch with
    | some e => exact .inl ⟨e, rfl, rfl⟩
    | none =>
      cases refused with
      | some e => exact .inl ⟨e, rfl, rfl⟩
      | none =>
        cases Apps.readDisk p w₁ name with
        | error e => exact .inl ⟨e, rfl, rfl⟩
        | ok old =>
          dsimp only
          split
          · exact .inl ⟨_, rfl, rfl⟩
          · exact .inr ⟨_, rfl, rfl⟩

end Similar

/-! ## The secrets that a patch stores -/

section Stored

variable {p} {name : Str} {kind : SecretKind} (patch : AppConfigPatch p)

lemma applySecrets_other (w : World) : applySecrets p name patch w =
      { w with secrets := (applySecrets p name patch w).secrets } := by
  rw [applySecrets]
  induction patch.secrets generalizing w with
  | nil => rfl
  | cons e rest ih =>
    rw [foldl_cons, ih]
    rfl

/-- What is resolved depends on the entry alone once the rest of the state is fixed. -/
lemma resolveSecret_applySecrets (w : World) :
    resolveSecret p (applySecrets p name patch w) name kind =
      if value (applySecrets p name patch w).secrets.file (secretRef p.names name kind) ≠ [] then
        value (applySecrets p name patch w).secrets.file (secretRef p.names name kind)
      else if w.isPlatformApp name then w.env (secretRef p.names name kind) else [] := by
  rw [applySecrets_other]
  rfl

/-- A credential that the patch sets is resolved to one value, one that it does not set as
before. -/
lemma resolved_patch {w₁ w₂ : World} (h : Similar p name w₁ w₂)
    (hkind : kind ∈ maskedKinds) : (resolveSecret p (applySecrets p name patch w₁) name kind =
      resolveSecret p (applySecrets p name patch w₂) name kind) ↔
    kind ∈ patch.secrets.map Prod.fst ∨
      resolveSecret p w₁ name kind = resolveSecret p w₂ name kind := by
  by_cases hmem : kind ∈ patch.secrets.map Prod.fst
  · obtain ⟨v, hv, hlookup⟩ := sets_writeSecret.stored (ne_nil_of_mem_secrets patch) hmem
    have hresolved : ∀ w, resolveSecret p (applySecrets p name patch w) name kind = v := by
      intro w
      have hvalue : value (applySecrets p name patch w).secrets.file _ = v :=
        value_of_text (hlookup w)
      rw [resolveSecret_applySecrets, hvalue, if_pos hv]
    rw [hresolved, hresolved]
    exact iff_of_true rfl (.inl hmem)
  · have hresolved : ∀ w : World,
        Settled p.layout (w.secrets.file.lookup (secretRef p.names name kind)) →
        resolveSecret p (applySecrets p name patch w) name kind = resolveSecret p w name kind := by
      intro w hsettled
      have hvalue : value (applySecrets p name patch w).secrets.file (secretRef p.names name kind) =
          value w.secrets.file (secretRef p.names name kind) := by
        have hwrote : Wrote p name patch.secrets w _ := wrote_applySecrets patch w
        have hleft := hwrote.left (secretRef p.names name kind)
          fun other hother heq => hmem (kind_of_secretRef heq ▸ hother)
        rw [value, hleft.eq_of_settled hsettled]
        rfl
      rw [resolveSecret_applySecrets, hvalue]
      rfl
    rw [hresolved w₁ (h.settled₁ kind hkind), hresolved w₂ (h.settled₂ kind hkind)]
    exact (or_iff_right hmem).symm

end Stored

/-! ## The bodies of the routes -/

/-- The credentials that the answer of a patch shows. -/
def shownKinds : List SecretKind := [.s3Key, .s3Secret, .smtpPass]

/-- The credentials with the MQTT password covered. -/
def covered (sec : Secrets) : Secrets := fun kind =>
  if kind = .mqttPassword ∧ sec kind ≠ [] then str "****" else sec kind

lemma covered_of_shown (sec : Secrets) {kind : SecretKind} (h : kind ∈ shownKinds) :
    covered sec kind = sec kind := by
  refine if_neg fun hpassword => ?_
  rw [hpassword.1] at h
  exact absurd h (by decide)

lemma coverPassword_toResolved (sec : Secrets) (tree : Tree) :
    (toResolved p sec tree).coverPassword = toResolved p (covered sec) tree := by
  have hpassword : (toResolved p sec tree).mqtt.password = sec .mqttPassword := rfl
  rw [AppConfig.coverPassword, hpassword]
  by_cases hempty : sec .mqttPassword = []
  · have hsame : covered sec = sec := by
      funext kind
      exact if_neg fun h => h.2 (h.1 ▸ hempty)
    rw [if_pos hempty, hsame]
  · simp [toResolved, resolveS3, resolveMqtt, resolveSmtp, covered, hempty]

/-- With the password covered, the other credentials are what is left to tell answers
apart. -/
lemma coverPassword_eq_iff {sec₁ sec₂ : Secrets} (tree : Tree)
    (h : Alike (sec₁ .mqttPassword) (sec₂ .mqttPassword)) :
    (toResolved p sec₁ tree).coverPassword = (toResolved p sec₂ tree).coverPassword ↔
      ∀ kind ∈ shownKinds, sec₁ kind = sec₂ kind := by
  rw [coverPassword_toResolved, coverPassword_toResolved]
  constructor
  · intro heq
    have hkey := congrArg (fun c => c.s3.accessKey) heq
    have hsecret := congrArg (fun c => c.s3.secretKey) heq
    have hpass := congrArg (fun c => c.smtp.pass) heq
    simpa [shownKinds] using ⟨hkey, hsecret, hpass⟩
  · intro heq
    have hshown : ∀ kind ∈ shownKinds, covered sec₁ kind = covered sec₂ kind := by
      intro kind hkind
      rw [covered_of_shown sec₁ hkind, covered_of_shown sec₂ hkind, heq kind hkind]
    have hpassword : covered sec₁ .mqttPassword = covered sec₂ .mqttPassword := by
      by_cases hempty : sec₁ .mqttPassword = []
      · simp [covered, hempty, h.2.mp hempty]
      · simp [covered, hempty, mt h.2.mpr hempty]
    simp only [toResolved, resolveS3, resolveMqtt, resolveSmtp, hpassword,
      hshown .s3Key (by decide), hshown .s3Secret (by decide), hshown .smtpPass (by decide)]

/-- For two secrets files that look the same behind the masks, the answers of the block
routes are the same, and those of a patch are exactly when it is refused or the S3
credentials and the SMTP password are set by it or are the same in clear. -/
theorem bodies_alike_iff (p : Setup) (name : Str) (w : World) (s₁ s₂ : SecretsStore)
    (halike : ∀ kind ∈ maskedKinds, Alike (value s₁.file (secretRef p.names name kind))
      (value s₂.file (secretRef p.names name kind)))
    (hsettled₁ : ∀ kind ∈ maskedKinds,
      Settled p.layout (s₁.file.lookup (secretRef p.names name kind)))
    (hsettled₂ : ∀ kind ∈ maskedKinds,
      Settled p.layout (s₂.file.lookup (secretRef p.names name kind))) :
    let w₁ := { w with secrets := s₁ }
    let w₂ := { w with secrets := s₂ }
    (getS3 p w₁ name = getS3 p w₂ name ∧
      ∀ input, (setS3 p name input w₁).1 = (setS3 p name input w₂).1) ∧
    (getMqtt p w₁ name = getMqtt p w₂ name ∧
      ∀ input, (setMqtt p name input w₁).1 = (setMqtt p name input w₂).1) ∧
    (getSmtp p w₁ name = getSmtp p w₂ name ∧
      ∀ input, (setSmtp p name input w₁).1 = (setSmtp p name input w₂).1) ∧
    ∀ patch refused,
      (patchApp p name patch refused w₁).1 = (patchApp p name patch refused w₂).1 ↔
        (∃ e, (patchApp p name patch refused w₁).1 = .error e) ∨
        ∀ kind ∈ shownKinds, kind ∈ patch.secrets.map Prod.fst ∨
          resolveSecret p w₁ name kind = resolveSecret p w₂ name kind := by
  intro w₁ w₂
  have h : Similar p name w₁ w₂ := ⟨rfl, halike, hsettled₁, hsettled₂⟩
  refine ⟨⟨h.getBlock (blind_maskedS3 p), fun _ => h.setBlock (blind_maskedS3 p) _ _⟩,
    ⟨h.getBlock (blind_maskedMqtt p), fun _ => h.setBlock (blind_maskedMqtt p) _ _⟩,
    ⟨h.getBlock (blind_maskedSmtp p), fun _ => h.setBlock (blind_maskedSmtp p) _ _⟩, ?_⟩
  intro patch refused
  have hanswer : ∀ w, (patchApp p name patch refused w).1 =
      (updateConfig p name patch refused w).1.map AppConfig.coverPassword := fun _ => rfl
  rw [hanswer, hanswer]
  obtain ⟨e, he₁, he₂⟩ | ⟨tree, htree₁, htree₂⟩ := h.updateConfig patch refused
  · rw [he₁, he₂]
    exact iff_of_true rfl (.inl ⟨e, rfl⟩)
  rw [htree₁, htree₂]
  have hpassword := (h.applySecrets patch).resolved .mqttPassword (by decide)
  have hkinds : ∀ kind ∈ shownKinds, kind ∈ maskedKinds := by decide
  constructor
  · intro heq
    have heq' := (coverPassword_eq_iff p tree hpassword).mp (Except.ok.inj heq)
    exact .inr fun kind hkind => (resolved_patch patch h (hkinds kind hkind)).mp (heq' kind hkind)
  · rintro (⟨e, he⟩ | hshown)
    · cases he
    · refine congrArg Except.ok ((coverPassword_eq_iff p tree hpassword).mpr fun kind hkind => ?_)
      exact (resolved_patch patch h (hkinds kind hkind)).mpr (hshown kind hkind)

/-- Keys that look the same: the block is answered alike, and a patch that sets another
key. -/
theorem bodies_alike_iff_live :
    let w₁ := twoApps (keyStore live (str "abXcd"))
    let w₂ := twoApps (keyStore live (str "abYcd"))
    let patch : AppConfigPatch plainSetup :=
      { emptyPatch with s3 := some ⟨none, none, none, none, none, none, none, str "new", []⟩ }
    getS3 plainSetup w₁ live = getS3 plainSetup w₂ live ∧
      (patchApp plainSetup live patch none w₁).1 = (patchApp plainSetup live patch none w₂).1 := by
  intro w₁ w₂ patch
  have h := bodies_alike_iff plainSetup live w₁ w₁.secrets w₂.secrets
    (by decide) (by decide) (by decide)
  exact ⟨h.1.1, (h.2.2.2 patch none).mpr (.inr (by decide))⟩

/-- Two keys with one mask are told apart by the answer of an empty patch. -/
theorem patchApp_shows_key :
    let w₁ := twoApps (keyStore live (str "abXcd"))
    let w₂ := twoApps (keyStore live (str "abYcd"))
    (∀ kind ∈ maskedKinds,
      Alike (value w₁.secrets.file (secretRef plainSetup.names live kind))
        (value w₂.secrets.file (secretRef plainSetup.names live kind))) ∧
      (patchApp plainSetup live emptyPatch none w₁).1 ≠
        (patchApp plainSetup live emptyPatch none w₂).1 := by
  intro w₁ w₂
  refine ⟨by decide, fun heq => ?_⟩
  have hkey : (Except.ok (str "abXcd") : Except Failure Str) = .ok (str "abYcd") :=
    congrArg (Except.map fun c : AppConfig plainSetup => c.s3.accessKey) heq
  exact absurd (Except.ok.inj hkey) (by decide)

end StreamHub.Apps
