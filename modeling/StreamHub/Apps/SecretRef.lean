import StreamHub.Library.Runes

/-!
# The names of an app's secrets

The credentials of an app stand in one file with those of all other apps.  The key of
each is derived from the name of the app and the kind of the credential.

App names are made of lower-case letters, digits and hyphens.  On those the encoding of
the name keeps every byte apart (`secretSlug_injective`), and the last byte of a key tells
the kind, so the key determines the app and the kind (`secretRef_injective`).  The
encoding of earlier versions put runs of hyphens together (`legacySecretRef`).
-/

namespace StreamHub.Apps

open Library Text Runes List

/-- One credential of an app. -/
inductive SecretKind
  | s3Key | s3Secret | smtpPass | mqttPassword | drmToken
  deriving DecidableEq

namespace SecretKind

def text : SecretKind → Str
  | s3Key => str "S3_KEY"
  | s3Secret => str "S3_SECRET"
  | smtpPass => str "SMTP_PASS"
  | mqttPassword => str "MQTT_PASSWORD"
  | drmToken => str "DRM_TOKEN"

def all : List SecretKind := [s3Key, s3Secret, smtpPass, mqttPassword, drmToken]

end SecretKind

/-- Where the key of a kind is repeated in `config.yaml`. -/
structure SecretField where
  kind : SecretKind
  /-- the blocks below the root -/
  path : List Str
  key : Str
  /-- the setter that owns the value; empty for none -/
  route : Str

def secretFields : List SecretField :=
  [⟨.s3Key, [str "s3"], str "access_key_env", str "s3"⟩,
   ⟨.s3Secret, [str "s3"], str "secret_key_env", str "s3"⟩,
   ⟨.mqttPassword, [str "mqtt"], str "password_env", str "mqtt"⟩,
   ⟨.smtpPass, [str "smtp"], str "pass_env", str "smtp"⟩,
   ⟨.drmToken, [str "features", str "drm"], str "key_server_token_env", []⟩]

namespace SecretField

/-- May the key be empty? -/
def optional (f : SecretField) : Bool := f.kind == .drmToken

def label (f : SecretField) : Str := join f.path (str ".") ++ str "." ++ f.key

end SecretField

/-! ## Names -/

/-- Library functions left open. -/
structure Names where
  /-- ten hexadecimal digits of the SHA-256 of a name -/
  digest : Str → Str
  /-- `strings.ToUpper` of a string with a byte above 0x7f -/
  upperUnicode : Str → Str

def hyphen : UInt8 := 0x2d

def underscore : UInt8 := 0x5f

def isSlugByte (b : UInt8) : Bool := isLower b || isDigit b || b == hyphen

/-- `appSlug`: 3 to 32 letters, digits and hyphens, no hyphen at the ends. -/
def appSlug (name : Str) : Bool :=
  decide (3 ≤ name.length) && decide (name.length ≤ 32) && name.all isSlugByte &&
    name.head? != some hyphen && name.getLast? != some hyphen

/-- A name the registry has. -/
abbrev AppName := { name : Str // appSlug name = true }

variable {name : Str}

lemma all_isSlugByte (h : appSlug name = true) : name.all isSlugByte = true := by
  simp only [appSlug, Bool.and_eq_true] at h
  exact h.1.1.2

/-! ## Keys -/

/-- A rune of a name in a key. -/
def slugRune : Str → Str
  | [b] =>
    if isLower b then [b - 0x20]
    else if isDigit b || isUpper b then [b]
    else [underscore]
  | _ => [underscore]

def plainRune : Str → Bool
  | [b] => isSlugByte b
  | _ => false

def secretSlug (names : Names) (app : Str) : Str :=
  let body := (runes app).flatMap slugRune
  if app ≠ [] ∧ (runes app).all plainRune then body
  else body ++ str "_x" ++ names.digest app

def secretRef (names : Names) (app : Str) (kind : SecretKind) : Str :=
  str "APP_" ++ secretSlug names app ++ str "_" ++ kind.text

def upperByte (b : UInt8) : UInt8 := if isLower b then b - 0x20 else b

/-- `strings.ToUpper` -/
def Names.toUpper (names : Names) (s : Str) : Str :=
  if isASCII s then s.map upperByte else names.upperUnicode s

/-- Each run of bytes that are no capital letters and no digits becomes one underscore. -/
def collapse : Bool → Str → Str
  | _, [] => []
  | inRun, b :: s =>
    if isUpper b || isDigit b then b :: collapse false s
    else if inRun then collapse true s
    else underscore :: collapse true s

def envSlug (names : Names) (name : Str) : Str := collapse false (names.toUpper name)

def legacySecretRef (names : Names) (app : Str) (kind : SecretKind) : Str :=
  str "APP_" ++ envSlug names app ++ str "_" ++ kind.text

/-! ## Names as they are registered -/

/-- A byte of a name in a key. -/
def slugByte (b : UInt8) : UInt8 :=
  if isLower b then b - 0x20 else if isDigit b then b else underscore

variable {b : UInt8}

lemma isLower_iff : isLower b = true ↔ 0x61 ≤ b.toNat ∧ b.toNat ≤ 0x7a := by
  simp [isLower, UInt8.le_iff_toNat_le]

lemma isUpper_iff : isUpper b = true ↔ 0x41 ≤ b.toNat ∧ b.toNat ≤ 0x5a := by
  simp [isUpper, UInt8.le_iff_toNat_le]

lemma isSlugByte_iff : isSlugByte b = true ↔
    (0x61 ≤ b.toNat ∧ b.toNat ≤ 0x7a) ∨ (0x30 ≤ b.toNat ∧ b.toNat ≤ 0x39) ∨ b.toNat = 0x2d := by
  rw [isSlugByte, Bool.or_eq_true, Bool.or_eq_true, isLower_iff, isDigit_iff, or_assoc, beq_iff_eq,
    ← UInt8.toNat_inj]
  rfl

lemma lt_of_isSlugByte (h : isSlugByte b = true) : b < 0x80 := by
  change b.toNat < 128
  have := isSlugByte_iff.mp h
  omega

lemma isASCII_of_isSlugByte (h : name.all isSlugByte = true) : isASCII name = true := by
  refine all_eq_true.mpr fun b hb => decide_eq_true ?_
  exact lt_of_isSlugByte (all_eq_true.mp h b hb)

lemma runes_of_isASCII {s : Str} (h : isASCII s = true) : runes s = s.map fun b => [b] := by
  have hpieces := pieces_append_of_isASCII h []
  rw [append_nil, pieces_nil, append_nil] at hpieces
  rw [runes, hpieces]
  refine map_asRune fun r hr => ?_
  obtain ⟨b, hb, rfl⟩ := mem_map.mp hr
  exact isRune_singleton (Unicode.lt_of_isASCII h b hb)

lemma slugRune_of_isSlugByte (h : isSlugByte b = true) : slugRune [b] = [slugByte b] := by
  have hb := isSlugByte_iff.mp h
  have hupper : isUpper b = false := by
    rw [Bool.eq_false_iff, Ne, isUpper_iff]
    omega
  simp only [slugRune, slugByte, hupper, Bool.or_false]
  split <;> rename_i hlower
  · rfl
  · split <;> rfl

lemma secretSlug_of_isSlugByte (names : Names) (hne : name ≠ [])
    (h : name.all isSlugByte = true) : secretSlug names name = name.map slugByte := by
  have hrunes := runes_of_isASCII (isASCII_of_isSlugByte h)
  have hplain : (runes name).all plainRune = true := by
    rw [hrunes, all_map]
    exact h
  rw [secretSlug, if_pos ⟨hne, hplain⟩, hrunes, flatMap_map]
  rw [flatMap_congr fun b hb => slugRune_of_isSlugByte (all_eq_true.mp h b hb)]
  exact flatMap_pure_eq_map slugByte name

lemma ne_nil_of_appSlug (h : appSlug name = true) : name ≠ [] := by
  rintro rfl
  cases h

lemma secretSlug_of_appSlug (names : Names) (h : appSlug name = true) :
    secretSlug names name = name.map slugByte :=
  secretSlug_of_isSlugByte names (ne_nil_of_appSlug h) (all_isSlugByte h)

lemma toNat_slugByte (b : UInt8) : (slugByte b).toNat =
    if 0x61 ≤ b.toNat ∧ b.toNat ≤ 0x7a then b.toNat - 0x20
    else if 0x30 ≤ b.toNat ∧ b.toNat ≤ 0x39 then b.toNat else 0x5f := by
  simp only [slugByte, isLower_iff, isDigit_iff]
  split <;> rename_i hlower
  · rw [UInt8.toNat_sub_of_le]
    · rfl
    · change 32 ≤ b.toNat
      omega
  · split <;> rfl

lemma slugByte_injective {a : UInt8} (ha : isSlugByte a = true) (hb : isSlugByte b = true)
    (h : slugByte a = slugByte b) : a = b := by
  have hnat := congrArg UInt8.toNat h
  rw [toNat_slugByte, toNat_slugByte] at hnat
  rw [isSlugByte_iff] at ha hb
  rw [← UInt8.toNat_inj]
  split at hnat <;> split at hnat <;> (try split at hnat) <;> (try split at hnat) <;> omega

lemma map_slugByte_injective {a b : Str} (ha : a.all isSlugByte = true)
    (hb : b.all isSlugByte = true) (h : a.map slugByte = b.map slugByte) : a = b := by
  induction a generalizing b with
  | nil =>
    rw [map_nil, eq_comm, map_eq_nil_iff] at h
    exact h.symm
  | cons x a ih =>
    cases b with
    | nil => cases h
    | cons y b =>
      rw [all_cons, Bool.and_eq_true] at ha hb
      rw [map_cons, map_cons, cons.injEq] at h
      rw [slugByte_injective ha.1 hb.1 h.1, ih ha.2 hb.2 h.2]

lemma secretSlug_injective (names : Names) {a b : Str} (ha : appSlug a = true)
    (hb : appSlug b = true) (h : secretSlug names a = secretSlug names b) : a = b := by
  rw [secretSlug_of_appSlug names ha, secretSlug_of_appSlug names hb] at h
  exact map_slugByte_injective (all_isSlugByte ha) (all_isSlugByte hb) h

lemma kind_of_getLast {j k : SecretKind} (h : j.text.getLast? = k.text.getLast?) : j = k := by
  cases j <;> cases k <;> first | rfl | exact absurd h (by decide)

lemma text_ne_nil (k : SecretKind) : k.text ≠ [] := by cases k <;> decide

lemma secretRef_ne_nil (names : Names) (app : Str) (kind : SecretKind) :
    secretRef names app kind ≠ [] := by
  intro h
  have hlen := congrArg length h
  simp [secretRef] at hlen
  exact absurd hlen.1 (by decide)

lemma kind_of_secretRef {names : Names} {a b : Str} {j k : SecretKind}
    (h : secretRef names a j = secretRef names b k) : j = k := by
  have hlast : ∀ app kind, (secretRef names app kind).getLast? = kind.text.getLast? := by
    intro app kind
    exact getLast?_append_of_ne_nil _ (text_ne_nil kind)
  exact kind_of_getLast (by rw [← hlast a, h, hlast])

lemma secretRef_injective (names : Names) {a b : Str} {j k : SecretKind}
    (ha : appSlug a = true) (hb : appSlug b = true)
    (h : secretRef names a j = secretRef names b k) : a = b ∧ j = k := by
  obtain rfl := kind_of_secretRef h
  refine ⟨secretSlug_injective names ha hb ?_, rfl⟩
  rw [secretRef, secretRef, append_left_inj, append_left_inj, append_right_inj] at h
  exact h

end StreamHub.Apps
