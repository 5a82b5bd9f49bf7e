import StreamHub.Config.Secrets

/-!
# Secrets of the notification targets

`RedactNotify`, `KeepNotifySecrets` and `validateNotify` of
`internal/config/secrets.go`.  Targets have no id: a redacted webhook is matched
to the first stored one with the same redacted URL, an SNMP target to the first
with the same address, version and user.  So a round trip gives every target the
secrets of the first one it cannot be told from.
-/

namespace StreamHub.Config

open Library Library.Text

/-! ## Redacting and keeping -/

def Webhook.redact (go : Go) (w : Webhook) : Webhook :=
  { w with url := redactURL go w.url, secret := redactStr w.secret }

def SNMPTarget.redact (s : SNMPTarget) : SNMPTarget :=
  { s with
    community := redactStr s.community
    authPass := redactStr s.authPass
    privPass := redactStr s.privPass }

/-- `RedactNotify` -/
def redactNotify (go : Go) (n : NotifyConfig) : NotifyConfig where
  webhooks := n.webhooks.map fun w => w.redact go
  snmp := n.snmp.map SNMPTarget.redact

/-- The stored webhook `p` takes the submitted `w` for itself. -/
def Webhook.matches (go : Go) (w p : Webhook) : Bool := keepURL go p.url w.url == p.url

/-- The loop over the stored webhooks, up to its break. -/
def Webhook.keep (go : Go) (stored : List Webhook) (w : Webhook) : Webhook :=
  match stored.find? (w.matches go) with
  | none => w
  | some p => { w with url := p.url, secret := keepKey p.secret w.secret }

/-- Same address, version and user. -/
def SNMPTarget.matches (s p : SNMPTarget) : Bool :=
  p.address == s.address && p.version == s.version && p.user == s.user

def SNMPTarget.keep (stored : List SNMPTarget) (s : SNMPTarget) : SNMPTarget :=
  match stored.find? s.matches with
  | none => s
  | some p =>
    { s with
      community := keepKey p.community s.community
      authPass := keepKey p.authPass s.authPass
      privPass := keepKey p.privPass s.privPass }

/-- `KeepNotifySecrets`; without a stored configuration there is nothing to keep. -/
def keepNotifySecrets (go : Go) (prev : Option NotifyConfig) (next : NotifyConfig) : NotifyConfig :=
  match prev with
  | none => next
  | some prev =>
    { webhooks := next.webhooks.map (Webhook.keep go prev.webhooks)
      snmp := next.snmp.map (SNMPTarget.keep prev.snmp) }

/-! ## Validation -/

def Webhook.validate (w : Webhook) (p : Str) : Errors :=
  reject (contains w.url redacted = true) (p ++ str ".url") placeholderMsg ++
  reject (w.secret = redacted) (p ++ str ".secret") placeholderMsg

def SNMPTarget.validate (s : SNMPTarget) (p : Str) : Errors :=
  reject (s.community = redacted) (p ++ str ".community") placeholderMsg ++
  reject (s.authPass = redacted) (p ++ str ".authPass") placeholderMsg ++
  reject (s.privPass = redacted) (p ++ str ".privPass") placeholderMsg

def validateWebhooksFrom : Nat → List Webhook → Errors
  | _, [] => []
  | i, w :: rest =>
    w.validate (indexed "settings.notify.webhooks" i) ++ validateWebhooksFrom (i + 1) rest

def validateSNMPFrom : Nat → List SNMPTarget → Errors
  | _, [] => []
  | i, s :: rest => s.validate (indexed "settings.notify.snmp" i) ++ validateSNMPFrom (i + 1) rest

/-- `validateNotify` -/
def validateNotify (n : NotifyConfig) : Errors :=
  validateWebhooksFrom 0 n.webhooks ++ validateSNMPFrom 0 n.snmp

/-! ## Which target a redacted one is taken for -/

variable {go : Go}

lemma validateWebhooksFrom_eq_nil {i : Nat} {webhooks : List Webhook}
    (h : validateWebhooksFrom i webhooks = []) :
    ∀ w ∈ webhooks, contains w.url redacted = false := by
  induction webhooks generalizing i with
  | nil => exact fun w hw => nomatch hw
  | cons first rest ih =>
    simp only [validateWebhooksFrom, Webhook.validate, List.append_eq_nil_iff, reject_eq_nil] at h
    exact List.forall_mem_cons.mpr ⟨Bool.eq_false_of_not_eq_true h.1.1, ih h.2⟩

lemma matches_redact_iff {w p : Webhook} (hp : contains p.url redacted = false) :
    (w.redact go).matches go p = true ↔ redactURL go p.url = redactURL go w.url := by
  change (keepURL go p.url (redactURL go w.url) == p.url) = true ↔ _
  rw [beq_iff_eq]
  constructor
  · intro h
    unfold keepURL at h
    split at h
    · rename_i hkept
      exact hkept.2.2
    -- the redacted form is a URL without placeholder, so nothing was redacted
    have hsame : redactURL go w.url = w.url := by
      by_contra hne
      rw [← h, redactURL_contains hne] at hp
      cases hp
    rw [← h, hsame]
    exact hsame
  · intro h
    rw [← h]
    exact keepURL_redactURL p.url

/-- The first webhook with the redacted URL of `w`. -/
def firstWebhook (go : Go) (n : NotifyConfig) (w : Webhook) : Option Webhook :=
  n.webhooks.find? fun p => redactURL go p.url == redactURL go w.url

/-- The first target with the address, version and user of `s`. -/
def firstTarget (n : NotifyConfig) (s : SNMPTarget) : Option SNMPTarget := n.snmp.find? s.matches

lemma Webhook.keep_redact_eq_iff {n : NotifyConfig} {w : Webhook} (hw : w ∈ n.webhooks)
    (hclean : ∀ p ∈ n.webhooks, contains p.url redacted = false) :
    Webhook.keep go n.webhooks (w.redact go) = w ↔
      ∀ p, firstWebhook go n w = some p →
        p.url = w.url ∧ (w.secret = [] ∨ p.secret = w.secret) := by
  have hfind : n.webhooks.find? ((w.redact go).matches go) = firstWebhook go n w := by
    refine List.find?_congr fun p hp => ?_
    rw [Bool.eq_iff_iff, matches_redact_iff (hclean p hp), beq_iff_eq]
  -- there is a first one, since `w` itself is one
  obtain ⟨p, hp⟩ : ∃ p, firstWebhook go n w = some p := by
    rw [← Option.isSome_iff_exists, firstWebhook, List.find?_isSome]
    exact ⟨w, hw, by simp⟩
  unfold Webhook.keep
  rw [hfind, hp]
  obtain ⟨url, secret, types⟩ := w
  simp [Webhook.redact, keepKey_redactStr_eq_iff]

lemma SNMPTarget.keep_redact_eq_iff {n : NotifyConfig} {s : SNMPTarget} (hs : s ∈ n.snmp) :
    SNMPTarget.keep n.snmp s.redact = s ↔
      ∀ p, firstTarget n s = some p →
        (s.community = [] ∨ p.community = s.community) ∧
        (s.authPass = [] ∨ p.authPass = s.authPass) ∧
        (s.privPass = [] ∨ p.privPass = s.privPass) := by
  have hfind : n.snmp.find? s.redact.matches = firstTarget n s := rfl
  obtain ⟨p, hp⟩ : ∃ p, firstTarget n s = some p := by
    rw [← Option.isSome_iff_exists, firstTarget, List.find?_isSome]
    exact ⟨s, hs, by simp [SNMPTarget.matches]⟩
  unfold SNMPTarget.keep
  rw [hfind, hp]
  obtain ⟨address, version, community, user, authProto, authPass, privProto, privPass, engineID⟩ :=
    s
  simp [SNMPTarget.redact, keepKey_redactStr_eq_iff]

lemma map_map_eq_self_iff {α β : Type*} {f : α → β} {g : β → α} {l : List α} :
    (l.map f).map g = l ↔ ∀ a ∈ l, g (f a) = a := by
  rw [List.map_map]
  constructor
  · intro h a ha
    exact List.map_eq_map_iff.mp (h.trans (List.map_id l).symm) a ha
  · intro h
    exact (List.map_congr_left h).trans (List.map_id l)

/-- Reading valid notification targets and writing them back gives the targets
exactly when each of them is the first of its kind or has its secrets. -/
theorem keepNotifySecrets_redactNotify_iff (go : Go) (n : NotifyConfig)
    (hvalid : validateNotify n = []) :
    keepNotifySecrets go (some n) (redactNotify go n) = n ↔
      (∀ w ∈ n.webhooks, ∀ p, firstWebhook go n w = some p →
        p.url = w.url ∧ (w.secret = [] ∨ p.secret = w.secret)) ∧
      ∀ s ∈ n.snmp, ∀ p, firstTarget n s = some p →
        (s.community = [] ∨ p.community = s.community) ∧
        (s.authPass = [] ∨ p.authPass = s.authPass) ∧
        (s.privPass = [] ∨ p.privPass = s.privPass) := by
  have hclean := validateWebhooksFrom_eq_nil (List.append_eq_nil_iff.mp hvalid).1
  have hfields : keepNotifySecrets go (some n) (redactNotify go n) = n ↔
      (n.webhooks.map fun w => w.redact go).map (Webhook.keep go n.webhooks) = n.webhooks ∧
        (n.snmp.map SNMPTarget.redact).map (SNMPTarget.keep n.snmp) = n.snmp := by
    obtain ⟨webhooks, snmp⟩ := n
    simp [keepNotifySecrets, redactNotify]
  rw [hfields, map_map_eq_self_iff, map_map_eq_self_iff]
  refine and_congr (forall₂_congr fun w hw => ?_) (forall₂_congr fun s hs => ?_)
  · exact Webhook.keep_redact_eq_iff hw hclean
  · exact SNMPTarget.keep_redact_eq_iff hs

/-- Two webhooks of one receiver with their own HMAC keys. -/
def twoKeys : NotifyConfig where
  webhooks :=
    [{ url := str "https://noc/alarm", secret := str "alpha", types := [str "black"] },
      { url := str "https://noc/alarm", secret := str "beta", types := [str "silence"] }]

/-- One webhook with a token in its URL, and one SNMP target. -/
def oneEach : NotifyConfig where
  webhooks := [{ url := str "https://noc/alarm?token=t0", secret := str "alpha" }]
  snmp := [{ address := str "10.0.0.9:162", version := str "2c", community := str "private" }]

/-- Single targets come back. -/
theorem keepNotifySecrets_redactNotify_oneEach :
    validateNotify oneEach = [] ∧
      keepNotifySecrets Go.plain (some oneEach) (redactNotify Go.plain oneEach) = oneEach := by
  have hvalid : validateNotify oneEach = [] := by decide +kernel
  exact ⟨hvalid, (keepNotifySecrets_redactNotify_iff Go.plain oneEach hvalid).mpr
    ⟨by decide +kernel, by decide +kernel⟩⟩

/-- The second webhook gets the key of the first. -/
theorem keepNotifySecrets_mixes_keys :
    validateNotify twoKeys = [] ∧
      (keepNotifySecrets Go.plain (some twoKeys) (redactNotify Go.plain twoKeys)).webhooks.map
          (·.secret) = [str "alpha", str "alpha"] ∧
      keepNotifySecrets Go.plain (some twoKeys) (redactNotify Go.plain twoKeys) ≠ twoKeys := by
  refine ⟨by decide +kernel, by decide +kernel, by decide +kernel⟩

end StreamHub.Config
