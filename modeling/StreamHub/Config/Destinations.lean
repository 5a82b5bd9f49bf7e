import StreamHub.Config.Secrets
import StreamHub.Client.Resolver

/-!
# Where restored secrets go

`KeepSecrets` puts a stored secret in the place of a placeholder.  This module
says with which destination every kind of secret may come back and when that
holds: all of it always does, except that the stream key of a StreamHub output is
restored without a look at the publish URL it is sent to.
-/

namespace StreamHub.Config

open Library Library.Text Client

variable {go : Go}

/-! ## The secrets of an output -/

def Output.passphrase (o : Output) : Str := o.srt.elim [] SRTOptions.passphrase

def Output.bearerToken (o : Output) : Str := o.whip.elim [] WHIPOptions.bearerToken

/-- The StreamHub fields, empty where there are none. -/
def Output.hub (o : Output) : StreamHubOutput := o.streamHub.getD {}

/-- A placeholder was sent and a secret is kept. -/
def Restored (sent kept : Str) : Prop := sent = redacted ∧ kept ≠ redacted ∧ kept ≠ []

/-- A URL is kept as it was sent or as it is stored. -/
def KeptWhole (stored sent kept : Option Str) : Prop := kept = sent ∨ kept = stored

/-- The output `r` kept for the request's output `n` holds stored secrets only with
their destinations in `prev`. -/
structure OutputStays (prev : Channel) (n r : Output) : Prop where
  passphrase : Restored n.passphrase r.passphrase →
    ∃ p, prev.findOutput n.id = some p ∧ r.url = p.url
  bearerToken : Restored n.bearerToken r.bearerToken →
    ∃ p, prev.findOutput n.id = some p ∧ r.url = p.url
  token : Restored n.hub.token r.hub.token →
    ∃ p, prev.findOutput n.id = some p ∧ r.hub.baseURL = p.hub.baseURL ∧ r.hub.app = p.hub.app
  streamKey : Restored n.hub.streamKey r.hub.streamKey →
    ∃ p, prev.findOutput n.id = some p ∧ r.hub.baseURL = p.hub.baseURL ∧
      r.hub.app = p.hub.app ∧ r.hub.resolvedURL = p.hub.resolvedURL
  url : KeptWhole ((prev.findOutput n.id).map Output.url) (some n.url) (some r.url)
  baseURL : KeptWhole ((prev.findOutput n.id).map fun p => p.hub.baseURL)
    (some n.hub.baseURL) (some r.hub.baseURL)
  resolvedURL : r.hub.resolvedURL = [] ∨
    KeptWhole ((prev.findOutput n.id).map fun p => p.hub.resolvedURL)
      (some n.hub.resolvedURL) (some r.hub.resolvedURL)

/-- The same for a channel: its outputs one by one, and the URIs of its inputs. -/
structure SecretsStay (prev next kept : Channel) : Prop where
  input : KeptWhole (some prev.input.uri) (some next.input.uri) (some kept.input.uri)
  backup : KeptWhole (prev.backup.map Input.uri) (next.backup.map Input.uri)
    (kept.backup.map Input.uri)
  outputs : List.Forall₂ (OutputStays prev) next.outputs kept.outputs

/-- A placeholder sent for the stream key of the same base URL and app comes with
the stored publish URL, or with one that still has a placeholder. -/
def KeyStays (go : Go) (prev : Channel) (n : Output) : Prop :=
  ∀ p, prev.findOutput n.id = some p → Restored n.hub.streamKey p.hub.streamKey →
    keepURL go p.hub.baseURL n.hub.baseURL = p.hub.baseURL → n.hub.app = p.hub.app →
      n.hub.resolvedURL = p.hub.resolvedURL ∨ contains n.hub.resolvedURL redacted = true

/-! ## What one restoration does -/

lemma keepURL_cases (go : Go) (prev next : Str) :
    keepURL go prev next = next ∨ keepURL go prev next = prev := by
  unfold keepURL
  split
  · exact .inr rfl
  · exact .inl rfl

lemma keepURL_of_plain {prev next : Str} (h : contains next redacted = false) :
    keepURL go prev next = next := by
  unfold keepURL
  rw [if_neg]
  rintro ⟨-, hcontains, -⟩
  rw [h] at hcontains
  cases hcontains

lemma keptWhole_keepURL (prev next : Str) :
    KeptWhole (some prev) (some next) (some (keepURL go prev next)) := by
  rcases keepURL_cases go prev next with h | h
  · exact .inl (congrArg some h)
  · exact .inr (congrArg some h)

lemma not_restored_self (s : Str) : ¬ Restored s s := fun h => h.2.1 h.1

/-- Only the StreamHub fields are reset. -/
lemma resetResolution_others (o : Output) : (resetResolution o).url = o.url ∧
      (resetResolution o).passphrase = o.passphrase ∧
      (resetResolution o).bearerToken = o.bearerToken := by
  unfold resetResolution
  split
  · exact ⟨rfl, rfl, rfl⟩
  · split <;> exact ⟨rfl, rfl, rfl⟩

lemma resetResolution_hub (o : Output) :
    ((resetResolution o).hub = o.hub ∧ contains o.hub.resolvedURL redacted = false) ∨
      (resetResolution o).hub =
        { o.hub with ingressID := [], streamKey := [], resolvedURL := [] } := by
  unfold resetResolution Output.hub
  split
  · rename_i hs
    rw [hs]
    exact .inl ⟨rfl, by decide⟩
  rename_i s hs
  rw [hs]
  split
  · exact .inr rfl
  rename_i hclean
  push Not at hclean
  rw [hs]
  exact .inl ⟨rfl, by simpa using hclean.2⟩

lemma resetResolution_hub_fields (o : Output) : (resetResolution o).hub.token = o.hub.token ∧
      (resetResolution o).hub.baseURL = o.hub.baseURL ∧
      (resetResolution o).hub.app = o.hub.app := by
  rcases resetResolution_hub o with ⟨h, -⟩ | h <;> rw [h] <;> exact ⟨rfl, rfl, rfl⟩

lemma resetResolution_hub_of_clean {o : Output} (hkey : o.hub.streamKey ≠ redacted)
    (hurl : contains o.hub.resolvedURL redacted = false) : (resetResolution o).hub = o.hub := by
  unfold resetResolution
  split
  · rfl
  rename_i s hs
  have hhub : o.hub = s := by
    rw [Output.hub, hs]
    rfl
  rw [hhub] at hkey hurl
  rw [if_neg]
  rintro (h | h)
  · exact hkey h
  · rw [hurl] at h
    cases h

/-! ## What an output keeps -/

/-- A passphrase or a token changes only at the stored URL. -/
lemma Output.keep_secrets (go : Go) (p n : Output) : (p.keep go n).url = p.url ∨
      (p.keep go n).passphrase = n.passphrase ∧ (p.keep go n).bearerToken = n.bearerToken := by
  by_cases hdest : keepURL go p.url n.url = p.url
  · exact .inl hdest
  right
  unfold Output.passphrase Output.bearerToken Output.keep
  constructor
  · cases n.srt <;> cases p.srt <;> simp [hdest]
  · cases n.whip <;> cases p.whip <;> simp [hdest]

/-- The StreamHub fields are those sent, unless both sides have some. -/
lemma Output.keep_hub (go : Go) (p n : Output) : (p.keep go n).hub = p.hub.keep go n.hub ∨
      ((p.keep go n).hub = n.hub ∧ (n.hub.streamKey = [] ∨ p.hub.streamKey = [])) := by
  unfold Output.hub Output.keep
  cases n.streamHub with
  | none => exact .inr ⟨rfl, .inl rfl⟩
  | some s =>
    cases p.streamHub with
    | none => exact .inr ⟨rfl, .inr rfl⟩
    | some ps => exact .inl rfl

lemma StreamHubOutput.keep_target (p n : StreamHubOutput) :
    (p.keep go n).baseURL = keepURL go p.baseURL n.baseURL ∧ (p.keep go n).app = n.app := by
  unfold StreamHubOutput.keep
  dsimp only
  split <;> exact ⟨rfl, rfl⟩

lemma StreamHubOutput.keep_same {p n : StreamHubOutput}
    (hbase : keepURL go p.baseURL n.baseURL = p.baseURL) (happ : n.app = p.app) :
    (p.keep go n).streamKey = keepKey p.streamKey n.streamKey ∧
      (p.keep go n).resolvedURL = keepURL go p.resolvedURL n.resolvedURL := by
  unfold StreamHubOutput.keep
  rw [if_pos ⟨hbase, happ⟩]
  exact ⟨rfl, rfl⟩

lemma StreamHubOutput.keep_other {p n : StreamHubOutput}
    (h : ¬ (keepURL go p.baseURL n.baseURL = p.baseURL ∧ n.app = p.app)) :
    (p.keep go n).token = n.token ∧ (p.keep go n).streamKey = n.streamKey ∧
      (p.keep go n).resolvedURL = n.resolvedURL := by
  unfold StreamHubOutput.keep
  rw [if_neg h]
  exact ⟨rfl, rfl, rfl⟩

/-! ## Every secret stays at its destination, the stream key if its URL does -/

/-- Nothing is restored into a new output. -/
lemma outputStays_of_new (prev : Channel) (n : Output) :
    OutputStays prev n (resetResolution n) := by
  obtain ⟨hurl, hpassphrase, hbearer⟩ := resetResolution_others n
  obtain ⟨htoken, hbase, happ⟩ := resetResolution_hub_fields n
  constructor
  case passphrase =>
    intro h
    rw [hpassphrase] at h
    exact absurd h (not_restored_self _)
  case bearerToken =>
    intro h
    rw [hbearer] at h
    exact absurd h (not_restored_self _)
  case token =>
    intro h
    rw [htoken] at h
    exact absurd h (not_restored_self _)
  case streamKey =>
    intro h
    rcases resetResolution_hub n with ⟨hhub, -⟩ | hhub <;> rw [hhub] at h
    · exact absurd h (not_restored_self _)
    · exact absurd rfl h.2.2
  case url => exact .inl (by rw [hurl])
  case baseURL => exact .inl (by rw [hbase])
  case resolvedURL =>
    rcases resetResolution_hub n with ⟨hhub, -⟩ | hhub <;> rw [hhub]
    · exact .inr (Or.inl rfl)
    · exact .inl rfl

/-- A restored stream key is the stored one, of the same base URL and app, and its
publish URL has no placeholder left. -/
lemma restored_streamKey {p n : Output}
    (h : Restored n.hub.streamKey (resetResolution (p.keep go n)).hub.streamKey) :
    Restored n.hub.streamKey p.hub.streamKey ∧
      keepURL go p.hub.baseURL n.hub.baseURL = p.hub.baseURL ∧ n.hub.app = p.hub.app ∧
      (resetResolution (p.keep go n)).hub = p.hub.keep go n.hub ∧
      contains (keepURL go p.hub.resolvedURL n.hub.resolvedURL) redacted = false := by
  rcases resetResolution_hub (p.keep go n) with ⟨hhub, hclean⟩ | hhub
  · rw [hhub] at h ⊢
    rcases p.keep_hub go n with hkept | ⟨hkept, -⟩
    · rw [hkept] at h hclean ⊢
      by_cases hsame : keepURL go p.hub.baseURL n.hub.baseURL = p.hub.baseURL ∧
          n.hub.app = p.hub.app
      · obtain ⟨hkey, hurl⟩ := StreamHubOutput.keep_same hsame.1 hsame.2
        rw [hurl] at hclean
        rw [hkey, keepKey, if_pos h.1] at h
        exact ⟨h, hsame.1, hsame.2, rfl, hclean⟩
      · rw [(StreamHubOutput.keep_other hsame).2.1] at h
        exact absurd h (not_restored_self _)
    · rw [hkept] at h
      exact absurd h (not_restored_self _)
  · rw [hhub] at h
    exact absurd rfl h.2.2

variable {prev : Channel}

/-- A stored output of the same id. -/
lemma outputStays_of_stored {n p : Output} (hp : prev.findOutput n.id = some p)
    (hkey : KeyStays go prev n) : OutputStays prev n (resetResolution (p.keep go n)) := by
  obtain ⟨hurl, hpassphrase, hbearer⟩ := resetResolution_others (p.keep go n)
  obtain ⟨htoken, hbase, happ⟩ := resetResolution_hub_fields (p.keep go n)
  constructor
  case passphrase =>
    intro h
    rw [hpassphrase] at h
    rcases p.keep_secrets go n with hdest | ⟨hsame, -⟩
    · exact ⟨p, hp, by rw [hurl, hdest]⟩
    · rw [hsame] at h
      exact absurd h (not_restored_self _)
  case bearerToken =>
    intro h
    rw [hbearer] at h
    rcases p.keep_secrets go n with hdest | ⟨-, hsame⟩
    · exact ⟨p, hp, by rw [hurl, hdest]⟩
    · rw [hsame] at h
      exact absurd h (not_restored_self _)
  case token =>
    intro h
    rw [htoken] at h
    rw [hbase, happ]
    rcases p.keep_hub go n with hkept | ⟨hkept, -⟩ <;> rw [hkept] at h ⊢
    · by_cases hsame : keepURL go p.hub.baseURL n.hub.baseURL = p.hub.baseURL ∧
          n.hub.app = p.hub.app
      · rw [(StreamHubOutput.keep_target _ _).1, (StreamHubOutput.keep_target _ _).2]
        exact ⟨p, hp, hsame⟩
      · rw [(StreamHubOutput.keep_other hsame).1] at h
        exact absurd h (not_restored_self _)
    · exact absurd h (not_restored_self _)
  case streamKey =>
    intro h
    obtain ⟨hrestored, hsame, hsameApp, hhub, hclean⟩ := restored_streamKey h
    rw [hhub, (StreamHubOutput.keep_target _ _).1, (StreamHubOutput.keep_target _ _).2,
      (StreamHubOutput.keep_same hsame hsameApp).2]
    refine ⟨p, hp, hsame, hsameApp, ?_⟩
    -- a URL that still had a placeholder was replaced by the stored one
    rcases keepURL_cases go p.hub.resolvedURL n.hub.resolvedURL with hsent | hstored
    · rcases hkey p hp hrestored hsame hsameApp with heq | hcontains
      · rw [hsent, heq]
      · rw [hsent, hcontains] at hclean
        cases hclean
    · exact hstored
  case url =>
    rw [hurl, hp]
    exact keptWhole_keepURL _ _
  case baseURL =>
    rw [hbase, hp]
    rcases p.keep_hub go n with hkept | ⟨hkept, -⟩ <;> rw [hkept]
    · rw [(StreamHubOutput.keep_target _ _).1]
      exact keptWhole_keepURL _ _
    · exact .inl rfl
  case resolvedURL =>
    rcases resetResolution_hub (p.keep go n) with ⟨hhub, -⟩ | hhub <;> rw [hhub]
    · right
      rw [hp]
      rcases p.keep_hub go n with hkept | ⟨hkept, -⟩ <;> rw [hkept]
      · by_cases hsame : keepURL go p.hub.baseURL n.hub.baseURL = p.hub.baseURL ∧
            n.hub.app = p.hub.app
        · rw [(StreamHubOutput.keep_same hsame.1 hsame.2).2]
          exact keptWhole_keepURL _ _
        · rw [(StreamHubOutput.keep_other hsame).2.2]
          exact .inl rfl
      · exact .inl rfl
    · exact .inl rfl

/-- A stream key that is restored to another publish URL breaks the rule. -/
lemma keyStays_of_outputStays {n p : Output} (hp : prev.findOutput n.id = some p)
    (h : OutputStays prev n (resetResolution (p.keep go n))) : KeyStays go prev n := by
  intro q hq hrestored hbase happ
  rw [hp] at hq
  cases hq
  by_cases hplain : contains n.hub.resolvedURL redacted = true
  · exact .inr hplain
  left
  rw [Bool.not_eq_true] at hplain
  obtain ⟨hkey, hurl⟩ := StreamHubOutput.keep_same hbase happ
  rw [keepKey, if_pos hrestored.1] at hkey
  rw [keepURL_of_plain hplain] at hurl
  have hkept : (p.keep go n).hub = p.hub.keep go n.hub := by
    rcases p.keep_hub go n with hkept | ⟨-, hempty | hempty⟩
    · exact hkept
    · rw [hrestored.1] at hempty
      exact absurd hempty (by decide)
    · exact absurd hempty hrestored.2.2
  have hhub : (resetResolution (p.keep go n)).hub = p.hub.keep go n.hub := by
    rw [← hkept]
    apply resetResolution_hub_of_clean
    · rw [hkept, hkey]
      exact hrestored.2.1
    · rw [hkept, hurl]
      exact hplain
  obtain ⟨q, hq, -, -, hresolved⟩ := h.streamKey (by rw [hhub, hkey]; exact hrestored)
  rw [hp] at hq
  cases hq
  rw [← hresolved, hhub, hurl]

lemma outputStays_iff {n : Output} :
    OutputStays prev n (keepOutput go prev n) ↔ KeyStays go prev n := by
  unfold keepOutput
  cases hp : prev.findOutput n.id with
  | none =>
    refine ⟨fun _ q hq => ?_, fun _ => outputStays_of_new prev n⟩
    rw [hp] at hq
    cases hq
  | some p => exact ⟨keyStays_of_outputStays hp, outputStays_of_stored hp⟩

/-- Stored secrets stay with their destinations exactly if no stream key is asked
for with another publish URL. -/
theorem secretsStay_keepSecrets_iff (go : Go) (prev next : Channel) :
    SecretsStay prev next (keepSecrets go prev next) ↔
      ∀ n ∈ next.outputs, KeyStays go prev n := by
  have houtputs : List.Forall₂ (OutputStays prev) next.outputs
      (next.outputs.map (keepOutput go prev)) ↔ ∀ n ∈ next.outputs, KeyStays go prev n := by
    rw [List.forall₂_map_right_iff, List.forall₂_same]
    exact forall₂_congr fun n _ => outputStays_iff
  constructor
  · intro h
    exact houtputs.mp h.outputs
  · intro h
    refine ⟨keptWhole_keepURL _ _, ?_, houtputs.mpr h⟩
    change KeptWhole _ _ ((next.backup.map _).map Input.uri)
    cases next.backup with
    | none => exact .inl rfl
    | some b =>
      cases prev.backup with
      | none => exact .inl rfl
      | some p => exact keptWhole_keepURL _ _

/-! ## What is sent where -/

/-- A restored stream key that the resolver does not replace is sent to the stored publish
URL, if its placeholder comes with that. -/
theorem resolve_keepOutput (go : Go) (prev : Channel) {n c : Output} {res : StreamHubOutput}
    (get : Found) (create : Except Str Ingress) (hstays : KeyStays go prev n)
    (hkey : Restored n.hub.streamKey (keepOutput go prev n).hub.streamKey)
    (h : resolve (keepOutput go prev n) get create = .ok (res, c)) :
    (∃ i, create = .ok i ∧ res.streamKey = i.key) ∨
      ∃ p, prev.findOutput n.id = some p ∧ c.url = p.hub.resolvedURL := by
  obtain ⟨rfl, s, hs, rfl | ⟨i, hi, rfl⟩⟩ := resolve_ok h
  · obtain ⟨p, hp, -, -, hurl⟩ := (outputStays_iff.mpr hstays).streamKey hkey
    have hhub : (keepOutput go prev n).hub = res := by
      rw [Output.hub, hs]
      rfl
    rw [hhub] at hurl
    exact .inr ⟨p, hp, hurl⟩
  · exact .inl ⟨i, hi, rfl⟩

/-- An output that publishes over WHIP with the given resolution. -/
def hubOutput (token resolvedURL streamKey : Str) : Output where
  id := str "hub1"
  type := str "streamhub"
  streamHub := some
    { baseURL := str "https://hub.tv"
      app := str "live"
      token := token
      room := str "ch1"
      protocol := str "whip"
      ingressID := str "in-1"
      resolvedURL := resolvedURL
      streamKey := streamKey }

/-- A stored output with its ingress. -/
def storedHub : Channel :=
  testChannel [hubOutput (str "sk_1") (str "https://hub.tv/w") (str "key-1")]

/-- The stored output with placeholders -/
def maskedOutput : Output := hubOutput redacted (str "https://hub.tv/w") redacted

theorem resolve_keepOutput_masked :
    ∃ p, storedHub.findOutput (str "hub1") = some p ∧
      (concrete maskedOutput (keepOutput Go.plain storedHub maskedOutput).hub).url =
        p.hub.resolvedURL := by
  have hstays : KeyStays Go.plain storedHub maskedOutput := by
    intro p hp _ _ _
    have hurl : (storedHub.findOutput (str "hub1")).map (fun p => p.hub.resolvedURL) =
      some (str "https://hub.tv/w") := by decide +kernel
    rw [show storedHub.findOutput (str "hub1") = some p from hp] at hurl
    exact .inl (Option.some.inj hurl).symm
  refine (resolve_keepOutput Go.plain storedHub .found (.error []) hstays
    ⟨by decide, by decide +kernel, by decide +kernel⟩ rfl).resolve_left ?_
  rintro ⟨i, hi, -⟩
  cases hi

/-- The same with placeholders and the publish URL of another host. -/
def movedHub : Channel := testChannel [hubOutput redacted (str "https://evil.net/w") redacted]

/-- Its output, with the defaults. -/
def movedOutput : Output := movedHub.outputs.headD {}

/-- The stored stream key comes back with the other host's URL, the channel passes
validation, and the resolver hands the key to that host as bearer token. -/
theorem keepSecrets_moves_streamKey :
    ¬ SecretsStay storedHub movedHub (keepSecrets Go.plain storedHub movedHub) ∧
      (keepSecrets Go.plain storedHub movedHub).validate Go.plain = [] ∧
      (keepSecrets Go.plain storedHub movedHub).outputs.map (fun o =>
        ((concrete o o.hub).url, (concrete o o.hub).bearerToken)) =
          [(str "https://evil.net/w", str "key-1")] := by
  refine ⟨fun h => ?_, by decide +kernel, by decide +kernel⟩
  have houtputs : List.Forall₂ (OutputStays storedHub) movedHub.outputs
      (movedHub.outputs.map (keepOutput Go.plain storedHub)) := h.outputs
  rw [List.forall₂_map_right_iff, List.forall₂_same] at houtputs
  obtain ⟨p, hp, -, -, hurl⟩ := (houtputs movedOutput (List.mem_singleton.mpr rfl)).streamKey
    ⟨by decide +kernel, by decide +kernel, by decide +kernel⟩
  have hstored : (storedHub.findOutput movedOutput.id).map (fun p => p.hub.resolvedURL) =
      some p.hub.resolvedURL := by rw [hp, Option.map_some]
  rw [← hurl] at hstored
  exact absurd hstored (by decide +kernel)

end StreamHub.Config
