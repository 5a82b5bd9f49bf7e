import StreamHub.Config.Validate
import StreamHub.Config.Url

/-!
# Secrets of a channel

`RedactChannel` and `KeepSecrets` of `internal/config/secrets.go`: a read carries
placeholders in place of the secrets, a write that sends them back keeps the
stored values.  Reading and writing back gives the stored channel, except that
`resetResolution` empties the resolution of an output that stores a placeholder;
validation excludes this for streamhub outputs only.
-/

namespace StreamHub.Config

open Library Library.Text
open List hiding contains

/-! ## Redacting -/

def SRTOptions.redact (s : SRTOptions) : SRTOptions :=
  { s with passphrase := redactStr s.passphrase }

def WHIPOptions.redact (w : WHIPOptions) : WHIPOptions :=
  { w with bearerToken := redactStr w.bearerToken }

def StreamHubOutput.redact (go : Go) (s : StreamHubOutput) : StreamHubOutput :=
  { s with
    token := redactStr s.token
    streamKey := redactStr s.streamKey
    resolvedURL := redactURL go s.resolvedURL
    baseURL := redactURL go s.baseURL }

def Output.redact (go : Go) (o : Output) : Output :=
  { o with
    url := redactURL go o.url
    srt := o.srt.map SRTOptions.redact
    whip := o.whip.map WHIPOptions.redact
    streamHub := o.streamHub.map fun s => s.redact go }

def Input.redact (go : Go) (i : Input) : Input := { i with uri := redactURL go i.uri }

/-- `RedactChannel` -/
def redactChannel (go : Go) (c : Channel) : Channel :=
  { c with
    input := c.input.redact go
    backup := c.backup.map fun b => b.redact go
    outputs := c.outputs.map fun o => o.redact go }

/-! ## Keeping -/

/-- `resetResolution`: a resolution with placeholders is dropped. -/
def resetResolution (o : Output) : Output :=
  match o.streamHub with
  | none => o
  | some s =>
    if s.streamKey = redacted ∨ contains s.resolvedURL redacted = true then
      { o with streamHub := some { s with ingressID := [], streamKey := [], resolvedURL := [] } }
    else o

/-- A placeholder for a stored secret. -/
def keepStr (prev next : Str) : Str := if next = redacted ∧ prev ≠ [] then prev else next

/-- The same for a stream key, which may be stored empty. -/
def keepKey (prev next : Str) : Str := if next = redacted then prev else next

def SRTOptions.keep (p n : SRTOptions) : SRTOptions :=
  { n with passphrase := keepStr p.passphrase n.passphrase }

def WHIPOptions.keep (p n : WHIPOptions) : WHIPOptions :=
  { n with bearerToken := keepStr p.bearerToken n.bearerToken }

/-- The StreamHub fields: nothing follows to another base URL or app. -/
def StreamHubOutput.keep (go : Go) (p n : StreamHubOutput) : StreamHubOutput :=
  let n := { n with baseURL := keepURL go p.baseURL n.baseURL }
  if n.baseURL = p.baseURL ∧ n.app = p.app then
    { n with
      token := keepStr p.token n.token
      streamKey := keepKey p.streamKey n.streamKey
      resolvedURL := keepURL go p.resolvedURL n.resolvedURL }
  else n

/-- The secrets of `n` from the stored output `p` of the same id. -/
def Output.keep (go : Go) (p n : Output) : Output :=
  let url := keepURL go p.url n.url
  let sameDest := url = p.url
  { n with
    url := url
    srt := n.srt.map fun s => p.srt.elim s fun ps => if sameDest then ps.keep s else s
    whip := n.whip.map fun w => p.whip.elim w fun pw => if sameDest then pw.keep w else w
    streamHub := n.streamHub.map fun s => p.streamHub.elim s fun ps => ps.keep go s }

/-- One output of `KeepSecrets`. -/
def keepOutput (go : Go) (prev : Channel) (n : Output) : Output :=
  match prev.findOutput n.id with
  | none => resetResolution n
  | some p => resetResolution (p.keep go n)

/-- `KeepSecrets` -/
def keepSecrets (go : Go) (prev next : Channel) : Channel :=
  { next with
    input := { next.input with uri := keepURL go prev.input.uri next.input.uri }
    backup := next.backup.map fun n =>
      prev.backup.elim n fun p => { n with uri := keepURL go p.uri n.uri }
    outputs := next.outputs.map (keepOutput go prev) }

/-! ## The round trip -/

variable {go : Go}

lemma keepStr_redactStr (s : Str) : keepStr s (redactStr s) = s := by
  unfold keepStr redactStr
  by_cases hs : s = []
  · simp [hs]
  · simp [hs]

/-- A secret comes back from `prev` only if it is empty or the same there. -/
lemma keepKey_redactStr_eq_iff {prev s : Str} :
    keepKey prev (redactStr s) = s ↔ s = [] ∨ prev = s := by
  unfold keepKey redactStr
  by_cases hs : s = []
  · have hne : ([] : Str) ≠ redacted := by decide
    simp [hs, hne]
  · simp [hs]

lemma keepKey_redactStr (s : Str) : keepKey s (redactStr s) = s :=
  keepKey_redactStr_eq_iff.mpr (Or.inr rfl)

lemma SRTOptions.keep_redact (s : SRTOptions) : s.keep s.redact = s := by
  simp [SRTOptions.keep, SRTOptions.redact, keepStr_redactStr]

lemma WHIPOptions.keep_redact (w : WHIPOptions) : w.keep w.redact = w := by
  simp [WHIPOptions.keep, WHIPOptions.redact, keepStr_redactStr]

lemma StreamHubOutput.keep_redact (s : StreamHubOutput) : s.keep go (s.redact go) = s := by
  simp only [StreamHubOutput.keep, StreamHubOutput.redact, keepURL_redactURL, and_self, if_true,
    keepStr_redactStr, keepKey_redactStr]

lemma Output.keep_redact (o : Output) : o.keep go (o.redact go) = o := by
  obtain ⟨id, name, type, enabled, url, preset, managedBy, srt, udp, whip, hls, streamHub, rist,
    record, rendition⟩ := o
  -- the URL comes back, so the destination is the same and its secrets follow
  simp only [Output.keep, Output.redact, keepURL_redactURL, if_true, Option.map_map]
  cases srt <;> cases whip <;> cases streamHub <;>
    simp [SRTOptions.keep_redact, WHIPOptions.keep_redact, StreamHubOutput.keep_redact]

lemma Input.keep_redact (i : Input) :
    { i.redact go with uri := keepURL go i.uri (i.redact go).uri } = i := by
  simp [Input.redact, keepURL_redactURL]

/-! ## What validation says about outputs -/

variable {c : Channel}

lemma validateOutputsFrom_eq_nil {i : Nat} {seen : List Str} {outputs : List Output}
    (h : validateOutputsFrom go c i seen outputs = []) :
    (∀ o ∈ outputs, o.id ∉ seen ∧ o.validate go c = []) ∧ (outputs.map Output.id).Nodup := by
  induction outputs generalizing i seen with
  | nil => exact ⟨fun o ho => (nomatch ho), nodup_nil⟩
  | cons o rest ih =>
    simp only [validateOutputsFrom, append_eq_nil_iff, reject_eq_nil, under_eq_nil] at h
    obtain ⟨⟨hseen, hvalid⟩, hrest⟩ := h
    obtain ⟨hall, hnodup⟩ := ih hrest
    -- the ids seen grow along the list, so a later output has none of the earlier ones
    refine ⟨fun p hp => ?_, ?_⟩
    · rcases mem_cons.mp hp with rfl | hp
      · exact ⟨hseen, hvalid⟩
      · exact ⟨fun hmem => (hall p hp).1 (mem_cons_of_mem _ hmem), (hall p hp).2⟩
    · rw [map_cons, nodup_cons]
      refine ⟨fun hmem => ?_, hnodup⟩
      obtain ⟨p, hp, hid⟩ := mem_map.mp hmem
      exact (hall p hp).1 (hid ▸ mem_cons_self)

lemma Channel.validate_outputs (h : c.validate go = []) :
    (∀ o ∈ c.outputs, o.validate go c = []) ∧ (c.outputs.map Output.id).Nodup := by
  have houtputs : validateOutputsFrom go c 0 [] c.outputs = [] := by
    exact (append_eq_nil_iff.mp h).2
  obtain ⟨hall, hnodup⟩ := validateOutputsFrom_eq_nil houtputs
  exact ⟨fun o ho => (hall o ho).2, hnodup⟩

lemma resetResolution_of_valid {o : Output} (h : o.validate go c = [])
    (htype : OutputType.of o.type = .streamHub) : resetResolution o = o := by
  have hcheck := (Output.validate_parts h).1
  unfold Output.validateType at hcheck
  rw [htype] at hcheck
  unfold resetResolution
  split
  · rfl
  rename_i s hs
  rw [hs] at hcheck
  have hplaceholder : s.hasPlaceholder = false := by
    by_contra hbad
    rw [Bool.not_eq_false] at hbad
    simp [StreamHubOutput.validate, hbad, fail] at hcheck
  rw [if_neg]
  rintro (hkey | hurl)
  · simp [StreamHubOutput.hasPlaceholder, hkey] at hplaceholder
  · simp [StreamHubOutput.hasPlaceholder, hurl] at hplaceholder

lemma find?_of_nodup_map {α β : Type} [BEq β] [LawfulBEq β] {f : α → β} {l : List α}
    (hnodup : (l.map f).Nodup) {a : α} (ha : a ∈ l) : l.find? (fun x => f x == f a) = some a := by
  induction l with
  | nil => cases ha
  | cons first rest ih =>
    rw [map_cons, nodup_cons] at hnodup
    rcases mem_cons.mp ha with rfl | hrest
    · simp
    have hne : f first ≠ f a := fun heq => hnodup.1 (heq ▸ mem_map_of_mem hrest)
    rw [find?_cons_of_neg (by simpa using hne)]
    exact ih hnodup.2 hrest

/-- With distinct ids an output comes back to itself, up to its resolution. -/
lemma keepOutput_redact (hnodup : (c.outputs.map Output.id).Nodup) {o : Output}
    (ho : o ∈ c.outputs) : keepOutput go c (o.redact go) = resetResolution o := by
  have hfind : c.findOutput (o.redact go).id = some o := find?_of_nodup_map hnodup ho
  unfold keepOutput
  rw [hfind]
  change resetResolution (o.keep go (o.redact go)) = resetResolution o
  rw [Output.keep_redact]

/-- An output with its resolution dropped if it holds a placeholder and is not
checked for it. -/
def withoutStrayPlaceholder (o : Output) : Output :=
  if OutputType.of o.type = .streamHub then o else resetResolution o

/-- Reading a valid channel and writing it back gives the channel, except that
outputs of another type than streamhub lose a resolution with placeholders. -/
theorem keepSecrets_redactChannel (go : Go) (c : Channel) (hvalid : c.validate go = []) :
    keepSecrets go c (redactChannel go c) =
      { c with outputs := c.outputs.map withoutStrayPlaceholder } := by
  obtain ⟨hall, hnodup⟩ := Channel.validate_outputs hvalid
  have houtputs : (c.outputs.map fun o => o.redact go).map (keepOutput go c) =
      c.outputs.map withoutStrayPlaceholder := by
    rw [map_map]
    refine map_congr_left fun o ho => ?_
    change keepOutput go c (o.redact go) = _
    rw [keepOutput_redact hnodup ho]
    unfold withoutStrayPlaceholder
    split
    · rename_i htype
      exact resetResolution_of_valid (hall o ho) htype
    · rfl
  have hbackup : ((c.backup.map fun b => b.redact go).map fun n =>
      c.backup.elim n fun p => { n with uri := keepURL go p.uri n.uri }) = c.backup := by
    cases c.backup with
    | none => rfl
    | some b => exact congrArg some b.keep_redact
  unfold keepSecrets redactChannel
  simp only [houtputs, hbackup, Input.keep_redact]

/-- A test pattern with the given outputs. -/
def testChannel (outputs : List Output) : Channel :=
  Channel.applyDefaults Go.plain
    { id := str "ch1", input := { type := str "test" }, outputs := outputs }

/-- An SRT output with a passphrase. -/
def srtOutput : Output where
  id := str "srt1"
  type := str "srt"
  url := str "srt://live:pw@10.0.0.1:9000"
  srt := some { passphrase := str "correct horse" }

/-- A channel with a passphrase and a password. -/
theorem keepSecrets_redactChannel_srt :
    (testChannel [srtOutput]).validate Go.plain = [] ∧
      keepSecrets Go.plain (testChannel [srtOutput])
          (redactChannel Go.plain (testChannel [srtOutput])) =
        { testChannel [srtOutput] with
          outputs := (testChannel [srtOutput]).outputs.map withoutStrayPlaceholder } := by
  have hvalid : (testChannel [srtOutput]).validate Go.plain = [] := by decide +kernel
  exact ⟨hvalid, keepSecrets_redactChannel Go.plain _ hvalid⟩

/-- A UDP output that was a streamhub output before, with what is left of its
resolution. -/
def strayOutput : Output where
  id := str "udp1"
  type := str "udp"
  url := str "udp://239.1.1.1:5000"
  streamHub := some { ingressID := str "in-1", streamKey := redacted }

/-- Validation does not look at the StreamHub fields of a UDP output, and the
round trip resets them. -/
theorem keepSecrets_resets_stray :
    (testChannel [strayOutput]).validate Go.plain = [] ∧
      keepSecrets Go.plain (testChannel [strayOutput])
        (redactChannel Go.plain (testChannel [strayOutput])) ≠ testChannel [strayOutput] := by
  refine ⟨by decide +kernel, fun h => ?_⟩
  have hids := congrArg (fun c => c.outputs.map fun o => o.streamHub.map (·.ingressID)) h
  exact absurd hids (by decide +kernel)

end StreamHub.Config
