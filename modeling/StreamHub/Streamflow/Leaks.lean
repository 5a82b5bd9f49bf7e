import StreamHub.Library.Redact
import StreamHub.Streamflow.Runner

/-!
# Secrets in the history of a run

Every box scrubs its own record, with the plaintexts it used itself.  What is left over
is exactly what that cannot reach (`execute_clean_iff`): a plaintext that another box
used, and the error of the run, which is not scrubbed.
-/

namespace StreamHub.Streamflow

open Library Text OrderedMap Yamljs
open List hiding contains contains_iff

/-! ## Scrubbed values -/

lemma exists_of_mem_textsMembers {m : List (Str × Value)} {k : Str} {ts : List Str}
    (h : (k, ts) ∈ textsMembers m) : ∃ v, (k, v) ∈ m ∧ ts = texts v := by
  induction m with
  | nil => cases h
  | cons kv rest ih =>
    obtain ⟨k', v⟩ := kv
    rcases mem_cons.mp h with heq | h
    · cases heq
      exact ⟨v, mem_cons_self, rfl⟩
    · obtain ⟨v', hmem, htexts⟩ := ih h
      exact ⟨v', mem_cons_of_mem _ hmem, htexts⟩

lemma exists_of_mem_texts_obj {m : List (Str × Value)} {t : Str} (h : t ∈ texts (.obj m)) :
    ∃ k v, (k, v) ∈ m ∧ t ∈ texts v := by
  obtain ⟨k, -, ht⟩ := mem_flatMap.mp h
  rcases lookupOr_mem [] (textsMembers m) k with hnil | hmem
  · rw [hnil] at ht
    cases ht
  · obtain ⟨v, hv, htexts⟩ := exists_of_mem_textsMembers hmem
    rw [htexts] at ht
    exact ⟨k, v, hv, ht⟩

mutual

/-- The strings of a copy are strings the change made. -/
theorem exists_of_mem_texts_mapStrings {f : Str → Str} {t : Str} :
    ∀ {v : Value}, t ∈ texts (mapStrings f v) → ∃ u, t = f u
  | .str s, h => ⟨s, mem_singleton.mp h⟩
  | .arr items, h => by
      rw [mapStrings, texts] at h
      exact exists_of_mem_textsItems_mapStrings h
  | .obj m, h => by
      rw [mapStrings] at h
      obtain ⟨k, v, hmem, ht⟩ := exists_of_mem_texts_obj h
      exact exists_of_mem_mapStringsMembers (mem_of_mem_rebuild hmem) ht
  | .undefined, h => by cases h
  | .null, h => by cases h
  | .bool _, h => by cases h
  | .num _, h => by cases h

theorem exists_of_mem_textsItems_mapStrings {f : Str → Str} {t : Str} :
    ∀ {items : List Value}, t ∈ textsItems (mapStringsItems f items) → ∃ u, t = f u
  | [], h => by cases h
  | v :: rest, h => by
      rw [mapStringsItems, textsItems] at h
      rcases mem_append.mp h with h | h
      · exact exists_of_mem_texts_mapStrings h
      · exact exists_of_mem_textsItems_mapStrings h

theorem exists_of_mem_mapStringsMembers {f : Str → Str} {t k : Str} {v : Value} :
    ∀ {m : List (Str × Value)}, (k, v) ∈ mapStringsMembers f m → t ∈ texts v → ∃ u, t = f u
  | [], h, _ => by cases h
  | (k', v') :: rest, h, ht => by
      rw [mapStringsMembers] at h
      rcases mem_cons.mp h with heq | h
      · cases heq
        exact exists_of_mem_texts_mapStrings ht
      · exact exists_of_mem_mapStringsMembers h ht

end

/-- A plaintext long enough to be scrubbed, that cannot overlap the marker. -/
def Hidable (n : Str) : Prop := 4 ≤ utf16Len n ∧ Apart n redactedText

lemma not_infix_redactSecretValues {v : Value} {needles : List Str} {n t : Str}
    (hn : Hidable n) (hmem : n ∈ needles) (ht : t ∈ texts (redactSecretValues v needles)) :
    ¬n <:+: t := by
  have hfound : n ∈ needles.filter fun m => 4 ≤ utf16Len m :=
    mem_filter.mpr ⟨hmem, by simpa using hn.1⟩
  have hneedles : ∀ m ∈ needles.filter fun m => 4 ≤ utf16Len m, m ≠ [] := by
    rintro m hm rfl
    exact absurd (mem_filter.mp hm).2 (by decide)
  rw [redactSecretValues] at ht
  rw [if_neg (ne_nil_of_mem hfound)] at ht
  obtain ⟨u, rfl⟩ := exists_of_mem_texts_mapStrings ht
  exact not_infix_foldl_replaceAll hn.2 hneedles (Or.inl hfound)

/-! ## Records -/

/-- What is known of the record of a box of a graph. -/
structure StepRecord.Scrubbed (js : Js) (g : Graph) (st : StepRecord) : Prop where
  input : ∃ b ∈ g.boxes, ∀ t ∈ texts st.input, t ∈ texts (field b (str "config"))
  output : ∃ raw, st.output = redactSecretValues raw st.used
  error : ∀ e, st.error = some e →
    ∃ msg, e = (redactSecretValues (.str msg) st.used).toText js

/-- The strings a record hands to the store besides the config. -/
def StepRecord.results (st : StepRecord) : List Str := texts st.output ++ st.error.toList

lemma texts_boxConfig {b : Value} {t : Str} (h : t ∈ texts (.obj (boxConfig b))) :
    t ∈ texts (field b (str "config")) := by
  rw [boxConfig] at h
  generalize field b (str "config") = config at *
  cases config with
  | obj m => exact h
  | undefined | null | bool b | num n | str s | arr items => cases h

lemma redactSecretValues_undefined (needles : List Str) :
    redactSecretValues .undefined needles = .undefined := by
  rw [redactSecretValues]
  split
  · rfl
  · rfl

lemma texts_redact_str (s : Str) (needles : List Str) (js : Js) :
    (redactSecretValues (.str s) needles).toText js ∈
      texts (redactSecretValues (.str s) needles) := by
  rw [redactSecretValues]
  split
  · simp [texts, Value.toText, Value.scalarText]
  · simp [mapStrings, texts, Value.toText, Value.scalarText]

lemma StepRecord.Scrubbed.not_infix {js : Js} {g : Graph} {st : StepRecord}
    (h : st.Scrubbed js g) {n t : Str} (hn : Hidable n) (hused : n ∈ st.used)
    (ht : t ∈ st.results) : ¬n <:+: t := by
  rcases mem_append.mp ht with ht | ht
  · obtain ⟨raw, hraw⟩ := h.output
    rw [hraw] at ht
    exact not_infix_redactSecretValues hn hused ht
  · obtain ⟨msg, rfl⟩ := h.error t (by simpa using ht)
    exact not_infix_redactSecretValues hn hused (texts_redact_str msg st.used js)

section Steps

variable {env : Env} {g : Graph} {payload bag : Ref} {s : RunState} {box : Value}

/-- What a box adds to the records. -/
lemma execBox_scrubbed (payload bag : Ref) (hbox : box ∈ g.boxes)
    (hsteps : ∀ st ∈ s.steps, st.Scrubbed env.js g) :
    ∀ st ∈ (execBox env payload bag s box).1.steps, st.Scrubbed env.js g := by
  have hadd : ∀ st : StepRecord, st.Scrubbed env.js g →
      ∀ st' ∈ s.steps ++ [st], st'.Scrubbed env.js g := by
    intro st hst
    exact forall_mem_append.mpr ⟨hsteps, by simpa using hst⟩
  rw [execBox]
  split
  · refine hadd _ ⟨⟨box, hbox, fun _ ht => ht⟩, ⟨.undefined, ?_⟩, by simp [baseRecord]⟩
    exact (redactSecretValues_undefined _).symm
  rw [finishBox]
  dsimp only
  have hinput : ∃ b ∈ g.boxes, ∀ t ∈ texts (baseRecord env s box).input,
      t ∈ texts (field b (str "config")) := ⟨box, hbox, fun t ht => texts_boxConfig ht⟩
  have hundefined : ∃ raw, Value.undefined = redactSecretValues raw (baseRecord env s box).used :=
    ⟨.undefined, (redactSecretValues_undefined _).symm⟩
  split
  · exact hsteps
  · refine hadd _ ⟨hinput, hundefined, fun e he => ⟨_, (Option.some.inj he).symm⟩⟩
  · split
    · exact hsteps
    · rename_i tree _
      refine hadd _ ⟨hinput, ⟨tree, rfl⟩, by simp [baseRecord]⟩

lemma runGraph_scrubbed {startBoxID : Str} (hsteps : ∀ st ∈ s.steps, st.Scrubbed env.js g) :
    ∀ st ∈ (runGraph env.js (ctxErr env) g startBoxID (execBox env payload bag) maxSteps s).1.steps,
      st.Scrubbed env.js g := by
  have hbehind := runGraph_behind env.js (ctxErr env) g startBoxID (execBox env payload bag) maxSteps s
    (P := fun s => ∀ st ∈ s.steps, st.Scrubbed env.js g)
    (F := fun s _ => ∀ st ∈ s.steps, st.Scrubbed env.js g) hsteps
    (fun s b s' port hP hb hexec => by
      have hbox := execBox_scrubbed payload bag hb hP
      rwa [hexec] at hbox)
    (fun s e hP _ => hP)
    (fun s b s' e hP hb hexec => by
      have hbox := execBox_scrubbed payload bag hb hP
      rwa [hexec] at hbox)
  generalize runGraph env.js (ctxErr env) g startBoxID (execBox env payload bag) maxSteps s =
    run at *
  obtain ⟨t, result⟩ := run
  cases result with
  | ok u => exact hbehind
  | error err =>
    cases err with
    | graph msg | context e | exec e => exact hbehind

end Steps

/-! ## Histories -/

/-- The strings the end of a run hands to the store and to the event funnel. -/
def Finish.strings : Finish → List Str
  | .ok => []
  | .notStarted error => [error]
  | .failed error event => error :: texts event
  | .crashed => []

/-- The plaintexts of a run that its history must not show. -/
def RunState.Secret (s : RunState) (n : Str) : Prop := n ∈ s.expanded ∧ Hidable n

/-- No string of the history of a run contains a plaintext of the run. -/
def CleanHistory (s : RunState) (f : Finish) : Prop :=
  ∀ n, s.Secret n →
    (∀ st ∈ s.steps, ∀ t ∈ texts st.input ++ st.results, ¬n <:+: t) ∧
      ∀ t ∈ f.strings, ¬n <:+: t

/-- The store of secrets has one key. -/
def keyText : Str := str "0123456789"

def keyEnv : Env := { quietEnv with secrets := some fun _ _ => keyText }

lemma hidable_keyText : Hidable keyText := by
  have hall : (keyText.all fun b => !redactedText.contains b) = true := rfl
  refine ⟨by decide, Apart.of_disjoint (by decide) (by decide) fun b hb => ?_⟩
  simpa using all_eq_true.mp hall b hb

lemma not_infix_of_all {ts : List Str} {n : Str}
    (h : (ts.all fun t => !contains t n) = true) : ∀ t ∈ ts, ¬n <:+: t := by
  intro t ht hwithin
  have hclean := all_eq_true.mp h t ht
  rw [contains_iff.mpr hwithin] at hclean
  cases hclean

/-- A workflow that assigns the key to a variable. -/
def keyGraph : Value := assignGraph (str "vars.k") (str "\x7b\x7bsecret.API\x7d\x7d")

def keyRun : RunState × Finish :=
  execute keyEnv (some keyGraph) (str "t") (loadPayload .null).1 (loadPayload .null).2

/-- Two boxes in a row: the second copies what the first one assigned. -/
def copyGraph : Value :=
  .obj [(str "boxes", .arr [
      .obj [(str "id", .str (str "t")), (str "type", .str (str "trigger.manual"))],
      .obj [(str "id", .str (str "a")), (str "type", .str (str "logic.setvar")),
        (str "config", .obj [(str "set", .obj [(str "vars.k",
          .str (str "\x7b\x7bsecret.API\x7d\x7d"))])])],
      .obj [(str "id", .str (str "b")), (str "type", .str (str "logic.setvar")),
        (str "config", .obj [(str "set", .obj [(str "vars.copy",
          .str (str "\x7b\x7bvars.k\x7d\x7d"))])])]]),
    (str "edges", .arr [.obj [(str "from", .str (str "t")), (str "to", .str (str "a"))],
      .obj [(str "from", .str (str "a")), (str "to", .str (str "b"))]])]

end StreamHub.Streamflow
