import StreamHub.Yamljs.Value

/-!
# Templates in texts

`{{ path }}` in a config text stands for a value of the run bag, `{{secret.NAME}}`
for a secret.  Both are found by a regular expression; here each is a function that
says whether a text begins with a match, and `segments` cuts a text into its matches
and the bytes between them, from the left.
-/

namespace StreamHub.Streamflow

open Library Text OrderedMap Yamljs

/-- `\s` of a regular expression -/
def regexSpace (b : UInt8) : Bool := b == 0x20 || b == 0x09 || b == 0x0a || b == 0x0c || b == 0x0d

def wordByte (b : UInt8) : Bool := isAlnum b || b == 0x5f

/-- Two opening braces: the text may have a reference. -/
def opening : Str := str "\x7b\x7b"

/-- Two closing braces. -/
def closing : Str := str "\x7d\x7d"

/-- `inlineTemplate` at the beginning of a text: its group and the text behind it.
The body is what stands before the first closing brace; the group leaves out the
spaces around it, but for one if there is nothing else. -/
def templateAt (s : Str) : Option (Str × Str) :=
  if opening.isPrefixOf s then
    let body := (s.drop 2).takeWhile (· != 0x7d)
    let rest := (s.drop 2).dropWhile (· != 0x7d)
    if body = [] then none
    else if closing.isPrefixOf rest then
      let group := (body.dropWhile regexSpace).rdropWhile regexSpace
      some (if group = [] then body.drop (body.length - 1) else group, rest.drop 2)
    else none
  else none

/-- `fullTemplate`: the group of a text that is one template. -/
def fullTemplate (s : Str) : Option Str :=
  match templateAt s with
  | some (group, []) => some group
  | _ => none

/-- `secretRefRe` at the beginning of a text: the name and the text behind it. -/
def secretAt (s : Str) : Option (Str × Str) :=
  if opening.isPrefixOf s then
    let body := (s.drop 2).dropWhile regexSpace
    if (str "secret.").isPrefixOf body then
      let name := (body.drop 7).takeWhile wordByte
      let rest := ((body.drop 7).dropWhile wordByte).dropWhile regexSpace
      if name = [] then none
      else if closing.isPrefixOf rest then some (name, rest.drop 2)
      else none
    else none
  else none

/-- A byte of a text, or a match. -/
inductive Segment
  | byte (b : UInt8)
  | found (group : Str)

/-- The text cut at its matches; a match has at least one byte, so the length of the
text is enough fuel. -/
def segmentsFrom (matchAt : Str → Option (Str × Str)) : ℕ → Str → List Segment
  | 0, _ => []
  | _, [] => []
  | fuel + 1, b :: s =>
    match matchAt (b :: s) with
    | some (group, rest) => .found group :: segmentsFrom matchAt fuel rest
    | none => .byte b :: segmentsFrom matchAt fuel s

def segments (matchAt : Str → Option (Str × Str)) (s : Str) : List Segment :=
  segmentsFrom matchAt s.length s

namespace Segment

/-- The text of a segment, with what a match is replaced by. -/
def text (f : Str → Option Str) : Segment → Option Str
  | .byte b => some [b]
  | .found group => f group

def group? : Segment → Option Str
  | .byte _ => none
  | .found group => some group

end Segment

/-- The groups of the matches, in their order. -/
def groups (matchAt : Str → Option (Str × Str)) (s : Str) : List Str :=
  (segments matchAt s).filterMap Segment.group?

/-- `ReplaceAllStringFunc`, with a function that may fail. -/
def replaceMatches (matchAt : Str → Option (Str × Str)) (f : Str → Option Str) (s : Str) :
    Option Str := ((segments matchAt s).mapM (Segment.text f)).map List.flatten

lemma exists_replaceMatches (matchAt : Str → Option (Str × Str)) {f : Str → Option Str}
    (hf : ∀ group, ∃ t, f group = some t) (s : Str) : ∃ t, replaceMatches matchAt f s = some t := by
  have hall : ∀ segs : List Segment, ∃ ts, segs.mapM (Segment.text f) = some ts := by
    intro segs
    induction segs with
    | nil => exact ⟨[], rfl⟩
    | cons segment rest ih =>
      obtain ⟨ts, hts⟩ := ih
      have hsegment : ∃ t, segment.text f = some t := by
        cases segment with
        | byte b => exact ⟨[b], rfl⟩
        | found group => exact hf group
      obtain ⟨t, ht⟩ := hsegment
      exact ⟨t :: ts, by simp [List.mapM_cons, ht, hts]⟩
  obtain ⟨ts, hts⟩ := hall (segments matchAt s)
  exact ⟨ts.flatten, by rw [replaceMatches, hts]; rfl⟩

end StreamHub.Streamflow
