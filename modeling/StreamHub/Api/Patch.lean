import StreamHub.Library.Transaction
import StreamHub.Config.Json
import StreamHub.Config.Store

/-!
# Patching a channel

`PATCH /api/v1/channels/{id}` of `internal/api/api.go`: the stored channel is read
and redacted, the patch is merged into its JSON, and the result is decoded and
put in the place of the channel in one locked `Store.Update`.  The read and the
update are two steps; another request may update the channel in between, and the
merge result then takes its place.
-/

namespace StreamHub.Api

open Library Library.Text Library.Transition Config Transaction

/-! ## One request -/

mutual

/-- `mergePatch` (RFC 7386) -/
def mergePatch (target : Json) : Json → Json
  | .obj patch => .obj (mergeMembers target.members patch)
  | .null => .null
  | .bool b => .bool b
  | .num q => .num q
  | .str s => .str s
  | .arr items => .arr items

/-- The loop over the members of the patch. -/
def mergeMembers (target : List (Str × Json)) : List (Str × Json) → List (Str × Json)
  | [] => target
  | (k, v) :: rest =>
    mergeMembers (if v.isNull then Json.deleteMember k target
      else Json.setMember k (mergePatch ((target.lookup k).getD .null) v) target) rest

end

/-- The answers that are not a success. -/
inductive ApiError
  | notFound (message : Str)
  | badRequest (err : Json.DecodeError)
  | unprocessable (errs : Errors)
  | internal

def channelNotFound (id : Str) : ApiError := .notFound (str "channel " ++ id ++ str " not found")

/-- `decodeStrict` into a channel; the link to the schema is dropped. -/
def decodeStrict (raw : Json) : Except ApiError Channel :=
  let raw :=
    match raw with
    | .obj m => .obj (Json.deleteMember (str "$schema") m)
    | raw => raw
  match channelCodec.read {} raw with
  | .error err => .error (.badRequest err)
  | .ok ch => .ok ch

/-- The first part of a request: the channel to store.  `float64` rounds the
numbers of a JSON text. -/
def merge (go : Go) (float64 : ℚ → ℚ) (id : Str) (patch : Json) (c : Config) :
    Except ApiError Channel :=
  match c.findChannel id with
  | none => .error (channelNotFound id)
  | some cur =>
    let base := (channelCodec.write (redactChannel go cur)).mapNum float64
    decodeStrict (mergePatch base (patch.mapNum float64))

/-- The function `replace` hands to `Store.Update`; managed outputs are kept. -/
def replaceChannel (go : Go) (id : Str) (next : Channel) (c : Config) : Except ApiError Config :=
  match c.findChannel id with
  | none => .error (channelNotFound id)
  | some prev =>
    let next := keepSecrets go prev { next with id := id }
    let outs := next.outputs.filter (fun o => o.managedBy = []) ++
      prev.outputs.filter fun o => o.managedBy ≠ []
    .ok { c with channels := setChannel id { next with outputs := outs } c.channels }

/-- `validationError` -/
def validationError : UpdateError ApiError → ApiError
  | .aborted err => err
  | .invalid errs => .unprocessable errs
  | .notWritten => .internal

/-- The second part of a request: `replace`. -/
def replace (go : Go) (id : Str) (written : Bool) (next : Channel) (c : Config) :
    Except ApiError Config :=
  match Store.update go (replaceChannel go id next) written c with
  | .ok c => .ok c
  | .error err => .error (validationError err)

/-! ## Two requests -/

section Requests

variable (go : Go) (float64 : ℚ → ℚ) (id : Str) (patch : Bool → Json)

/-- A request that nobody interrupts, on a disk that works. -/
def patchChannel (body : Json) (c : Config) : Except ApiError Config :=
  match merge go float64 id body c with
  | .ok next => replace go id true next c
  | .error err => .error err

abbrev State := Transaction.State Config Channel ApiError Bool

/-- Label of a write: whether the file could be written. -/
abbrev Label := Transaction.Label Bool Bool

/-- Steps of two requests with the bodies `patch false` and `patch true`. -/
def step : State → Label → Option State :=
  Transaction.step (fun i => merge go float64 id (patch i)) fun _ => replace go id

/-- If both patches succeed, the stored configuration is that of one after the
other. -/
def NoLostPatch (init : Config) (s : State) : Prop :=
  (s.phase false).succeeded = true → (s.phase true).succeeded = true →
    ∃ i, ∃ c, patchChannel go float64 id (patch i) init = .ok c ∧
      patchChannel go float64 id (patch !i) c = .ok s.stored

variable {go float64 id patch}

lemma patchChannel_of_attempt {c d : Config} {i written : Bool}
    (h : attempt (fun i => merge go float64 id (patch i)) (fun _ => replace go id) c
      (i, written) = .ok d) : patchChannel go float64 id (patch i) c = .ok d := by
  unfold attempt at h
  unfold patchChannel
  split at h
  · rename_i next hnext
    dsimp only at h hnext
    rw [hnext]
    have hwritten : written = true := by
      unfold replace at h
      split at h
      · rename_i hupdate
        exact (Store.update_ok hupdate).2.2
      · cases h
    rw [hwritten] at h
    exact h
  · cases h

lemma order_of_two {order : List (Bool × Bool)} (hnodup : (order.map Prod.fst).Nodup)
    (hfalse : false ∈ order.map Prod.fst) (htrue : true ∈ order.map Prod.fst) :
    ∃ i v w, order = [(i, v), (!i, w)] := by
  have hlength : (order.map Prod.fst).length ≤ 2 := hnodup.length_le_card
  match order with
  | [] => cases hfalse
  | [_] => simp_all
  | [(i, v), (j, w)] =>
    refine ⟨i, v, w, ?_⟩
    cases i <;> cases j <;> simp_all
  | _ :: _ :: _ :: _ => simp at hlength

/-- Patches of which no one reads while the other has still to write are not
lost. -/
theorem noLostPatch_of_alone (go : Go) (float64 : ℚ → ℚ) (id : Str) (patch : Bool → Json)
    (init : Config) (s : State)
    (h : Reached (step go float64 id patch) alone (start init) s) :
    NoLostPatch go float64 id patch init s := by
  intro hfalse htrue
  obtain ⟨order, hserial⟩ := serial_of_reached h
  obtain ⟨i, v, w, rfl⟩ := order_of_two hserial.nodup ((hserial.mem_iff false).mpr hfalse)
    ((hserial.mem_iff true).mpr htrue)
  have hstored := hserial.stored
  simp only [serially] at hstored
  split at hstored
  · rename_i c hc
    split at hstored
    · rename_i d hd
      cases hstored
      exact ⟨i, c, patchChannel_of_attempt hc, patchChannel_of_attempt hd⟩
    · cases hstored
  · cases hstored

end Requests

/-! ## A patch that is lost -/

/-- The top-level fields a patch touches. -/
def touched (patch : Json) : List Str := patch.members.map Prod.fst

/-- One channel that is off and has the name of its id. -/
def plainStore : Config := { channels := [testChannel []] }

/-- One request renames the channel, the other one switches it on. -/
def nameAndEnable : Bool → Json
  | false => .obj [(str "name", .str (str "News"))]
  | true => .obj [(str "enabled", .bool true)]

/-- What the two requests are about. -/
def summary (c : Config) : List (Str × Bool) := c.channels.map fun ch => (ch.name, ch.enabled)

lemma summary_serial (i : Bool) :
    ((patchChannel Go.plain (fun q => q) (str "ch1") (nameAndEnable i) plainStore).toOption.bind
      fun c => (patchChannel Go.plain (fun q => q) (str "ch1") (nameAndEnable !i) c).toOption).map
        summary = some [(str "News", true)] := by cases i <;> decide +kernel

/-- A request that reads after the other one has written. -/
theorem noLostPatch_of_alone_renamed :
    ∃ s, Reached (step Go.plain (fun q => q) (str "ch1") nameAndEnable) alone
        (start plainStore) s ∧
      ((s.phase false).succeeded && (s.phase true).succeeded) = true ∧
      NoLostPatch Go.plain (fun q => q) (str "ch1") nameAndEnable plainStore s := by
  obtain ⟨s, hreached, hs⟩ := exists_reached
    (step Go.plain (fun q => q) (str "ch1") nameAndEnable) alone
    (start plainStore) [.read false, .write false true, .read true, .write true true]
    (fun s => (s.phase false).succeeded && (s.phase true).succeeded) (by decide +kernel)
  exact ⟨s, hreached, hs, noLostPatch_of_alone _ _ _ _ _ _ hreached⟩

/-- Both requests read, then both write: both succeed and the new name is gone. -/
theorem patch_lost :
    (∀ k ∈ touched (nameAndEnable false), k ∉ touched (nameAndEnable true)) ∧
      ∃ s, Reached (step Go.plain (fun q => q) (str "ch1") nameAndEnable) (fun _ _ => true)
          (start plainStore) s ∧
        ¬ NoLostPatch Go.plain (fun q => q) (str "ch1") nameAndEnable plainStore s := by
  refine ⟨by decide, ?_⟩
  obtain ⟨s, hreached, hs⟩ := exists_reached
    (step Go.plain (fun q => q) (str "ch1") nameAndEnable) (fun _ _ => true)
    (start plainStore) [.read false, .read true, .write false true, .write true true]
    (fun s => (s.phase false).succeeded && (s.phase true).succeeded &&
      decide (summary s.stored = [(str "ch1", true)]))
    (by decide +kernel)
  simp only [Bool.and_eq_true, decide_eq_true_eq] at hs
  obtain ⟨⟨hfalse, htrue⟩, hsummary⟩ := hs
  refine ⟨s, hreached, fun hkept => ?_⟩
  obtain ⟨i, c, hfirst, hsecond⟩ := hkept hfalse htrue
  have hserial := summary_serial i
  rw [hfirst] at hserial
  change (patchChannel Go.plain (fun q => q) (str "ch1") (nameAndEnable !i) c).toOption.map
    summary = _ at hserial
  rw [hsecond] at hserial
  change some (summary s.stored) = _ at hserial
  rw [hsummary] at hserial
  exact absurd hserial (by decide)

end StreamHub.Api
