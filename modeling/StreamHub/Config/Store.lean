import StreamHub.Config.Notify

/-!
# The configuration store

`Config.Validate`, `FindChannel` and `Store.Update` of `internal/config`.  An
update works on a copy: it is stored after defaults, validation and a successful
write, otherwise the stored configuration stays.
-/

namespace StreamHub.Config

set_option linter.dupNamespace false

open Library Library.Text

/-- The persisted state: its channels and notification targets. -/
structure Config where
  channels : List Channel := []
  notify : Option NotifyConfig := none

/-- `MaxChannels` -/
def maxChannels : Nat := 32

/-- `FindChannel`, with the channel itself for its index. -/
def Config.findChannel (c : Config) (id : Str) : Option Channel :=
  c.channels.find? fun ch => ch.id == id

/-- The first channel of that id replaced. -/
def setChannel (id : Str) (next : Channel) : List Channel → List Channel
  | [] => []
  | ch :: rest => if ch.id = id then next :: rest else ch :: setChannel id next rest

/-- `ApplyDefaults` on every channel. -/
def Config.applyDefaults (go : Go) (c : Config) : Config :=
  { c with channels := c.channels.map fun ch => ch.applyDefaults go }

def validateChannelsFrom (go : Go) : Nat → List Str → List Channel → Errors
  | _, _, [] => []
  | i, seen, ch :: rest =>
    reject (ch.id ∈ seen) (indexed "channels" i ++ str ".id")
      (str "duplicate channel id " ++ go.quote ch.id) ++
    Errors.under (indexed "channels" i) (ch.validate go) ++
    validateChannelsFrom go (i + 1) (ch.id :: seen) rest

/-- `Config.Validate` -/
def Config.validate (go : Go) (c : Config) : Errors :=
  reject (c.channels.length > maxChannels) (str "channels")
    (str "at most " ++ itoa maxChannels ++ str " channels") ++
  validateChannelsFrom go 0 [] c.channels ++
  c.notify.elim [] validateNotify

/-- Why an update is not stored. -/
inductive UpdateError (ε : Type)
  | aborted (err : ε)
  | invalid (errs : Errors)
  | notWritten

/-- `Store.Update`: the configuration stored after it, if it succeeds; `written`
says whether the file could be written. -/
def Store.update {ε : Type} (go : Go) (fn : Config → Except ε Config) (written : Bool)
    (cfg : Config) : Except (UpdateError ε) Config :=
  match fn cfg with
  | .error err => .error (.aborted err)
  | .ok next =>
    let next := next.applyDefaults go
    match next.validate go with
    | [] => if written then .ok next else .error .notWritten
    | errs => .error (.invalid errs)

/-- What is stored is the result of `fn` with its defaults; it is valid and
written. -/
lemma Store.update_ok {ε : Type} {go : Go} {fn : Config → Except ε Config} {written : Bool}
    {cfg next : Config} (h : Store.update go fn written cfg = .ok next) :
    (∃ c, fn cfg = .ok c ∧ next = c.applyDefaults go) ∧ next.validate go = [] ∧
      written = true := by
  unfold Store.update at h
  split at h
  · cases h
  rename_i c hc
  dsimp only at h
  split at h
  · rename_i hvalid
    split at h
    · rename_i hwritten
      cases h
      exact ⟨⟨c, hc, rfl⟩, hvalid, hwritten⟩
    · cases h
  · cases h

end StreamHub.Config
