import StreamHub.Config.Model

/-!
# Resolving a StreamHub output

`Resolver.Resolve` and `concrete` of `internal/streamhub/client.go`: a persisted
ingress is used again while the server still has it, otherwise a new one is
created, and the output that is run publishes to what was resolved.  The answers
of the server are arguments.
-/

namespace StreamHub.Client

open Config Library Library.Text

/-- The part of an ingress description that is used. -/
structure Ingress where
  ingressID : Str := []
  url : Str := []
  streamKey : Str := []
  streamKeySnake : Str := []
  rtmpURL : Str := []

/-- The stream key whichever field carries it. -/
def Ingress.key (i : Ingress) : Str := if i.streamKey ≠ [] then i.streamKey else i.streamKeySnake

/-- The answer to `GetIngress`. -/
inductive Found
  | found
  | notFound
  | failed (err : Str)

/-- The rtmp or whip output to run. -/
def concrete (o : Output) (s : StreamHubOutput) : Output :=
  { id := o.id
    name := o.name
    enabled := true
    type := s.protocol
    url := s.resolvedURL
    whip := if s.protocol = str "whip" then some { bearerToken := s.streamKey } else none }

/-- The publish URL of a new ingress. -/
def publishURL (protocol key : Str) (i : Ingress) (old : Str) : Str :=
  if protocol = str "rtmp" then
    if i.rtmpURL = [] ∧ i.url ≠ [] ∧ key ≠ [] then trimRight 0x2f i.url ++ str "/" ++ key
    else i.rtmpURL
  else if protocol = str "whip" then i.url
  else old

/-- The output with a new ingress. -/
def adopt (s : StreamHubOutput) (i : Ingress) : StreamHubOutput :=
  { s with
    ingressID := i.ingressID
    streamKey := i.key
    resolvedURL := publishURL s.protocol i.key i s.resolvedURL }

/-- The second half of `Resolve`: create an ingress. -/
def resolveNew (o : Output) (s : StreamHubOutput) (create : Except Str Ingress) :
    Except Str (StreamHubOutput × Output) :=
  match create with
  | .error err => .error err
  | .ok i =>
    let res := adopt s i
    if res.resolvedURL = [] ∨ res.streamKey = [] then
      .error (str "streamhub returned no publish URL/key for " ++ s.protocol ++
        str " ingress " ++ i.ingressID)
    else .ok (res, concrete o res)

/-- `Resolver.Resolve` -/
def resolve (o : Output) (get : Found) (create : Except Str Ingress) :
    Except Str (StreamHubOutput × Output) :=
  match o.streamHub with
  | none => .error (str "missing streamhub options")
  | some s =>
    if s.ingressID ≠ [] ∧ s.resolvedURL ≠ [] then
      match get with
      | .found => .ok (s, concrete o s)
      | .failed err => .error err
      | .notFound => resolveNew o s create
    else resolveNew o s create

theorem resolveNew_ok {o : Output} {s res : StreamHubOutput} {c : Output}
    {create : Except Str Ingress} (h : resolveNew o s create = .ok (res, c)) :
    c = concrete o res ∧ ∃ i, create = .ok i ∧ res = adopt s i := by
  unfold resolveNew at h
  split at h
  · cases h
  rename_i i
  dsimp only at h
  split at h
  · cases h
  cases h
  exact ⟨rfl, i, rfl, rfl⟩

/-- What is run publishes to the resolution, and the resolution is the persisted
one or that of a new ingress. -/
theorem resolve_ok {o : Output} {get : Found} {create : Except Str Ingress}
    {res : StreamHubOutput} {c : Output} (h : resolve o get create = .ok (res, c)) :
    c = concrete o res ∧ ∃ s, o.streamHub = some s ∧
      (res = s ∨ ∃ i, create = .ok i ∧ res = adopt s i) := by
  unfold resolve at h
  split at h
  · cases h
  rename_i s hs
  split at h
  · split at h
    · cases h
      exact ⟨rfl, _, hs, .inl rfl⟩
    · cases h
    · obtain ⟨hc, hnew⟩ := resolveNew_ok h
      exact ⟨hc, s, hs, .inr hnew⟩
  · obtain ⟨hc, hnew⟩ := resolveNew_ok h
    exact ⟨hc, s, hs, .inr hnew⟩

end StreamHub.Client
