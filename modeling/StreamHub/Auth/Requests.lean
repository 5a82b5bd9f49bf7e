import StreamHub.Library.Transition
import StreamHub.Auth.Limiter
import StreamHub.Auth.Sessions
import StreamHub.Auth.Store

/-!
# Concurrent logins and password changes

The handlers `handleLogin` and `handlePassword` and the call `UpdateUser` of
`internal/auth` as requests that interleave.  A request takes one step for every
section under a lock and for the comparison of a password with a hash; `Progress`
says where it stands.

The state has three parts that the source does not: `version` numbers the passwords
a user has had, `ended` is the number of the latest one whose change has ended the
user's sessions, and `tries` logs the passwords that logins have compared.
-/

namespace StreamHub.Auth

open Library Library.Text

/-! ## Requests -/

/-- A login, with the name as `handleLogin` looks it up. -/
structure Login where
  name : Str
  password : Str
  ip : Str
  cookie : Option Str := none

/-- A change of the own password. -/
structure OwnChange where
  name : Str
  current : Str
  next : Str
  ip : Str

inductive Request
  | login (user password ip : Str) (cookie : Option Str)
  | patch (name : Str) (p : UserPatch)
  | password (r : OwnChange)

/-- Where a request stands.  `version` is that of the password a login has read. -/
inductive Progress
  | idle
  | checking (r : Login)
  | reading (r : Login)
  | verifying (r : Login) (u : Option User) (version : Nat)
  | failing (r : Login)
  | succeeding (r : Login) (u : User) (version : Nat)
  | forgetting (r : Login) (u : User) (version : Nat)
  | creating (u : User) (version : Nat)
  | patching (name : Str) (p : UserPatch)
  | purging (name : Str) (changed : Option Nat)
  | ownChecking (r : OwnChange)
  | ownReading (r : OwnChange)
  | ownVerifying (r : OwnChange) (u : Option User)
  | ownFailing (r : OwnChange)
  | ownUpdating (r : OwnChange) (hash : Str)
  | ownSucceeding (r : OwnChange) (version : Nat)
  | ownPurging (r : OwnChange) (version : Nat)
  | ownCreating (r : OwnChange)
  | answered (status : Nat)

def Progress.status : Progress → Option Nat
  | .answered status => some status
  | _ => none

/-- What a session was created for. -/
inductive Origin
  | login (version : Nat)
  | change
  deriving DecidableEq

/-- A password that a login has compared. -/
structure Try where
  user : Str
  ip : Str
  time : Int
  right : Bool
  deriving DecidableEq

structure State where
  store : Store
  sessions : Sessions Origin := {}
  limiter : Limiter := {}
  now : Int
  request : Nat → Progress := fun _ => .idle
  arrived : Nat := 0
  version : Str → Nat := fun _ => 0
  ended : Str → Nat := fun _ => 0
  tries : List Try := []

/-- The state of a process that has just been started. -/
def startState (store : Store) (now : Int) : State := { store := store, now := now }

/-- Comparison of a password with a hash, hash of a cookie value, and lifetime of
sessions. -/
structure Setup where
  go : Go
  verify : Str → Str → Bool
  sessionKey : Str → Str
  life : Lifetime

/-- What a step is told from outside: a hash of a new password, whether the file
could be saved, a random id, and the order of a map. -/
structure Outside where
  hash : Option Str := none
  saved : Bool := true
  id : Str := []
  order : List Str := []

inductive Label
  | tick (now : Int)
  | arrive (r : Request)
  | visit (cookie : Str)
  | logout (cookie : Str)
  | reorder (m : List (Session Origin))
  | next (i : Nat) (a : Outside)

/-! ## Steps -/

/-- The status `writeErr` answers with. -/
def AuthError.status : AuthError → Nat
  | .invalid _ => 422
  | .conflict _ => 409
  | .notFound _ => 404
  | _ => 500

def Request.begin (go : Go) : Request → Progress
  | .login user pw ip cookie =>
    .checking
      { name := go.toLower (go.trimSpace user)
        password := pw
        ip := ip
        cookie := cookie }
  | .patch name p => .patching name p
  | .password r => .ownChecking r

namespace State

def put (s : State) (i : Nat) (p : Progress) : State :=
  { s with request := Function.update s.request i p }

def answers (s : State) (a : Outside) : Answers where
  hash := a.hash
  now := s.now
  saved := a.saved

/-- A user has a new password. -/
def changed (s : State) (name : Str) : State :=
  { s with version := Function.update s.version name (s.version name + 1) }

/-- The sessions of a user end, for a new password with its number. -/
def purge (s : State) (name : Str) (version : Option Nat) : State :=
  { s with
    sessions := s.sessions.deleteUser name none
    ended := version.elim s.ended fun v => Function.update s.ended name (max (s.ended name) v) }

end State

/-- The user a login is accepted for. -/
def accepted (c : Setup) (r : Login) (u : Option User) : Option User :=
  u.filter fun u => verifyPassword c.verify u.passwordHash r.password && !u.disabled

/-- The step of `handleLogin` -/
def loginStep (c : Setup) (a : Outside) (s : State) (i : Nat) : Progress → Option State
  | .checking r =>
    let (wait, limiter) := s.limiter.blocked s.now r.name r.ip
    some (({ s with limiter := limiter }).put i
      (if wait > 0 then .answered 429 else .reading r))
  | .reading r => some (s.put i (.verifying r (s.store.getUser r.name) (s.version r.name)))
  | .verifying r u version =>
    let s := { s with
      tries := s.tries ++ [(⟨r.name, r.ip, s.now, (accepted c r u).isSome⟩ : Try)] }
    match accepted c r u with
    | none => some (s.put i (.failing r))
    | some u => some (s.put i (.succeeding r u version))
  | .failing r =>
    some (({ s with limiter := s.limiter.fail a.order s.now r.name r.ip }).put i
      (.answered 401))
  | .succeeding r u version =>
    some (({ s with limiter := s.limiter.success r.name r.ip }).put i
      (.forgetting r u version))
  | .forgetting r u version =>
    let sessions := r.cookie.elim s.sessions fun cookie => s.sessions.delete (c.sessionKey cookie)
    some (({ s with sessions := sessions }).put i (.creating u version))
  | .creating u version =>
    let sessions := s.sessions.create c.life s.now (c.sessionKey a.id) u.name (.login version)
    some (({ s with sessions := sessions }).put i (.answered 200))
  | _ => none

/-- The step of `UpdateUser` -/
def patchStep (c : Setup) (a : Outside) (s : State) (i : Nat) : Progress → Option State
  | .patching name p =>
    let (store, result) := updateUser c.go (s.answers a) name p s.store
    let s := { s with store := store }
    let name := c.go.toLower (c.go.trimSpace name)
    match result with
    | .error err => some (s.put i (.answered err.status))
    | .ok u =>
      if p.password.isSome then
        some ((s.changed name).put i (.purging name (some (s.version name + 1))))
      else if u.disabled then some (s.put i (.purging name none))
      else some (s.put i (.answered 200))
  | .purging name changed => some ((s.purge name changed).put i (.answered 200))
  | _ => none

/-- The step of `handlePassword` -/
def ownStep (c : Setup) (a : Outside) (s : State) (i : Nat) : Progress → Option State
  | .ownChecking r =>
    let (wait, limiter) := s.limiter.blocked s.now r.name r.ip
    some (({ s with limiter := limiter }).put i
      (if wait > 0 then .answered 429 else .ownReading r))
  | .ownReading r => some (s.put i (.ownVerifying r (s.store.getUser r.name)))
  | .ownVerifying r u =>
    match checkOwnPassword c.verify (s.answers a) u r.name r.current r.next with
    | .error .badCurrentPassword => some (s.put i (.ownFailing r))
    | .error err => some (s.put i (.answered err.status))
    | .ok hash => some (s.put i (.ownUpdating r hash))
  | .ownFailing r =>
    some (({ s with limiter := s.limiter.fail a.order s.now r.name r.ip }).put i
      (.answered 403))
  | .ownUpdating r hash =>
    let (store, result) := s.store.update a.saved (setHash r.name hash)
    let s := { s with store := store }
    match result with
    | .error err => some (s.put i (.answered err.status))
    | .ok () => some ((s.changed r.name).put i (.ownSucceeding r (s.version r.name + 1)))
  | .ownSucceeding r version =>
    some (({ s with limiter := s.limiter.success r.name r.ip }).put i (.ownPurging r version))
  | .ownPurging r version => some ((s.purge r.name (some version)).put i (.ownCreating r))
  | .ownCreating r =>
    let sessions := s.sessions.create c.life s.now (c.sessionKey a.id) r.name .change
    some (({ s with sessions := sessions }).put i (.answered 200))
  | _ => none

/-- One step of the requests or of what is around them: time passes, a request
arrives, a session is used or ended, the map of sessions is iterated in another order. -/
def step (c : Setup) (s : State) : Label → Option State
  | .tick now => if s.now ≤ now then some { s with now := now } else none
  | .arrive r => some
      { s.put s.arrived (r.begin c.go) with arrived := s.arrived + 1 }
  | .visit cookie => some
      { s with sessions := (s.sessions.get c.life s.now c.sessionKey cookie).2 }
  | .logout cookie => some { s with sessions := s.sessions.delete (c.sessionKey cookie) }
  | .reorder m => if m.Perm s.sessions.m then some { s with sessions.m := m } else none
  | .next i a =>
    (loginStep c a s i (s.request i)).or
      ((patchStep c a s i (s.request i)).or (ownStep c a s i (s.request i)))

lemma step_next {c : Setup} {s t : State} {i : Nat} {a : Outside}
    (h : step c s (.next i a) = some t) :
    loginStep c a s i (s.request i) = some t ∨ patchStep c a s i (s.request i) = some t ∨
      ownStep c a s i (s.request i) = some t := by
  rcases Option.or_eq_some_iff.mp h with h | ⟨-, h⟩
  · exact .inl h
  rcases Option.or_eq_some_iff.mp h with h | ⟨-, h⟩
  · exact .inr (Or.inl h)
  · exact .inr (Or.inr h)

/-! ## An installation with one user -/

/-- Here a hash is the password itself. -/
def openSetup : Setup where
  go := Go.plain
  verify := fun hash pw => hash == pw
  sessionKey := id
  life := { idle := 3600000000000, max := 86400000000000 }

def ann : User where
  name := str "ann"
  role := .admin
  passwordHash := str "first-password"
  mustChangePassword := false
  createdAt := 0

def annStore : Store := { data := { users := [ann] }, file := { users := [ann] } }

end StreamHub.Auth
