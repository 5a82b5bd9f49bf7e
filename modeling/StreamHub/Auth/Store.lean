import StreamHub.Library.Go
import StreamHub.Library.Regex

/-!
# The accounts of the encoder

`users.json` and the calls that change it: `store.update`, `bootstrap`,
`CreateUser`, `UpdateUser`, `SetPassword`, `DeleteUser` and `changeOwnPassword` of
`internal/auth`.  An update works on a copy, which takes the place of the stored
data once it is saved.

What a call is told from outside (the hash of a new password, the clock, whether
the file could be saved) is an `Answers`; `verify` is the comparison of a
password with a hash.
-/

namespace StreamHub.Auth

open Library Library.Text

/-! ## Data -/

inductive Role
  | viewer
  | operator
  | admin
  | other (name : Str)
  deriving DecidableEq

/-- `Role.Valid` -/
def Role.valid : Role → Bool
  | .other _ => false
  | _ => true

structure User where
  name : Str
  role : Role
  passwordHash : Str
  mustChangePassword : Bool
  createdAt : Int
  disabled : Bool := false
  deriving DecidableEq

/-- An API token; the calls of this module keep them. -/
structure Token where
  id : Str
  name : Str
  role : Role
  hash : Str
  createdAt : Int
  lastUsedAt : Int
  revoked : Bool
  deriving DecidableEq

/-- The public view of a user. -/
structure UserInfo where
  name : Str
  role : Role
  mustChangePassword : Bool
  createdAt : Int
  disabled : Bool
  deriving DecidableEq

def User.info (u : User) : UserInfo where
  name := u.name
  role := u.role
  mustChangePassword := u.mustChangePassword
  createdAt := u.createdAt
  disabled := u.disabled

/-- A partial update of a user. -/
structure UserPatch where
  role : Option Role := none
  password : Option Str := none
  disabled : Option Bool := none
  mustChangePassword : Option Bool := none

inductive AuthError
  | invalid (message : Str)
  | conflict (message : Str)
  | notFound (message : Str)
  | badCurrentPassword
  | bcrypt
  | save
  deriving DecidableEq

structure FileData where
  users : List User := []
  tokens : List Token := []
  deriving DecidableEq

/-- What is in memory, what is in the file, and whether uses of tokens are still to
be saved. -/
structure Store where
  data : FileData := {}
  file : FileData := {}
  dirty : Bool := false
  deriving DecidableEq

/-- What the surroundings answer to one call; no hash stands for an error. -/
structure Answers where
  hash : Option Str
  now : Int
  saved : Bool

/-! ## The store -/

/-- `store.update` -/
def Store.update {α : Type} (s : Store) (saved : Bool)
    (fn : FileData → Except AuthError (FileData × α)) : Store × Except AuthError α :=
  match fn s.data with
  | .error err => (s, .error err)
  | .ok (next, res) =>
    if saved then ({ data := next, file := next, dirty := false }, .ok res)
    else (s, .error .save)

/-- `findUser` -/
def findUser (us : List User) (name : Str) : Option Nat := us.findIdx? fun u => u.name == name

/-- `store.getUser` -/
def Store.getUser (s : Store) (name : Str) : Option User :=
  s.data.users.find? fun u => u.name == name

def User.isAdmin (u : User) : Bool := u.role == .admin && !u.disabled

/-- `enabledAdmins` -/
def enabledAdmins (us : List User) : Nat := us.countP User.isAdmin

def namePattern : Regex :=
  let first := Regex.chars fun b => isLower b || isDigit b
  let next := Regex.chars fun b => isLower b || isDigit b || Regex.oneOf "._-" b
  .seq first (.upTo next 31)

/-- `normalizeName` -/
def normalizeName (go : Go) (n : Str) : Except AuthError Str :=
  let n := go.toLower (go.trimSpace n)
  if namePattern.accepts n then .ok n
  else .error (.invalid (str
    "user name must be 1-32 chars of a-z 0-9 . _ - (starting with a letter or digit)"))

/-! ## Passwords -/

def minPasswordLen : Nat := 10

def maxPasswordBytes : Nat := 72

/-- `checkPassword` -/
def checkPassword (pw : Str) : Except AuthError Unit :=
  if runeCount pw < minPasswordLen then
    .error (.invalid (str "password must be at least " ++ itoa minPasswordLen ++
      str " characters"))
  else if pw.length > maxPasswordBytes then
    .error (.invalid (str "password must be at most " ++ itoa maxPasswordBytes ++ str " bytes"))
  else .ok ()

/-- `hashPassword` -/
def hashPassword (env : Answers) (pw : Str) : Except AuthError Str :=
  match checkPassword pw with
  | .error err => .error err
  | .ok () => env.hash.elim (.error .bcrypt) .ok

/-- `verifyPassword`: an empty hash is that of an unknown user. -/
def verifyPassword (verify : Str → Str → Bool) (hash pw : Str) : Bool :=
  if hash = [] then false else verify hash pw

/-! ## Calls -/

def roleMsg : Str := str "role must be admin, operator or viewer"

def userNotFound (name : Str) : AuthError := .notFound (str "user " ++ name ++ str " not found")

def bootstrapUser : Str := str "admin"

/-- The first administrator. -/
def firstAdmin (hash : Str) (now : Int) : User where
  name := bootstrapUser
  role := .admin
  passwordHash := hash
  mustChangePassword := true
  createdAt := now

/-- `bootstrap`; `written` says whether the file with the password was written. -/
def bootstrap (env : Answers) (written : Bool) (s : Store) : Store × Except AuthError Unit :=
  if s.data.users.length > 0 then (s, .ok ())
  else
    match env.hash with
    | none => (s, .error .bcrypt)
    | some hash =>
      if written then
        s.update env.saved fun d =>
          .ok ({ d with users := d.users ++ [firstAdmin hash env.now] }, ())
      else (s, .error .save)

/-- `CreateUser` -/
def createUser (go : Go) (env : Answers) (name password : Str) (role : Role)
    (mustChangePassword : Bool) (s : Store) : Store × Except AuthError UserInfo :=
  match normalizeName go name with
  | .error err => (s, .error err)
  | .ok name =>
    if role.valid then
      match hashPassword env password with
      | .error err => (s, .error err)
      | .ok hash =>
        let u : User :=
          { name := name
            role := role
            passwordHash := hash
            mustChangePassword := mustChangePassword
            createdAt := env.now }
        s.update env.saved fun d =>
          if (findUser d.users name).isSome then
            .error (.conflict (str "user " ++ name ++ str " already exists"))
          else .ok ({ d with users := d.users ++ [u] }, u.info)
    else (s, .error (.invalid roleMsg))

/-- The new record of a user. -/
def UserPatch.apply (p : UserPatch) (hash : Str) (u : User) : User :=
  let u := { u with
    role := p.role.getD u.role
    disabled := p.disabled.getD u.disabled }
  let u := if p.password.isSome then { u with passwordHash := hash, mustChangePassword := true }
    else u
  { u with mustChangePassword := p.mustChangePassword.getD u.mustChangePassword }

/-- The function `UpdateUser` hands to the store. -/
def patchUser (name hash : Str) (p : UserPatch) (d : FileData) :
    Except AuthError (FileData × User) :=
  match findUser d.users name with
  | none => .error (userNotFound name)
  | some i =>
    match d.users[i]? with
    | none => .error (userNotFound name)
    | some u =>
      let u' := p.apply hash u
      if u.isAdmin && !u'.isAdmin && enabledAdmins d.users ≤ 1 then
        .error (.conflict (str "cannot demote or disable the last admin"))
      else .ok ({ d with users := d.users.set i u' }, u')

/-- The hash of the new password, empty where there is none. -/
def UserPatch.hash (p : UserPatch) (env : Answers) : Except AuthError Str :=
  p.password.elim (.ok []) (hashPassword env)

/-- `UpdateUser` up to the end of the user's sessions -/
def updateUser (go : Go) (env : Answers) (name : Str) (p : UserPatch) (s : Store) :
    Store × Except AuthError User :=
  let name := go.toLower (go.trimSpace name)
  if p.role.all Role.valid then
    match p.hash env with
    | .error err => (s, .error err)
    | .ok hash => s.update env.saved (patchUser name hash p)
  else (s, .error (.invalid roleMsg))

/-- `SetPassword` -/
def setPassword (go : Go) (env : Answers) (name password : Str) (mustChangePassword : Bool)
    (s : Store) : Store × Except AuthError User :=
  updateUser go env name
    { password := some password, mustChangePassword := some mustChangePassword } s

/-- `DeleteUser` up to the end of the user's sessions -/
def deleteUser (go : Go) (env : Answers) (name : Str) (s : Store) :
    Store × Except AuthError Unit :=
  let name := go.toLower (go.trimSpace name)
  s.update env.saved fun d =>
    match findUser d.users name with
    | none => .error (userNotFound name)
    | some i =>
      if (d.users[i]?).any User.isAdmin && enabledAdmins d.users ≤ 1 then
        .error (.conflict (str "cannot delete the last admin"))
      else .ok ({ d with users := d.users.eraseIdx i }, ())

/-- The function `changeOwnPassword` hands to the store. -/
def setHash (name hash : Str) (d : FileData) : Except AuthError (FileData × Unit) :=
  match findUser d.users name with
  | none => .error (userNotFound name)
  | some i =>
    .ok ({ d with
      users := d.users.modify i fun u =>
        { u with passwordHash := hash, mustChangePassword := false } }, ())

/-- The checks of `changeOwnPassword` on the user it has read. -/
def checkOwnPassword (verify : Str → Str → Bool) (env : Answers) (u : Option User)
    (name current next : Str) : Except AuthError Str :=
  match u with
  | none => .error (userNotFound name)
  | some u =>
    if u.disabled then .error (userNotFound name)
    else if verifyPassword verify u.passwordHash current = false then .error .badCurrentPassword
    else if current = next then
      .error (.invalid (str "the new password must differ from the current one"))
    else hashPassword env next

/-- `changeOwnPassword` -/
def changeOwnPassword (verify : Str → Str → Bool) (env : Answers) (name current next : Str)
    (s : Store) : Store × Except AuthError Unit :=
  match checkOwnPassword verify env (s.getUser name) name current next with
  | .error err => (s, .error err)
  | .ok hash => s.update env.saved (setHash name hash)

end StreamHub.Auth
