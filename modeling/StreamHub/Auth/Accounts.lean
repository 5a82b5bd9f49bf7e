import StreamHub.Auth.Store

/-!
# An administrator remains

Every call changes the list of users in one of three ways (`Change`): it adds a
user with a new name, replaces the record of one user under the same name, or
removes one; a change by which an enabled administrator is lost needs a second
one.  So names stay distinct and an enabled administrator remains, whatever is
called and whichever saves fail.
-/

namespace StreamHub.Auth

open Library Library.Text List

/-! ## What a call can change -/

/-- The changes of a list of users. -/
inductive Change (us : List User) : List User → Prop
  | none : Change us us
  | add (u : User) : u.name ∉ us.map User.name → Change us (us ++ [u])
  | edit {before after : List User} {u u' : User} : us = before ++ u :: after →
      u'.name = u.name → (u.isAdmin = true → u'.isAdmin = true ∨ 2 ≤ enabledAdmins us) →
        Change us (before ++ u' :: after)
  | remove {before after : List User} {u : User} : us = before ++ u :: after →
      (u.isAdmin = true → 2 ≤ enabledAdmins us) → Change us (before ++ after)

/-- Names are distinct and an enabled administrator is there. -/
structure Administered (us : List User) : Prop where
  nodup : (us.map User.name).Nodup
  admin : ∃ u ∈ us, u.isAdmin = true

variable {us : List User}

lemma enabledAdmins_pos : 0 < enabledAdmins us ↔ ∃ u ∈ us, u.isAdmin = true := countP_pos_iff

lemma enabledAdmins_insert (before after : List User) (u : User) :
    enabledAdmins (before ++ u :: after) =
      enabledAdmins (before ++ after) + if u.isAdmin = true then 1 else 0 := by
  unfold enabledAdmins
  rw [countP_append, countP_append, countP_cons, Nat.add_assoc]

lemma Change.administered {us' : List User} (hchange : Change us us') (h : Administered us) :
    Administered us' := by
  obtain ⟨hnodup, hadmin⟩ := h
  rw [← enabledAdmins_pos] at hadmin
  cases hchange with
  | none => exact ⟨hnodup, enabledAdmins_pos.mp hadmin⟩
  | add u hnew =>
    refine ⟨?_, ?_⟩
    · rw [map_append, nodup_append']
      exact ⟨hnodup, nodup_singleton _, by simpa using hnew⟩
    · obtain ⟨v, hv, hvAdmin⟩ := enabledAdmins_pos.mp hadmin
      exact ⟨v, mem_append_left _ hv, hvAdmin⟩
  | @edit before after u u' hus hname hkept =>
    subst hus
    refine ⟨?_, enabledAdmins_pos.mp ?_⟩
    · simpa [hname] using hnodup
    · -- the administrators besides the edited user are as many as before
      rw [enabledAdmins_insert] at hadmin hkept ⊢
      by_cases hu : u.isAdmin = true
      · rcases hkept hu with hu' | htwo
        · rw [if_pos hu']
          exact Nat.succ_pos _
        · rw [if_pos hu] at htwo
          omega
      · rw [if_neg hu] at hadmin
        omega
  | @remove before after u hus hkept =>
    subst hus
    refine ⟨?_, enabledAdmins_pos.mp ?_⟩
    · exact hnodup.sublist ((Sublist.append_left (sublist_cons_self u after) before).map _)
    · rw [enabledAdmins_insert] at hadmin hkept
      by_cases hu : u.isAdmin = true
      · have htwo := hkept hu
        rw [if_pos hu] at htwo
        omega
      · rw [if_neg hu] at hadmin
        omega

/-! ## Every call makes such a change -/

/-- A call either fails and leaves the store alone, or makes a change and saves
it. -/
def Effect {α : Type} (s : Store) (after : Store × Except AuthError α) : Prop :=
  (after.1 = s ∧ ∃ err, after.2 = .error err) ∨
    (Change s.data.users after.1.data.users ∧ after.1.file = after.1.data ∧
      ∃ res, after.2 = .ok res)

variable {s : Store}

lemma Effect.failed {α : Type} {err : AuthError} :
    Effect s (s, (.error err : Except AuthError α)) := Or.inl ⟨rfl, err, rfl⟩

lemma Store.update_effect {α : Type} {saved : Bool}
    {fn : FileData → Except AuthError (FileData × α)}
    (hfn : ∀ next res, fn s.data = .ok (next, res) → Change s.data.users next.users) :
    Effect s (s.update saved fn) := by
  unfold Store.update
  split
  · exact Effect.failed
  rename_i next res hres
  split
  · exact .inr ⟨hfn next res hres, rfl, res, rfl⟩
  · exact Effect.failed

lemma findUser_some {name : Str} {i : Nat} (h : findUser us name = some i) :
    ∃ u, us[i]? = some u ∧ u.name = name ∧ us = us.take i ++ u :: us.drop (i + 1) := by
  obtain ⟨hi, hname, -⟩ := findIdx?_eq_some_iff_getElem.mp h
  refine ⟨us[i], getElem?_eq_getElem hi, by simpa using hname, ?_⟩
  rw [cons_getElem_drop_succ, take_append_drop]

lemma findUser_isSome {name : Str} (h : (findUser us name).isSome = false) :
    name ∉ us.map User.name := by
  intro hmem
  obtain ⟨u, hu, hname⟩ := mem_map.mp hmem
  rw [Option.isSome_eq_false_iff, Option.isNone_iff_eq_none, findUser, findIdx?_eq_none_iff] at h
  have := h u hu
  simp [hname] at this

lemma createUser_effect (go : Go) (env : Answers) (name password : Str) (role : Role)
    (mustChangePassword : Bool) (s : Store) :
    Effect s (createUser go env name password role mustChangePassword s) := by
  unfold createUser
  split
  · exact Effect.failed
  split
  · split
    · exact Effect.failed
    refine Store.update_effect fun next res hres => ?_
    split at hres
    · cases hres
    rename_i hnew
    cases hres
    exact .add _ (findUser_isSome (Bool.eq_false_of_not_eq_true hnew))
  · exact Effect.failed

lemma UserPatch.apply_name (p : UserPatch) (hash : Str) (u : User) :
    (p.apply hash u).name = u.name := by
  unfold UserPatch.apply
  split <;> rfl

lemma patchUser_change {name hash : Str} {p : UserPatch} {d next : FileData} {res : User}
    (h : patchUser name hash p d = .ok (next, res)) : Change d.users next.users := by
  unfold patchUser at h
  split at h
  · cases h
  rename_i i hi
  obtain ⟨u, hu, -, hsplit⟩ := findUser_some hi
  rw [hu] at h
  dsimp only at h
  split at h
  · cases h
  rename_i hlast
  cases h
  have hset : d.users.set i (p.apply hash u) =
      d.users.take i ++ p.apply hash u :: d.users.drop (i + 1) :=
    set_eq_take_cons_drop _ (List.getElem?_eq_some_iff.mp hu).1
  rw [hset]
  refine .edit hsplit (p.apply_name hash u) fun hadmin => ?_
  by_contra hlost
  push Not at hlost
  have hone : enabledAdmins d.users ≤ 1 := by omega
  simp [hadmin, hlost.1, hone] at hlast

lemma updateUser_effect (go : Go) (env : Answers) (name : Str) (p : UserPatch) (s : Store) :
    Effect s (updateUser go env name p s) := by
  unfold updateUser
  split
  · split
    · exact Effect.failed
    · exact Store.update_effect fun _ _ => patchUser_change
  · exact Effect.failed

lemma deleteUser_effect (go : Go) (env : Answers) (name : Str) (s : Store) :
    Effect s (deleteUser go env name s) := by
  refine Store.update_effect fun next res hres => ?_
  split at hres
  · cases hres
  rename_i i hi
  obtain ⟨u, hu, -, hsplit⟩ := findUser_some hi
  split at hres
  · cases hres
  rename_i hlast
  cases hres
  rw [eraseIdx_eq_take_drop_succ]
  refine .remove hsplit fun hadmin => ?_
  by_contra hlost
  have hone : enabledAdmins s.data.users ≤ 1 := by omega
  simp [hu, hadmin, hone] at hlast

lemma setHash_change {name hash : Str} {d next : FileData} {res : Unit}
    (h : setHash name hash d = .ok (next, res)) : Change d.users next.users := by
  unfold setHash at h
  split at h
  · cases h
  rename_i i hi
  obtain ⟨u, hu, -, hsplit⟩ := findUser_some hi
  obtain ⟨hlt, hget⟩ := List.getElem?_eq_some_iff.mp hu
  cases h
  rw [modify_eq_take_cons_drop hlt, hget]
  exact .edit hsplit rfl Or.inl

lemma changeOwnPassword_effect (verify : Str → Str → Bool) (env : Answers)
    (name current next : Str) (s : Store) :
    Effect s (changeOwnPassword verify env name current next s) := by
  unfold changeOwnPassword
  split
  · exact Effect.failed
  · exact Store.update_effect fun _ _ => setHash_change

/-! ## Runs of calls -/

/-- The calls that change accounts. -/
inductive Call
  | createUser (name password : Str) (role : Role) (mustChangePassword : Bool)
  | updateUser (name : Str) (patch : UserPatch)
  | setPassword (name password : Str) (mustChangePassword : Bool)
  | deleteUser (name : Str)
  | changeOwnPassword (name current next : Str)

/-- The store after a call, and whether the call succeeded. -/
def Call.run (go : Go) (verify : Str → Str → Bool) (env : Answers) (s : Store) :
    Call → Store × Except AuthError Unit
  | .createUser name password role must =>
    (Auth.createUser go env name password role must s).map id (Except.map fun _ => ())
  | .updateUser name patch =>
    (Auth.updateUser go env name patch s).map id (Except.map fun _ => ())
  | .setPassword name password must =>
    (Auth.setPassword go env name password must s).map id (Except.map fun _ => ())
  | .deleteUser name => Auth.deleteUser go env name s
  | .changeOwnPassword name current next => Auth.changeOwnPassword verify env name current next s

lemma Effect.forget {α : Type} {after : Store × Except AuthError α} (h : Effect s after) :
    Effect s (after.map id (Except.map fun _ => ())) := by
  rcases h with ⟨hsame, err, herr⟩ | ⟨hchange, hfile, res, hres⟩
  · exact .inl ⟨hsame, err, by rw [Prod.map_snd, herr]; rfl⟩
  · exact .inr ⟨hchange, hfile, (), by rw [Prod.map_snd, hres]; rfl⟩

lemma Call.effect (go : Go) (verify : Str → Str → Bool) (env : Answers) (s : Store)
    (c : Call) : Effect s (c.run go verify env s) := by
  cases c with
  | createUser name password role must =>
    exact (createUser_effect go env name password role must s).forget
  | updateUser name patch => exact (updateUser_effect go env name patch s).forget
  | setPassword name password must => exact (updateUser_effect go env name _ s).forget
  | deleteUser name => exact deleteUser_effect go env name s
  | changeOwnPassword name current next =>
    exact changeOwnPassword_effect verify env name current next s

lemma Call.administered {go : Go} {verify : Str → Str → Bool} {env : Answers} {c : Call}
    (h : Administered s.data.users) : Administered (c.run go verify env s).1.data.users := by
  rcases c.effect go verify env s with ⟨hsame, -⟩ | ⟨hchange, -⟩
  · rw [hsame]
    exact h
  · exact hchange.administered h

/-- The store after a list of calls, each with what it is answered. -/
def runCalls (go : Go) (verify : Str → Str → Bool) (calls : List (Call × Answers))
    (s : Store) : Store := calls.foldl (fun s c => (c.1.run go verify c.2 s).1) s

/-- The store with the first administrator. -/
def bootstrapped (hash : Str) (now : Int) : Store where
  data := { users := [firstAdmin hash now] }
  file := { users := [firstAdmin hash now] }

/-- A successful bootstrap of an empty store. -/
theorem bootstrap_ok {env : Answers} {written : Bool}
    (h : bootstrap env written {} = (s, .ok ())) :
    ∃ hash, env.hash = some hash ∧ s = bootstrapped hash env.now := by
  unfold bootstrap at h
  rw [if_neg (by decide)] at h
  split at h
  · cases h
  rename_i hash hhash
  refine ⟨hash, hhash, ?_⟩
  split at h
  · unfold Store.update at h
    dsimp only at h
    split at h
    · cases h
      rfl
    · cases h
  · cases h

lemma administered_bootstrapped (hash : Str) (now : Int) :
    Administered (bootstrapped hash now).data.users :=
  ⟨nodup_singleton _, firstAdmin hash now, mem_singleton_self _, rfl⟩

lemma administered_runCalls {go : Go} {verify : Str → Str → Bool}
    {calls : List (Call × Answers)} (h : Administered s.data.users) :
    Administered (runCalls go verify calls s).data.users := by
  induction calls generalizing s with
  | nil => exact h
  | cons c rest ih => exact ih (Call.administered h)

/-- After any calls with any answers the names are distinct, an enabled
administrator is there, and a further call that fails changes nothing. -/
theorem administrator_remains (go : Go) (verify : Str → Str → Bool) (hash : Str) (now : Int)
    (calls : List (Call × Answers)) :
    let s := runCalls go verify calls (bootstrapped hash now)
    (s.data.users.map User.name).Nodup ∧
      (∃ u ∈ s.data.users, u.role = .admin ∧ u.disabled = false) ∧
      ∀ (c : Call) (env : Answers),
        (c.run go verify env s).1 = s ∨ (c.run go verify env s).2 = .ok () := by
  intro s
  obtain ⟨hnodup, u, hu, hadmin⟩ : Administered s.data.users :=
    administered_runCalls (administered_bootstrapped hash now)
  refine ⟨hnodup, ⟨u, hu, by simpa [User.isAdmin] using hadmin⟩, fun c env => ?_⟩
  rcases c.effect go verify env s with ⟨hsame, -⟩ | ⟨-, -, ⟨⟩, hok⟩
  · exact .inl hsame
  · exact .inr hok

end StreamHub.Auth
