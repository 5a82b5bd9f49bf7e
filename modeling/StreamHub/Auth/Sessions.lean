import StreamHub.Library.Text

/-!
# The sessions of the web interface

`sessionStore` of `internal/auth/session.go`.  The map is a list of sessions with
their keys, in the order in which it is iterated.  `origin` is not in the source:
a user of this module can write there for what a session was created.
-/

namespace StreamHub.Auth

open Library Library.Text List

def maxSessionsPerUser : Nat := 32

def maxSessionsTotal : Nat := 10000

/-- A minute, in nanoseconds. -/
def sessionSweepInterval : Int := 60 * 1000000000

/-- `key` is the key of the map, the SHA-256 of the cookie value. -/
structure Session (ω : Type) where
  key : Str
  user : Str
  created : Int
  lastSeen : Int
  origin : ω
  deriving DecidableEq

/-- How long a session lives without a request, and at all. -/
structure Lifetime where
  idle : Int
  max : Int

structure Sessions (ω : Type) where
  m : List (Session ω) := []
  lastSweep : Option Int := none

variable {ω : Type}

/-- `expired` -/
def Session.expired (life : Lifetime) (now : Int) (x : Session ω) : Bool :=
  decide (now - x.lastSeen > life.idle ∨ now - x.created > life.max)

/-- `delete` of a map entry -/
def dropKey (key : Str) (m : List (Session ω)) : List (Session ω) :=
  m.filter fun x => x.key != key

/-- One step of a round: the less recently seen of two sessions. -/
def older (mine : Session ω → Bool) (best : Option (Session ω)) (x : Session ω) :
    Option (Session ω) :=
  if mine x then
    match best with
    | none => some x
    | some y => if x.lastSeen < y.lastSeen then some x else some y
  else best

/-- One round over the map for the least recently seen session. -/
def oldest (mine : Session ω → Bool) (m : List (Session ω)) : Option (Session ω) :=
  m.foldl (older mine) none

/-- The loop of `evictLocked`. -/
def evictLoop (mine : Session ω → Bool) (limit : Nat) :
    Nat → List (Session ω) → List (Session ω)
  | 0, m => m
  | rounds + 1, m =>
    if m.countP mine < limit then m
    else
      match oldest mine m with
      | none => m
      | some x => evictLoop mine limit rounds (dropKey x.key m)

/-- `evictLocked`; every round deletes a session. -/
def evictLocked (mine : Session ω → Bool) (limit : Nat) (m : List (Session ω)) :
    List (Session ω) := evictLoop mine limit m.length m

namespace Sessions

/-- `sweepLocked` -/
def sweepLocked (life : Lifetime) (now : Int) (s : Sessions ω) : Sessions ω where
  m := s.m.filter fun x => !x.expired life now
  lastSweep := some now

/-- The sweep at the begin of `create`. -/
def sweep (life : Lifetime) (now : Int) (s : Sessions ω) : Sessions ω :=
  if s.lastSweep.elim true (fun last => decide (now - last > sessionSweepInterval)) ∨
      maxSessionsTotal ≤ s.m.length then
    s.sweepLocked life now
  else s

/-- `create`; `key` is the key of the new random id. -/
def create (life : Lifetime) (now : Int) (key user : Str) (origin : ω) (s : Sessions ω) :
    Sessions ω :=
  let s := s.sweep life now
  let m := evictLocked (fun x => x.user == user) maxSessionsPerUser s.m
  let m := evictLocked (fun _ => true) maxSessionsTotal m
  let x := { key := key, user := user, created := now, lastSeen := now, origin := origin }
  { s with m := x :: dropKey key m }

/-- `get`; `sessionKey` hashes the cookie value. -/
def get (life : Lifetime) (now : Int) (sessionKey : Str → Str) (id : Str) (s : Sessions ω) :
    Option Str × Sessions ω :=
  if id = [] then (none, s)
  else
    let key := sessionKey id
    match s.m.find? fun x => x.key == key with
    | none => (none, s)
    | some x =>
      if x.expired life now then (none, { s with m := dropKey key s.m })
      else (some x.user, { s with
        m := s.m.map fun y => if y.key == key then { y with lastSeen := now } else y })

/-- `delete` -/
def delete (key : Str) (s : Sessions ω) : Sessions ω := { s with m := dropKey key s.m }

/-- `deleteUser`; without a session to keep, `keep` is none. -/
def deleteUser (user : Str) (keep : Option Str) (s : Sessions ω) : Sessions ω :=
  { s with m := s.m.filter fun x => !(x.user == user && some x.key != keep) }

end Sessions

/-! ## What is left in the map -/

variable {life : Lifetime} {now : Int} {key user : Str} {origin : ω} {s : Sessions ω}
  {m : List (Session ω)} {mine : Session ω → Bool} {limit : Nat} {x : Session ω}

lemma dropKey_sublist (key : Str) (m : List (Session ω)) : (dropKey key m).Sublist m :=
  filter_sublist

lemma evictLoop_sublist (mine : Session ω → Bool) (limit rounds : Nat)
    (m : List (Session ω)) : (evictLoop mine limit rounds m).Sublist m := by
  induction rounds generalizing m with
  | zero => exact Sublist.refl m
  | succ rounds ih =>
    rw [evictLoop]
    split
    · exact Sublist.refl m
    split
    · exact Sublist.refl m
    · exact (ih _).trans (dropKey_sublist _ m)

lemma older_eq_some {best : Option (Session ω)} {y : Session ω}
    (h : older mine best y = some x) : best = some x ∨ x = y ∧ mine y = true := by
  unfold older at h
  split at h
  · rename_i hy
    cases best with
    | none => exact .inr ⟨(Option.some.inj h).symm, hy⟩
    | some z =>
      dsimp only at h
      split at h
      · exact .inr ⟨(Option.some.inj h).symm, hy⟩
      · exact .inl h
  · exact .inl h

lemma older_eq_none {best : Option (Session ω)} {y : Session ω}
    (h : older mine best y = none) : best = none ∧ ¬ mine y = true := by
  unfold older at h
  split at h
  · cases best with
    | none => cases h
    | some z =>
      dsimp only at h
      split at h <;> cases h
  · rename_i hy
    exact ⟨h, hy⟩

lemma oldest_mem (h : oldest mine m = some x) : x ∈ m ∧ mine x = true := by
  have hround : ∀ (m : List (Session ω)) (best : Option (Session ω)),
      m.foldl (older mine) best = some x → best = some x ∨ x ∈ m ∧ mine x = true := by
    intro m
    induction m with
    | nil => exact fun best h => .inl h
    | cons y rest ih =>
      intro best h
      rcases ih _ h with hbest | ⟨hmem, hmine⟩
      · rcases older_eq_some hbest with hbest | ⟨rfl, hmine⟩
        · exact .inl hbest
        · exact .inr ⟨mem_cons_self, hmine⟩
      · exact .inr ⟨mem_cons_of_mem y hmem, hmine⟩
  rcases hround m none h with hnone | hmem
  · cases hnone
  · exact hmem

lemma oldest_eq_none (h : oldest mine m = none) : m.countP mine = 0 := by
  have hround : ∀ (m : List (Session ω)) (best : Option (Session ω)),
      m.foldl (older mine) best = none → best = none ∧ m.countP mine = 0 := by
    intro m
    induction m with
    | nil => exact fun best h => ⟨h, rfl⟩
    | cons y rest ih =>
      intro best h
      obtain ⟨hbest, hrest⟩ := ih _ h
      obtain ⟨hbest, hy⟩ := older_eq_none hbest
      exact ⟨hbest, by rw [countP_cons_of_neg hy, hrest]⟩
  exact (hround m none h).2

lemma countP_dropKey_lt (hx : x ∈ m) (hmine : mine x = true) :
    (dropKey x.key m).countP mine < m.countP mine := by
  rw [dropKey, countP_filter, countP_eq_length_filter, countP_eq_length_filter]
  have hsub : (m.filter fun y => mine y && (y.key != x.key)).Sublist (m.filter mine) :=
    monotone_filter_right m fun y hy => (Bool.and_eq_true _ _ ▸ hy).1
  refine lt_of_le_of_ne hsub.length_le fun hlen => ?_
  have hmem : x ∈ m.filter fun y => mine y && (y.key != x.key) := by
    rw [hsub.eq_of_length hlen]
    exact mem_filter.mpr ⟨hx, hmine⟩
  simp at hmem

lemma countP_evictLoop_lt (hlimit : 0 < limit) {rounds : Nat}
    (hrounds : m.countP mine ≤ rounds) : (evictLoop mine limit rounds m).countP mine < limit := by
  induction rounds generalizing m with
  | zero =>
    rw [evictLoop]
    omega
  | succ rounds ih =>
    rw [evictLoop]
    split
    · assumption
    split
    · rename_i hnone
      rw [oldest_eq_none hnone]
      exact hlimit
    rename_i x hx
    obtain ⟨hmem, hmine⟩ := oldest_mem hx
    have := countP_dropKey_lt hmem hmine
    exact ih (by omega)

lemma countP_evictLocked_lt (hlimit : 0 < limit) (m : List (Session ω)) :
    (evictLocked mine limit m).countP mine < limit := countP_evictLoop_lt hlimit countP_le_length

namespace Sessions

lemma sweep_sublist (life : Lifetime) (now : Int) (s : Sessions ω) :
    (s.sweep life now).m.Sublist s.m := by
  unfold sweep
  split
  · exact filter_sublist
  · exact Sublist.refl _

/-- What `create` leaves beside the new session was there before. -/
lemma create_m (life : Lifetime) (now : Int) (key user : Str) (origin : ω)
    (s : Sessions ω) : ∃ rest, (s.create life now key user origin).m =
      { key := key, user := user, created := now, lastSeen := now, origin := origin } :: rest ∧
      rest.Sublist s.m ∧ rest.countP (fun x => x.user == user) < maxSessionsPerUser ∧
      rest.length < maxSessionsTotal := by
  have hall := evictLoop_sublist (fun _ => true) maxSessionsTotal
    (evictLocked (fun x => x.user == user) maxSessionsPerUser (s.sweep life now).m).length
    (evictLocked (fun x => x.user == user) maxSessionsPerUser (s.sweep life now).m)
  have hmine := evictLoop_sublist (fun x => x.user == user) maxSessionsPerUser
    (s.sweep life now).m.length (s.sweep life now).m
  refine ⟨_, rfl, ?_, ?_, ?_⟩
  · exact (dropKey_sublist key _).trans (hall.trans (hmine.trans (s.sweep_sublist life now)))
  · exact (((dropKey_sublist key _).trans hall).countP_le).trans_lt
      (countP_evictLocked_lt (by decide) _)
  · have hlt : (evictLocked (fun _ => true) maxSessionsTotal (evictLocked
        (fun x => x.user == user) maxSessionsPerUser (s.sweep life now).m)).countP
        (fun _ => true) < maxSessionsTotal := countP_evictLocked_lt (by decide) _
    rw [countP_true] at hlt
    exact (dropKey_sublist key _).length_le.trans_lt hlt

lemma mem_create (h : x ∈ (s.create life now key user origin).m) :
    (x.user = user ∧ x.origin = origin) ∨ x ∈ s.m := by
  obtain ⟨rest, hm, hsub, -⟩ := create_m life now key user origin s
  rw [hm] at h
  rcases mem_cons.mp h with rfl | hx
  · exact .inl ⟨rfl, rfl⟩
  · exact .inr (hsub.mem hx)

lemma mem_delete (h : x ∈ (s.delete key).m) : x ∈ s.m := (dropKey_sublist key s.m).mem h

lemma mem_deleteUser (h : x ∈ (s.deleteUser user none).m) : x ∈ s.m ∧ x.user ≠ user := by
  obtain ⟨hmem, hkept⟩ := mem_filter.mp h
  refine ⟨hmem, fun huser => ?_⟩
  simp [huser] at hkept

/-- A request through a session only writes when it was seen. -/
lemma mem_get {sessionKey : Str → Str} {id : Str} (h : x ∈ (s.get life now sessionKey id).2.m) :
    ∃ y ∈ s.m, x.user = y.user ∧ x.origin = y.origin := by
  unfold get at h
  split at h
  · exact ⟨x, h, rfl, rfl⟩
  dsimp only at h
  split at h
  · exact ⟨x, h, rfl, rfl⟩
  split at h
  · exact ⟨x, (dropKey_sublist _ s.m).mem h, rfl, rfl⟩
  obtain ⟨y, hy, rfl⟩ := mem_map.mp h
  refine ⟨y, hy, ?_⟩
  split <;> exact ⟨rfl, rfl⟩

end Sessions

end StreamHub.Auth
