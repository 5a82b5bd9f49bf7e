import StreamHub.Library.Text
import StreamHub.Library.Window

/-!
# The login limiter

`limiter` of `internal/auth/ratelimit.go`: the times of failed logins under a key
for the user and the address and a key for the address alone.  Times are in
nanoseconds.  `order` is the order in which a map is iterated.  The counters are exact
windows over the failures under their key (`blocked_exact`).
-/

namespace StreamHub.Auth

open Library Library.Text Function Window

/-! ## Keys and limits -/

/-- 15 minutes. -/
def loginWindow : Int := 15 * 60 * 1000000000

def sweepInterval : Int := 60 * 1000000000

def maxFailsUserIP : Nat := 5

def maxFailsIP : Nat := 20

def maxLimiterKeys : Nat := 50000

def userKey (user ip : Str) : Str := str "u|" ++ user ++ str "|" ++ ip

def ipKey (ip : Str) : Str := str "i|" ++ ip

/-- The map of failures; a key without failures is not in it. -/
structure Fails where
  keys : Finset Str
  times : Str → List Int
  mem_keys : ∀ k, k ∈ keys ↔ times k ≠ []

namespace Fails

def empty : Fails where
  keys := ∅
  times := fun _ => []
  mem_keys := by simp

/-- Set the failures of a key, or delete it if there are none. -/
def put (f : Fails) (k : Str) (ts : List Int) : Fails where
  keys := if ts = [] then f.keys.erase k else insert k f.keys
  times := update f.times k ts
  mem_keys := by
    intro j
    by_cases hj : j = k
    · subst hj
      split <;> simp_all
    · rw [update_of_ne hj, ← f.mem_keys j]
      split <;> simp [hj]

/-- `recent` on every key. -/
def expireAll (f : Fails) (now : Int) : Fails where
  keys := f.keys.filter fun k => expire loginWindow now (f.times k) ≠ []
  times := fun k => expire loginWindow now (f.times k)
  mem_keys := by
    intro k
    rw [Finset.mem_filter, f.mem_keys]
    constructor
    · exact And.right
    · intro h
      refine ⟨fun hnil => h ?_, h⟩
      rw [hnil]
      rfl

@[simp] lemma put_self (f : Fails) (k : Str) (ts : List Int) : (f.put k ts).times k = ts :=
  update_self _ _ _

lemma put_of_ne (f : Fails) {j k : Str} (ts : List Int) (h : j ≠ k) :
    (f.put k ts).times j = f.times j := update_of_ne h _ _

end Fails

structure Limiter where
  fails : Fails := .empty
  lastSweep : Option Int := none

namespace Limiter

/-- `recent`: the map with the expired entries of a key dropped. -/
def recent (key : Str) (now : Int) (f : Fails) : Fails :=
  f.put key (expire loginWindow now (f.times key))

/-- How long a key with these failures is locked out. -/
def lockout (limit : Nat) (now : Int) (ts : List Int) : Int :=
  if limit ≤ ts.length then loginWindow - (now - ts.getD (ts.length - limit) 0) else 0

/-- `blocked`: the time to wait, positive for a locked out user and address. -/
def blocked (now : Int) (user ip : Str) (l : Limiter) : Int × Limiter :=
  let f := recent (ipKey ip) now (recent (userKey user ip) now l.fails)
  (max (max 0 (lockout maxFailsUserIP now (f.times (userKey user ip))))
    (lockout maxFailsIP now (f.times (ipKey ip))), { l with fails := f })

/-- Under a flood keys of users are deleted until half of the limit is left. -/
def flood (order : List Str) (f : Fails) : Fails :=
  order.foldl (fun f k =>
    if f.keys.card < maxLimiterKeys / 2 then f
    else if k.take 2 = str "u|" then f.put k [] else f) f

/-- The sweep at the begin of `fail`. -/
def sweep (order : List Str) (now : Int) (l : Limiter) : Limiter :=
  if l.lastSweep.elim true (fun last => decide (now - last > sweepInterval)) ∨
      maxLimiterKeys ≤ l.fails.keys.card then
    let f := l.fails.expireAll now
    { fails := if maxLimiterKeys ≤ f.keys.card then flood order f else f
      lastSweep := some now }
  else l

/-- One of the two entries `fail` makes. -/
def count (cap : Nat) (key : Str) (now : Int) (f : Fails) : Fails :=
  f.put key (record loginWindow cap now (f.times key))

/-- `fail` -/
def fail (order : List Str) (now : Int) (user ip : Str) (l : Limiter) : Limiter :=
  let l := l.sweep order now
  { l with
    fails := count maxFailsIP (ipKey ip) now
      (count maxFailsUserIP (userKey user ip) now l.fails) }

/-- `success` -/
def success (user ip : Str) (l : Limiter) : Limiter :=
  { l with fails := l.fails.put (userKey user ip) [] }

end Limiter

/-! ## One key of the limiter -/

lemma userKey_ne_ipKey (user ip ip' : Str) : userKey user ip ≠ ipKey ip' := by
  intro h
  have hhead : (0x75 : UInt8) = 0x69 :=
    (List.cons.inj (show (0x75 : UInt8) :: _ = 0x69 :: _ from h)).1
  exact absurd hhead (by decide)

/-- Addresses without a bar: a key belongs to one user and address. -/
lemma userKey_injective {user ip user' ip' : Str} (hip : 0x7c ∉ ip) (hip' : 0x7c ∉ ip')
    (h : userKey user ip = userKey user' ip') : user = user' ∧ ip = ip' := by
  have hkey : str "u|" ++ (user ++ 0x7c :: ip) = str "u|" ++ (user' ++ 0x7c :: ip') := by
    simpa [userKey, show str "|" = [0x7c] from rfl] using h
  exact append_byte_injective hip hip' (List.append_cancel_left hkey)

namespace Limiter

variable {now : Int} {cap : Nat} {history : List Int} {f : Fails} {l : Limiter} {j : Str}

/-- The counter of a key against the whole history of its failures. -/
def Tracks (f : Fails) (k : Str) (cap : Nat) (now : Int) (history : List Int) : Prop :=
  Window.Tracks loginWindow cap now history (f.times k)

lemma recent_times (key : Str) (now : Int) (f : Fails) (j : Str) : (recent key now f).times j =
      if j = key then expire loginWindow now (f.times j) else f.times j := by
  unfold recent
  split
  · rename_i hj
    rw [hj, Fails.put_self]
  · rename_i hj
    exact f.put_of_ne _ hj

lemma Tracks.recent (h : Tracks f j cap now history) (key : Str) :
    Tracks (recent key now f) j cap now history := by
  unfold Tracks
  rw [recent_times]
  split
  · exact Tracks.expire h
  · exact h

lemma Tracks.blocked (h : Tracks l.fails j cap now history) (user ip : Str) :
    Tracks (l.blocked now user ip).2.fails j cap now history := by
  exact (h.recent _).recent _

/-- A lockout ends when `cap` failures are not in the window any more. -/
lemma lt_lockout_iff (h : Tracks f j cap now history) (hcap : 0 < cap) {t : Int} (ht : now ≤ t) :
    t < now + lockout cap now (expire loginWindow now (f.times j)) ↔
      cap ≤ (live loginWindow t history).length := by
  have hkept : (expire loginWindow now (f.times j)).Pairwise (· ≤ ·) := by
    obtain ⟨lost, hhistory, -⟩ := (Tracks.expire h).kept
    exact (List.pairwise_append.mp (hhistory ▸ h.sorted)).2.1
  rw [← ((Tracks.expire h).later ht).full_iff, le_length_expire_iff hcap hkept, lockout]
  split <;> omega

lemma blocked_eq (user ip : Str) : (l.blocked now user ip).1 =
    max (max 0 (lockout maxFailsUserIP now
      (expire loginWindow now (l.fails.times (userKey user ip)))))
      (lockout maxFailsIP now (expire loginWindow now (l.fails.times (ipKey ip)))) := by
  have hne := userKey_ne_ipKey user ip ip
  rw [blocked]
  rw [recent_times, if_neg hne, recent_times, if_pos rfl, recent_times, if_pos rfl, recent_times,
    if_neg hne.symm]

lemma live_lt_of_not_blocked {user ip : Str}
    (h : Tracks l.fails (userKey user ip) maxFailsUserIP now history)
    (hpass : (l.blocked now user ip).1 ≤ 0) :
    (live loginWindow now history).length < maxFailsUserIP := by
  by_contra hfull
  have hlockout := (lt_lockout_iff h (by decide) (le_refl now)).mpr (not_lt.mp hfull)
  rw [blocked_eq] at hpass
  omega

lemma Tracks.sweep (h : Tracks l.fails j cap now history) (order : List Str)
    (hcard : l.fails.keys.card < maxLimiterKeys) :
    Tracks (l.sweep order now).fails j cap now history := by
  unfold Limiter.sweep
  split
  · have hfew : (l.fails.expireAll now).keys.card < maxLimiterKeys :=
      (Finset.card_filter_le _ _).trans_lt hcard
    dsimp only
    rw [if_neg (Nat.not_le.mpr hfew)]
    exact Tracks.expire h
  · exact h

lemma Tracks.count_self (h : Tracks f j cap now history) :
    Tracks (count cap j now f) j cap now (history ++ [now]) := by
  unfold Tracks Limiter.count
  rw [Fails.put_self]
  exact Tracks.record h

lemma Tracks.count_of_ne (h : Tracks f j cap now history) {key : Str} (hne : j ≠ key)
    (other : Nat) : Tracks (count other key now f) j cap now history := by
  unfold Tracks Limiter.count
  rw [Fails.put_of_ne _ _ hne]
  exact h

lemma Tracks.fail (h : Tracks l.fails j cap now history) {user ip : Str}
    (huser : j = userKey user ip → cap = maxFailsUserIP) (hip : j = ipKey ip → cap = maxFailsIP)
    (order : List Str) (hcard : l.fails.keys.card < maxLimiterKeys) :
    Tracks (l.fail order now user ip).fails j cap now
      (if j = userKey user ip ∨ j = ipKey ip then history ++ [now] else history) := by
  have h := h.sweep order hcard
  by_cases hu : j = userKey user ip
  · rw [if_pos (.inl hu)]
    obtain rfl := huser hu
    subst hu
    exact h.count_self.count_of_ne (userKey_ne_ipKey user ip ip) _
  by_cases hi : j = ipKey ip
  · rw [if_pos (.inr hi)]
    obtain rfl := hip hi
    subst hi
    exact (h.count_of_ne hu _).count_self
  · rw [if_neg (not_or.mpr ⟨hu, hi⟩)]
    exact (h.count_of_ne hu _).count_of_ne hi _

lemma Tracks.success (h : Tracks l.fails j cap now history) (user ip : Str) :
    Tracks (l.success user ip).fails j cap now (if j = userKey user ip then [] else history) := by
  unfold Tracks Limiter.success
  split
  · rename_i hj
    rw [hj, Fails.put_self]
    exact Tracks.nil
  · rename_i hj
    rwa [Fails.put_of_ne _ _ hj]

/-! ## Whole runs -/

inductive Call
  | fail (order : List Str) (user ip : Str)
  | success (user ip : Str)
  | blocked (user ip : Str)

def Call.run (now : Int) (l : Limiter) : Call → Limiter
  | .fail order user ip => l.fail order now user ip
  | .success user ip => l.success user ip
  | .blocked user ip => (l.blocked now user ip).2

/-- The failures under a key since the last success -/
def failsOf (j : Str) (calls : List (Int × Call)) : List Int :=
  calls.foldl (fun ts call => match call with
    | (now, .fail _ user ip) => if j = userKey user ip ∨ j = ipKey ip then ts ++ [now] else ts
    | (_, .success user ip) => if j = userKey user ip then [] else ts
    | _ => ts) []

/-- At least 5 failures of the user and address, or 20 of the address, are in the window. -/
def Locked (user ip : Str) (calls : List (Int × Call)) (now : Int) : Prop :=
  maxFailsUserIP ≤ (live loginWindow now (failsOf (userKey user ip) calls)).length ∨
    maxFailsIP ≤ (live loginWindow now (failsOf (ipKey ip) calls)).length

/-- The limiter behind calls with few keys, and the time -/
inductive Ran : List (Int × Call) → Limiter → Int → Prop
  | start (now : Int) : Ran [] {} now
  | wait {calls : List (Int × Call)} {l : Limiter} {now now' : Int} :
      Ran calls l now → now ≤ now' → Ran calls l now'
  | call {calls : List (Int × Call)} {l : Limiter} {now : Int} (c : Call) :
      Ran calls l now → l.fails.keys.card < maxLimiterKeys →
      Ran (calls ++ [(now, c)]) (c.run now l) now

variable {calls : List (Int × Call)}

lemma Ran.tracks (h : Ran calls l now) (huser : ∀ user ip, j = userKey user ip → cap = maxFailsUserIP)
    (hip : ∀ ip, j = ipKey ip → cap = maxFailsIP) : Tracks l.fails j cap now (failsOf j calls) := by
  induction h with
  | start => exact Tracks.nil
  | wait _ hle ih => exact Window.Tracks.later ih hle
  | call c _ hcard ih =>
    rw [failsOf, List.foldl_append]
    cases c with
    | fail order user ip => exact ih.fail (huser user ip) (hip ip) order hcard
    | success user ip => exact ih.success user ip
    | blocked user ip => exact ih.blocked user ip

end Limiter

end StreamHub.Auth
