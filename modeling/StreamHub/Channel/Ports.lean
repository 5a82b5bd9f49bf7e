import StreamHub.Library.Text

/-!
# The pool of loopback ports

`PortPool` of `internal/channel/ports.go`.  `bindable` says for which ports the
trial `ListenUDP` of `Allocate` succeeds.
-/

namespace StreamHub.Channel

open Library.Text

/-- The ports from `min` to `max`, those handed out, and where to look next. -/
structure PortPool where
  min : Nat
  max : Nat
  used : Finset Nat := ∅
  next : Nat

namespace PortPool

def new (min max : Nat) : PortPool := { min, max, next := min }

/-- At most `n` further tries. -/
def allocateLoop (bindable : Nat → Bool) : Nat → PortPool → Option Nat × PortPool
  | 0, p => (none, p)
  | n + 1, p =>
    let port := p.next
    let p := { p with next := if p.next + 1 > p.max then p.min else p.next + 1 }
    if port ∈ p.used ∨ bindable port = false then allocateLoop bindable n p
    else (some port, { p with used := insert port p.used })

/-- A free port; none when every port is used or not bindable. -/
def allocate (bindable : Nat → Bool) (p : PortPool) : Option Nat × PortPool :=
  allocateLoop bindable (p.max + 1 - p.min) p

/-- Return a port; port 0 stands for "none". -/
def release (p : PortPool) (port : Nat) : PortPool :=
  if port = 0 then p else { p with used := p.used.erase port }

/-- `parseRange` of `cmd/encoderd/main.go`: the ports of the daemon. -/
def parseRange (s : Str) : Nat × Nat :=
  match cut (str "-") s with
  | none => (41000, 41999)
  | some (a, b) =>
    match atoi a, atoi b with
    | some lo, some hi =>
      if lo < 1024 ∨ hi > 65535 ∨ hi - lo < 10 then (41000, 41999)
      else (lo.toNat, hi.toNat)
    | _, _ => (41000, 41999)

lemma parseRange_pos (s : Str) : 0 < (parseRange s).1 := by
  unfold parseRange
  split
  · decide
  split
  · split
    · decide
    · rename_i lo hi _ _ hrange
      omega
  · decide

/-! ## What is handed out -/

/-- The ports that are handed out, and port 0 is never one of them. -/
structure Holds (p : PortPool) (ports : Multiset Nat) : Prop where
  used : p.used.val = ports
  min_pos : 0 < p.min
  min_le_next : p.min ≤ p.next

/-- A port as the callers keep it: 0 stands for "none". -/
def held (port : Nat) : Multiset Nat := if port = 0 then 0 else {port}

lemma holds_new {min max : Nat} (hmin : 0 < min) : Holds (new min max) 0 := ⟨rfl, hmin, le_refl _⟩

variable {ports : Multiset Nat}

lemma Holds.allocateLoop {bindable : Nat → Bool} {n : Nat} {p : PortPool} (h : p.Holds ports) :
    (allocateLoop bindable n p).2.Holds
      (held ((allocateLoop bindable n p).1.getD 0) + ports) := by
  induction n generalizing p with
  | zero => simpa [PortPool.allocateLoop, held] using h
  | succ n ih =>
    have hnext : p.min ≤ if p.next + 1 > p.max then p.min else p.next + 1 := by
      have := h.min_le_next
      split <;> omega
    rw [PortPool.allocateLoop]
    dsimp only
    split
    · exact ih ⟨h.used, h.min_pos, hnext⟩
    rename_i hfree
    have hnew : p.next ∉ p.used := fun hmem => hfree (Or.inl hmem)
    have hpos : p.next ≠ 0 := by
      have hmin := h.min_pos
      have hle := h.min_le_next
      omega
    refine ⟨?_, h.min_pos, hnext⟩
    rw [Option.getD_some, held, if_neg hpos, ← h.used]
    exact Finset.insert_val_of_notMem hnew

/-- A port that `Allocate` returns is new; if it fails, nothing changes. -/
lemma Holds.allocate {p : PortPool} (h : p.Holds ports) (bindable : Nat → Bool) :
    (p.allocate bindable).2.Holds (held ((p.allocate bindable).1.getD 0) + ports) :=
  h.allocateLoop

lemma Holds.release {p : PortPool} {port : Nat} (h : p.Holds (held port + ports)) :
    (p.release port).Holds ports := by
  unfold PortPool.release
  unfold held at h
  split
  · rename_i hzero
    rw [if_pos hzero, zero_add] at h
    exact h
  rename_i hne
  rw [if_neg hne, Multiset.singleton_add] at h
  refine ⟨?_, h.min_pos, h.min_le_next⟩
  rw [Finset.erase_val, h.used, Multiset.erase_cons_head]

end PortPool

end StreamHub.Channel
