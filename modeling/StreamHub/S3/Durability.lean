import StreamHub.Library.Transition
import StreamHub.S3.Secrets

/-!
# What the secrets file keeps

The calls on one store are critical sections, in any order.  A read of the file may fail, and
the process may go down in a write: a file written in place is then left in pieces.  Both read
as an empty file.  What was written last under a ref stays in the file as long as no read fails,
no write in place is interrupted, and no writer works from what the store read before another
one went around it (`kept_of_reached`).
-/

namespace StreamHub.S3

open Library Text OrderedMap Transition Function

/-- A new process starts as behind `invalidate`. -/
inductive Call
  | get
  | readFresh
  | invalidate
  | setMany (values : List (Str × Str))
  | remove (ref : Str)
  | writeSecret (ref value : Str)

/-- A file is replaced by `SetMany` and written in place by the others. -/
def Call.inPlace : Call → Bool
  | .remove _ => true
  | .writeSecret _ _ => true
  | _ => false

/-- The map that is written is the one the store has read. -/
def Call.fromCache : Call → Bool
  | .setMany _ => true
  | .remove _ => true
  | _ => false

/-- A call: whether a read of the file fails in it, and whether its write is interrupted. -/
structure Label where
  call : Call
  unread : Bool
  interrupted : Bool

/-- `last` is what the last write of a ref stored, if it was not interrupted; `stale` says that
the file was written since the store read it. -/
structure State where
  store : SecretsStore
  last : Str → Option Str
  stale : Bool

/-- The refs of `values`, each with what `f` makes of its value. -/
def noted (f : Str → Option Str) (values : List (Str × Str)) (last : Str → Option Str) :
    Str → Option Str :=
  values.foldl (fun last kv => if kv.1 = [] then last else update last kv.1 (f kv.2)) last

def step (layout : Str → Str) (s : State) (l : Label) : Option State :=
  let seen : SecretsStore := if l.unread then { s.store with file := [] } else s.store
  let loaded : State := ⟨⟨s.store.file, some seen.load⟩, s.last, s.stale && s.store.cache.isSome⟩
  match l.call with
  | .get => some loaded
  | .readFresh => some s
  | .invalidate => some ⟨s.store.invalidate, s.last, false⟩
  | .setMany values =>
    if l.interrupted then some ⟨s.store.invalidate, noted (fun _ => none) values s.last, false⟩
    else some ⟨seen.setMany layout values, noted some values s.last, false⟩
  | .remove ref =>
    let last := update s.last ref none
    if (seen.load.lookup ref).isNone then some { loaded with last := last }
    else if l.interrupted then some ⟨⟨[], none⟩, last, false⟩
    else some ⟨seen.remove layout ref, last, false⟩
  | .writeSecret ref value =>
    if ref = [] then some s
    else if l.interrupted then some ⟨⟨[], none⟩, update s.last ref none, false⟩
    else
      some ⟨seen.writeSecret layout ref value, update s.last ref (some value),
        s.store.cache.isSome⟩

/-- The reads succeed, no write in place is interrupted, and the store is not behind the file
when its map is written. -/
def steady (s : State) (l : Label) : Bool :=
  !l.unread && !(l.interrupted && l.call.inPlace) && !(s.stale && l.call.fromCache)

/-! ## Maps that hold what was written -/

def Tracks (m : SecretsMap) (last : Str → Option Str) : Prop :=
  ∀ ref v, last ref = some v → m.lookup ref = some (.text v)

section Tracks

variable {layout : Str → Str} {m : SecretsMap} {last : Str → Option Str}

lemma Tracks.written (h : Tracks m last) : Tracks (written layout m) last := by
  intro ref v hv
  rw [lookup_written, h ref v hv]
  rfl

lemma Tracks.set (h : Tracks m last) (ref v : Str) :
    Tracks (set ref (.text v) m) (update last ref (some v)) := by
  intro k w hw
  rw [lookup_set]
  by_cases hk : k = ref
  · rw [hk, update_self, Option.some.injEq] at hw
    rw [if_pos hk, hw]
  · rw [update_of_ne hk] at hw
    rw [if_neg hk]
    exact h k w hw

lemma Tracks.forget (h : Tracks m last) (ref : Str) : Tracks m (update last ref none) := by
  intro k w hw
  by_cases hk : k = ref
  · rw [hk, update_self] at hw
    cases hw
  · rw [update_of_ne hk] at hw
    exact h k w hw

lemma Tracks.remove (h : Tracks m last) (ref : Str) :
    Tracks (m.filter fun e => e.1 != ref) (update last ref none) := by
  intro k w hw
  rw [lookup_filter_ne]
  have hold := h.forget ref k w hw
  split
  · rename_i hk
    rw [hk, update_self] at hw
    cases hw
  · exact hold

lemma Tracks.setMany (h : Tracks m last) (values : List (Str × Str)) :
    Tracks (values.foldl (fun m kv => if kv.1 = [] then m else OrderedMap.set kv.1 (.text kv.2) m) m)
      (noted some values last) := by
  induction values generalizing m last with
  | nil => exact h
  | cons kv rest ih =>
    apply ih
    dsimp only
    split
    · exact h
    · exact h.set kv.1 kv.2

lemma Tracks.forgetMany (h : Tracks m last) (values : List (Str × Str)) :
    Tracks m (noted (fun _ => none) values last) := by
  induction values generalizing last with
  | nil => exact h
  | cons kv rest ih =>
    apply ih
    dsimp only
    split
    · exact h
    · exact h.forget kv.1

end Tracks

/-- The file has what was written, and so has the store unless it is behind. -/
structure Sound (s : State) : Prop where
  file : Tracks s.store.file s.last
  load : s.stale = false → Tracks s.store.load s.last

lemma Sound.written {layout : Str → Str} {m : SecretsMap} {last : Str → Option Str}
    (h : Tracks m last) : Sound ⟨⟨S3.written layout m, some m⟩, last, false⟩ :=
  ⟨h.written, fun _ => h⟩

lemma Sound.step {layout : Str → Str} {s t : State} {l : Label} (h : Sound s)
    (hsteady : steady s l = true) (hstep : step layout s l = some t) : Sound t := by
  obtain ⟨call, unread, interrupted⟩ := l
  simp only [steady, Bool.and_eq_true, Bool.not_eq_true', Bool.and_eq_false_iff] at hsteady
  obtain ⟨⟨rfl, hwhole⟩, hcurrent⟩ := hsteady
  have hloaded : (s.stale && s.store.cache.isSome) = false → Tracks s.store.load s.last := by
    intro hstale
    cases hcache : s.store.cache with
    | none =>
      rw [SecretsStore.load, hcache]
      exact h.file
    | some m => exact h.load (by simpa [hcache] using hstale)
  cases call with
  | get =>
    cases hstep
    exact ⟨h.file, hloaded⟩
  | readFresh =>
    cases hstep
    exact h
  | invalidate =>
    cases hstep
    exact ⟨h.file, fun _ => h.file⟩
  | setMany values =>
    have hload := h.load (hcurrent.resolve_right Bool.noConfusion)
    cases interrupted with
    | true =>
      cases hstep
      exact ⟨h.file.forgetMany values, fun _ => h.file.forgetMany values⟩
    | false =>
      cases hstep
      exact Sound.written (hload.setMany values)
  | remove ref =>
    obtain rfl : interrupted = false := hwhole.resolve_right Bool.noConfusion
    have hload := h.load (hcurrent.resolve_right Bool.noConfusion)
    simp only [S3.step, Bool.false_eq_true, if_false] at hstep
    split at hstep
    · cases hstep
      exact ⟨h.file.forget ref, fun _ => hload.forget ref⟩
    rename_i hpresent
    cases hstep
    rw [SecretsStore.remove]
    split
    · rename_i hmissing
      rw [hmissing] at hpresent
      exact absurd rfl hpresent
    · exact Sound.written (hload.remove ref)
  | writeSecret ref value =>
    obtain rfl : interrupted = false := hwhole.resolve_right Bool.noConfusion
    simp only [S3.step, Bool.false_eq_true, if_false] at hstep
    split at hstep
    · cases hstep
      exact h
    rename_i href
    cases hstep
    rw [SecretsStore.writeSecret, if_neg href]
    refine ⟨(h.file.set ref value).written, fun hnone => ?_⟩
    have hcache : s.store.cache = none := by simpa using hnone
    rw [SecretsStore.load, hcache]
    exact (h.file.set ref value).written

/-- A text that is in the file at the beginning counts as written. -/
def State.init (file : SecretsMap) : State where
  store := ⟨file, none⟩
  last := fun ref =>
    match file.lookup ref with
    | some (.text v) => some v
    | _ => none
  stale := false

/-- In a steady run every secret is in the file as it was written last. -/
theorem kept_of_reached {layout : Str → Str} {file : SecretsMap} {s : State}
    (h : Reached (step layout) steady (State.init file) s) (ref v : Str)
    (hlast : s.last ref = some v) : s.store.file.lookup ref = some (.text v) := by
  have hinit : Tracks file (State.init file).last := by
    intro ref v hv
    change (match file.lookup ref with | some (.text v) => some v | _ => none) = some v at hv
    split at hv
    · rename_i w hlookup
      cases hv
      exact hlookup
    · cases hv
  have hstart : Sound (State.init file) := ⟨hinit, fun _ => hinit⟩
  have hsound : Sound s := h.invariant hstart fun _ _ _ hs hguard hstep => hs.step hguard hstep
  exact hsound.file ref v hlast

theorem kept_of_reached_two : ∃ s,
    Reached (step id) steady (State.init [(str "a", .text (str "1"))]) s ∧
      s.last (str "b") = some (str "2") ∧
      s.store.file.lookup (str "b") = some (.text (str "2")) := by
  obtain ⟨s, hs, hlast⟩ := exists_reached (step id) steady
    (State.init [(str "a", .text (str "1"))])
    [⟨.setMany [(str "b", str "2")], false, false⟩, ⟨.remove (str "a"), false, false⟩]
    (fun s => s.last (str "b") = some (str "2")) (by decide)
  have hlast := of_decide_eq_true hlast
  exact ⟨s, hs, hlast, kept_of_reached hs _ _ hlast⟩

/-- A failed read leaves an empty map in the store, and the next secret replaces the file. -/
theorem unread_file_replaced : ∃ s,
    Reached (step id) (fun _ _ => true) (State.init []) s ∧
      (s.last (str "a") = some (str "1") ∧ s.store.file = [(str "b", .text (str "2"))]) := by
  obtain ⟨s, hs, hlost⟩ := exists_reached (step id) (fun _ _ => true) (State.init [])
    [⟨.writeSecret (str "a") (str "1"), false, false⟩, ⟨.get, true, false⟩,
      ⟨.setMany [(str "b", str "2")], false, false⟩]
    (fun s => s.last (str "a") = some (str "1") ∧ s.store.file = [(str "b", .text (str "2"))])
    (by decide)
  exact ⟨s, hs, of_decide_eq_true hlost⟩

end StreamHub.S3
