import StreamHub.Scte35.Injector

/-!
# The clocks of the injector

A PTS counts 90 kHz ticks modulo `2 ^ 33`.  Over unwrapped times the last PTS is the newest one
as long as the stream steps back by ten seconds at most (`onPTS_newest`).
-/

namespace StreamHub.Scte35.Injector

open List

/-- A time as it is sent. -/
def wrap33 (u : ℤ) : ℕ := (u % 2 ^ 33).toNat

lemma sub33_wrap33 (u m : ℤ) : sub33 (wrap33 u) (wrap33 m) = wrap33 (u - m) := by
  unfold sub33 wrap33
  omega

variable {i : Injector}

lemma onPTS_of_havePTS (hhave : i.havePTS = true) (v : ℕ) :
    i.onPTS v = if sub33 v i.lastPTS < 2 ^ 32 ∨ 2 ^ 33 - sub33 v i.lastPTS > 10 * 90000 then
      { i with lastPTS := v } else i := by
  exact if_neg (by simp [hhave])

lemma onPTS_wrap33 {m u : ℤ} (hhave : i.havePTS = true) (hlast : i.lastPTS = wrap33 m)
    (hback : m - 900000 ≤ u) (hahead : u < m + 2 ^ 32) :
    (i.onPTS (wrap33 u)).havePTS = true ∧ (i.onPTS (wrap33 u)).lastPTS = wrap33 (max m u) := by
  have hd : wrap33 (u - m) < 2 ^ 32 ∨ 2 ^ 33 - wrap33 (u - m) > 10 * 90000 ↔ m ≤ u := by
    unfold wrap33
    omega
  rw [onPTS_of_havePTS hhave, hlast, sub33_wrap33]
  split
  · rw [max_eq_right (hd.mp ‹_›)]
    exact ⟨hhave, rfl⟩
  · rw [max_eq_left (not_le.mp (mt hd.mpr ‹_›)).le]
    exact ⟨hhave, hlast⟩

/-- Times that never fall more than ten seconds behind the newest one leave the newest one, and
one further behind, by half of the range at most, replaces it. -/
theorem onPTS_newest :
    (∀ (i : Injector) (u : ℤ) (us : List ℤ), i.havePTS = false →
      (∀ k v, us[k]? = some v → (us.take k).foldl max u - 900000 ≤ v ∧
        v < (us.take k).foldl max u + 2 ^ 32) →
      ∀ k, (((u :: us.take k).map wrap33).foldl onPTS i).lastPTS =
        wrap33 ((us.take k).foldl max u)) ∧
    ∀ (i : Injector) (v : ℕ), i.havePTS = true → i.lastPTS < 2 ^ 33 → v < 2 ^ 33 →
      900000 < sub33 i.lastPTS v → sub33 i.lastPTS v ≤ 2 ^ 32 → (i.onPTS v).lastPTS = v := by
  refine ⟨fun i u us hhave hus => ?_, fun i v hhave hlast hv hmore hmost => ?_⟩
  · -- the invariant: a time was seen, and the last one is the newest
    have hinv : ∀ k, (((u :: us.take k).map wrap33).foldl onPTS i).havePTS = true ∧
        (((u :: us.take k).map wrap33).foldl onPTS i).lastPTS =
          wrap33 ((us.take k).foldl max u) := by
      intro k
      induction k with
      | zero =>
        have hfirst : i.onPTS (wrap33 u) = { i with lastPTS := wrap33 u, havePTS := true } := by
          exact if_pos hhave
        rw [take_zero, map_singleton, foldl_cons, hfirst]
        exact ⟨rfl, rfl⟩
      | succ k ih =>
        rw [take_add_one]
        cases hv : us[k]? with
        | none => rwa [Option.toList_none, append_nil]
        | some v =>
          obtain ⟨hback, hahead⟩ := hus k v hv
          rw [Option.toList_some, ← cons_append, map_append, foldl_append, foldl_append]
          exact onPTS_wrap33 ih.1 ih.2 hback hahead
    exact fun k => (hinv k).2
  · have hd : sub33 v i.lastPTS < 2 ^ 32 ∨ 2 ^ 33 - sub33 v i.lastPTS > 10 * 90000 := by
      unfold sub33 at *
      omega
    rw [onPTS_of_havePTS hhave, if_pos hd]

end StreamHub.Scte35.Injector
