import StreamHub.Library.Text

/-!
# Lines from the end of a text

`readBack` reads a text backwards in chunks and gives out its last lines, with the
part of a line that a chunk begins in carried to the chunk before.  Whatever the size
of the chunks, it gives out the last lines of the text (`tailText_eq_lastLines`).

A line may be skipped; `f` says what is given out for a line.
-/

namespace StreamHub.Library.LineTail

open Text List

variable {β : Type} {sep : UInt8} {f : Str → Option β}

/-- What `f` gives for the last lines, the last one first. -/
def lastLines (sep : UInt8) (f : Str → Option β) (n : ℕ) (s : Str) : List β :=
  ((split sep s).reverse.filterMap f).take n

/-- Give out lines from the end of a buffer; left are the lines still wanted and the
part before them. -/
def drain (sep : UInt8) (f : Str → Option β) :
    ℕ → ℕ → Str → List β → List β × ℕ × Str
  | 0, n, buf, out => (out, n, buf)
  | _ + 1, 0, buf, out => (out, 0, buf)
  | fuel + 1, n + 1, buf, out =>
    match cutLast sep buf with
    | none => (out, n + 1, buf)
    | some (before, line) =>
      match f line with
      | some x => drain sep f fuel n before (out ++ [x])
      | none => drain sep f fuel (n + 1) before out

/-- The chunks of a text from offset `off` back, with the rest of the last one. -/
def readBack (sep : UInt8) (f : Str → Option β) (chunk : ℕ) (content : Str) :
    ℕ → ℕ → ℕ → Str → List β → List β × ℕ × Str
  | 0, _, n, rest, out => (out, n, rest)
  | fuel + 1, off, n, rest, out =>
    if off = 0 ∨ n = 0 then (out, n, rest)
    else
      let start := off - min chunk off
      let buf := (content.drop start).take (off - start) ++ rest
      let (out, n, rest) := drain sep f (buf.length + 1) n buf out
      readBack sep f chunk content fuel start n rest out

/-- The whole reading; the first line has no separator before it. -/
def tailText (sep : UInt8) (f : Str → Option β) (chunk n : ℕ) (content : Str) : List β :=
  let (out, n, rest) := readBack sep f chunk content content.length content.length n [] []
  if n = 0 then out else out ++ (f rest).toList

/-! ## Lines -/

lemma lastLines_zero (s : Str) : lastLines sep f 0 s = [] := take_zero

lemma lastLines_append (before : Str) {line : Str} (h : sep ∉ line) (n : ℕ) :
    lastLines sep f (n + 1) (before ++ [sep] ++ line) =
      match f line with
      | some x => x :: lastLines sep f n before
      | none => lastLines sep f (n + 1) before := by
  rw [lastLines, split_append_line before h, reverse_append, reverse_singleton,
    singleton_append, filterMap_cons]
  cases f line with
  | none => rfl
  | some x => rfl

lemma lastLines_of_notMem {s : Str} (h : sep ∉ s) {n : ℕ} (hn : n ≠ 0) :
    lastLines sep f n s = (f s).toList := by
  obtain ⟨m, rfl⟩ := Nat.exists_eq_succ_of_ne_zero hn
  rw [lastLines, split_of_notMem h]
  cases hs : f s with
  | none | some x => simp [hs]

/-! ## Reading -/

/-- What a buffer gives out, and what it leaves: with any text before it, the last
lines are those given out and the last ones of what is left. -/
lemma drain_lastLines (sep : UInt8) (f : Str → Option β) {fuel : ℕ} (n : ℕ) (buf : Str)
    (out : List β) (hfuel : buf.length < fuel) :
    ∃ given n' rest, drain sep f fuel n buf out = (out ++ given, n', rest) ∧
      (n' ≠ 0 → sep ∉ rest) ∧
      ∀ before, lastLines sep f n (before ++ buf) = given ++ lastLines sep f n' (before ++ rest) := by
  induction fuel generalizing n buf out with
  | zero => omega
  | succ fuel ih =>
    cases n with
    | zero => exact ⟨[], 0, buf, by rw [drain, append_nil], by simp, fun _ => rfl⟩
    | succ n =>
      rw [drain]
      cases hcut : cutLast sep buf with
      | none =>
        exact ⟨[], n + 1, buf, by rw [append_nil],
          fun _ => notMem_of_cutLast_none hcut, fun _ => rfl⟩
      | some cutting =>
        obtain ⟨first, line⟩ := cutting
        have hbuf := cutLast_some hcut
        have hline := notMem_of_cutLast hcut
        have hshorter : first.length < fuel := by
          rw [hbuf] at hfuel
          simp only [length_append, length_singleton] at hfuel
          omega
        have hlines : ∀ before, lastLines sep f (n + 1) (before ++ buf) =
            match f line with
            | some x => x :: lastLines sep f n (before ++ first)
            | none => lastLines sep f (n + 1) (before ++ first) := by
          intro before
          rw [← lastLines_append (before ++ first) hline n, hbuf]
          simp only [append_assoc]
        dsimp only
        cases hf : f line with
        | some x =>
          obtain ⟨given, n', rest, hdrain, hrest, hgiven⟩ := ih n first (out ++ [x]) hshorter
          refine ⟨x :: given, n', rest, ?_, hrest, fun before => ?_⟩
          · dsimp only
            rw [hdrain, append_assoc, singleton_append]
          · rw [hlines, hf, hgiven, cons_append]
        | none =>
          obtain ⟨given, n', rest, hdrain, hrest, hgiven⟩ := ih (n + 1) first out hshorter
          refine ⟨given, n', rest, hdrain, hrest, fun before => ?_⟩
          rw [hlines, hf, hgiven]

lemma readBack_lastLines (sep : UInt8) (f : Str → Option β) {chunk : ℕ} (hchunk : 0 < chunk)
    (content : Str) {fuel off : ℕ} (n : ℕ) (rest : Str) (out : List β) (hfuel : off ≤ fuel)
    (hrest : n ≠ 0 → sep ∉ rest) :
    ∃ given n' rest', readBack sep f chunk content fuel off n rest out = (out ++ given, n', rest') ∧
      (n' ≠ 0 → sep ∉ rest') ∧
      lastLines sep f n (content.take off ++ rest) = given ++ lastLines sep f n' rest' := by
  induction fuel generalizing off n rest out with
  | zero =>
    obtain rfl : off = 0 := by omega
    exact ⟨[], n, rest, by rw [readBack, append_nil], hrest, by simp⟩
  | succ fuel ih =>
    rw [readBack]
    split
    · rename_i hstop
      refine ⟨[], n, rest, by rw [append_nil], hrest, ?_⟩
      rcases hstop with rfl | rfl
      · simp
      · rw [lastLines_zero, lastLines_zero, append_nil]
    · rename_i hgo
      have hstart : off - min chunk off < off := by omega
      have hbytes : content.take off = content.take (off - min chunk off) ++
          (content.drop (off - min chunk off)).take (off - (off - min chunk off)) := by
        rw [← take_append_drop (off - min chunk off) (content.take off), take_take,
          drop_take, Nat.min_eq_left hstart.le]
      dsimp only
      obtain ⟨given, n', rest', hdrain, hrest', hgiven⟩ := drain_lastLines sep f n
        ((content.drop (off - min chunk off)).take (off - (off - min chunk off)) ++ rest) out
        (Nat.lt_succ_self _)
      rw [hdrain]
      obtain ⟨given', n'', rest'', hread, hrest'', hgiven'⟩ := ih n' rest' (out ++ given)
        (Nat.le_of_lt_succ (lt_of_lt_of_le hstart hfuel)) hrest'
      refine ⟨given ++ given', n'', rest'', by rw [hread, append_assoc], hrest'', ?_⟩
      rw [hbytes, append_assoc, hgiven, hgiven', append_assoc]

lemma tailText_eq_lastLines {chunk : ℕ} (hchunk : 0 < chunk) (n : ℕ) (content : Str) :
    tailText sep f chunk n content = lastLines sep f n content := by
  obtain ⟨given, n', rest, hread, hrest, hlines⟩ := readBack_lastLines sep f hchunk
    content n [] [] (le_refl content.length) (by simp)
  rw [take_length, append_nil] at hlines
  rw [tailText, hread, hlines]
  dsimp only
  split
  · rename_i hzero
    rw [hzero, lastLines_zero, append_nil, nil_append]
  · rename_i hne
    rw [lastLines_of_notMem (hrest hne) hne, nil_append]

end StreamHub.Library.LineTail
