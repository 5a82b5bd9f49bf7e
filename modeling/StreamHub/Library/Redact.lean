import StreamHub.Library.Text

/-!
# Taking texts out of a text

`replaceAll` cuts a text at the occurrences of a needle and puts a marker between the
pieces (`replaceAll_eq_join`).  A text that does not overlap the marker occurs behind
that in a piece or not at all (`Apart.of_join`), so the needle is gone, and nothing
that was not there comes in.
-/

namespace StreamHub.Library.Text

open List

/-- No occurrence of a text can share a byte with one of a marker. -/
structure Apart (n marker : Str) : Prop where
  /-- no end of the text begins the marker -/
  ends : ∀ y, y ≠ [] → y <:+ n → ¬y <+: marker
  /-- no beginning of the text ends the marker -/
  begins : ∀ y, y ≠ [] → y <+: n → ¬y <:+ marker
  around : ¬marker <:+: n
  inside : ¬n <:+: marker

lemma Apart.of_disjoint {n marker : Str} (hn : n ≠ []) (hmarker : marker ≠ [])
    (h : ∀ b ∈ n, b ∉ marker) : Apart n marker := by
  have hshare : ∀ y : Str, y ≠ [] → y ⊆ n → ¬y ⊆ marker := by
    intro y hy hyn hym
    obtain ⟨b, hb⟩ := exists_mem_of_ne_nil y hy
    exact h b (hyn hb) (hym hb)
  exact ⟨fun y hy hyn hym => hshare y hy hyn.subset hym.subset,
    fun y hy hyn hym => hshare y hy hyn.subset hym.subset,
    fun hm => hshare marker hmarker hm.subset (Subset.refl _),
    fun hm => hshare n hn (Subset.refl _) hm.subset⟩

/-- An occurrence around a marker lies on one side of it. -/
lemma Apart.of_append {n marker a c : Str} (h : Apart n marker)
    (hn : n <:+: a ++ (marker ++ c)) : n <:+: a ∨ n <:+: c := by
  obtain ⟨x, y, heq⟩ := hn
  rw [append_assoc] at heq
  rcases append_eq_append_iff.mp heq with ⟨a', rfl, hfrom⟩ | ⟨c', rfl, hfrom⟩
  · rcases append_eq_append_iff.mp hfrom with ⟨a'', rfl, -⟩ | ⟨tail, rfl, hbehind⟩
    · exact .inl ⟨x, a'', by simp⟩
    rcases append_eq_append_iff.mp hbehind with ⟨e, rfl, -⟩ | ⟨e, rfl, -⟩
    · exact absurd ⟨a', e, by simp⟩ h.around
    by_cases htail : tail = []
    · rw [htail, append_nil]
      exact .inl (suffix_append x a').isInfix
    · exact absurd (prefix_append tail e) (h.ends tail htail (suffix_append a' tail))
  · rcases append_eq_append_iff.mp hfrom with ⟨e, rfl, hc⟩ | ⟨e, rfl, hbehind⟩
    · exact .inr ⟨e, y, by rw [hc, append_assoc]⟩
    rcases append_eq_append_iff.mp hbehind with ⟨f, rfl, -⟩ | ⟨f, rfl, rfl⟩
    · exact absurd ⟨c', f, by simp⟩ h.inside
    by_cases he : e = []
    · rw [he]
      exact .inr (prefix_append f y).isInfix
    · exact absurd (suffix_append c' e) (h.begins e he (prefix_append e f))

lemma Apart.of_join {n marker : Str} (h : Apart n marker) {pieces : List Str}
    (hpieces : pieces ≠ []) (hn : n <:+: join pieces marker) : ∃ p ∈ pieces, n <:+: p := by
  induction pieces with
  | nil => exact absurd rfl hpieces
  | cons first rest ih =>
    cases rest with
    | nil => exact ⟨first, mem_cons_self, by simpa [join] using hn⟩
    | cons second rest =>
      rcases h.of_append hn with hfirst | hrest
      · exact ⟨first, mem_cons_self, hfirst⟩
      obtain ⟨p, hp, hnp⟩ := ih (by simp) hrest
      exact ⟨p, mem_cons_of_mem _ hp, hnp⟩

/-! ## The pieces -/

lemma replaceFrom_eq_drop (old new : Str) (skip : ℕ) (s : Str) :
    replaceFrom old new skip s = replaceAll (s.drop skip) old new := by
  induction skip generalizing s with
  | zero => rfl
  | succ skip ih =>
    cases s with
    | nil => rfl
    | cons c s => rw [replaceFrom, ih, drop_succ_cons]

lemma replaceAll_append {old : Str} (hold : old ≠ []) (new s : Str) :
    replaceAll (old ++ s) old new = new ++ replaceAll s old new := by
  obtain ⟨c, old', rfl⟩ := exists_cons_of_ne_nil hold
  rw [cons_append, replaceAll, replaceFrom, replaceFrom_eq_drop]
  simp

lemma replaceAll_cons {old : Str} {c : UInt8} {s : Str} (hnot : ¬old <+: c :: s) (new : Str) :
    replaceAll (c :: s) old new = c :: replaceAll s old new := by
  rw [replaceAll, replaceFrom, if_neg]
  · rfl
  · rwa [List.isPrefixOf_iff_prefix]

/-- The text cut at the occurrences of `old`, from the left. -/
lemma replaceAll_eq_join {old : Str} (hold : old ≠ []) (s : Str) :
    ∃ first rest, (∀ new, replaceAll s old new = join (first :: rest) new) ∧ first <+: s ∧
      ∀ p ∈ first :: rest, p <:+: s ∧ ¬old <:+: p := by
  induction hlength : s.length using Nat.strong_induction_on generalizing s with
  | _ length ih =>
    have hnil : ¬old <:+: [] := fun h => hold (eq_nil_of_infix_nil h)
    cases s with
    | nil =>
      refine ⟨[], [], fun _ => rfl, prefix_refl _, ?_⟩
      simpa using hnil
    | cons c s =>
      by_cases hbefore : old <+: c :: s
      · obtain ⟨s', hs'⟩ := hbefore
        have hshorter : s'.length < length := by
          have hlen := congrArg List.length hs'
          rw [length_append] at hlen
          have hpos := length_pos_of_ne_nil hold
          omega
        obtain ⟨first, rest, hjoin, -, hpieces⟩ := ih _ hshorter s' rfl
        refine ⟨[], first :: rest, fun new => ?_, nil_prefix, ?_⟩
        · rw [← hs', replaceAll_append hold, hjoin, join_cons_cons, nil_append]
        · refine forall_mem_cons.mpr ⟨⟨List.nil_infix, hnil⟩, fun p hp => ?_⟩
          obtain ⟨hwithin, hnot⟩ := hpieces p hp
          refine ⟨?_, hnot⟩
          rw [← hs']
          exact hwithin.trans (suffix_append old s').isInfix
      · obtain ⟨first, rest, hjoin, hfirst, hpieces⟩ := ih s.length (by simp [← hlength]) s rfl
        obtain ⟨hhead, hrest⟩ := forall_mem_cons.mp hpieces
        have hfirst' : c :: first <+: c :: s := cons_prefix_cons.mpr ⟨rfl, hfirst⟩
        refine ⟨c :: first, rest, fun new => ?_, hfirst', ?_⟩
        · rw [replaceAll_cons hbefore, hjoin]
          cases rest with
          | nil => simp [join]
          | cons second rest => simp [join_cons_cons]
        · refine forall_mem_cons.mpr ⟨⟨hfirst'.isInfix, fun hold' => ?_⟩, fun p hp => ?_⟩
          · rcases infix_cons_iff.mp hold' with hp | hi
            · exact hbefore (hp.trans hfirst')
            · exact hhead.2 hi
          · exact ⟨(hrest p hp).1.trans (suffix_cons c s).isInfix, (hrest p hp).2⟩

/-! ## What is gone stays gone -/

section Gone

variable {n old marker s : Str}

/-- What is in the result was there between two occurrences of `old`. -/
lemma infix_of_infix_replaceAll (hold : old ≠ []) (h : Apart n marker)
    (hn : n <:+: replaceAll s old marker) : n <:+: s ∧ n ≠ old := by
  obtain ⟨first, rest, hjoin, -, hpieces⟩ := replaceAll_eq_join hold s
  rw [hjoin] at hn
  obtain ⟨p, hp, hnp⟩ := h.of_join (by simp) hn
  refine ⟨hnp.trans (hpieces p hp).1, ?_⟩
  rintro rfl
  exact (hpieces p hp).2 hnp

lemma not_infix_foldl_replaceAll (h : Apart n marker) {needles : List Str}
    (hneedles : ∀ m ∈ needles, m ≠ []) (hn : n ∈ needles ∨ ¬n <:+: s) :
    ¬n <:+: needles.foldl (fun s needle => replaceAll s needle marker) s := by
  induction needles generalizing s with
  | nil => exact hn.resolve_left (by simp)
  | cons m rest ih =>
    obtain ⟨hm, hrest⟩ := forall_mem_cons.mp hneedles
    refine ih hrest (or_iff_not_imp_right.mpr fun hin => ?_)
    obtain ⟨hs, hne⟩ := infix_of_infix_replaceAll hm h (not_not.mp hin)
    exact (mem_cons.mp (hn.resolve_right (not_not.mpr hs))).resolve_left hne

end Gone

end StreamHub.Library.Text
