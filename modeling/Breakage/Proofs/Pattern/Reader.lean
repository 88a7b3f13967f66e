import Breakage.Pattern.Reader

/-!
How much of a text the reading of a pattern leaves. No reader leaves more than it was given, and
those of single parts leave less. Main statements: how many steps `readItems` and `readParts` may
take does not matter while they are more than the characters of the text (`readItems_eq`,
`readParts_eq`).
-/

namespace Breakage.Pattern

/-! ### Gaps and escapes -/

theorem length_afterGap_le (inComment : Bool) (s : List Char) :
    (afterGap inComment s).length ≤ s.length := by
  fun_induction afterGap inComment s <;> simp_all <;> omega

theorem length_skip_le (verbose : Bool) (s : List Char) : (skip verbose s).length ≤ s.length := by
  unfold skip
  split
  · exact length_afterGap_le false s
  · exact Nat.le_refl _

theorem length_readHexDigits_le {verbose : Bool} {count n m : Nat} {s rest : List Char}
    (h : readHexDigits verbose count n s = some (m, rest)) : rest.length ≤ s.length := by
  induction count generalizing n s with
  | zero =>
    cases h
    exact Nat.le_refl _
  | succ count ih =>
    rw [readHexDigits] at h
    split at h
    · contradiction
    next c after hskip =>
      obtain ⟨d, -, h⟩ := Option.bind_eq_some_iff.1 h
      have := length_skip_le verbose s
      have := ih h
      simp only [hskip, List.length_cons] at *
      omega

theorem length_readCode_le {verbose : Bool} {digits : Nat} {s rest : List Char} {a : Atom}
    (h : readCode verbose digits s = some (a, rest)) : rest.length ≤ s.length := by
  obtain ⟨⟨n, after⟩, hdigits, h⟩ := Option.bind_eq_some_iff.1 h
  have := length_readHexDigits_le hdigits
  simp only at h
  split at h <;> cases h
  exact this

theorem length_readEscape_lt {verbose : Bool} {s rest : List Char} {a : Atom}
    (h : readEscape verbose s = some (a, rest)) : rest.length < s.length := by
  cases s with
  | nil => contradiction
  | cons c after =>
    have code {digits : Nat} (h : readCode verbose digits after = some (a, rest)) :
        rest.length < (c :: after).length := Nat.lt_succ_of_le (length_readCode_le h)
    rw [readEscape] at h
    repeat' split at h
    all_goals first
      | exact code h
      | obtain ⟨k, -, h⟩ := Option.map_eq_some_iff.1 h
        cases h
        exact Nat.lt_succ_self _
      | cases h
        exact Nat.lt_succ_self _

/-! ### Bracketed classes -/

theorem length_readNamed_lt {s rest : List Char} {set : ClassSet}
    (h : readNamed s = some (set, rest)) : rest.length < s.length := by
  unfold readNamed at h
  split at h
  next s =>
    have name_le : ∀ t : List Char, (t.dropWhile (· != ':')).length ≤ t.length :=
      fun t => (List.dropWhile_sublist _).length_le
    split at h
    next negated t ht =>
      have : t.length ≤ s.length := by
        split at ht <;> cases ht <;> simp
      split at h
      next after heq =>
        have := name_le t
        split at h
        · cases h
          simp [heq] at *
          omega
        · contradiction
      · contradiction
  · contradiction

theorem length_readHyphens_le (verbose inComment : Bool) (count : Nat) (s : List Char) :
    (readHyphens verbose inComment count s).2.length ≤ s.length := by
  fun_induction readHyphens verbose inComment count s <;> simp_all <;> omega

theorem length_readStart_le {verbose negated : Bool} {s rest : List Char} {items : List ClassSet}
    (h : readStart verbose s = some (negated, items, rest)) : rest.length ≤ s.length := by
  have skipped := length_skip_le verbose s
  unfold readStart at h
  split at h
  next n t ht =>
    have : t.length ≤ s.length := by
      split at ht <;> cases ht <;> simp_all <;> omega
    have := length_readHyphens_le verbose false 0 t
    split at h
    · contradiction
    next after heq =>
      have := length_skip_le verbose after
      split at h
      · contradiction
      · cases h
        simp [heq] at *
        omega
    next after heq =>
      cases h
      simp [heq] at *
      omega

theorem length_readMember_lt {verbose : Bool} {s rest : List Char} {a : Atom}
    (h : readMember verbose s = some (a, rest)) : rest.length < s.length := by
  unfold readMember at h
  split at h
  · contradiction
  · have := length_readEscape_lt h
    grind
  · grind

theorem length_readItem_lt {verbose : Bool} {s rest : List Char} {set : ClassSet}
    (h : readItem verbose s = some (set, rest)) : rest.length < s.length := by
  obtain ⟨⟨first, after⟩, hfirst, h⟩ := Option.bind_eq_some_iff.1 h
  have := length_readMember_lt hfirst
  have := length_skip_le verbose
  simp only at h
  split at h
  · contradiction
  next hyphen tail heq =>
    split at h
    · obtain ⟨item, -, h⟩ := Option.bind_eq_some_iff.1 h
      grind
    · obtain ⟨⟨last, more⟩, hlast, h⟩ := Option.bind_eq_some_iff.1 h
      have := length_readMember_lt hlast
      obtain ⟨item, -, h⟩ := Option.bind_eq_some_iff.1 h
      grind
  · obtain ⟨item, -, h⟩ := Option.bind_eq_some_iff.1 h
    grind

theorem length_readItems_le {verbose : Bool} {fuel : Nat} {left : Option ClassSet}
    {items : List ClassSet} {s rest : List Char} {set : ClassSet}
    (h : readItems verbose fuel left items s = some (set, rest)) : rest.length ≤ s.length := by
  induction fuel generalizing left items s set rest with
  | zero => contradiction
  | succ fuel ih =>
    have skipped := length_skip_le verbose s
    rw [readItems] at h
    split at h
    · contradiction
    next after heq =>
      cases h
      simp only [heq, List.length_cons] at skipped
      omega
    next after heq =>
      have := ih h
      simp only [heq, List.length_cons] at skipped
      omega
    next after heq =>
      have := ih h
      simp only [heq, List.length_cons] at skipped
      omega
    next after heq =>
      have := ih h
      simp only [heq, List.length_cons] at skipped
      omega
    next after heq =>
      simp only [heq, List.length_cons] at skipped
      split at h
      next item after' hnamed =>
        have := length_readNamed_lt hnamed
        have := ih h
        omega
      next =>
        obtain ⟨⟨negated, first, after'⟩, hstart, h⟩ := Option.bind_eq_some_iff.1 h
        obtain ⟨⟨inner, after''⟩, hinner, h⟩ := Option.bind_eq_some_iff.1 h
        have := length_readStart_le hstart
        have := ih hinner
        have := ih h
        omega
    next =>
      obtain ⟨⟨item, after⟩, hitem, h⟩ := Option.bind_eq_some_iff.1 h
      have := length_readItem_lt hitem
      have := ih h
      omega

theorem readItems_eq {verbose : Bool} {n m : Nat} (left : Option ClassSet)
    (items : List ClassSet) {s : List Char} (hn : s.length < n) (hm : s.length < m) :
    readItems verbose n left items s = readItems verbose m left items s := by
  induction n generalizing m left items s with
  | zero => contradiction
  | succ n ih =>
    obtain ⟨m, rfl⟩ : ∃ k, m = k + 1 := ⟨m - 1, by omega⟩
    have skipped := length_skip_le verbose s
    simp only [readItems]
    split
    · rfl
    · rfl
    next after heq =>
      simp only [heq, List.length_cons] at skipped
      exact ih _ _ (by omega) (by omega)
    next after heq =>
      simp only [heq, List.length_cons] at skipped
      exact ih _ _ (by omega) (by omega)
    next after heq =>
      simp only [heq, List.length_cons] at skipped
      exact ih _ _ (by omega) (by omega)
    next after heq =>
      simp only [heq, List.length_cons] at skipped
      split
      next item after' hnamed =>
        have := length_readNamed_lt hnamed
        exact ih _ _ (by omega) (by omega)
      next =>
        cases hstart : readStart verbose after with
        | none => rfl
        | some p =>
          obtain ⟨negated, first, after'⟩ := p
          have := length_readStart_le hstart
          simp only [Option.bind_eq_bind, Option.bind_some]
          rw [ih none first (m := m) (by omega) (by omega)]
          cases hinner : readItems verbose m none first after' with
          | none => rfl
          | some q =>
            have := length_readItems_le hinner
            exact ih _ _ (by omega) (by omega)
    next =>
      cases hitem : readItem verbose (skip verbose s) with
      | none => rfl
      | some q =>
        have := length_readItem_lt hitem
        exact ih _ _ (by omega) (by omega)

theorem length_readClass_le {verbose : Bool} {s rest : List Char} {p : Pattern}
    (h : readClass verbose s = some (p, rest)) : rest.length ≤ s.length := by
  obtain ⟨⟨negated, first, after⟩, hstart, h⟩ := Option.bind_eq_some_iff.1 h
  obtain ⟨⟨set, after'⟩, hitems, h⟩ := Option.bind_eq_some_iff.1 h
  cases h
  exact Nat.le_trans (length_readItems_le hitems) (length_readStart_le hstart)

/-! ### Groups -/

theorem length_readSwitches_lt {on afterHyphen colon : Bool} {switches result : List Switch}
    {s rest : List Char} (h : readSwitches on afterHyphen switches s = some (result, colon, rest)) :
    rest.length < s.length := by
  fun_induction readSwitches on afterHyphen switches s <;> grind

theorem length_readName_le {c c' : Cursor} {s : List Char} {o : Opening}
    (h : readName c s = some (o, c')) : c'.rest.length ≤ s.length := by
  simp only [readName] at h
  split at h
  next after heq =>
    have : (s.drop (s.takeWhile (· != '>')).length).length ≤ s.length :=
      (List.drop_sublist _ _).length_le
    split at h
    · cases h
      simp [heq] at *
      omega
    · contradiction
  · contradiction

theorem length_readOpening_le {c c' : Cursor} {o : Opening}
    (h : readOpening c = some (o, c')) : c'.rest.length ≤ c.rest.length := by
  have skipped := length_skip_le c.verbose c.rest
  unfold readOpening at h
  split at h
  · contradiction
  · contradiction
  next s heq =>
    have := length_readName_le h
    simp only [heq, List.length_cons] at skipped
    omega
  next s _ _ heq =>
    have := length_readName_le h
    simp only [heq, List.length_cons] at skipped
    omega
  next s _ _ _ _ heq =>
    simp only [heq, List.length_cons] at skipped
    split at h
    · contradiction
    next hs => 
      cases h
      have := length_readSwitches_lt hs
      simp; omega
    · contradiction
    next hs => 
      cases h
      have := length_readSwitches_lt hs
      simp; omega
  · cases h
    exact skipped

/-! ### Whole patterns -/

theorem length_readAtom_lt {verbose : Bool} {s rest : List Char} {p : Pattern}
    (h : readAtom verbose s = some (p, rest)) : rest.length < s.length := by
  unfold readAtom at h
  split at h
  · contradiction
  · cases h; simp
  · cases h; simp
  · cases h; simp
  · exact Nat.lt_succ_of_le (length_readClass_le h)
  · obtain ⟨⟨a, after⟩, hescape, h⟩ := Option.map_eq_some_iff.1 h
    cases h
    exact Nat.lt_succ_of_lt (length_readEscape_lt hescape)
  · contradiction
  · cases h; simp

theorem length_withoutMark_le (s : List Char) : (withoutMark s).length ≤ s.length := by
  unfold withoutMark
  split <;> simp

theorem length_readParts_le {fuel : Nat} {branches parts : List Pattern} {c c' : Cursor}
    {p : Pattern} (h : readParts fuel branches parts c = some (p, c')) :
    c'.rest.length ≤ c.rest.length := by
  induction fuel generalizing branches parts c p c' with
  | zero => contradiction
  | succ fuel ih =>
    have skipped := length_skip_le c.verbose c.rest
    simp only [readParts] at h
    split at h
    · cases h
      simp
    next after heq =>
      cases h
      simpa [heq] using skipped
    next after heq =>
      have := ih h
      simp [heq] at *
      omega
    next after heq =>
      obtain ⟨⟨opening, next⟩, hopening, h⟩ := Option.bind_eq_some_iff.1 h
      have := length_readOpening_le hopening
      simp only [heq, List.length_cons] at skipped this
      cases opening with
      | switches switches =>
        have := ih h
        simp only at this
        omega
      | group switches =>
        obtain ⟨⟨body, inner⟩, hbody, h⟩ := Option.bind_eq_some_iff.1 h
        have := ih hbody
        simp only at this h
        split at h
        next after' heq' =>
          have := ih h
          simp only [heq', List.length_cons] at *
          omega
        · contradiction
    next first after _ _ _ heq =>
      simp only [heq, List.length_cons] at skipped
      split at h
      · obtain ⟨parts', -, h⟩ := Option.bind_eq_some_iff.1 h
        have := ih h
        have := length_withoutMark_le after
        simp only at *
        omega
      · obtain ⟨⟨part, after'⟩, hatom, h⟩ := Option.bind_eq_some_iff.1 h
        have := length_readAtom_lt hatom
        have := ih h
        simp only [List.length_cons] at *
        omega

theorem readParts_eq {n m : Nat} (branches parts : List Pattern) {c : Cursor}
    (hn : c.rest.length < n) (hm : c.rest.length < m) :
    readParts n branches parts c = readParts m branches parts c := by
  induction n generalizing m branches parts c with
  | zero => contradiction
  | succ n ih =>
    obtain ⟨m, rfl⟩ : ∃ k, m = k + 1 := ⟨m - 1, by omega⟩
    have skipped := length_skip_le c.verbose c.rest
    have again {branches parts : List Pattern} {c' : Cursor}
        (shorter : c'.rest.length < c.rest.length) :
        readParts n branches parts c' = readParts m branches parts c' :=
      ih branches parts (by omega) (by omega)
    simp only [readParts]
    split
    · rfl
    · rfl
    next after heq =>
      simp only [heq, List.length_cons] at skipped
      exact again skipped
    next after heq =>
      simp only [heq, List.length_cons] at skipped
      cases hopening : readOpening { c with rest := after } with
      | none => rfl
      | some p =>
        obtain ⟨opening, next⟩ := p
        have left := length_readOpening_le hopening
        simp only at left
        cases opening with
        | switches switches => exact again (Nat.lt_of_le_of_lt left skipped)
        | group switches =>
          -- the inside of the group, and then what follows its end
          let start := { next with verbose := (setting switches .verbose).getD c.verbose }
          have inside : readParts n [] [] start = readParts m [] [] start :=
            again (Nat.lt_of_le_of_lt left skipped)
          simp only [Option.bind_eq_bind, Option.bind_some]
          rw [inside]
          cases hbody : readParts m [] [] start with
          | none => rfl
          | some q =>
            have body := length_readParts_le hbody
            simp only [Option.bind_some, start] at body ⊢
            split
            next after' heq' =>
              simp only [heq', List.length_cons] at body
              exact again (by simp only; omega)
            · rfl
    next first after _ _ _ heq =>
      simp only [heq, List.length_cons] at skipped
      split
      · cases repeatLast parts with
        | none => rfl
        | some parts' =>
          exact again (Nat.lt_of_le_of_lt (length_withoutMark_le after) skipped)
      · cases hatom : readAtom c.verbose (first :: after) with
        | none => rfl
        | some q =>
          have left := length_readAtom_lt hatom
          exact again (Nat.lt_of_lt_of_le left skipped)

end Breakage.Pattern
