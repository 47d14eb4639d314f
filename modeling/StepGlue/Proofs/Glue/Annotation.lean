import StepGlue.Glue.Annotation

/-! Where annotations are found.

What a reader leaves is an end of what it was given, so each annotation that is found stands in the
text, between what was seen before its sign and what follows. -/

namespace StepGlue.Annotation

theorem trimStart_suffix (s : List Char) : trimStart s <:+ s := List.dropWhile_suffix isBlank

theorem dropArgumentName_suffix (s : List Char) : dropArgumentName s <:+ s := by
  unfold dropArgumentName
  split
  · split
    · next rest hrest =>
      have hdrop : '=' :: rest <:+ s := by
        rw [← hrest]
        exact (trimStart_suffix _).trans (List.drop_suffix 5 s)
      exact (trimStart_suffix rest).trans ((List.suffix_cons '=' rest).trans hdrop)
    · exact List.suffix_rfl
  · exact List.suffix_rfl

theorem literal?_suffix {s body rest : List Char} (h : literal? s = some (body, rest)) :
    rest <:+ s := by
  fun_induction literal? s generalizing body rest with
  | case1 => cases h
  | case2 r =>
    cases h
    exact List.suffix_cons '"' r
  | case3 => cases h
  | case4 c s hc ih =>
    obtain ⟨⟨b, r⟩, hb, he⟩ := Option.map_eq_some_iff.mp h
    cases he
    exact (ih hb).trans ((List.suffix_cons c s).trans (List.suffix_cons '\\' (c :: s)))
  | case5 => cases h
  | case6 c s _ _ hc ih =>
    obtain ⟨⟨b, r⟩, hb, he⟩ := Option.map_eq_some_iff.mp h
    cases he
    exact (ih hb).trans (List.suffix_cons c s)

theorem annotation?_suffix {s body rest : List Char} {k : Keyword}
    (h : annotation? s = some (k, body, rest)) : rest <:+ s := by
  unfold annotation? at h
  split at h
  · next t hk hs =>
    split at h
    · next u hq =>
      obtain ⟨⟨b, r⟩, hb, he⟩ := Option.map_eq_some_iff.mp h
      cases he
      have hopen : '(' :: t <:+ s := by
        rw [← hs]
        exact (trimStart_suffix _).trans (List.dropWhile_suffix isNameChar)
      have hquote : '"' :: u <:+ t := by
        rw [← hq]
        exact (dropArgumentName_suffix _).trans (trimStart_suffix t)
      exact (literal?_suffix hb).trans ((List.suffix_cons '"' u).trans
        (hquote.trans ((List.suffix_cons '(' t).trans hopen)))
    · cases h
  · cases h

/-- Passing over a character moves it from the text to what was seen. -/
theorem exists_site_cons {seen s : List Char} {c : Char} {a : Site}
    (h : ∃ front rest after, s = front ++ '@' :: rest ∧ a.seen = front.reverse ++ c :: seen ∧
      annotation? rest = some (a.keyword, a.literal, after)) :
    ∃ front rest after, c :: s = front ++ '@' :: rest ∧ a.seen = front.reverse ++ seen ∧
      annotation? rest = some (a.keyword, a.literal, after) := by
  obtain ⟨front, rest, after, rfl, hseen, hfound⟩ := h
  exact ⟨c :: front, rest, after, rfl, by simp [hseen], hfound⟩

/-- Each annotation has its sign in the text, behind what was seen. -/
theorem exists_of_mem_sites {seen s : List Char} {a : Site} (h : a ∈ sites seen s) :
    ∃ front rest after, s = front ++ '@' :: rest ∧ a.seen = front.reverse ++ seen ∧
      annotation? rest = some (a.keyword, a.literal, after) := by
  fun_induction sites seen s with
  | case1 => cases h
  | case2 seen s k body rest hfound ih =>
    rcases List.mem_cons.mp h with rfl | hlater
    · exact ⟨[], s, rest, rfl, rfl, hfound⟩
    · obtain ⟨front, tail, after, hrest, hseen, htail⟩ := ih hlater
      obtain ⟨passed, hpassed⟩ := annotation?_suffix hfound
      have htake : s.take (s.length - rest.length) = passed := by simp [← hpassed]
      refine ⟨'@' :: passed ++ front, tail, after, ?_, ?_, htail⟩
      · rw [← hpassed, hrest]
        simp
      · rw [hseen, htake]
        simp
  | case3 seen s hnone ih => exact exists_site_cons (ih h)
  | case4 seen c s hc ih => exact exists_site_cons (ih h)

end StepGlue.Annotation
