import Mathlib.Data.List.Induction
import StepGlue.Regex.Lower

/-! What a union of sets of characters contains.

The tables give ranges that ascend, a merge of two such lists ascends too, and ranges that ascend
can be joined in one pass without a loss. So which characters words are made of is known from the
tables, one by one. -/

namespace StepGlue.Regex

namespace CharClass

/-- The starts of the ranges ascend. -/
def Ascending (s : CharClass) : Prop := s.Pairwise fun r q => r.1 ≤ q.1

theorem contains_iff {s : CharClass} {c : Char} :
    s.contains c = true ↔ ∃ r ∈ s, r.1 ≤ c.toNat ∧ c.toNat ≤ r.2 := by
  simp [contains]

theorem contains_cons_iff {r : Nat × Nat} {s : CharClass} {c : Char} :
    contains (r :: s) c = true ↔ (r.1 ≤ c.toNat ∧ c.toNat ≤ r.2) ∨ s.contains c = true := by
  simp [contains]

theorem Ascending.le_of_head {s : CharClass} (h : s.Ascending) {m : Nat}
    (hm : ∀ r ∈ s.head?, m ≤ r.1) : ∀ r ∈ s, m ≤ r.1 := by
  intro r hr
  cases s with
  | nil => cases hr
  | cons q s =>
    have hq : m ≤ q.1 := hm q rfl
    rcases List.mem_cons.mp hr with rfl | hr
    · exact hq
    · exact Nat.le_trans hq ((List.pairwise_cons.mp h).1 r hr)

/-- The ranges from some place on do not matter for the characters below them. -/
theorem Ascending.contains_take {s : CharClass} (h : s.Ascending) {n m : Nat}
    (hm : ∀ r ∈ (s.drop n).head?, m ≤ r.1) {c : Char} (hc : c.toNat < m) :
    s.contains c = true ↔ contains (s.take n) c = true := by
  have hdrop : Ascending (s.drop n) := List.Pairwise.sublist (List.drop_sublist n s) h
  simp only [contains_iff]
  constructor
  · rintro ⟨r, hr, hle, hge⟩
    rw [← List.take_append_drop n s] at hr
    rcases List.mem_append.mp hr with hr | hr
    · exact ⟨r, hr, hle, hge⟩
    · have hlate : m ≤ r.1 := hdrop.le_of_head hm r hr
      omega
  · rintro ⟨r, hr, hrange⟩
    exact ⟨r, List.mem_of_mem_take hr, hrange⟩

/-! ### Unions -/

theorem interleave_eq_merge (a b : CharClass) :
    interleave a b = a.merge b fun r q => r.1 ≤ q.1 := by
  fun_induction interleave a b with
  | case1 b => simp
  | case2 a _ => simp
  | case3 r a q b hle ih => simp [hle, ih]
  | case4 r a q b hlt ih => simp [hlt, ih]

theorem Ascending.interleave {a b : CharClass} (ha : a.Ascending) (hb : b.Ascending) :
    Ascending (interleave a b) := by
  let le (r q : Nat × Nat) : Bool := r.1 ≤ q.1
  have htrans : ∀ r q s, le r q = true → le q s = true → le r s = true := by
    intro r q s hrq hqs
    simp only [le, decide_eq_true_eq] at hrq hqs ⊢
    exact Nat.le_trans hrq hqs
  have htotal : ∀ r q, (le r q || le q r) = true := by
    intro r q
    simpa [le] using Nat.le_total r.1 q.1
  have hmerge := List.pairwise_merge htrans htotal a b (by simpa [le, Ascending] using ha)
    (by simpa [le, Ascending] using hb)
  rw [interleave_eq_merge]
  simpa [le, Ascending] using hmerge

theorem contains_interleave {a b : CharClass} {c : Char} :
    contains (interleave a b) c = true ↔ a.contains c = true ∨ b.contains c = true := by
  simp only [contains_iff, interleave_eq_merge, List.mem_merge, or_and_right, exists_or]

/-- One pass keeps the order and the characters. -/
theorem joinFrom_spec {r : Nat × Nat} {qs : List (Nat × Nat)} (h : Ascending (r :: qs)) :
    Ascending (joinFrom r qs) ∧ (∀ x ∈ joinFrom r qs, r.1 ≤ x.1) ∧
      ∀ c, contains (joinFrom r qs) c = true ↔ contains (r :: qs) c = true := by
  fun_induction joinFrom r qs with
  | case1 r => exact ⟨List.pairwise_singleton _ _, by simp, fun _ => Iff.rfl⟩
  | case2 r q qs hnear ih =>
    obtain ⟨hr, hq⟩ := List.pairwise_cons.mp h
    have hstart : r.1 ≤ q.1 := hr q List.mem_cons_self
    obtain ⟨hasc, hle, hchars⟩ := ih (List.pairwise_cons.mpr
      ⟨fun x hx => hr x (List.mem_cons_of_mem q hx), (List.pairwise_cons.mp hq).2⟩)
    refine ⟨hasc, hle, fun c => (hchars c).trans ?_⟩
    simp only [contains_cons_iff]
    grind
  | case3 r q qs hfar ih =>
    obtain ⟨hr, hq⟩ := List.pairwise_cons.mp h
    have hstart : r.1 ≤ q.1 := hr q List.mem_cons_self
    obtain ⟨hasc, hle, hchars⟩ := ih hq
    refine ⟨List.pairwise_cons.mpr ⟨fun x hx => Nat.le_trans hstart (hle x hx), hasc⟩, ?_, fun c => ?_⟩
    · intro x hx
      rcases List.mem_cons.mp hx with rfl | hx
      · exact Nat.le_refl _
      · exact Nat.le_trans hstart (hle x hx)
    · rw [contains_cons_iff, hchars, ← contains_cons_iff]

theorem Ascending.union {a b : CharClass} (ha : a.Ascending) (hb : b.Ascending) :
    (a.union b).Ascending := by
  have h := ha.interleave hb
  unfold CharClass.union
  cases hcut : CharClass.interleave a b with
  | nil => exact List.Pairwise.nil
  | cons r rs => exact (joinFrom_spec (hcut ▸ h)).1

theorem contains_union {a b : CharClass} (ha : a.Ascending) (hb : b.Ascending) {c : Char} :
    (a.union b).contains c = true ↔ a.contains c = true ∨ b.contains c = true := by
  have h := ha.interleave hb
  rw [← contains_interleave]
  unfold CharClass.union
  cases hcut : CharClass.interleave a b with
  | nil => rfl
  | cons r rs => exact (joinFrom_spec (hcut ▸ h)).2.2 c

end CharClass

/-! ### Tables -/

theorem decodePairs_ascending (start : Nat) (words : List (List Char)) :
    (decodePairs start words).Ascending ∧ ∀ r ∈ decodePairs start words, start ≤ r.1 := by
  fun_induction decodePairs start words with
  | case1 start gap more rest value lo hi ih =>
    obtain ⟨hasc, hle⟩ := ih
    have hlo : start ≤ lo := Nat.le_add_right _ _
    have hhi : lo ≤ hi := Nat.le_add_right _ _
    have hlater : ∀ r ∈ decodePairs (hi + 1) rest, lo ≤ r.1 := fun r hr => by
      have := hle r hr
      omega
    refine ⟨List.pairwise_cons.mpr ⟨hlater, hasc⟩, fun r hr => ?_⟩
    rcases List.mem_cons.mp hr with rfl | hr
    · exact hlo
    · exact Nat.le_trans hlo (hlater r hr)
  | case2 => exact ⟨List.Pairwise.nil, List.forall_mem_nil _⟩

theorem decodeRanges_ascending (lines : List String) : (decodeRanges lines).Ascending :=
  (decodePairs_ascending 0 _).1

/-- A table is evaluated with its first line cut into characters. -/
theorem decodeRanges_ofList (s : List Char) (lines : List String) :
    decodeRanges (String.ofList s :: lines) =
      decodePairs 0 (spacedWords s ++ lines.flatMap fun line => spacedWords line.toList) := by
  simp [decodeRanges]

namespace Category

theorem ranges_ascending (k : Category) : k.ranges.Ascending := by
  cases k <;> exact decodeRanges_ascending _

theorem unionOf_append (cs : List Category) (k : Category) :
    unionOf (cs ++ [k]) = (unionOf cs).union k.ranges := by
  simp [unionOf]

theorem unionOf_ascending (cs : List Category) : (unionOf cs).Ascending := by
  induction cs using List.reverseRecOn with
  | nil => exact List.Pairwise.nil
  | append_singleton cs k ih =>
    rw [unionOf_append]
    exact ih.union k.ranges_ascending

theorem contains_unionOf {cs : List Category} {c : Char} :
    (unionOf cs).contains c = true ↔ ∃ k ∈ cs, k.ranges.contains c = true := by
  induction cs using List.reverseRecOn with
  | nil => simp [unionOf, CharClass.contains]
  | append_singleton cs k ih =>
    rw [unionOf_append, CharClass.contains_union (unionOf_ascending cs) k.ranges_ascending, ih]
    simp [or_and_right, exists_or]

end Category

/-! ### Words -/

/-- The ASCII characters of the categories that words are made of. -/
def Category.asciiRanges : Category → CharClass
  | .lu => [(65, 90)]
  | .ll => [(97, 122)]
  | .nd => [(48, 57)]
  | .pc => [(95, 95)]
  | _ => []

theorem Category.contains_ascii {k : Category}
    (hk : k ∈ (.nl :: letters) ++ (.nd :: .pc :: marks)) {c : Char} (hc : c.toNat < 128) :
    k.ranges.contains c = true ↔ k.asciiRanges.contains c = true := by
  have hcut : k.ranges.take k.asciiRanges.length = k.asciiRanges ∧
      ∀ r ∈ (k.ranges.drop k.asciiRanges.length).head?, 128 ≤ r.1 := by
    simp only [letters, marks, List.cons_append, List.nil_append, List.mem_cons,
      List.not_mem_nil, or_false] at hk
    rcases hk with rfl | rfl | rfl | rfl | rfl | rfl | rfl | rfl | rfl | rfl | rfl
    all_goals
      rw [ranges, decodeRanges_ofList]
      decide +kernel
  rw [k.ranges_ascending.contains_take hcut.2 hc, hcut.1]

theorem alphabetic_eq : ∃ others : CharClass, others.Ascending ∧
    (∀ r ∈ others.head?, 128 ≤ r.1) ∧
    alphabetic = (Category.unionOf (.nl :: Category.letters)).union others := by
  refine ⟨_, decodeRanges_ascending _, ?_, rfl⟩
  rw [decodeRanges_ofList]
  decide +kernel

theorem contains_wordClass : ∃ others : CharClass, others.Ascending ∧
    (∀ r ∈ others.head?, 128 ≤ r.1) ∧ ∀ c, wordClass.contains c = true ↔
      (∃ k ∈ .nl :: Category.letters, k.ranges.contains c = true) ∨ others.contains c = true ∨
        (∃ k ∈ .nd :: .pc :: Category.marks, k.ranges.contains c = true) ∨
        joinControl.contains c = true := by
  obtain ⟨others, hothers, hstart, heq⟩ := alphabetic_eq
  have hletters := Category.unionOf_ascending (.nl :: Category.letters)
  have hmarks := Category.unionOf_ascending (.nd :: .pc :: Category.marks)
  have hjoin : joinControl.Ascending := List.pairwise_singleton _ _
  have halpha := hletters.union hothers
  refine ⟨others, hothers, hstart, fun c => ?_⟩
  rw [wordClass, heq, CharClass.contains_union (halpha.union hmarks) hjoin,
    CharClass.contains_union halpha hmarks, CharClass.contains_union hletters hothers,
    Category.contains_unionOf, Category.contains_unionOf, or_assoc, or_assoc]

/-- Among the ASCII characters, a word is made of letters, digits and the low line. -/
theorem contains_wordClass_ascii {c : Char} (hc : c.toNat < 128) :
    wordClass.contains c = true ↔ asciiWord.contains c = true := by
  obtain ⟨others, hothers, hstart, hword⟩ := contains_wordClass
  have hothers : others.contains c = false := by
    rw [Bool.eq_false_iff, Ne, hothers.contains_take (n := 0) hstart hc]
    exact Bool.false_ne_true
  have hletters : (∃ k ∈ .nl :: Category.letters, k.ranges.contains c = true) ↔
      (65 ≤ c.toNat ∧ c.toNat ≤ 90) ∨ 97 ≤ c.toNat ∧ c.toNat ≤ 122 := by
    rw [exists_congr fun k => and_congr_right fun hk =>
      Category.contains_ascii (List.mem_append_left _ hk) hc]
    simp [CharClass.contains, Category.letters, Category.asciiRanges]
  have hmarks : (∃ k ∈ .nd :: .pc :: Category.marks, k.ranges.contains c = true) ↔
      (48 ≤ c.toNat ∧ c.toNat ≤ 57) ∨ 95 ≤ c.toNat ∧ c.toNat ≤ 95 := by
    rw [exists_congr fun k => and_congr_right fun hk =>
      Category.contains_ascii (List.mem_append_right _ hk) hc]
    simp [CharClass.contains, Category.marks, Category.asciiRanges]
  have hjoin : joinControl.contains c = true ↔ 0x200C ≤ c.toNat ∧ c.toNat ≤ 0x200D := by
    simp [CharClass.contains, joinControl]
  have hascii : asciiWord.contains c = true ↔ (48 ≤ c.toNat ∧ c.toNat ≤ 57) ∨
      (65 ≤ c.toNat ∧ c.toNat ≤ 90) ∨ (95 ≤ c.toNat ∧ c.toNat ≤ 95) ∨
      97 ≤ c.toNat ∧ c.toNat ≤ 122 := by
    simp [CharClass.contains, asciiWord]
  rw [hword, hothers, hletters, hmarks, hjoin, hascii]
  simp only [Bool.false_eq_true, false_or]
  omega

end StepGlue.Regex
