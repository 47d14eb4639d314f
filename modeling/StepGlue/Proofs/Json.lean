import Mathlib.Data.List.Basic
import StepGlue.Json.Reader

/-! Objects are read back as they were written.

A reader leaves what stands behind the value that it read, so every statement has a rest in it. What
stands behind a value inside of an object is a comma or a closing brace; either ends a number, and
nothing else can be taken for a part of the value. -/

namespace StepGlue.Json

/-! ### Strings -/

theorem hexValue?_hexDigit {n : Nat} (h : n < 16) : hexValue? (hexDigit n) = some n := by
  revert n
  decide

theorem readChars_letter {l c : Char} (h : unescapeChar? l = some c) (s : List Char) :
    readChars ('\\' :: l :: s) = (readChars s).map fun r => (c :: r.1, r.2) := by
  have hl : l ≠ 'u' := by
    rintro rfl
    cases h
  rw [readChars, h]
  · cases readChars s <;> rfl
  · intros
    exact hl ‹_›
  · intros
    exact hl ‹_›

theorem readChars_plain {c : Char} (hquote : c ≠ '"') (hbackslash : c ≠ '\\')
    (hcontrol : ¬c.toNat < 32) (s : List Char) :
    readChars (c :: s) = (readChars s).map fun r => (c :: r.1, r.2) := by
  rw [readChars, if_neg (not_or.mpr ⟨hcontrol, hbackslash⟩)]
  · exact hquote
  · intros
    exact hbackslash ‹_›
  · intros
    exact hbackslash ‹_›
  · intros
    exact hbackslash ‹_›

theorem hex4?_control {c : Char} (h : c.toNat < 32) :
    hex4? '0' '0' (hexDigit (c.toNat / 16)) (hexDigit (c.toNat % 16)) = some c.toNat := by
  have hzero : hexValue? '0' = some 0 := by decide
  have hhigh := hexValue?_hexDigit (n := c.toNat / 16) (by omega)
  have hlow := hexValue?_hexDigit (n := c.toNat % 16) (by omega)
  have hsum : 16 * (c.toNat / 16) + c.toNat % 16 = c.toNat := Nat.div_add_mod _ _
  simp [hex4?, hzero, hhigh, hlow, hsum]

/-- An escaped control is no half of a pair, so another escape that follows changes nothing. -/
theorem readChars_control {c : Char} (h : c.toNat < 32) (s : List Char) :
    readChars ('\\' :: 'u' :: '0' :: '0' ::
        hexDigit (c.toNat / 16) :: hexDigit (c.toNat % 16) :: s) =
      (readChars s).map fun r => (c :: r.1, r.2) := by
  have hvalue := hex4?_control h
  have hchar : Char.ofNat c.toNat = c := Char.ofNat_toNat c
  have hhigh : ¬(0xD800 ≤ c.toNat ∧ c.toNat < 0xDC00) := by omega
  have hlow : ¬(0xDC00 ≤ c.toNat ∧ c.toNat < 0xE000) := by omega
  have hhalf : ¬(0xD800 ≤ c.toNat ∧ c.toNat < 0xE000) := by omega
  by_cases hs : ∃ e f g h t, s = '\\' :: 'u' :: e :: f :: g :: h :: t
  · obtain ⟨e, f, g, h, t, rfl⟩ := hs
    rw [readChars, hvalue, Option.bind_eq_bind, Option.bind_some, if_neg hhigh, if_neg hlow, hchar]
    cases readChars ('\\' :: 'u' :: e :: f :: g :: h :: t) <;> rfl
  · rw [readChars, hvalue, Option.bind_eq_bind, Option.bind_some, if_neg hhalf, hchar]
    · cases readChars s <;> rfl
    · intro e f g h t he
      exact hs ⟨e, f, g, h, t, he⟩

theorem readChars_escapeChar (c : Char) (s : List Char) :
    readChars (escapeChar c ++ s) = (readChars s).map fun r => (c :: r.1, r.2) := by
  unfold escapeChar
  split_ifs with hquote hbackslash hfeed hreturn htab hback hform hcontrol
  · subst hquote
    exact readChars_letter rfl s
  · subst hbackslash
    exact readChars_letter rfl s
  · exact readChars_letter (hfeed ▸ rfl) s
  · exact readChars_letter (hreturn ▸ rfl) s
  · exact readChars_letter (htab ▸ rfl) s
  · exact readChars_letter (hback ▸ rfl) s
  · exact readChars_letter (hform ▸ rfl) s
  · exact readChars_control hcontrol s
  · exact readChars_plain hquote hbackslash hcontrol s

theorem readChars_escaped (s rest : List Char) :
    readChars (s.flatMap escapeChar ++ '"' :: rest) = some (s, rest) := by
  induction s with
  | nil => rw [List.flatMap_nil, List.nil_append, readChars]
  | cons c s ih =>
    rw [List.flatMap_cons, List.append_assoc, readChars_escapeChar, ih, Option.map_some]

/-! ### Numbers -/

theorem isDigit_of_mem {n : Nat} {c : Char} (h : c ∈ Nat.toDigits 10 n) : isDigit c = true :=
  Nat.isDigit_of_mem_toDigits (by decide) (by decide) h

theorem natValue_toDigits (n : Nat) : natValue (Nat.toDigits 10 n) = n :=
  Nat.ofDigitChars_ten_toDigits

/-- Only zero is written with a zero in front. -/
theorem head?_toDigits {n : Nat} (h : n ≠ 0) : (Nat.toDigits 10 n).head? ≠ some '0' := by
  induction n using Nat.strongRecOn with
  | ind n ih =>
    rw [Nat.toDigits_eq_if (by decide)]
    by_cases hn : n < 10
    · rw [if_pos hn, List.head?_cons, ne_eq, Option.some.injEq, Nat.digitChar_eq_zero]
      exact h
    · have hih := ih (n / 10) (by omega) (by omega)
      rw [if_neg hn, List.head?_append_of_ne_nil _ Nat.toDigits_ne_nil]
      exact hih

theorem toDigits_ne_padded (n : Nat) (a : Char) (s : List Char) :
    Nat.toDigits 10 n ≠ '0' :: a :: s := by
  intro hpadded
  by_cases hn : n = 0
  · subst hn
    cases hpadded
  · exact head?_toDigits hn (by rw [hpadded, List.head?_cons])

/-- What follows a value inside of an object. -/
def Delimited (rest : List Char) : Prop := ∃ t, rest = ',' :: t ∨ rest = '}' :: t

theorem readWhole_toDigits (n : Nat) {rest : List Char} (h : Delimited rest) :
    readWhole (Nat.toDigits 10 n ++ rest) = some (Nat.toDigits 10 n, rest) := by
  have hdigits : ∀ c ∈ Nat.toDigits 10 n, isDigit c = true := fun c => isDigit_of_mem
  have htake : rest.takeWhile isDigit = [] := by
    obtain ⟨t, rfl | rfl⟩ := h <;> rfl
  have hdrop : rest.dropWhile isDigit = rest := by
    obtain ⟨t, rfl | rfl⟩ := h <;> rfl
  unfold readWhole
  rw [List.takeWhile_append_of_pos hdigits, List.dropWhile_append_of_pos hdigits, htake, hdrop,
    List.append_nil]
  dsimp only
  split
  · next hnil => exact absurd hnil Nat.toDigits_ne_nil
  · next hpadded => exact absurd hpadded (toDigits_ne_padded n _ _)
  · rfl

theorem readTail_delimited {rest : List Char} (h : Delimited rest) :
    readTail rest = some ([], rest) := by
  obtain ⟨t, rfl | rfl⟩ := h <;> rfl

theorem head_toDigits (n : Nat) : ∃ d ds, Nat.toDigits 10 n = d :: ds ∧ isDigit d = true := by
  obtain ⟨d, ds, hd⟩ := List.exists_cons_of_ne_nil (Nat.toDigits_ne_nil (n := n) (b := 10))
  exact ⟨d, ds, hd, isDigit_of_mem (n := n) (by rw [hd]; exact List.mem_cons_self)⟩

theorem readNumber_toDigits {n : Nat} (hn : n < word64) {rest : List Char} (h : Delimited rest) :
    readNumber (Nat.toDigits 10 n ++ rest) = some (.int n, rest) := by
  have hvalue := natValue_toDigits n
  have hwhole := readWhole_toDigits n h
  obtain ⟨d, ds, hd, hdigit⟩ := head_toDigits n
  have hminus : d ≠ '-' := by
    rintro rfl
    cases hdigit
  rw [hd] at hvalue hwhole ⊢
  rw [List.cons_append] at hwhole ⊢
  unfold readNumber
  simp [hminus, hwhole, readTail_delimited h, hvalue, hn]

/-! ### Values -/

/-- A value that is read back wherever it is written inside of an object. -/
def ReadsBack (depth : Nat) (j : Json) : Prop :=
  ∀ fuel rest, j.write.length ≤ fuel → Delimited rest →
    readValue depth fuel (j.write ++ rest) = some (j, rest)

theorem skipSpace_cons {c : Char} (h : isSpace c = false) (s : List Char) :
    skipSpace (c :: s) = c :: s := List.dropWhile_cons_of_neg (by simp [h])

theorem writeString_append (s : String) (rest : List Char) :
    writeString s ++ rest = '"' :: (s.toList.flatMap escapeChar ++ '"' :: rest) := by
  simp [writeString]

theorem readValue_quote (depth fuel : Nat) (t : List Char) :
    readValue depth (fuel + 1) ('"' :: t) =
      (readChars t).map fun r => (.str (String.ofList r.1), r.2) := by
  rw [readValue]
  rfl

theorem readsBack_str (depth : Nat) (s : String) : ReadsBack depth (.str s) := by
  intro fuel rest hfuel _
  have hpos : 0 < (writeString s).length := by simp [writeString]
  rw [write] at hfuel ⊢
  obtain ⟨fuel, rfl⟩ : ∃ f, fuel = f + 1 := ⟨fuel - 1, by omega⟩
  rw [writeString_append, readValue_quote, readChars_escaped, Option.map_some,
    String.ofList_toList]

theorem ne_of_isDigit {d c : Char} (hd : isDigit d = true) (hc : isDigit c = false) : d ≠ c := by
  rintro rfl
  rw [hd] at hc
  cases hc

theorem readValue_digit {d : Char} (h : isDigit d = true) (depth fuel : Nat) (t : List Char) :
    readValue depth (fuel + 1) (d :: t) = readNumber (d :: t) := by
  have hne : ∀ c, isDigit c = false → d ≠ c := fun c => ne_of_isDigit h
  have hspace : isSpace d = false := by
    simp [isSpace, hne ' ' rfl, hne '\t' rfl, hne '\n' rfl, hne '\r' rfl]
  rw [readValue, skipSpace_cons hspace]
  simp [hne '"' rfl, hne '[' rfl, hne '\x7b' rfl, hne 'n' rfl, hne 't' rfl, hne 'f' rfl]

theorem write_nat (n : Nat) : (Json.int n).write = Nat.toDigits 10 n := by
  have htext : toString (n : Int) = toString n := rfl
  rw [write, htext, Nat.toString_eq_ofList_toDigits, String.toList_ofList]

theorem readsBack_nat (depth : Nat) {n : Nat} (h : n < word64) : ReadsBack depth (.int n) := by
  intro fuel rest hfuel hrest
  have hnumber := readNumber_toDigits h hrest
  rw [write_nat] at hfuel ⊢
  obtain ⟨d, ds, hd, hdigit⟩ := head_toDigits n
  rw [hd] at hfuel hnumber ⊢
  obtain ⟨fuel, rfl⟩ : ∃ f, fuel = f + 1 :=
    ⟨fuel - 1, by rw [List.length_cons] at hfuel; omega⟩
  rw [List.cons_append] at hnumber ⊢
  rw [readValue_digit hdigit, hnumber]

/-! ### Objects -/

theorem readFields_quote (depth fuel : Nat) (name : String) (t : List Char) :
    readFields depth (fuel + 1) (writeString name ++ ':' :: t) =
      (readValue depth fuel t).bind fun r =>
        match skipSpace r.2 with
        | ',' :: t => (readFields depth fuel t).map fun r' => ((name, r.1) :: r'.1, r'.2)
        | '}' :: rest => some ([(name, r.1)], rest)
        | _ => none := by
  have hname := readChars_escaped name.toList (':' :: t)
  rw [writeString_append, readFields, skipSpace_cons (by decide)]
  simp only [hname, Option.bind_eq_bind, Option.bind_some, String.ofList_toList]
  rfl

theorem writeFields_cons (f : String × Json) (fields : List (String × Json)) :
    writeFields (f :: fields) = writeString f.1 ++ ':' :: (f.2.write ++
      if fields.isEmpty then [] else ',' :: writeFields fields) := by
  cases fields with
  | nil => simp [writeFields]
  | cons g fields => simp [writeFields]

/-- Fields are read back up to the closing brace, if each of their values is. -/
theorem readFields_writeFields {depth : Nat} {fields : List (String × Json)}
    (h : ∀ f ∈ fields, ReadsBack depth f.2) (hne : fields ≠ []) {fuel : Nat}
    (hfuel : (writeFields fields).length < fuel) (rest : List Char) :
    readFields depth fuel (writeFields fields ++ '}' :: rest) = some (fields, rest) := by
  induction fields generalizing fuel with
  | nil => exact absurd rfl hne
  | cons f fields ih =>
    obtain ⟨fuel, rfl⟩ : ∃ f, fuel = f + 1 := ⟨fuel - 1, by omega⟩
    obtain ⟨hvalue, hmore⟩ := List.forall_mem_cons.mp h
    rw [writeFields_cons, List.length_append, List.length_cons, List.length_append] at hfuel
    rw [writeFields_cons, List.append_assoc, List.cons_append, List.append_assoc, readFields_quote]
    cases fields with
    | nil =>
      rw [if_pos List.isEmpty_nil, List.nil_append, hvalue fuel _ (by omega) ⟨rest, .inr rfl⟩]
      rfl
    | cons g fields =>
      have hlength : (writeFields (g :: fields)).length < fuel := by
        rw [if_neg (by simp), List.length_cons] at hfuel
        omega
      have hlater := ih hmore (List.cons_ne_nil g fields) hlength
      rw [if_neg (by simp), List.cons_append, hvalue fuel _ (by omega) ⟨_, .inl rfl⟩,
        Option.bind_some, skipSpace_cons (by decide)]
      exact congrArg (Option.map fun r => (f :: r.1, r.2)) hlater

/-- Fields start with a name, so what holds them is not taken for an empty object. -/
theorem readValue_brace {depth : Nat} (h : 1 < depth) (fuel : Nat) (name : String)
    (t : List Char) : readValue depth (fuel + 1) ('\x7b' :: (writeString name ++ t)) =
      (readFields (depth - 1) fuel (writeString name ++ t)).map fun r => (.obj r.1, r.2) := by
  rw [writeString_append, readValue, skipSpace_cons (by decide)]
  exact if_neg (Nat.not_le.mpr h)

/-- A text that holds an object is read to its end. -/
theorem read_obj {fields : List (String × Json)}
    (h : ∀ f ∈ fields, ReadsBack (depthLimit - 1) f.2) (hne : fields ≠ []) :
    read (compact (.obj fields)) = some (.obj fields) := by
  have hread := readFields_writeFields h hne (Nat.lt_add_of_pos_right Nat.zero_lt_two) []
  obtain ⟨name, t, hname⟩ : ∃ name t, writeFields fields = writeString name ++ t := by
    obtain ⟨f, more, rfl⟩ := List.exists_cons_of_ne_nil hne
    exact ⟨f.1, _, writeFields_cons f more⟩
  have hvalue : readValue depthLimit ((write (.obj fields)).length + 1) (write (.obj fields)) =
      some (.obj fields, []) := by
    rw [write, List.length_cons, List.length_append, List.length_singleton]
    rw [hname, List.append_assoc] at hread ⊢
    rw [readValue_brace (by decide), hread]
    rfl
  unfold read compact
  rw [String.toList_ofList]
  dsimp only
  rw [hvalue]
  rfl

end StepGlue.Json
