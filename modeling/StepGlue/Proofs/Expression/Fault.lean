import StepGlue.Proofs.Expression.Meaning
import StepGlue.Proofs.Text.Offsets

/-! Where the error of an expression points.

The tokens are read off the front of an expression one after the other, whatever follows. So the
first thing that cannot be read stands behind a part that can, and each token stands where its
offset says. What cannot be written for a row of tokens is blamed on one of them. -/

namespace StepGlue

/-- The character that a fault is found at. -/
def ExpressionFault.sign : ExpressionFault → Char
  | .closingBrace => '}'
  | .closingParenthesis => ')'
  | .nameCharacter | .nameBlank | .nameUnclosed => '{'
  | .parameterInAlternation | .parameterUndefined => '{'
  | .optionalEmpty | .optionalNested | .optionalUnclosed => '('
  | .alternativeEmpty | .alternationUnexpected => '/'

/-- In a text whose first byte is the byte `pos`, an error points at the character between these
two parts. An error about a parameter tells its name as it is written there. -/
structure ExpressionError.PointsInto (err : ExpressionError) (pos : Nat)
    (s before after : List Char) : Prop where
  cut : s = before ++ err.fault.sign :: after
  position : err.position = pos + byteLength before
  isSome_parameter : err.parameter.isSome ↔ err.fault.sign = '{'
  parameter : ∀ name, err.parameter = some name → name.toList <+: after

theorem ExpressionError.PointsInto.append {err : ExpressionError} {pos : Nat}
    {front s before after : List Char}
    (h : err.PointsInto (pos + byteLength front) s before after) :
    err.PointsInto pos (front ++ s) (front ++ before) after where
  cut := by rw [h.cut, List.append_assoc]
  position := by rw [h.position, byteLength_append, Nat.add_assoc]
  isSome_parameter := h.isSome_parameter
  parameter := h.parameter

/-! ### Tokens and their places -/

/-- Where a token starts and what it starts with, if it knows its place. -/
def Token.opening? : Token → Option (Nat × List Char)
  | .text _ | .blank _ => none
  | .optional start _ => some (start, ['('])
  | .parameter start name => some (start, '{' :: name)
  | .slash start => some (start, ['/'])

/-- The token is where it says, in a text whose first byte is the byte `pos`. -/
def Token.StandsIn (pos : Nat) (s : List Char) (t : Token) : Prop :=
  ∀ o part, t.opening? = some (o, part) →
    ∃ before after, s = before ++ part ++ after ∧ o = pos + byteLength before

namespace Token.StandsIn

variable {pos : Nat} {front s : List Char} {t : Token}

theorem of_opening (ht : t.opening? = none) : t.StandsIn pos s := by
  intro o part h
  rw [ht] at h
  cases h

theorem of_front {part : List Char} (ht : t.opening? = some (pos, part)) (hs : part <+: s) :
    t.StandsIn pos s := by
  intro o part' h
  rw [ht] at h
  cases h
  obtain ⟨after, rfl⟩ := hs
  exact ⟨[], after, rfl, rfl⟩

theorem append_right (h : t.StandsIn pos front) (s : List Char) : t.StandsIn pos (front ++ s) := by
  intro o part ht
  obtain ⟨before, after, rfl, rfl⟩ := h o part ht
  exact ⟨before, after ++ s, by simp, rfl⟩

theorem append_left (h : t.StandsIn (pos + byteLength front) s) : t.StandsIn pos (front ++ s) := by
  intro o part ht
  obtain ⟨before, after, rfl, rfl⟩ := h o part ht
  exact ⟨front ++ before, after, by simp, by rw [byteLength_append, Nat.add_assoc]⟩

end Token.StandsIn

theorem mem_consText {c : Char} {ts : List Token} {t : Token} (h : t ∈ consText c ts) :
    t ∈ ts ∨ t.opening? = none := by
  unfold consText at h
  split at h
  · rcases List.mem_cons.mp h with rfl | h
    · exact Or.inr rfl
    · exact Or.inl (List.mem_cons_of_mem _ h)
  · rcases List.mem_cons.mp h with rfl | h
    · exact Or.inr rfl
    · exact Or.inl h

theorem mem_consBlank {c : Char} {ts : List Token} {t : Token} (h : t ∈ consBlank c ts) :
    t ∈ ts ∨ t.opening? = none := by
  unfold consBlank at h
  split at h
  · rcases List.mem_cons.mp h with rfl | h
    · exact Or.inr rfl
    · exact Or.inl (List.mem_cons_of_mem _ h)
  · rcases List.mem_cons.mp h with rfl | h
    · exact Or.inr rfl
    · exact Or.inl h

/-! ### One step of the reader -/

theorem lexParameter_cases (start : Nat) (name : List Char) (pos : Nat) (s : List Char) :
    (∃ more rest, s = more ++ '}' :: rest ∧ ∀ rest,
      lexParameter start name pos (more ++ '}' :: rest) =
        (lexText (pos + byteLength more + 1) rest).map (.parameter start (name ++ more) :: ·)) ∨
    ∃ fault more, ExpressionFault.sign fault = '{' ∧ more <+: s ∧
      lexParameter start name pos s =
        .error ⟨fault, start, some (String.ofList (name ++ more))⟩ := by
  induction s generalizing name pos with
  | nil => exact Or.inr ⟨.nameUnclosed, [], rfl, List.prefix_rfl, by simp [lexParameter]⟩
  | cons c s ih =>
    by_cases hclose : c = '}'
    · subst hclose
      exact Or.inl ⟨[], s, rfl, fun rest => by simp [lexParameter, byteLength]⟩
    · by_cases hstop : isNameStop c = true
      · refine Or.inr ⟨.nameCharacter, [], rfl, List.nil_prefix, ?_⟩
        simp [lexParameter, hclose, hstop]
      · by_cases hblank : isBlank c = true
        · refine Or.inr ⟨.nameBlank, [], rfl, List.nil_prefix, ?_⟩
          simp [lexParameter, hclose, hstop, hblank]
        · have hnext : ∀ rest, lexParameter start name pos (c :: rest) =
              lexParameter start (name ++ [c]) (pos + c.utf8Size) rest := by
            intro rest
            simp [lexParameter, hclose, hstop, hblank]
          rcases ih (name ++ [c]) (pos + c.utf8Size) with
            ⟨more, rest, rfl, hread⟩ | ⟨fault, more, hsign, hmore, herr⟩
          · refine Or.inl ⟨c :: more, rest, rfl, fun rest => ?_⟩
            rw [List.cons_append, hnext, hread]
            simp [byteLength, Nat.add_assoc]
          · refine Or.inr ⟨fault, c :: more, hsign, List.cons_prefix_cons.mpr ⟨rfl, hmore⟩, ?_⟩
            rw [hnext, herr]
            simp

/-- A backslash is the end of a text or escapes what follows it. -/
theorem ne_backslash {c : Char} {s : List Char} (hend : c = '\\' → s = [] → False)
    (hescape : ∀ d t, c = '\\' → s = d :: t → False) : c ≠ '\\' := by
  intro hc
  cases s with
  | nil => exact hend hc rfl
  | cons d t => exact hescape d t hc rfl

theorem lexOptional_cases (start : Nat) (text : List Char) (pos : Nat) (s : List Char) :
    (∃ raw text' rest, s = raw ++ ')' :: rest ∧ ∀ rest,
      lexOptional start text pos (raw ++ ')' :: rest) =
        (lexText (pos + byteLength raw + 1) rest).map (.optional start text' :: ·)) ∨
    ∃ fault, ExpressionFault.sign fault = '(' ∧
      lexOptional start text pos s = .error ⟨fault, start, none⟩ := by
  induction hn : s.length using Nat.strong_induction_on generalizing text pos s with
  | _ n ih =>
    subst hn
    -- a character of the text, with a backslash before it or without
    have hnext : ∀ front {s' text'}, s = front ++ s' → s'.length < s.length →
        (∀ rest, lexOptional start text pos (front ++ rest) =
          lexOptional start text' (pos + byteLength front) rest) →
        (∃ raw text' rest, s = raw ++ ')' :: rest ∧ ∀ rest,
          lexOptional start text pos (raw ++ ')' :: rest) =
            (lexText (pos + byteLength raw + 1) rest).map (.optional start text' :: ·)) ∨
        ∃ fault, ExpressionFault.sign fault = '(' ∧
          lexOptional start text pos s = .error ⟨fault, start, none⟩ := by
      intro front s' text' hs hlt hstep
      rcases ih _ hlt text' (pos + byteLength front) s' rfl with
        ⟨raw, text'', rest, rfl, hread⟩ | ⟨fault, hsign, herr⟩
      · refine Or.inl ⟨front ++ raw, text'', rest, by rw [hs, List.append_assoc], fun rest => ?_⟩
        rw [List.append_assoc, hstep, hread, byteLength_append, ← Nat.add_assoc]
      · exact Or.inr ⟨fault, hsign, by rw [hs, hstep, herr]⟩
    have hsize : ('\\').utf8Size = 1 := rfl
    fun_cases lexOptional start text pos s with
    | case1 => exact Or.inr ⟨.optionalUnclosed, rfl, rfl⟩
    | case2 => exact Or.inr ⟨.optionalUnclosed, rfl, rfl⟩
    | case3 c s =>
      have hstep : ∀ rest, lexOptional start text pos ('\\' :: c :: rest) =
          lexOptional start (text ++ [c]) (pos + byteLength ['\\', c]) rest := by
        intro rest
        rw [lexOptional]
        simp [byteLength, hsize, Nat.add_assoc]
      have hlt : s.length < ('\\' :: c :: s).length := by simp only [List.length_cons]; omega
      have hh := hnext ['\\', c] rfl hlt hstep
      rwa [lexOptional] at hh
    | case4 s hempty => exact Or.inr ⟨.optionalEmpty, rfl, rfl⟩
    | case5 s hempty =>
      exact Or.inl ⟨[], text, s, rfl, fun rest => by simp [lexOptional, hempty, byteLength]⟩
    | case6 c s _ _ _ _ => exact Or.inr ⟨.optionalNested, rfl, rfl⟩
    | case7 c s hend hescape hclose hnested =>
      have hc : c ≠ '\\' := ne_backslash hend hescape
      have hstep : ∀ rest, lexOptional start text pos (c :: rest) =
          lexOptional start (text ++ [c]) (pos + byteLength [c]) rest := by
        intro rest
        simp [lexOptional, hc, hclose, hnested, byteLength]
      have hh := hnext [c] rfl (by simp) hstep
      rwa [hstep] at hh

/-- What the reader does with the front of an expression: it has come to the end, it reads a part
off whatever follows, or it is stuck. -/
inductive LexStep (pos : Nat) : List Char → Prop
  | done {s : List Char} {ts : List Token} (h : lexText pos s = .ok ts)
      (hts : ∀ t ∈ ts, t.opening? = none) : LexStep pos s
  | front (front : List Char) {rest : List Char} (put : List Token → List Token)
      (hne : front ≠ [])
      (hread : ∀ rest, lexText pos (front ++ rest) =
        (lexText (pos + byteLength front) rest).map put)
      (hput : ∀ us, ∀ t ∈ put us, t ∈ us ∨ t.StandsIn pos front) : LexStep pos (front ++ rest)
  | stuck {s : List Char} (err : ExpressionError) (after : List Char)
      (h : lexText pos s = .error err)
      (hpoints : err.PointsInto pos s [] after) (hsign : err.fault.sign ≠ '/') : LexStep pos s

/-- A token at the front stands before what is read of the rest. -/
theorem LexStep.token {pos : Nat} (front : List Char) {rest part : List Char} {t : Token}
    (ht : t.opening? = some (pos, part)) (hpart : part <+: front) (hne : front ≠ [])
    (hread : ∀ rest, lexText pos (front ++ rest) =
      (lexText (pos + byteLength front) rest).map (t :: ·)) : LexStep pos (front ++ rest) := by
  refine .front front (t :: ·) hne hread fun us u hu => ?_
  rcases List.mem_cons.mp hu with rfl | hu
  · exact Or.inr (.of_front ht hpart)
  · exact Or.inl hu

theorem byteLength_bracketed {a b : Char} (ha : a.utf8Size = 1) (hb : b.utf8Size = 1)
    (s : List Char) : byteLength (a :: (s ++ [b])) = 1 + byteLength s + 1 := by
  simp only [byteLength, byteLength_append, ha, hb]
  omega

theorem lexStep (pos : Nat) (s : List Char) : LexStep pos s := by
  have hsize : ('\\').utf8Size = 1 := rfl
  fun_cases lexText pos s with
  | case1 => exact .done (by rw [lexText]) (List.forall_mem_nil _)
  | case2 => exact .done (by rw [lexText]) (by simp [Token.opening?])
  | case3 c s =>
    refine .front ['\\', c] (consText c) (List.cons_ne_nil _ _) (fun rest => ?_) ?_
    · rw [List.cons_append, List.cons_append, List.nil_append, lexText]
      simp [byteLength, hsize, Nat.add_assoc]
    · exact fun us t ht => (mem_consText ht).imp_right .of_opening
  | case4 s =>
    rcases lexParameter_cases pos [] (pos + 1) s with
      ⟨name, rest, rfl, hread⟩ | ⟨fault, name, hsign, ⟨after, rfl⟩, herr⟩
    · have hcut : '{' :: (name ++ '}' :: rest) = ('{' :: (name ++ ['}'])) ++ rest := by simp
      rw [hcut]
      refine .token ('{' :: (name ++ ['}'])) (t := .parameter pos name) rfl ⟨['}'], by simp⟩
        (List.cons_ne_nil _ _) fun rest => ?_
      rw [byteLength_bracketed rfl rfl]
      simpa [lexText, Nat.add_assoc] using hread rest
    · refine .stuck ⟨fault, pos, some (String.ofList name)⟩ (name ++ after)
        (by rw [lexText, herr, List.nil_append]) ?_ ?_
      · exact ⟨by simp [hsign], rfl, by simp [hsign], by simp⟩
      · simp [hsign]
  | case5 s =>
    rcases lexOptional_cases pos [] (pos + 1) s with
      ⟨raw, text, rest, rfl, hread⟩ | ⟨fault, hsign, herr⟩
    · have hcut : '(' :: (raw ++ ')' :: rest) = ('(' :: (raw ++ [')'])) ++ rest := by simp
      rw [hcut]
      refine .token ('(' :: (raw ++ [')'])) (t := .optional pos text) rfl
        ⟨raw ++ [')'], by simp⟩ (List.cons_ne_nil _ _) fun rest => ?_
      rw [byteLength_bracketed rfl rfl]
      simpa [lexText, Nat.add_assoc] using hread rest
    · refine .stuck ⟨fault, pos, none⟩ s (by rw [lexText, herr]) ?_ ?_
      · exact ⟨by simp [hsign], rfl, by simp [hsign], by simp⟩
      · simp [hsign]
  | case6 s =>
    refine .token ['/'] (t := .slash pos) rfl List.prefix_rfl (List.cons_ne_nil _ _) fun rest => ?_
    rw [List.cons_append, List.nil_append, lexText]
    rfl
  | case7 s =>
    refine .stuck ⟨.closingBrace, pos, none⟩ s (by rw [lexText]) ?_ ?_
    · exact ⟨rfl, rfl, by simp [ExpressionFault.sign], by simp⟩
    · simp [ExpressionFault.sign]
  | case8 s =>
    refine .stuck ⟨.closingParenthesis, pos, none⟩ s (by rw [lexText]) ?_ ?_
    · exact ⟨rfl, rfl, by simp [ExpressionFault.sign], by simp⟩
    · simp [ExpressionFault.sign]
  | case9 c s hend hescape hname hoptional hslash hbrace hparen =>
    have hc : c ≠ '\\' := ne_backslash hend hescape
    refine .front [c] (if isBlank c then consBlank c else consText c)
      (List.cons_ne_nil _ _) (fun rest => ?_) ?_
    · simp [lexText, hc, byteLength]
    · intro us t ht
      split at ht
      · exact (mem_consBlank ht).imp_right .of_opening
      · exact (mem_consText ht).imp_right .of_opening

/-- The part before the place of an error is fine. -/
theorem exists_of_lexText_eq_error {pos : Nat} {s : List Char} {err : ExpressionError}
    (h : lexText pos s = .error err) : err.fault.sign ≠ '/' ∧
      ∃ before after, err.PointsInto pos s before after ∧ ∃ ts, lexText pos before = .ok ts := by
  induction hn : s.length using Nat.strong_induction_on generalizing pos s with
  | _ n ih =>
    subst hn
    cases lexStep pos s with
    | done hok _ =>
      rw [hok] at h
      cases h
    | stuck _ _ herr hpoints hsign =>
      rw [herr] at h
      cases h
      exact ⟨hsign, [], _, hpoints, [], by rw [lexText]⟩
    | @front front rest put hne hread _ =>
      rw [hread] at h
      have hlt : rest.length < (front ++ rest).length := by simpa [List.length_pos_iff] using hne
      obtain ⟨hsign, before, after, hpoints, ts, hts⟩ := ih _ hlt (map_eq_error.mp h) rfl
      refine ⟨hsign, front ++ before, after, hpoints.append, put ts, ?_⟩
      rw [hread, hts]
      rfl

theorem standsIn_of_lexText_eq_ok {pos : Nat} {s : List Char} {ts : List Token}
    (h : lexText pos s = .ok ts) : ∀ t ∈ ts, t.StandsIn pos s := by
  induction hn : s.length using Nat.strong_induction_on generalizing pos s ts with
  | _ n ih =>
    subst hn
    cases lexStep pos s with
    | done hok hts =>
      rw [hok] at h
      cases h
      exact fun t ht => .of_opening (hts t ht)
    | stuck _ _ herr _ _ =>
      rw [herr] at h
      cases h
    | @front front rest put hne hread hput =>
      rw [hread] at h
      obtain ⟨us, hus, rfl⟩ := map_eq_ok.mp h
      have hlt : rest.length < (front ++ rest).length := by simpa [List.length_pos_iff] using hne
      intro t ht
      rcases hput us t ht with ht | ht
      · exact (ih _ hlt hus rfl t ht).append_left
      · exact ht.append_right rest

/-! ### What cannot be written -/

/-- A token that an expression fails for. -/
inductive Token.Blamed : Token → ExpressionError → Prop
  | undefined (start : Nat) (name : List Char) :
      Blamed (.parameter start name) ⟨.parameterUndefined, start, some (String.ofList name)⟩
  | alternated (start : Nat) (name : List Char) :
      Blamed (.parameter start name) ⟨.parameterInAlternation, start, some (String.ofList name)⟩
  | beside (start : Nat) : Blamed (.slash start) ⟨.alternativeEmpty, start, none⟩

theorem Token.Blamed.pointsInto {t : Token} {err : ExpressionError} (h : t.Blamed err)
    {pos : Nat} {s : List Char} (ht : t.StandsIn pos s) :
    ∃ before after, err.PointsInto pos s before after := by
  cases h with
  | undefined start name =>
    obtain ⟨before, after, rfl, rfl⟩ := ht _ _ rfl
    exact ⟨before, name ++ after, by simp [ExpressionFault.sign], rfl,
      by simp [ExpressionFault.sign], by simp⟩
  | alternated start name =>
    obtain ⟨before, after, rfl, rfl⟩ := ht _ _ rfl
    exact ⟨before, name ++ after, by simp [ExpressionFault.sign], rfl,
      by simp [ExpressionFault.sign], by simp⟩
  | beside start =>
    obtain ⟨before, after, rfl, rfl⟩ := ht _ _ rfl
    exact ⟨before, after, by simp [ExpressionFault.sign], rfl,
      by simp [ExpressionFault.sign], nofun⟩

theorem Token.Blamed.fault_ne {t : Token} {err : ExpressionError} (h : t.Blamed err) :
    err.fault ≠ .alternationUnexpected := by
  cases h with
  | undefined _ _ => exact nofun
  | alternated _ _ => exact nofun
  | beside _ => exact nofun

theorem blamed_of_renderToken {t : Token} (ht : t.isSlash = false) {err : ExpressionError}
    (h : renderToken t = .error err) : t.Blamed err := by
  cases t with
  | parameter start name =>
    simp only [renderToken] at h
    split at h
    · cases h
    · cases h
      exact .undefined start name
  | slash start => cases ht
  | _ => cases h

theorem exists_of_renderTokens {ts : List Token} (hts : ∀ t ∈ ts, t.isSlash = false)
    {err : ExpressionError} (h : renderTokens ts = .error err) : ∃ t ∈ ts, t.Blamed err := by
  induction ts with
  | nil => cases h
  | cons t ts ih =>
    obtain ⟨ht, hts⟩ := List.forall_mem_cons.mp hts
    rcases bind_eq_error.mp h with h | ⟨a, -, h⟩
    · exact ⟨t, List.mem_cons_self, blamed_of_renderToken ht h⟩
    · rcases bind_eq_error.mp h with h | ⟨b, -, h⟩
      · obtain ⟨u, hu, hblamed⟩ := ih hts h
        exact ⟨u, List.mem_cons_of_mem _ hu, hblamed⟩
      · cases h

theorem exists_of_mapM_renderTokens {parts : List (List Token)}
    (hparts : ∀ a ∈ parts, ∀ t ∈ a, t.isSlash = false) {err : ExpressionError}
    (h : parts.mapM renderTokens = .error err) : ∃ a ∈ parts, ∃ t ∈ a, t.Blamed err := by
  induction parts with
  | nil => cases h
  | cons a parts ih =>
    obtain ⟨ha, hparts⟩ := List.forall_mem_cons.mp hparts
    rw [List.mapM_cons] at h
    rcases bind_eq_error.mp h with h | ⟨p, -, h⟩
    · exact ⟨a, List.mem_cons_self, exists_of_renderTokens ha h⟩
    · rcases bind_eq_error.mp h with h | ⟨ps, -, h⟩
      · obtain ⟨b, hb, hblamed⟩ := ih hparts h
        exact ⟨b, List.mem_cons_of_mem _ hb, hblamed⟩
      · cases h

theorem mem_of_mem_alternatives {word a : List Token} (ha : a ∈ alternatives word) :
    ∀ t ∈ a, t ∈ word := by
  induction word generalizing a with
  | nil =>
    obtain rfl := List.mem_singleton.mp ha
    exact nofun
  | cons u word ih =>
    intro t ht
    by_cases hu : u.isSlash = false
    · rw [alternatives_cons hu] at ha
      split at ha
      · obtain rfl := List.mem_singleton.mp ha
        simpa using Or.inl ht
      · next b bs hb =>
        rw [hb] at ih
        rcases List.mem_cons.mp ha with rfl | ha
        · rcases List.mem_cons.mp ht with rfl | ht
          · exact List.mem_cons_self
          · exact List.mem_cons_of_mem _ (ih List.mem_cons_self t ht)
        · exact List.mem_cons_of_mem _ (ih (List.mem_cons_of_mem _ ha) t ht)
    · cases u with
      | slash start =>
        rcases List.mem_cons.mp ha with rfl | ha
        · cases ht
        · exact List.mem_cons_of_mem _ (ih ha t ht)
      | _ => exact absurd rfl hu

theorem slash_mem_of_firstSlash? {word : List Token} {start : Nat}
    (h : firstSlash? word = some start) : .slash start ∈ word := by
  induction word with
  | nil => cases h
  | cons t word ih =>
    cases t with
    | slash o =>
      cases h
      exact List.mem_cons_self
    | _ => exact List.mem_cons_of_mem _ (ih h)

theorem parameter_mem_of_firstParameter? {word : List Token} {start : Nat} {name : List Char}
    (h : firstParameter? word = some (start, name)) : .parameter start name ∈ word := by
  induction word with
  | nil => cases h
  | cons t word ih =>
    cases t with
    | parameter o n =>
      cases h
      exact List.mem_cons_self
    | _ => exact List.mem_cons_of_mem _ (ih h)

theorem exists_of_renderWord {word : List Token} {err : ExpressionError}
    (h : renderWord word = .error err) : ∃ t ∈ word, t.Blamed err := by
  unfold renderWord at h
  split at h
  · next hslash => exact exists_of_renderTokens (firstSlash?_eq_none.mp hslash) h
  · next start hslash =>
    split at h
    · next o name hparameter =>
      cases h
      exact ⟨_, parameter_mem_of_firstParameter? hparameter, .alternated o name⟩
    · dsimp only at h
      split at h
      · cases h
        exact ⟨_, slash_mem_of_firstSlash? hslash, .beside start⟩
      · rcases bind_eq_error.mp h with h | ⟨rendered, -, h⟩
        · obtain ⟨a, ha, t, ht, hblamed⟩ :=
            exists_of_mapM_renderTokens (fun a ha => isSlash_of_mem_alternatives ha) h
          exact ⟨t, mem_of_mem_alternatives ha t ht, hblamed⟩
        · cases h

theorem exists_of_renderFrom {word ts : List Token} {err : ExpressionError}
    (h : renderFrom word ts = .error err) : ∃ t ∈ word ++ ts, t.Blamed err := by
  induction ts generalizing word with
  | nil =>
    rw [List.append_nil]
    exact exists_of_renderWord h
  | cons t ts ih =>
    by_cases ht : t.isBlank = false
    · rw [renderFrom_cons ht] at h
      simpa using ih h
    · cases t with
      | blank s =>
        rcases bind_eq_error.mp h with h | ⟨a, -, h⟩
        · obtain ⟨u, hu, hblamed⟩ := exists_of_renderWord h
          exact ⟨u, List.mem_append_left _ hu, hblamed⟩
        · rcases bind_eq_error.mp h with h | ⟨b, -, h⟩
          · obtain ⟨u, hu, hblamed⟩ := ih h
            exact ⟨u, List.mem_append_right _ (List.mem_cons_of_mem _ hu), hblamed⟩
          · cases h
      | _ => exact absurd rfl ht

/-- The error of an expression points at the character that it is about, and if it comes from the
reader of tokens, the part before that character can be read. -/
theorem regexOfExpression_error_points {e : String} {err : ExpressionError}
    (h : regexOfExpression e = .error err) :
    (Pattern.expression e).compile = .error (.expression err) ∧
      err.fault ≠ .alternationUnexpected ∧
      ∃ before after, err.PointsInto 0 e.toList before after ∧
        (lexExpression e = .error err → ∃ ts, lexExpression (String.ofList before) = .ok ts) := by
  have hcompile : (Pattern.expression e).compile = .error (.expression err) := by
    simp only [Pattern.compile, Pattern.compileWith, Pattern.regexSource, h]
    rfl
  refine ⟨hcompile, ?_⟩
  rcases bind_eq_error.mp h with hlex | ⟨tokens, htokens, h⟩
  · obtain ⟨hsign, before, after, hpoints, ts, hts⟩ := exists_of_lexText_eq_error hlex
    refine ⟨?_, before, after, hpoints, fun _ => ⟨ts, ?_⟩⟩
    · intro hfault
      rw [hfault] at hsign
      exact hsign rfl
    · rw [lexExpression, String.toList_ofList, hts]
  · rcases bind_eq_error.mp h with hrender | ⟨body, -, h⟩
    · obtain ⟨t, ht, hblamed⟩ := exists_of_renderFrom hrender
      obtain ⟨before, after, hpoints⟩ :=
        hblamed.pointsInto (standsIn_of_lexText_eq_ok htokens t ht)
      refine ⟨hblamed.fault_ne, before, after, hpoints, fun hlex => ?_⟩
      rw [htokens] at hlex
      cases hlex
    · cases h

/-- The brace is behind two characters that take two bytes each: an escaped one, and one that is not
ASCII. -/
theorem regexOfExpression_error_points_wide :
    regexOfExpression "\\\x7bé \x7bin t\x7d" = .error ⟨.nameBlank, 5, some "in"⟩ ∧
      ∃ before after, "\\\x7bé \x7bin t\x7d".toList = before ++ '{' :: after ∧
        byteLength before = 5 ∧ "in".toList <+: after ∧
        ∃ ts, lexExpression (String.ofList before) = .ok ts := by
  have herr : regexOfExpression "\\\x7bé \x7bin t\x7d" = .error ⟨.nameBlank, 5, some "in"⟩ := rfl
  obtain ⟨-, -, before, after, hpoints, hlex⟩ := regexOfExpression_error_points herr
  have hposition : 5 = 0 + byteLength before := hpoints.position
  exact ⟨herr, before, after, hpoints.cut, by omega, hpoints.parameter _ rfl, hlex rfl⟩

end StepGlue
