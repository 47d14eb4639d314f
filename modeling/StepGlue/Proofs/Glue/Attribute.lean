import StepGlue.Glue.Attribute.Steps
import StepGlue.Proofs.Except

/-! What the attributes of a source file give.

A file is a tree of items, and all that counts of it is the row of the attributes on its functions.
Each attribute for a step has one entry, either a definition or an error, in the order of the row.
So an entry depends on nothing but its own attribute, and modules do not matter. -/

namespace StepGlue

namespace GlueSteps

@[simp] theorem empty_append (a : GlueSteps) : ({} : GlueSteps).append a = a := rfl

@[simp] theorem append_empty (a : GlueSteps) : a.append {} = a := by
  simp [GlueSteps.append]

theorem append_assoc (a b c : GlueSteps) : (a.append b).append c = a.append (b.append c) := by
  simp [GlueSteps.append]

theorem foldl_append (a : GlueSteps) (parts : List GlueSteps) :
    parts.foldl .append a = a.append (parts.foldl .append {}) := by
  induction parts generalizing a with
  | nil => simp
  | cons b parts ih =>
    rw [List.foldl_cons, List.foldl_cons, ih, ih (GlueSteps.append {} b), append_assoc,
      empty_append]

end GlueSteps

namespace Attribute

/-! ### The attributes of a file -/

/-- An attribute and the name of the function that it stands on. -/
structure Marking where
  function : String
  mark : Attr

def Function.markings (f : Function) : List Marking := f.attributes.map (Marking.mk f.name)

mutual

def Item.markings : Item → List Marking
  | .function f => f.markings
  | .implementation methods => methods.flatMap Function.markings
  | .module items => markingsOf items
  | .other => []

/-- The attributes on the functions and methods of items, in their order and at any depth. -/
def markingsOf : List Item → List Marking
  | [] => []
  | i :: is => i.markings ++ markingsOf is

end

theorem markingsOf_append (is js : List Item) :
    markingsOf (is ++ js) = markingsOf is ++ markingsOf js := by
  induction is with
  | nil => rfl
  | cons i is ih => simp [markingsOf, ih]

/-- What an attribute gives on its own. -/
def Marking.steps (m : Marking) : GlueSteps := attributeSteps m.function m.mark

/-- What a row of attributes gives. -/
def collect (ms : List Marking) : GlueSteps := (ms.map Marking.steps).foldl .append {}

theorem collect_append (ms ns : List Marking) :
    collect (ms ++ ns) = (collect ms).append (collect ns) := by
  unfold collect
  rw [List.map_append, List.foldl_append, GlueSteps.foldl_append]

theorem collect_cons (m : Marking) (ms : List Marking) :
    collect (m :: ms) = m.steps.append (collect ms) := by
  unfold collect
  rw [List.map_cons, List.foldl_cons, GlueSteps.foldl_append, GlueSteps.empty_append]

theorem functionSteps_eq (f : Function) : functionSteps f = collect f.markings := by
  simp [functionSteps, collect, Function.markings, Marking.steps, Function.comp_def]

theorem foldl_functionSteps (methods : List Function) :
    (methods.map functionSteps).foldl .append {} =
      collect (methods.flatMap Function.markings) := by
  induction methods with
  | nil => rfl
  | cons f methods ih =>
    rw [List.map_cons, List.foldl_cons, GlueSteps.foldl_append, GlueSteps.empty_append, ih,
      functionSteps_eq, List.flatMap_cons, collect_append]

mutual

theorem itemSteps_eq (i : Item) : itemSteps i = collect i.markings := by
  cases i with
  | function f => exact functionSteps_eq f
  | implementation methods => exact foldl_functionSteps methods
  | module items => exact allSteps_eq items
  | other => rfl

/-- Only the row of attributes counts. -/
theorem allSteps_eq (items : List Item) : allSteps items = collect (markingsOf items) := by
  cases items with
  | nil => rfl
  | cons i is => rw [allSteps, markingsOf, collect_append, itemSteps_eq i, allSteps_eq is]

end

/-! ### One entry for each -/

/-- The names that an attribute for a step ends in. -/
def stepWords : List (String × Keyword) :=
  [("given", .given), ("when", .when), ("then", .«then»)]

/-- The path of the attribute ends in the name for a keyword. -/
def Attr.Introduces (a : Attr) (k : Keyword) : Prop :=
  ∃ word, a.path.getLast? = some word ∧ (word, k) ∈ stepWords

theorem keyword?_eq_some {a : Attr} {k : Keyword} : keyword? a = some k ↔ a.Introduces k := by
  unfold keyword? Attr.Introduces stepWords
  split
  · next h => simp [h, eq_comm]
  · next h => simp [h, eq_comm]
  · next h => simp [h, eq_comm]
  · next hgiven hwhen hthen =>
    constructor
    · exact nofun
    · rintro ⟨word, hword, hmem⟩
      simp only [List.mem_cons, Prod.mk.injEq, List.not_mem_nil, or_false] at hmem
      rcases hmem with ⟨rfl, -⟩ | ⟨rfl, -⟩ | ⟨rfl, -⟩
      · exact absurd hword hgiven
      · exact absurd hword hwhen
      · exact absurd hword hthen

/-- Each attribute for a step has its entry in one of two lists, which keep the order of the
attributes and hold nothing else. -/
inductive Entries : List Marking → GlueSteps → Prop
  | nil : Entries [] {}
  | skip {m : Marking} {ms : List Marking} {found : GlueSteps}
      (hm : ∀ k, ¬ m.mark.Introduces k) (h : Entries ms found) : Entries (m :: ms) found
  | step {m : Marking} {ms : List Marking} {found : GlueSteps} {k : Keyword} {p : Pattern}
      (hk : m.mark.Introduces k) (hp : pattern m.function m.mark = .ok p)
      (h : Entries ms found) :
      Entries (m :: ms) ⟨⟨p, m.mark.line, some k⟩ :: found.steps, found.rejected⟩
  | reject {m : Marking} {ms : List Marking} {found : GlueSteps} {k : Keyword} {e : GlueError}
      (hk : m.mark.Introduces k) (he : pattern m.function m.mark = .error e)
      (h : Entries ms found) : Entries (m :: ms) ⟨found.steps, e :: found.rejected⟩

theorem entries_collect (ms : List Marking) : Entries ms (collect ms) := by
  induction ms with
  | nil => exact .nil
  | cons m ms ih =>
    rw [collect_cons, Marking.steps, attributeSteps]
    split
    · next hk =>
      refine .skip (fun k h => ?_) ih
      rw [keyword?_eq_some.mpr h] at hk
      cases hk
    · next k hk =>
      have hk := keyword?_eq_some.mp hk
      split
      · next p hp => exact .step hk hp ih
      · next e he => exact .reject hk he ih

/-! ### Changes to the tree -/

/-- An attribute is taken out, somewhere in the items. -/
inductive TakesOut : Marking → List Item → List Item → Prop
  | function (f : String) (a : Attr) (as bs : List Attr) (is js : List Item) :
      TakesOut ⟨f, a⟩ (is ++ .function ⟨as ++ a :: bs, f⟩ :: js)
        (is ++ .function ⟨as ++ bs, f⟩ :: js)
  | method (f : String) (a : Attr) (as bs : List Attr) (fs gs : List Function)
      (is js : List Item) :
      TakesOut ⟨f, a⟩ (is ++ .implementation (fs ++ ⟨as ++ a :: bs, f⟩ :: gs) :: js)
        (is ++ .implementation (fs ++ ⟨as ++ bs, f⟩ :: gs) :: js)
  | module {m : Marking} {inner inner' : List Item} (h : TakesOut m inner inner')
      (is js : List Item) : TakesOut m (is ++ .module inner :: js) (is ++ .module inner' :: js)

theorem TakesOut.markingsOf_eq {m : Marking} {items items' : List Item}
    (h : TakesOut m items items') : ∃ before after,
      markingsOf items = before ++ m :: after ∧ markingsOf items' = before ++ after := by
  induction h with
  | function f a as bs is js =>
    refine ⟨markingsOf is ++ as.map (Marking.mk f), bs.map (Marking.mk f) ++ markingsOf js, ?_, ?_⟩
    · simp [markingsOf_append, markingsOf, Item.markings, Function.markings]
    · simp [markingsOf_append, markingsOf, Item.markings, Function.markings]
  | method f a as bs fs gs is js =>
    refine ⟨markingsOf is ++ (fs.flatMap Function.markings ++ as.map (Marking.mk f)),
      bs.map (Marking.mk f) ++ (gs.flatMap Function.markings ++ markingsOf js), ?_, ?_⟩
    · simp [markingsOf_append, markingsOf, Item.markings, Function.markings]
    · simp [markingsOf_append, markingsOf, Item.markings, Function.markings]
  | module h is js ih =>
    obtain ⟨before, after, hfrom, hto⟩ := ih
    refine ⟨markingsOf is ++ before, after ++ markingsOf js, ?_, ?_⟩
    · simp [markingsOf_append, markingsOf, Item.markings, hfrom]
    · simp [markingsOf_append, markingsOf, Item.markings, hto]

/-- An attribute that is rejected takes only its own error with it. -/
theorem TakesOut.allSteps_eq {m : Marking} {items items' : List Item} (h : TakesOut m items items')
    {k : Keyword} (hk : m.mark.Introduces k) {e : GlueError}
    (he : pattern m.function m.mark = .error e) : ∃ before after,
      allSteps items = ⟨(allSteps items').steps, before ++ e :: after⟩ ∧
        (allSteps items').rejected = before ++ after := by
  obtain ⟨before, after, hfrom, hto⟩ := h.markingsOf_eq
  have hm : m.steps = { rejected := [e] } := by
    simp only [Marking.steps, attributeSteps, keyword?_eq_some.mpr hk, he]
  refine ⟨(collect before).rejected, (collect after).rejected, ?_, ?_⟩
  · rw [Attribute.allSteps_eq, Attribute.allSteps_eq, hfrom, hto, collect_append, collect_cons,
      collect_append, hm]
    rfl
  · rw [Attribute.allSteps_eq, hto, collect_append]
    rfl

/-- Some items in a row are put into a module, somewhere in the items. -/
inductive Wraps : List Item → List Item → Prop
  | here (is inner js : List Item) : Wraps (is ++ inner ++ js) (is ++ .module inner :: js)
  | module {inner inner' : List Item} (h : Wraps inner inner') (is js : List Item) :
      Wraps (is ++ .module inner :: js) (is ++ .module inner' :: js)

theorem Wraps.markingsOf_eq {items items' : List Item} (h : Wraps items items') :
    markingsOf items' = markingsOf items := by
  induction h with
  | here is inner js => simp [markingsOf_append, markingsOf, Item.markings]
  | module h is js ih => simp [markingsOf_append, markingsOf, Item.markings, ih]

/-- Any items have an entry for each attribute for a step on their functions, in the order of these.
A rejected attribute can be taken out without a change to the other entries, and items can be put
into modules without any. A file gives what the items give that it is read as. -/
theorem extract_entries (items : List Item) :
    Entries (markingsOf items) (allSteps items) ∧
      (∀ m items' k e, TakesOut m items items' → m.mark.Introduces k →
        pattern m.function m.mark = .error e → ∃ before after,
          (allSteps items).rejected = before ++ e :: after ∧
          allSteps items' = ⟨(allSteps items).steps, before ++ after⟩) ∧
      (∀ items', Wraps items items' → allSteps items' = allSteps items) ∧
      ∀ source, tokenize source >>= readItems = .ok items →
        extract source = .ok (allSteps items) := by
  refine ⟨?_, ?_, ?_, ?_⟩
  · rw [allSteps_eq]
    exact entries_collect _
  · intro m items' k e hout hk he
    obtain ⟨before, after, hall, hrejected⟩ := hout.allSteps_eq hk he
    exact ⟨before, after, by rw [hall], by rw [hall, ← hrejected]⟩
  · intro items' hwraps
    rw [allSteps_eq, allSteps_eq, hwraps.markingsOf_eq]
  · intro source hread
    obtain ⟨tokens, htokens, hitems⟩ := bind_eq_ok.mp hread
    exact bind_eq_ok.mpr ⟨tokens, htokens, bind_eq_ok.mpr ⟨items, hitems, rfl⟩⟩

/-! A module with one function, whose first attribute is rejected. -/

def nestedSource : String :=
  "mod m \x7b\n#[given(42)]\n#[then]\nfn it_works() \x7b\x7d\n\x7d"

def nestedTokens : List Token :=
  [.ident "mod" 1, .ident "m" 1, .group .brace
    [.punct '#' false 2, .group .bracket [.ident "given" 2, .group .paren [.literal 2] 2 2] 2 2,
      .punct '#' false 3, .group .bracket [.ident "then" 3] 3 3,
      .ident "fn" 4, .ident "it_works" 4, .group .paren [] 4 4, .group .brace [] 4 4] 1 5]

def badAttr : Attr := ⟨["given"], 2, 2, .list [.literal 2] 2⟩

def goodAttr : Attr := ⟨["then"], 3, 3, .absent⟩

def nestedItems (as : List Attr) : List Item := [.module [.function ⟨as, "it_works"⟩]]

theorem extract_entries_nested :
    tokenize nestedSource >>= readItems = .ok (nestedItems [badAttr, goodAttr]) ∧
    ∃ found, extract nestedSource = .ok found ∧
      found = ⟨[⟨.expression "it works", 3, some .«then»⟩], [⟨"expected identifier", 2⟩]⟩ ∧
      Entries [⟨"it_works", badAttr⟩, ⟨"it_works", goodAttr⟩] found ∧
      (allSteps (nestedItems [goodAttr])).steps = found.steps ∧
      allSteps [.module (nestedItems [badAttr, goodAttr])] = found := by
  have htokens : tokenize nestedSource = .ok nestedTokens := rfl
  have hitems : readItems nestedTokens = .ok (nestedItems [badAttr, goodAttr]) := rfl
  have hread := bind_eq_ok.mpr ⟨nestedTokens, htokens, hitems⟩
  obtain ⟨hentries, hdelete, hwrap, hfile⟩ := extract_entries (nestedItems [badAttr, goodAttr])
  have hbad : badAttr.Introduces .given := ⟨"given", rfl, by simp [stepWords]⟩
  obtain ⟨before, after, -, hothers⟩ := hdelete ⟨"it_works", badAttr⟩
    (nestedItems [goodAttr]) .given ⟨"expected identifier", 2⟩
    (.module (.function "it_works" badAttr [] [goodAttr] [] []) [] []) hbad rfl
  refine ⟨hread, _, hfile nestedSource hread, rfl, hentries, ?_, ?_⟩
  · rw [hothers]
  · exact hwrap [.module (nestedItems [badAttr, goodAttr])]
      (.here [] (nestedItems [badAttr, goodAttr]) [])

end Attribute

end StepGlue
