import Mathlib.Data.List.Induction
import StepGlue.Proofs.FileId.Text

/-! What an identity keeps of a path.

Read by its text, a path comes to a list of names: a name goes below those so far, a step up takes
the last one away, and above the root is the root. The identity of a path has exactly these names.
A step up at the root leaves a mark in front of them, though, and the next one takes the mark away
again, so after an odd number of them the identity is not the path that was meant.

What has been read of a path is all that counts for the rest of it, so a path can be resolved piece
by piece. -/

namespace StepGlue

/-- One part read after some names. -/
def lexicalStep (names : List String) : Segment → List String
  | .name n => names ++ [n]
  | .up => names.dropLast

/-- The names that a list of parts comes to. -/
def lexicalResolution (parts : List Segment) : List String := parts.foldl lexicalStep []

/-- How many steps up are taken at the root by parts that are read after some names. -/
def stepsAtRoot : List String → List Segment → Nat
  | _, [] => 0
  | names, x :: rest =>
    (if names = [] ∧ x = .up then 1 else 0) + stepsAtRoot (lexicalStep names x) rest

/-- The names that a path comes to. -/
def pathNames (p : String) : List String := lexicalResolution (pathSegments p)

/-- How many steps up a path takes at the root. -/
def rootSteps (p : String) : Nat := stepsAtRoot [] (pathSegments p)

/-- Names with the mark of the steps up at the root: one step up for an odd number of them. -/
def markedNames (steps : Nat) (names : List String) : List Segment :=
  (if steps % 2 = 1 then [.up] else []) ++ names.map .name

/-! ### The stack of a resolution -/

/-- The stack holds the names that have been come to, the last one on top, and at its bottom the
mark. -/
theorem pushSegment_markedNames (steps : Nat) (names : List String) (x : Segment) :
    pushSegment (markedNames steps names).reverse x =
      (markedNames (steps + if names = [] ∧ x = .up then 1 else 0)
        (lexicalStep names x)).reverse := by
  cases x with
  | name n => simp [markedNames, lexicalStep, pushSegment]
  | up =>
    cases names using List.reverseRecOn with
    | nil =>
      -- at the root the mark comes and goes
      rcases Nat.mod_two_eq_zero_or_one steps with h | h
      · have hnext : (steps + 1) % 2 = 1 := by omega
        simp [markedNames, lexicalStep, pushSegment, h, hnext]
      · have hnext : (steps + 1) % 2 = 0 := by omega
        simp [markedNames, lexicalStep, pushSegment, h, hnext]
    | append_singleton names n => simp [markedNames, lexicalStep, pushSegment]

theorem foldl_pushSegment_markedNames (parts : List Segment) (steps : Nat) (names : List String) :
    parts.foldl pushSegment (markedNames steps names).reverse =
      (markedNames (steps + stepsAtRoot names parts) (parts.foldl lexicalStep names)).reverse := by
  induction parts generalizing steps names with
  | nil => rfl
  | cons x parts ih =>
    rw [List.foldl_cons, pushSegment_markedNames, ih, stepsAtRoot, List.foldl_cons, Nat.add_assoc]

theorem foldl_pushSegment_nil (parts : List Segment) :
    parts.foldl pushSegment [] =
      (markedNames (stepsAtRoot [] parts) (lexicalResolution parts)).reverse := by
  have hrun := foldl_pushSegment_markedNames parts 0 []
  rwa [Nat.zero_add] at hrun

theorem resolveSegments_eq (parts : List Segment) :
    resolveSegments parts = markedNames (stepsAtRoot [] parts) (lexicalResolution parts) := by
  rw [resolveSegments, foldl_pushSegment_nil, List.reverse_reverse]

/-- The name of a part that has one. -/
def Segment.name? : Segment → Option String
  | .up => none
  | .name s => some s

theorem filterMap_name?_markedNames (steps : Nat) (names : List String) :
    (markedNames steps names).filterMap Segment.name? = names := by
  have hmark : (if steps % 2 = 1 then [Segment.up] else []).filterMap Segment.name? = [] := by
    split <;> rfl
  rw [markedNames, List.filterMap_append, hmark, List.nil_append, List.filterMap_map]
  exact List.filterMap_some

theorem up_mem_markedNames {steps : Nat} {names : List String} :
    .up ∈ markedNames steps names ↔ steps % 2 = 1 := by
  simp [markedNames]

theorem markedNames_inj {m n : Nat} {names others : List String} :
    markedNames m names = markedNames n others ↔ names = others ∧ m % 2 = n % 2 := by
  constructor
  · intro h
    have hmark : m % 2 = 1 ↔ n % 2 = 1 := by
      have hup : .up ∈ markedNames m names ↔ m % 2 = 1 := up_mem_markedNames
      rw [← hup, h, up_mem_markedNames]
    have hnames := congrArg (List.filterMap Segment.name?) h
    rw [filterMap_name?_markedNames, filterMap_name?_markedNames] at hnames
    exact ⟨hnames, by omega⟩
  · rintro ⟨rfl, h⟩
    simp only [markedNames, h]

/-! ### What the names are -/

theorem mem_foldl_lexicalStep {parts : List Segment} {names : List String} {n : String}
    (h : n ∈ parts.foldl lexicalStep names) : n ∈ names ∨ .name n ∈ parts := by
  induction parts generalizing names with
  | nil => exact Or.inl h
  | cons x parts ih =>
    rcases ih h with hn | hn
    · cases x with
      | up => exact Or.inl (List.dropLast_subset names hn)
      | name m =>
        rcases List.mem_append.mp hn with hn | hn
        · exact Or.inl hn
        · obtain rfl := List.mem_singleton.mp hn
          exact Or.inr List.mem_cons_self
    · exact Or.inr (List.mem_cons_of_mem _ hn)

theorem FileId.segments_ofPath (p : String) :
    (ofPath p).segments = markedNames (rootSteps p) (pathNames p) :=
  resolveSegments_eq _

theorem FileId.proper_of_mem_ofPath {p : String} {x : Segment} (h : x ∈ (ofPath p).segments) :
    x.Proper := by
  cases x with
  | up => trivial
  | name n =>
    rw [segments_ofPath, markedNames] at h
    have hname : n ∈ pathNames p := by
      rcases List.mem_append.mp h with h | h
      · split at h <;> simp at h
      · simpa using h
    have hpart := (mem_foldl_lexicalStep hname).resolve_left List.not_mem_nil
    exact proper_of_mem_pathSegments hpart

namespace FileId

/-- The identity of a path is the path that its text comes to, with a step up in front of it if an
odd number of steps up has been taken at the root. So it is the resolved path for an even number of
them, as for every path that stays below the root, and two paths of one resolution have one identity
if both numbers are even or both are odd. -/
theorem ofPath_resolves (p : String) :
    (ofPath p).segments = markedNames (rootSteps p) (pathNames p) ∧
      (∀ x ∈ (ofPath p).segments, x.Proper) ∧
      pathSegments (ofPath p).fullPath = (ofPath p).segments ∧
      (.up ∉ (ofPath p).segments ↔ rootSteps p % 2 = 0) ∧
      ((ofPath p).segments = (pathNames p).map .name ↔ rootSteps p % 2 = 0) ∧
      ∀ q, ofPath p = ofPath q ↔
        pathNames p = pathNames q ∧ rootSteps p % 2 = rootSteps q % 2 := by
  refine ⟨segments_ofPath p, fun x hx => proper_of_mem_ofPath hx,
    pathSegments_fullPath fun x hx => proper_of_mem_ofPath hx, ?_, ?_, fun q => ?_⟩
  · rw [segments_ofPath, up_mem_markedNames]
    exact Nat.mod_two_not_eq_one
  · rw [segments_ofPath]
    exact markedNames_inj (n := 0).trans (and_iff_right rfl)
  · rw [← markedNames_inj, ← segments_ofPath, ← segments_ofPath]
    exact ⟨congrArg segments, fun h => congrArg mk h⟩

/-- Above the root is the root, but a step up at the root stays in the identity. -/
theorem ofPath_keeps_step_at_root :
    pathNames "/../a" = ["a"] ∧ (ofPath "/../a").segments = [.up, .name "a"] ∧
      pathNames "/a" = ["a"] ∧ ofPath "/../a" ≠ ofPath "/a" := by
  decide

end FileId

/-! ### Piece by piece -/

/-- Names with a mark are on the stack as they are read: the mark comes first, while the stack is
still empty. -/
theorem foldl_markedNames (steps : Nat) (names : List String) :
    (markedNames steps names).foldl pushSegment [] = (markedNames steps names).reverse := by
  have hup : .up ∉ names.map Segment.name := by simp
  rw [markedNames, List.foldl_append, foldl_pushSegment hup, List.reverse_append]
  split <;> rfl

theorem resolveSegments_append (parts rest : List Segment) :
    resolveSegments (resolveSegments parts ++ rest) = resolveSegments (parts ++ rest) := by
  rw [resolveSegments_eq parts]
  unfold resolveSegments
  rw [List.foldl_append, List.foldl_append, foldl_markedNames, foldl_pushSegment_nil]

/-- A path can be resolved before another one is joined to it, however many steps up the other one
takes, and what has been resolved stays as it is. -/
theorem FileId.ofPath_joinPath (p q : String) :
    ofPath (joinPath p [q]) = ofPath (joinPath (ofPath p).fullPath [q]) ∧
      ofPath (ofPath p).fullPath = ofPath p := by
  have hread : pathSegments (ofPath p).fullPath = resolveSegments (pathSegments p) :=
    pathSegments_fullPath fun x hx => proper_of_mem_ofPath hx
  have hpiece : ∀ rest, resolveSegments (pathSegments (ofPath p).fullPath ++ rest) =
      resolveSegments (pathSegments p ++ rest) := by
    intro rest
    rw [hread, resolveSegments_append]
  constructor
  · rw [ofPath, ofPath, pathSegments_joinPath, pathSegments_joinPath, hpiece]
  · have hh := hpiece []
    rw [List.append_nil, List.append_nil] at hh
    exact congrArg mk hh

end StepGlue
