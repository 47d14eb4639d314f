import StepGlue.Proofs.Marker.Turn

/-! Dealing with a store that answers.

A store may refuse to add a marker or to delete some, at any time and for any reason. A client
makes its calls one after the other and is answered each time; it notes what was refused. It
performs a list of calls if it makes just these calls, whatever the answers are. -/

namespace StepGlue

/-- Why a store does not do what it is asked to. -/
structure Refusal where
  reason : String
deriving DecidableEq, Repr

/-- What a client can ask of a store, of whatever kind the store is. -/
structure StoreInterface (σ : Type) where
  beginBatch : σ → σ
  endBatch : σ → σ
  add : FileId → Marker → σ → Except Refusal Unit × σ
  delete : FileId → List MarkerKind → σ → Except Refusal Nat × σ

/-- A store that is being dealt with: its state, the calls made so far, and what was refused. -/
structure Dealings (σ : Type) where
  state : σ
  calls : List StoreCall := []
  refused : List (FileId × Refusal) := []

/-- What can be done by dealing with a store. -/
abbrev Client (σ : Type) := StateM (Dealings σ)

namespace StoreInterface

variable {σ α β : Type} (k : StoreInterface σ)

/-- What a store makes of a call. -/
def apply (s : σ) : StoreCall → σ
  | .beginBatch => k.beginBatch s
  | .endBatch => k.endBatch s
  | .add f m => (k.add f m s).2
  | .delete f kinds => (k.delete f kinds s).2

/-- Makes a call that has no answer. -/
def tell (c : StoreCall) : Client σ Unit :=
  modify fun d => { d with state := k.apply d.state c, calls := d.calls ++ [c] }

def askAdd (f : FileId) (m : Marker) : Client σ (Except Refusal Unit) :=
  modifyGet fun d =>
    let (answer, state) := k.add f m d.state
    (answer, { d with state, calls := d.calls ++ [.add f m] })

def askDelete (f : FileId) (kinds : List MarkerKind) : Client σ (Except Refusal Nat) :=
  modifyGet fun d =>
    let (answer, state) := k.delete f kinds d.state
    (answer, { d with state, calls := d.calls ++ [.delete f kinds] })

def note (f : FileId) : Except Refusal α → Client σ Unit
  | .ok _ => pure ()
  | .error r => modify fun d => { d with refused := d.refused ++ [(f, r)] }

def clean (f : FileId) : Client σ Unit := do
  note f (← k.askDelete f MarkerKind.all)

def batch (x : Client σ α) : Client σ α := do
  k.tell .beginBatch
  let a ← x
  k.tell .endBatch
  pure a

/-- Places a marker, or none, in a batch of its own. -/
def place (f : FileId) (marker : Option Marker) : Client σ Unit :=
  k.batch do
    match marker with
    | none => pure ()
    | some m => note f (← k.askAdd f m)

/-- Whatever the store answers, a client comes to this result and makes these calls, and no
others. -/
def Performs (x : Client σ α) (a : α) (calls : List StoreCall) : Prop :=
  ∀ d, (x.run d).1 = a ∧ (x.run d).2.calls = d.calls ++ calls ∧
    (x.run d).2.state = calls.foldl k.apply d.state

variable {k}

theorem performs_pure (a : α) : k.Performs (pure a) a [] := fun d =>
  ⟨rfl, (List.append_nil d.calls).symm, rfl⟩

theorem Performs.bind {x : Client σ α} {a : α} {cs : List StoreCall} (hx : k.Performs x a cs)
    {f : α → Client σ β} {b : β} {ds : List StoreCall} (hf : k.Performs (f a) b ds) :
    k.Performs (x >>= f) b (cs ++ ds) := by
  intro d
  obtain ⟨hresult, hcalls, hstate⟩ := hx d
  have hrun : (x >>= f).run d = (f (x.run d).1).run (x.run d).2 := rfl
  obtain ⟨hresult', hcalls', hstate'⟩ := hf (x.run d).2
  rw [hrun, hresult, hcalls', hstate', hcalls, hstate, List.append_assoc, List.foldl_append]
  exact ⟨hresult', rfl, rfl⟩

/-- What is made of a result costs no call. -/
theorem Performs.result {x : Client σ α} {a : α} {cs : List StoreCall} (hx : k.Performs x a cs)
    (g : α → β) : k.Performs (x >>= fun a => pure (g a)) (g a) cs := by
  have hh := hx.bind (f := fun a => pure (g a)) (performs_pure (g a))
  rwa [List.append_nil] at hh

theorem performs_tell (c : StoreCall) : k.Performs (k.tell c) () [c] := fun _ => ⟨rfl, rfl, rfl⟩

theorem performs_note (f : FileId) (answer : Except Refusal α) :
    k.Performs (note f answer) () [] := by
  intro d
  cases answer with
  | ok a => exact ⟨rfl, (List.append_nil d.calls).symm, rfl⟩
  | error r => exact ⟨rfl, (List.append_nil d.calls).symm, rfl⟩

/-- An answer that is only noted makes no difference. -/
theorem performs_noted {x : Client σ (Except Refusal α)} {c : StoreCall}
    (hx : ∀ d, (x.run d).2 = { d with state := k.apply d.state c, calls := d.calls ++ [c] })
    (f : FileId) : k.Performs (x >>= note f) () [c] := by
  intro d
  have hrun : (x >>= note f).run d = (note f (x.run d).1).run (x.run d).2 := rfl
  obtain ⟨-, hcalls, hstate⟩ := performs_note (k := k) f (x.run d).1 (x.run d).2
  rw [hrun, hcalls, hstate, hx]
  exact ⟨rfl, List.append_nil _, rfl⟩

theorem performs_clean (f : FileId) : k.Performs (k.clean f) () (cleaning f) :=
  performs_noted (fun _ => rfl) f

theorem Performs.batch {x : Client σ α} {a : α} {cs : List StoreCall} (hx : k.Performs x a cs) :
    k.Performs (k.batch x) a (inBatch cs) := by
  have hend : k.Performs (do k.tell .endBatch; pure a) a [.endBatch] :=
    (performs_tell .endBatch).result fun _ => a
  exact (performs_tell .beginBatch).bind (hx.bind hend)

theorem performs_place (f : FileId) (marker : Option Marker) :
    k.Performs (k.place f marker) () (placing f marker) := by
  refine Performs.batch ?_
  cases marker with
  | none => exact performs_pure ()
  | some m => exact performs_noted (fun _ => rfl) f

theorem performs_forM {f : α → Client σ PUnit} {calls : α → List StoreCall}
    (h : ∀ a, k.Performs (f a) .unit (calls a)) (l : List α) :
    k.Performs (l.forM f) .unit (l.flatMap calls) := by
  induction l with
  | nil => exact performs_pure PUnit.unit
  | cons a l ih => exact (h a).bind ih

/-- A loop that has something to say only of what it picks. -/
theorem performs_forM_pick {pick : α → Option β} {f : α → Client σ PUnit}
    {calls : β → List StoreCall} (h : ∀ a, k.Performs (f a) .unit ((pick a).elim [] calls))
    (l : List α) : k.Performs (l.forM f) .unit ((l.filterMap pick).flatMap calls) := by
  have hcalls : (l.filterMap pick).flatMap calls = l.flatMap fun a => (pick a).elim [] calls := by
    induction l with
    | nil => rfl
    | cons a l ih =>
      rw [List.flatMap_cons, ← ih, List.filterMap_cons]
      cases pick a <;> rfl
  rw [hcalls]
  exact performs_forM h l

end StoreInterface

/-- The store that keeps its markers in memory refuses nothing. -/
def StoreInterface.inMemory : StoreInterface MarkerStore where
  beginBatch := MarkerStore.beginBatch
  endBatch s := s.endBatch.1
  add f m s := (.ok (), (s.add f m).1)
  delete f kinds s := (.ok (s.removedCount f kinds), (s.delete f kinds).1)

theorem StoreInterface.foldl_inMemory (s : MarkerStore) (calls : List StoreCall) :
    calls.foldl inMemory.apply s = (s.run calls).1 := by
  induction calls generalizing s with
  | nil => rfl
  | cons c cs ih =>
    have hc : inMemory.apply s c = (s.apply c).1 := by cases c <;> rfl
    rw [List.foldl_cons, hc, ih]
    rfl

end StepGlue
