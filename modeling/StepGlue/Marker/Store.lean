import StepGlue.FileMap
import StepGlue.Marker.Basic

/-! The store of markers.

Changes are told to a listener file by file, or, inside a batch, once for the whole batch when
the outermost one ends. What a client does with a store is a list of calls; `run` carries it
out and collects the notifications. -/

namespace StepGlue

/-- A call that changes a store. -/
inductive StoreCall
  | beginBatch
  | endBatch
  | add (file : FileId) (marker : Marker)
  | delete (file : FileId) (kinds : List MarkerKind)
deriving DecidableEq, Repr

/-- The files that a listener is told to have changed. -/
abbrev Notification := List FileId

/-- Markers by file, the number of open batches, and the files changed inside them. -/
structure MarkerStore where
  markers : FileMap (List Marker) := {}
  depth : Nat := 0
  pending : List FileId := []

namespace MarkerStore

instance : Inhabited MarkerStore := ⟨{}⟩

def markersOf (s : MarkerStore) (file : FileId) : List Marker := (s.markers.get? file).getD []

def files (s : MarkerStore) : List FileId := s.markers.keys

def inBatch (s : MarkerStore) : Bool := 0 < s.depth

/-- Reports a changed file: at once, or at the end of the batch. -/
def changed (s : MarkerStore) (file : FileId) : MarkerStore × List Notification :=
  if s.inBatch then ({ s with pending := insertFile file s.pending }, [])
  else (s, [[file]])

def add (s : MarkerStore) (file : FileId) (m : Marker) : MarkerStore × List Notification :=
  changed { s with markers := s.markers.insert file (s.markersOf file ++ [m]) } file

/-- The markers of a file that a deletion of some kinds leaves. -/
def remaining (s : MarkerStore) (file : FileId) (kinds : List MarkerKind) : List Marker :=
  (s.markersOf file).filter fun m => !kinds.contains m.kind

/-- How many markers a deletion takes away. -/
def removedCount (s : MarkerStore) (file : FileId) (kinds : List MarkerKind) : Nat :=
  (s.markersOf file).length - (s.remaining file kinds).length

/-- Deletes the markers of some kinds. A deletion that takes nothing away is not reported. -/
def delete (s : MarkerStore) (file : FileId) (kinds : List MarkerKind) :
    MarkerStore × List Notification :=
  if s.removedCount file kinds = 0 then (s, [])
  else
    let markers := match s.remaining file kinds with
      | [] => s.markers.erase file
      | ms => s.markers.insert file ms
    changed { s with markers } file

def beginBatch (s : MarkerStore) : MarkerStore := { s with depth := s.depth + 1 }

/-- Ends a batch; the outermost one reports the files changed since it began. -/
def endBatch (s : MarkerStore) : MarkerStore × List Notification :=
  let s := { s with depth := s.depth - 1 }
  if s.inBatch || s.pending.isEmpty then (s, []) else ({ s with pending := [] }, [s.pending])

def apply (s : MarkerStore) : StoreCall → MarkerStore × List Notification
  | .beginBatch => (s.beginBatch, [])
  | .endBatch => s.endBatch
  | .add file m => s.add file m
  | .delete file kinds => s.delete file kinds

/-- Carries out calls one after the other. -/
def run (s : MarkerStore) : List StoreCall → MarkerStore × List Notification
  | [] => (s, [])
  | c :: cs =>
    let (s, told) := s.apply c
    let (s, later) := s.run cs
    (s, told ++ later)

end MarkerStore

end StepGlue
