import ScopeAtlas.Storage.Path

/-!
What a working set tells its subscribers, and the progress messages made of it.
-/

namespace ScopeAtlas.WorkingSet

inductive FileStatus
  | new
  | modified
  | unchanged
  deriving DecidableEq, Repr

structure UpdateSummary where
  added : Nat
  updated : Nat
  unchanged : Nat
  failed : Nat
  deriving DecidableEq, Repr, Inhabited

namespace UpdateSummary

def zero : UpdateSummary := ⟨0, 0, 0, 0⟩

def countFailure (summary : UpdateSummary) : UpdateSummary :=
  { summary with failed := summary.failed + 1 }

def count (summary : UpdateSummary) : FileStatus → UpdateSummary
  | .new => { summary with added := summary.added + 1 }
  | .modified => { summary with updated := summary.updated + 1 }
  | .unchanged => { summary with unchanged := summary.unchanged + 1 }

end UpdateSummary

inductive Event
  | updateStarted (files : Nat)
  | fileAdded (path : Path)
  | fileUpdated (path : Path)
  | fileRemoved (path : Path)
  | fileRenamed (source target : Path)
  | fileFailed (path : Path) (reason : String)
  | updateCompleted (summary : UpdateSummary)

inductive ProgressMessage
  | started (total : Nat)
  | progress (file : Option String)
  | finished
  | fileNew (file : String)
  | fileModified (file : String)
  | fileDeleted (file : String)
  | error (text : String)
  deriving DecidableEq, Repr

def Event.progress : Event → ProgressMessage
  | .updateStarted files => .started files
  | .fileAdded path => .fileNew path.text
  | .fileUpdated path => .fileModified path.text
  | .fileRemoved path => .fileDeleted path.text
  | .fileRenamed _ target => .progress (some target.text)
  | .fileFailed path reason => .error (path.text ++ ": " ++ reason)
  | .updateCompleted _ => .finished

end ScopeAtlas.WorkingSet
