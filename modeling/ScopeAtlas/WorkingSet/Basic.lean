import ScopeAtlas.Program
import ScopeAtlas.WorkingSet.Event

/-!
Working sets: a program that many share, with the documents it was made from. Documents are
reread only when their contents change, and what a document contributed is replaced as a whole.

A lock guards the program: any number of readers, or one writer. A lock that is wanted while it is
held in a conflicting way is given up after a time. Reading and parsing need no lock; merging takes
the lock for one document at a time.
-/

namespace ScopeAtlas

namespace WorkingSet

structure Tracked (Digest : Type) where
  path : Path
  digest : Digest
  sources : List String

structure LockState where
  readers : Nat
  writer : Bool
  deriving DecidableEq, Repr

def LockState.free : LockState := ⟨0, false⟩

end WorkingSet

structure WorkingSet (Digest : Type) where
  program : Program
  tracked : List (WorkingSet.Tracked Digest)
  lock : WorkingSet.LockState
  patience : Nat
  /-- What is kept of the contents of a document, to tell later whether they have changed. -/
  digest : String → Digest

namespace WorkingSet

variable {Digest : Type}

def ofProgram (digest : String → Digest) (program : Program) (patience : Nat) :
    WorkingSet Digest :=
  ⟨program, [], .free, patience, digest⟩

/-! ### Locks -/

def checkRead (set : WorkingSet Digest) (patience : Nat) : Except Failure Unit :=
  if set.lock.writer then .error (.lockTimeout .reading patience) else .ok ()

def checkWrite (set : WorkingSet Digest) (patience : Nat) : Except Failure Unit :=
  if set.lock.writer || set.lock.readers != 0 then .error (.lockTimeout .writing patience)
  else .ok ()

def holdRead (set : WorkingSet Digest) (patience : Nat) : Except Failure (WorkingSet Digest) := do
  set.checkRead patience
  return { set with lock := { set.lock with readers := set.lock.readers + 1 } }

def releaseRead (set : WorkingSet Digest) : WorkingSet Digest :=
  { set with lock := { set.lock with readers := set.lock.readers - 1 } }

def holdWrite (set : WorkingSet Digest) (patience : Nat) : Except Failure (WorkingSet Digest) := do
  set.checkWrite patience
  return { set with lock := { set.lock with writer := true } }

def releaseWrite (set : WorkingSet Digest) : WorkingSet Digest :=
  { set with lock := { set.lock with writer := false } }

def query {α : Type} (set : WorkingSet Digest) (patience : Nat) (ask : Program → α) :
    Except Failure α := do
  set.checkRead patience
  return ask set.program

def queryUnless {α : Type} (set : WorkingSet Digest) (cancelled : Bool) (patience : Nat)
    (ask : Program → α) : Except Failure α :=
  if cancelled then .error .cancelled else set.query patience ask

/-! ### Tracked documents -/

def find? (set : WorkingSet Digest) (path : Path) : Option (Tracked Digest) :=
  set.tracked.find? fun entry => entry.path.same path

def contains (set : WorkingSet Digest) (path : Path) : Bool :=
  (set.find? path).isSome

def files (set : WorkingSet Digest) : List Path :=
  (set.tracked.map (·.path)).mergeSort fun left right => (left.compare right) != .gt

def dropDocument (set : WorkingSet Digest) (path : Path) : WorkingSet Digest :=
  match set.find? path with
  | none => set
  | some previous =>
    { set with
      program := previous.sources.foldl (fun program file => (program.removeFile file).1) set.program
      tracked := set.tracked.filter fun entry => !entry.path.same path }

def mergeDocument (set : WorkingSet Digest) (path : Path) (contents : String)
    (units : List ScopeTree) : WorkingSet Digest :=
  let entry : Tracked Digest := ⟨path, set.digest contents, units.flatMap ScopeTree.files⟩
  { set with
    program := (set.program.mergeUnits units).1
    tracked :=
      if set.contains path then
        set.tracked.map fun other =>
          if other.path.same path then { entry with path := other.path } else other
      else set.tracked ++ [entry] }

/-! ### Reading -/

inductive Reading
  | unchanged
  | units (status : FileStatus) (contents : String) (trees : List ScopeTree)
  | failed (reason : String)

def readDocument [DecidableEq Digest] (digest : String → Digest) (known : Option Digest)
    (contents : Except FileFault String) : Reading :=
  match contents with
  | .error fault => .failed fault.message
  | .ok text =>
    if known == some (digest text) then .unchanged
    else match SourceUnit.readDocument text with
      | .ok trees => .units (if known.isSome then .modified else .new) text trees
      | .error cause => .failed cause.message

def apply (set : WorkingSet Digest) (path : Path) (contents : String) (units : List ScopeTree) :
    Except Failure (WorkingSet Digest) := do
  set.checkWrite set.patience
  return (set.dropDocument path).mergeDocument path contents units

def changeEvent (path : Path) : FileStatus → Event
  | .modified => .fileUpdated path
  | _ => .fileAdded path

/-! ### Changes -/

structure Change (Digest α : Type) where
  result : Except Failure α
  events : List Event
  set : WorkingSet Digest

def addOrUpdate [DecidableEq Digest] (set : WorkingSet Digest) (path : Path)
    (contents : Except FileFault String) : Change Digest FileStatus :=
  match readDocument set.digest ((set.find? path).map (·.digest)) contents with
  | .unchanged => ⟨.ok .unchanged, [], set⟩
  | .failed reason =>
    ⟨.error (.unreadableDocument path.text reason), [.fileFailed path reason], set⟩
  | .units status text trees =>
    match set.apply path text trees with
    | .error cause => ⟨.error cause, [], set⟩
    | .ok merged => ⟨.ok status, [changeEvent path status], merged⟩

def remove (set : WorkingSet Digest) (path : Path) : Change Digest Bool :=
  match set.checkWrite set.patience with
  | .error cause => ⟨.error cause, [], set⟩
  | .ok () =>
    if set.contains path then ⟨.ok true, [.fileRemoved path], set.dropDocument path⟩
    else ⟨.ok false, [], set⟩

def rename [DecidableEq Digest] (set : WorkingSet Digest) (source target : Path)
    (contents : Except FileFault String) : Change Digest Unit :=
  if !set.contains source then ⟨.error (.fileNotFound source.text), [], set⟩
  else match readDocument set.digest none contents with
    | .unchanged => ⟨.error (.unreadableDocument target.text "nothing to merge"), [], set⟩
    | .failed reason => ⟨.error (.unreadableDocument target.text reason), [], set⟩
    | .units _ text trees =>
      match set.checkWrite set.patience with
      | .error cause => ⟨.error cause, [], set⟩
      | .ok () =>
        ⟨.ok (), [.fileRenamed source target],
          (set.dropDocument source).mergeDocument target text trees⟩

def clear (set : WorkingSet Digest) : Change Digest Unit :=
  match set.checkWrite set.patience with
  | .error cause => ⟨.error cause, [], set⟩
  | .ok () => ⟨.ok (), [], { set with program := set.program.clear, tracked := [] }⟩

/-- Merges documents that have been read, one after the other. A document that could not be read
does not stop the others, a lock that cannot be had does. -/
def mergeReadings (set : WorkingSet Digest) (summary : UpdateSummary) :
    List (Path × Reading) → Change Digest UpdateSummary
  | [] => ⟨.ok summary, [], set⟩
  | (_, .unchanged) :: rest => mergeReadings set (summary.count .unchanged) rest
  | (path, .failed reason) :: rest =>
    let after := mergeReadings set summary.countFailure rest
    { after with events := .fileFailed path reason :: after.events }
  | (path, .units status text trees) :: rest =>
    match set.apply path text trees with
    | .error cause => ⟨.error cause, [], set⟩
    | .ok merged =>
      let after := mergeReadings merged (summary.count status) rest
      { after with events := changeEvent path status :: after.events }

/-- Merges those of the documents whose contents changed. All of them are read against what the
set held at the start. -/
def update [DecidableEq Digest] (set : WorkingSet Digest)
    (documents : List (Path × Except FileFault String)) : Change Digest UpdateSummary :=
  let readings := documents.map fun (path, contents) =>
    (path, readDocument set.digest ((set.find? path).map (·.digest)) contents)
  let change := mergeReadings set .zero readings
  let completed := match change.result with
    | .ok summary => [Event.updateCompleted summary]
    | .error _ => []
  { change with events := .updateStarted documents.length :: change.events ++ completed }

end WorkingSet

end ScopeAtlas
