import ScopeAtlas.CommandLine.Run

/-!
The command line on the files of the computer.
-/

namespace ScopeAtlas.CommandLine

def faultOf : IO.Error → FileFault
  | .inappropriateType _ code _ => if code == 20 then .notADirectory else .directory
  | _ => .missing

def attempt {α : Type} (action : IO α) : IO (Except FileFault α) := do
  try
    return .ok (← action)
  catch error =>
    return .error (faultOf error)

def kindOnDisk (path : Path) : IO (Option EntryKind) := do
  try
    let file ← IO.FS.realPath path.text
    if !(← file.pathExists) then return none
    return some (if ← file.isDir then .folder else .file)
  catch _ =>
    return none

def namesOnDisk (path : Path) : IO (List String) := do
  try
    let folder ← IO.FS.realPath path.text
    return (← folder.readDir).toList.map (·.fileName)
  catch _ =>
    return []

def placeOnDisk (path : Path) : IO (Option (List String)) := do
  try
    let place ← IO.FS.realPath path.text
    return some ((Path.mk place.toString).steps.filterMap fun step =>
      match step with
      | .down name => some name
      | _ => none)
  catch _ =>
    return none

def disk : FileAccess IO where
  kind? := kindOnDisk
  read path := attempt (IO.FS.readFile path.text)
  write path contents := attempt (IO.FS.writeFile path.text contents)
  makeFolders path := attempt (IO.FS.createDirAll path.text)
  names := namesOnDisk
  place? := placeOnDisk
  fromTop place := ⟨"/" ++ "/".intercalate place⟩

end ScopeAtlas.CommandLine

open ScopeAtlas.CommandLine in
def main (arguments : List String) : IO UInt32 := do
  let outcome ← run ⟨disk, IO.monoMsNow⟩ arguments
  for line in outcome.output do
    IO.println line
  for line in outcome.errors do
    IO.eprintln line
  if outcome.code == Outcome.misuseCode then
    IO.eprintln "Usage: srcmodel [OPTIONS] <COMMAND>"
  return outcome.code.toUInt32
