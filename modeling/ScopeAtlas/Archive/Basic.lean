import ScopeAtlas.Archive.Decode
import ScopeAtlas.Archive.Encode
import ScopeAtlas.Json.Parse
import ScopeAtlas.Json.Print
import ScopeAtlas.Program

/-!
Archives: the text that a program is kept as. An archive states the version of its form, and
another version is refused rather than guessed at. One that nests too deep is refused as well.
-/

namespace ScopeAtlas.Archive

def version : Nat := 1

def encode (tree : ScopeTree) : Json :=
  .record [("version", .ofNat version), ("tree", tree.toJson)]

def write (program : Program) : String :=
  (encode program.tree).print

def levelLimit : Nat := 127

def decode? : Nat → Json → Option (Nat × ScopeTree)
  | 0, _ => none
  | levels + 1, json => do
    match ← json.fields? ["version", "tree"] with
    | [stated, tree] =>
      return (← Json.required? Json.count? stated,
        ← Json.required? (ScopeTree.ofJson? levels) tree)
    | _ => none

def read (text : String) : Except Failure Program :=
  match (Json.parse? text).bind (decode? levelLimit) with
  | none => .error .malformedArchive
  | some (stated, tree) =>
    if stated = version then .ok (.ofTree tree) else .error (.archiveVersion stated version)

end ScopeAtlas.Archive
