import ScopeAtlas.Archive.Files
import ScopeAtlas.CommandLine.Invocation
import ScopeAtlas.Expression.Display
import ScopeAtlas.Ignore.Inputs
import ScopeAtlas.Query.Calls
import ScopeAtlas.Report.Duration
import ScopeAtlas.Report.Table
import ScopeAtlas.Settings.Files
import ScopeAtlas.WorkingSet.Basic

/-!
What the commands do and print.
-/

namespace ScopeAtlas.CommandLine

structure Outcome where
  code : Nat
  output : List String
  errors : List String

namespace Outcome

def misuseCode : Nat := 2

def printed (lines : List String) : Outcome := ⟨0, lines, []⟩

def warned (lines : List String) : Outcome := ⟨0, [], lines⟩

def failed (before : List String) (warnings : List String) (message : String)
    (cause : Option String) : Outcome :=
  let chain := match cause with
    | none => []
    | some text => ["", "Caused by:", "    " ++ text]
  ⟨1, before, warnings ++ ("Error: " ++ message) :: chain⟩

end Outcome

def causeOf : Failure → Option String
  | .file fault => some fault.message
  | .markup fault => some fault.message
  | _ => none

structure Host (m : Type → Type) where
  files : FileAccess m
  clock : m Nat

def queryPatience : Nat := 30000

def updatePatience : Nat := 5000

/-- Where the archive is: as the command says, else as the settings say, else in the usual place. -/
def archivePath (given : Option Path) (settings : Settings) : Path :=
  (given.or (settings.archive.map Path.mk)).getD (Settings.defaultArchive ⟨"."⟩)

def describe (program : Program) (id : StatementId) : String :=
  match program.tree.get? id with
  | none => "#" ++ toString id
  | some statement =>
    let label := "[" ++ statement.kind.word ++ "] "
    let place := (statement.primaryLocation?.map Location.display).getD ""
    match program.tree.qualifiedName id with
    | "" => label ++ place
    | name => label ++ name ++ " (" ++ place ++ ")"

def statisticsTable (counts : Statistics) : List String :=
  Text.lines (Report.Table.render [
    ⟨"Files", toString counts.files⟩,
    ⟨"Namespaces", toString counts.namespaces⟩,
    ⟨"Types", toString counts.types⟩,
    ⟨"Methods", toString counts.methods⟩,
    ⟨"Statements", toString counts.statements⟩,
    ⟨"Method calls", toString counts.calls⟩,
    ⟨"Declarations", toString counts.declarations⟩,
    ⟨"Ambiguous scopes", toString counts.ambiguous⟩])

def scopeLines (program : Program) (spot : Spot) : List String :=
  let location := spot.location
  match (program.tree.scopeAt? location).filter (· != ScopeTree.root) with
  | none => ["∅ " ++ location.display ++ " is at global scope."]
  | some id =>
    ("🔎 " ++ describe program id) ::
      ((program.tree.ancestors id).filter (· != ScopeTree.root)).map fun ancestor =>
        "  in " ++ describe program ancestor

def callLines (program : Program) (spot : Spot) : List String :=
  let location := spot.location
  match program.tree.callsAt location with
  | [] => ["∅ No calls at " ++ location.display ++ "."]
  | calls => calls.flatMap fun call =>
      let targets := program.resolver.methodsOf call
      ("📱 " ++ call.display ++ " (" ++ call.location.display ++ ")") ::
        (if targets.isEmpty then ["  unresolved"]
          else targets.map fun target => "  ➡️ " ++ describe program target)

def callerLines (program : Program) (depth : Nat) (graph : CallGraph) (target : StatementId) :
    List String :=
  let calls := program.resolver.allCallsTo target
  let direct :=
    if calls.isEmpty then ["  ∅ No callers found."]
    else calls.map fun call => "  - " ++ call.display ++ " (" ++ call.location.display ++ ")"
  let indirect :=
    if depth ≤ 1 then []
    else (graph.transitiveCallers target depth).map fun caller => "  🟠 " ++ describe program caller
  ("📱 Calls to " ++ describe program target) :: direct ++ indirect

def callersOutcome (program : Program) (method : String) (depth : Nat) : Outcome :=
  match program.findMethods method with
  | [] => .warned ["❌ No method named " ++ method]
  | targets =>
    let graph := if depth ≤ 1 then .empty else program.callGraph
    .printed (targets.flatMap (callerLines program depth graph))

variable {m : Type → Type} [Monad m]

def withProgram (host : Host m) (archive : Option Path) (settings : Settings)
    (ask : Program → Outcome) : m Outcome := do
  match ← Archive.load host.files (archivePath archive settings) with
  | .ok program => return ask program
  | .error cause =>
    return .failed [] [] (cause.message ++ " (run `srcmodel load` first)") none

def runLoad (host : Host m) (path : Path) (archive : Option Path) (settings : Settings) :
    m Outcome := do
  let target := archivePath archive settings
  let inputs ← Ignore.collect host.files path settings.documentExtensions []
  if inputs.isEmpty then return .warned ["⚠️ No srcML files found under " ++ path.text]
  let started ← host.clock
  let documents ← inputs.mapM fun input => do return (input, ← host.files.read input)
  let set := WorkingSet.ofProgram id (.empty .cPlusPlus) (settings.lockPatience.getD updatePatience)
  let change := set.update documents
  let head := ["🚀 Loading " ++ toString inputs.length ++ " srcML files", "📄 Path: " ++ path.text]
  match change.result with
  | .error cause => return .failed head [] cause.message (causeOf cause)
  | .ok summary =>
    let program := change.set.program
    let counts := program.statistics
    let edges := program.callGraph.edgeCount
    let elapsed := (← host.clock) - started
    let warnings :=
      if summary.failed == 0 then []
      else ["⚠️ " ++ toString summary.failed ++ " srcML files could not be loaded"]
    let lines := head ++ ["", "✅ Complete in " ++ Report.duration elapsed,
      "  📄 " ++ toString counts.files ++ "  📦 " ++
        toString (counts.namespaces + counts.types + counts.methods) ++ "  🔗 " ++ toString edges] ++
      statisticsTable counts
    match ← Archive.save host.files program target with
    | .error cause => return .failed lines warnings cause.message (causeOf cause)
    | .ok () => return ⟨0, lines ++ ["✅ Program model saved to " ++ target.text], warnings⟩

def runStats (host : Host m) (archive : Option Path) (settings : Settings) :
    m Outcome := do
  let path := archivePath archive settings
  match ← Archive.load host.files path with
  | .error cause => return .failed [] [] cause.message (causeOf cause)
  | .ok program =>
    return .printed
      (("📊 srcmodel statistics (" ++ path.text ++ ")") :: statisticsTable program.statistics)

def startingSettings : Settings :=
  ⟨none, some 5000, some (Settings.defaultArchive ⟨"."⟩).text, some ["xml"]⟩

def runInit (host : Host m) (path : Option Path) (force : Bool) : m Outcome := do
  let target := path.getD Settings.defaultPath
  match ← Settings.write host.files target startingSettings force with
  | .error fault => return .failed [] [] fault.message none
  | .ok () =>
    match ← Settings.ensureIgnored host.files ⟨"."⟩ with
    | .error fault => return .failed [] [] fault.message none
    | .ok () => return .printed ["✅ Wrote " ++ target.text]

def runCommand (host : Host m) (path : Option Path) (settings : Settings) :
    Command → m Outcome
  | .load source archive _ => runLoad host source archive settings
  | .scope spot archive =>
    withProgram host archive settings fun program => .printed (scopeLines program spot)
  | .calls spot archive =>
    withProgram host archive settings fun program => .printed (callLines program spot)
  | .callers method archive depth =>
    withProgram host archive settings fun program => callersOutcome program method depth
  | .stats archive => runStats host archive settings
  | .init force => runInit host path force

def run (host : Host m) (words : List String) : m Outcome := do
  match Invocation.ofWords words with
  | .error .misuse => return ⟨Outcome.misuseCode, [], []⟩
  | .error .help => return .printed ["Cross-file program model for srcML documents"]
  | .error .version => return .printed ["srcmodel 0.0.1"]
  | .ok invocation =>
    match ← Settings.load host.files invocation.settings with
    | .error fault => return .failed [] [] fault.message none
    | .ok settings =>
      runCommand host invocation.settings (settings.getD .unset) invocation.command

end ScopeAtlas.CommandLine
