import ScopeAtlas.Ignore.Glob
import ScopeAtlas.Text.Blank

/-!
Rules that leave files out. A rule is a line of an ignore file: a pattern that may be negated, bound
to the folder of the file, or meant for folders only. The last rule that matches decides.
-/

namespace ScopeAtlas.Ignore

structure Rule where
  tokens : List GlobToken
  isException : Bool
  foldersOnly : Bool

inductive Verdict
  | none
  | ignored
  | wanted
  deriving DecidableEq, Repr

def Verdict.or : Verdict → Verdict → Verdict
  | .none, other => other
  | verdict, _ => verdict

def dropHead? (head text : String) : Option String :=
  if Text.startsWith text head then some (String.ofList (text.toList.drop head.length)) else none

def dropHead (head text : String) : String :=
  (dropHead? head text).getD text

namespace Rule

/-- Blanks at the end of a line do not count, unless a backslash stands before the last. -/
def trimLine (line : String) : String :=
  if Text.endsWith line "\\ " then line
  else String.ofList (Text.trimRight line.toList)

def cutFolderMark (pattern : String) : String × Bool :=
  match pattern.toList.reverse with
  | '/' :: '\\' :: rest => (String.ofList rest.reverse, true)
  | '/' :: rest => (String.ofList rest.reverse, true)
  | _ => (pattern, false)

/-- A pattern without a slash matches at any depth, and one that ends in all steps leaves out the
folder itself. -/
def completePattern (pattern : String) (isBound : Bool) : String :=
  let placed :=
    if !isBound && !pattern.contains '/' && pattern != "**" then "**/" ++ pattern else pattern
  if Text.endsWith placed "/**" then placed ++ "/*" else placed

def ofLine? (line : String) : Option Rule :=
  if Text.startsWith line "#" then none
  else
    let trimmed := trimLine line
    if trimmed.isEmpty then none
    else
      let isLiteral := Text.startsWith trimmed "\\!" || Text.startsWith trimmed "\\#"
      let isException := !isLiteral && Text.startsWith trimmed "!"
      let pattern :=
        if isLiteral then dropHead "\\" trimmed
        else if isException then dropHead "!" trimmed
        else trimmed
      let isBound := !isLiteral && Text.startsWith pattern "/"
      let (core, foldersOnly) := cutFolderMark (if isBound then dropHead "/" pattern else pattern)
      (Glob.parse? (completePattern core isBound)).map fun tokens =>
        ⟨tokens, isException, foldersOnly⟩

def isWithinLimit (rule : Rule) : Bool :=
  Glob.nesting rule.tokens ≤ Glob.nestingLimit

end Rule

structure RuleSet where
  folder : String
  rules : List Rule

namespace RuleSet

/-- The rules of some lines. One pattern that nests too deep makes all of them void. -/
def make (folder : String) (lines : List String) : RuleSet :=
  let rules := lines.filterMap Rule.ofLine?
  ⟨dropHead "./" folder, if rules.all Rule.isWithinLimit then rules else []⟩

def fileLines (text : String) : List String :=
  match Text.lines text with
  | [] => []
  | first :: rest => String.ofList (first.toList.dropWhile (· == '\uFEFF')) :: rest

def relative (set : RuleSet) (path : String) : String :=
  let bare := dropHead "./" path
  if set.folder == "." || !bare.contains '/' then bare
  else match dropHead? set.folder bare with
    | some rest => dropHead "/" rest
    | none => bare

def verdict (set : RuleSet) (path : String) (isFolder : Bool) : Verdict :=
  let target := set.relative path
  let decisive := set.rules.reverse.find? fun rule =>
    (!rule.foldersOnly || isFolder) && Glob.isMatch rule.tokens target
  match decisive with
  | none => .none
  | some rule => if rule.isException then .wanted else .ignored

end RuleSet

end ScopeAtlas.Ignore
