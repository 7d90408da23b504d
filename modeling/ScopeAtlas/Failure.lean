/-!
Everything that can go wrong, as causes. Each cause has one message; the messages are the
only place where a failure is put into words.
-/

namespace ScopeAtlas

inductive MarkupFault
  | unknownDeclaration
  | openTag
  | openCharacterData
  | openComment
  | openDoctype
  | openInstruction
  | namelessDoctype
  | openReference
  | mismatchedEnd (expected found : String)
  | unmatchedEnd (found : String)
  deriving DecidableEq, Repr

def MarkupFault.message : MarkupFault → String
  | .unknownDeclaration => "syntax error: unknown or missed symbol in markup"
  | .openTag => "syntax error: tag not closed: `>` not found before end of input"
  | .openCharacterData => "syntax error: CDATA not closed: `]]>` not found before end of input"
  | .openComment => "syntax error: comment not closed: `-->` not found before end of input"
  | .openDoctype => "syntax error: DOCTYPE not closed: `>` not found before end of input"
  | .openInstruction =>
    "syntax error: processing instruction or xml declaration not closed: `?>` not found before end of input"
  | .namelessDoctype =>
    "ill-formed document: `<!DOCTYPE>` declaration does not contain a name of a document type"
  | .openReference =>
    "ill-formed document: entity or character reference not closed: `;` not found before end of input"
  | .mismatchedEnd expected found =>
    "ill-formed document: expected `</" ++ expected ++ ">`, but `</" ++ found ++ ">` was found"
  | .unmatchedEnd found =>
    "ill-formed document: close tag `</" ++ found ++ ">` does not match any open tag"

/-- Faults in a character or entity reference; ranges are byte offsets. -/
inductive ReferenceFault
  | unrecognized (first last : Nat) (name : String)
  | unterminated (first last : Nat)
  | signed
  | withoutDigits
  | badDigit
  | tooLarge
  | zero
  | notACharacter (code : Nat)
  deriving DecidableEq, Repr

def ReferenceFault.message : ReferenceFault → String
  | .unrecognized first last name =>
    "at " ++ toString first ++ ".." ++ toString last ++ ": unrecognized entity `" ++ name ++ "`"
  | .unterminated first last =>
    "Error while escaping character at range " ++ toString first ++ ".." ++ toString last ++
      ": Cannot find ';' after '&'"
  | .signed => "invalid character reference: unexpected number sign"
  | .withoutDigits => "invalid character reference: cannot parse integer from empty string"
  | .badDigit => "invalid character reference: invalid digit found in string"
  | .tooLarge => "invalid character reference: number too large to fit in target type"
  | .zero => "invalid character reference: 0x0 character is not permitted in XML"
  | .notACharacter code =>
    "invalid character reference: `" ++ toString code ++ "` is not a valid codepoint"

/-- Faults in the attributes of a tag; offsets are bytes from just after the opening angle. -/
inductive AttributeFault
  | expectedEquals (offset : Nat)
  | expectedValue (offset : Nat)
  | unquotedValue (offset : Nat)
  | openValue (offset : Nat) (quote : Char)
  | repeatedKey (offset earlier : Nat)
  deriving DecidableEq, Repr

def AttributeFault.message : AttributeFault → String
  | .expectedEquals offset =>
    "position " ++ toString offset ++ ": attribute key must be directly followed by `=` or space"
  | .expectedValue offset =>
    "position " ++ toString offset ++ ": `=` must be followed by an attribute value"
  | .unquotedValue offset =>
    "position " ++ toString offset ++ ": attribute value must be enclosed in `\"` or `'`"
  | .openValue offset quote =>
    "position " ++ toString offset ++ ": missing closing quote `" ++ quote.toString ++
      "` in attribute value"
  | .repeatedKey offset earlier =>
    "position " ++ toString offset ++ ": duplicated attribute, previous declaration at position " ++
      toString earlier

inductive FileFault
  | missing
  | directory
  | notADirectory
  deriving DecidableEq, Repr

def FileFault.message : FileFault → String
  | .missing => "No such file or directory (os error 2)"
  | .directory => "Is a directory (os error 21)"
  | .notADirectory => "Not a directory (os error 20)"

inductive LockUse
  | reading
  | writing
  deriving DecidableEq, Repr

def LockUse.word : LockUse → String
  | .reading => "read"
  | .writing => "write"

inductive Failure
  | markup (fault : MarkupFault)
  | reference (fault : ReferenceFault)
  | attributes (fault : AttributeFault)
  | truncatedDocument
  | emptyDocument
  | notAUnit (name : String)
  | unnamedUnit
  | unknownTypeKind (word : String)
  | unreadableDocument (path detail : String)
  | unknownLanguage (label : String)
  | file (fault : FileFault)
  | fileNotFound (path : String)
  | malformedArchive
  | archiveVersion (found expected : Nat)
  | lockTimeout (use : LockUse) (milliseconds : Nat)
  | cancelled
  deriving DecidableEq, Repr

inductive FailureKind
  | lockTimeout
  | parse
  | markup
  | file
  | serialization
  | unknownLanguage
  | fileNotFound
  | archive
  | cancelled
  deriving DecidableEq, Repr

def Failure.kind : Failure → FailureKind
  | .markup _ => .markup
  | .reference _ | .attributes _ | .truncatedDocument | .emptyDocument | .notAUnit _ | .unnamedUnit
  | .unknownTypeKind _ | .unreadableDocument _ _ => .parse
  | .unknownLanguage _ => .unknownLanguage
  | .file _ => .file
  | .fileNotFound _ => .fileNotFound
  | .malformedArchive => .serialization
  | .archiveVersion _ _ => .archive
  | .lockTimeout _ _ => .lockTimeout
  | .cancelled => .cancelled

def Failure.message : Failure → String
  | .markup fault => "XML error: " ++ fault.message
  | .reference fault => "Parse error: " ++ fault.message
  | .attributes fault => "Parse error: " ++ fault.message
  | .truncatedDocument => "Parse error: unexpected end of srcML document"
  | .emptyDocument => "Parse error: empty srcML document"
  | .notAUnit name => "Parse error: expected a srcML unit, found <" ++ name ++ ">"
  | .unnamedUnit => "Parse error: srcML unit has no filename"
  | .unknownTypeKind word => "Parse error: Unknown type kind: " ++ word
  | .unreadableDocument path detail => "Parse error: " ++ path ++ ": " ++ detail
  | .unknownLanguage label => "Unknown language: " ++ label
  | .file fault => "IO error: " ++ fault.message
  | .fileNotFound path => "File not found: " ++ path
  | .malformedArchive => "Serialization error: malformed archive"
  | .archiveVersion found expected =>
    "Archive error: unsupported archive version " ++ toString found ++ " (expected " ++
      toString expected ++ ")"
  | .lockTimeout use milliseconds =>
    "Timed out after " ++ toString milliseconds ++ "ms waiting for the program model " ++ use.word ++
      " lock"
  | .cancelled => "Operation cancelled"

end ScopeAtlas
