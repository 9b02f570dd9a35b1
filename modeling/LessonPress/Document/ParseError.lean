/-!
# Parse errors

## What makes a text no document, and on which line
-/

namespace LessonPress

inductive ParseFault where
  | unterminatedFrontmatter
  | unterminatedFence
  | unterminatedTag (element : String)
  | brokenSlash (element : String)
  | strayCharacter (shown : String) (element : String)
  | unterminatedString (name : String)
  | unterminatedExpression (name : String)
  | unquotedValue (name : String)
  | contentAfterTag (element : String)
  | missingClosing (element : String)
deriving DecidableEq, Inhabited

namespace ParseFault

def message : ParseFault -> String
  | unterminatedFrontmatter => "unterminated frontmatter"
  | unterminatedFence => "unterminated code fence"
  | unterminatedTag element => "unterminated <" ++ element ++ "> tag"
  | brokenSlash element => "expected `>` after `/` in <" ++ element ++ ">"
  | strayCharacter shown element =>
      "unexpected character " ++ shown ++ " in <" ++ element ++ "> tag"
  | unterminatedString name => "unterminated string in attribute `" ++ name ++ "`"
  | unterminatedExpression name => "unterminated expression in attribute `" ++ name ++ "`"
  | unquotedValue name => "value of attribute `" ++ name ++ "` must be quoted"
  | contentAfterTag element => "unexpected content after <" ++ element ++ " />"
  | missingClosing element => "missing closing </" ++ element ++ ">"

end ParseFault

structure ParseError where
  line : Nat
  fault : ParseFault
deriving DecidableEq, Inhabited

namespace ParseError

def message (error : ParseError) : String :=
  "line " ++ toString error.line ++ ": " ++ error.fault.message

end ParseError
end LessonPress
