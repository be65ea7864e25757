import Fleet.Shell.Syntax

/-!
# Tokens of shell text

The tokens that commands are made of, the words for them, and what can be wrong with shell text.
-/

namespace Fleet.Shell

/-- A token of shell text. -/
inductive Token where
  | ending
  | newline
  /-- an operator such as `;` or `&&` -/
  | operator (text : String)
  | word
  | redirection
  /-- a word that structures commands -/
  | keyword (text : String)
  deriving DecidableEq, Inhabited

namespace Token

def keywords : List String :=
  ["!", "case", "do", "done", "elif", "else", "esac", "fi", "for", "if", "in", "then", "until", "while",
    "\x7b", "\x7d"]

def description : Token → String
  | .ending => "end of file"
  | .newline => "newline"
  | .word => "word"
  | .redirection => "redirection"
  | .operator text | .keyword text => "\"" ++ text ++ "\""

def endsList : Token → Bool
  | .ending => true
  | .operator text => text ∈ [")", ";;"]
  | .keyword text => text ∈ ["do", "done", "elif", "else", "esac", "fi", "then", "\x7d"]
  | _ => false

end Token

/-- What is wrong with shell text. -/
inductive SyntaxFault where
  | unterminatedQuote
  | unterminatedBackquote
  /-- a token stands where it must not, perhaps in the place of another one -/
  | unexpected (found : Token) (wanted : Option Token)
  | missingBrace
  | missingParentheses
  | badLoopVariable
  | badFunctionName
  /-- the text is nested too deeply -/
  | tooDeep
  deriving DecidableEq, Inhabited

def SyntaxFault.message : SyntaxFault → String
  | .unterminatedQuote => "Unterminated quoted string"
  | .unterminatedBackquote => "EOF in backquote substitution"
  | .unexpected found none => found.description ++ " unexpected"
  | .unexpected found (some wanted) => found.description ++ " unexpected (expecting " ++ wanted.description ++ ")"
  | .missingBrace => "Missing '\x7d'"
  | .missingParentheses => "Missing '))'"
  | .badLoopVariable => "Bad for loop variable"
  | .badFunctionName => "Bad function name"
  | .tooDeep => "Maximum nesting level reached"

def isNameStart (c : Char) : Bool := c.isAlpha || c == '_'

def isNameChar (c : Char) : Bool := c.isAlphanum || c == '_'

def isName (s : List Char) : Bool := s.head?.any isNameStart && s.all isNameChar

/-- The builtins whose faults end the shell, and which no function can have the name of. -/
def specialBuiltins : List String :=
  [".", ":", "break", "continue", "eval", "exec", "exit", "export", "local", "readonly", "return", "set", "shift",
    "times", "trap", "unset"]

end Fleet.Shell
