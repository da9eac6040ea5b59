import KixScript.Text.Alphanumeric

/-!
# Characters of a script

The classes of characters that the rest of the library cuts scripts by.
-/

namespace KixScript

/-- Characters of a variable, label or function name. -/
def isUserChar (c : Char) : Bool :=
  isAlphanumeric c || c == '_'

/-- The marks that begin a macro, a variable and a label. -/
def isSigil (c : Char) : Bool :=
  c == '@' || c == '$' || c == ':'

/-- Characters of a word: those of a name, the sigils and the print command `?`. -/
def isWordChar (c : Char) : Bool :=
  isUserChar c || isSigil c || c == '?'

/-- Blanks are the space and the tab; no other white space indents a line. -/
def isBlank (c : Char) : Bool :=
  c == ' ' || c == '\t'

/-- The two characters a line may end with. -/
def isLineEnd (c : Char) : Bool :=
  c == '\r' || c == '\n'

/-- A string is enclosed by two of the same quote. -/
def isQuote (c : Char) : Bool :=
  c == '"' || c == '\x27'

end KixScript
