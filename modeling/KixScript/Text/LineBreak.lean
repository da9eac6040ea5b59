/-!
# Line breaks

Source lines that are shown to a reader are broken wherever a text viewer breaks them, which is at
more characters than the line feed. A carriage return and a line feed together are one break.
-/

namespace KixScript

/-- Whether a character breaks lines. -/
def isLineBreak (c : Char) : Bool :=
  ['\n', '\r', '\x0b', '\x0c', '\x1c', '\x1d', '\x1e', '\u0085', '\u2028', '\u2029'].contains c

/-- The lines of a text, each with the break that ends it. -/
def brokenLines : List Char → List (List Char)
  | [] => []
  | '\r' :: '\n' :: rest => ['\r', '\n'] :: brokenLines rest
  | c :: rest =>
    if isLineBreak c then [c] :: brokenLines rest
    else
      match brokenLines rest with
      | [] => [[c]]
      | line :: more => (c :: line) :: more

/-- A text without any `c` at its end. -/
def dropTrailing (c : Char) (text : List Char) : List Char :=
  (text.reverse.dropWhile (· == c)).reverse

/-- A line without the line feed and the carriage returns at its end. -/
def shownLine (line : List Char) : List Char :=
  dropTrailing '\r' (dropTrailing '\n' line)

end KixScript
