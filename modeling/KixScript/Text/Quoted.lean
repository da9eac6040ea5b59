import KixScript.Text.Printable

/-!
# Quoted text

Text is quoted with `'`, or with `"` if it holds a `'` and no `"`. The quote in use and the
backslash are written behind a backslash, and characters that are not printable are written by their
code.
-/

namespace KixScript

/-- The quote that a text is enclosed by. -/
def quoteFor (text : List Char) : Char :=
  if text.contains '\x27' && !text.contains '"' then '"' else '\x27'

/-- A number in lower-case hexadecimal digits, filled up with zeros to a width. -/
def hexadecimal (width value : Nat) : List Char :=
  let digits := Nat.toDigits 16 value
  List.replicate (width - digits.length) '0' ++ digits

/-- The code of a character, in the shortest of the three forms that holds it. -/
def codeEscape (c : Char) : List Char :=
  if c.toNat < 0x100 then ['\\', 'x'] ++ hexadecimal 2 c.toNat
  else if c.toNat < 0x10000 then ['\\', 'u'] ++ hexadecimal 4 c.toNat
  else ['\\', 'U'] ++ hexadecimal 8 c.toNat

/-- A character as it is written inside of quotes. -/
def quotedChar (quote c : Char) : List Char :=
  if c = quote || c = '\\' then ['\\', c]
  else if c = '\n' then ['\\', 'n']
  else if c = '\r' then ['\\', 'r']
  else if c = '\t' then ['\\', 't']
  else if isPrintable c then [c]
  else codeEscape c

/-- A text in quotes. -/
def quotedChars (text : List Char) : List Char :=
  let quote := quoteFor text
  quote :: text.flatMap (quotedChar quote) ++ [quote]

/-- A text in quotes. -/
def quoted (text : String) : String :=
  String.ofList (quotedChars text.toList)

end KixScript
