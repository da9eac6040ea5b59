/-!
# Lower case

Words are compared with tables of ASCII names in lower case. Only ASCII letters and two other
characters have a lower-case form with an ASCII letter in it, so all other characters can stay as
they are: with or without them, a name that holds one is in no table.
-/

namespace KixScript

/-- The lower-case form of a character, as far as it can spell an ASCII name. The Kelvin sign is a
capital `k`, and the capital dotted `i` becomes `i` and a combining dot. -/
def lowerChar (c : Char) : List Char :=
  if c = '\u212a' then ['k']
  else if c = '\u0130' then ['i', '\u0307']
  else [c.toLower]

/-- A text in lower case. -/
def lower (text : List Char) : List Char :=
  text.flatMap lowerChar

@[simp] theorem lower_nil : lower [] = [] := rfl

@[simp] theorem lower_cons (c : Char) (text : List Char) :
    lower (c :: text) = lowerChar c ++ lower text := by
  simp [lower]

@[simp] theorem lower_append (first second : List Char) :
    lower (first ++ second) = lower first ++ lower second := by
  simp [lower]

end KixScript
