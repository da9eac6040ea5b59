import KixScript.Calendar

/-!
# Reading dates and times

A date is written `1979-05-27` and a time `07:32:00`, with parts of a second behind a point. A time
may follow its date behind a `T` or a space, and then a zone may follow it. What does not complete
one of these forms is left to be read.
-/

namespace KixScript.Toml

/-- The number that exactly `count` digits write, and what follows them. -/
def readFixed? (count : Nat) (text : List Char) : Option (Nat × List Char) :=
  let digits := text.take count
  if digits.length = count && digits.all Char.isDigit then
    some (digits.foldl (fun value c => value * 10 + (c.toNat - '0'.toNat)) 0, text.drop count)
  else none

/-- Two digits that write a number between two others. -/
def readBetween? (least greatest : Nat) (text : List Char) : Option (Nat × List Char) :=
  (readFixed? 2 text).filter fun found => least ≤ found.1 && found.1 ≤ greatest

/-- What follows a mark, if the text begins with it. -/
def skipMark? (mark : Char) (text : List Char) : Option (List Char) :=
  if text.head? = some mark then some text.tail else none

/-- A date. Its day need not be in the calendar. -/
def readDate? (text : List Char) : Option (Date × List Char) := do
  let (year, rest) ← readFixed? 4 text
  let (month, rest) ← readBetween? 1 12 (← skipMark? '-' rest)
  let (day, rest) ← readBetween? 1 31 (← skipMark? '-' rest)
  return ({ year, month, day }, rest)

/-- The parts of a second behind a point, of which six digits count. -/
def readMicroseconds (text : List Char) : Nat × List Char :=
  match text with
  | '.' :: rest =>
    let digits := rest.takeWhile Char.isDigit
    let six := (digits ++ List.replicate 6 '0').take 6
    match digits, readFixed? 6 six with
    | _ :: _, some (value, _) => (value, rest.dropWhile Char.isDigit)
    | _, _ => (0, text)
  | _ => (0, text)

/-- An hour and a minute. -/
def readClock? (text : List Char) : Option (Nat × Nat × List Char) := do
  let (hour, rest) ← readBetween? 0 23 text
  let (minute, rest) ← readBetween? 0 59 (← skipMark? ':' rest)
  return (hour, minute, rest)

/-- A time. -/
def readTime? (text : List Char) : Option (Time × List Char) := do
  let (hour, minute, rest) ← readClock? text
  let (second, rest) ← readBetween? 0 59 (← skipMark? ':' rest)
  let (microsecond, rest) := readMicroseconds rest
  return ({ hour, minute, second, microsecond }, rest)

/-- The minutes that a zone is ahead of universal time, if a zone is written. -/
def readZone (text : List Char) : Option Int × List Char :=
  let shifted (sign : Int) (rest : List Char) : Option Int × List Char :=
    match readClock? rest with
    | some (hour, minute, behind) => (some (sign * (60 * hour + minute)), behind)
    | none => (none, text)
  match text with
  | 'Z' :: rest => (some 0, rest)
  | 'z' :: rest => (some 0, rest)
  | '+' :: rest => shifted 1 rest
  | '-' :: rest => shifted (-1) rest
  | _ => (none, text)

/-- Whether a character may stand between a date and its time. -/
def joinsTime (c : Char) : Bool :=
  c == 'T' || c == 't' || c == ' '

/-- What follows a date: its time, if there is one. -/
def readTimeOf (date : Date) (text : List Char) : Moment × List Char :=
  match text with
  | c :: rest =>
    match if joinsTime c then readTime? rest else none with
    | some (time, behind) =>
      let (ahead, behind) := readZone behind
      (.dateTime date time ahead, behind)
    | none => (.date date, text)
  | [] => (.date date, [])

/-- A date, a time, or both. -/
def readMoment? (text : List Char) : Option (Moment × List Char) :=
  match readDate? text with
  | some (date, behind) => some (readTimeOf date behind)
  | none => (readTime? text).map fun (time, behind) => (.time time, behind)

end KixScript.Toml
