import KixScript.Text.Quoted

/-!
# Reading UTF-8

Bytes are read one at a time. A sequence is refused at the first byte that no character could have
there, so overlong forms, surrogates and codes beyond the last character fail at their second byte.
-/

namespace KixScript.Utf8

/-- Why bytes are no character. -/
inductive Reason where
  | invalidStart
  | invalidContinuation
  | unexpectedEnd
  deriving DecidableEq, Repr

/-- The text of a reason. -/
def Reason.message : Reason → String
  | invalidStart => "invalid start byte"
  | invalidContinuation => "invalid continuation byte"
  | unexpectedEnd => "unexpected end of data"

/-- Bytes that begin like a character and are none. -/
structure Fault where
  /-- The first of the bytes. -/
  first : UInt8
  /-- Its place. -/
  start : Nat
  /-- The number of bytes that could have been the beginning of a character. -/
  count : Nat
  reason : Reason
  deriving DecidableEq, Repr

/-- The text of a fault. -/
def Fault.message (fault : Fault) : String :=
  let bytes :=
    if fault.count = 1 then
      s!"byte 0x{String.ofList (hexadecimal 2 fault.first.toNat)} in position {fault.start}"
    else s!"bytes in position {fault.start}-{fault.start + fault.count - 1}"
  "'utf-8' codec can't decode " ++ bytes ++ ": " ++ fault.reason.message

/-- A character of which some bytes have been read. -/
structure Pending where
  first : UInt8
  start : Nat
  /-- The number of bytes read. -/
  count : Nat
  /-- The number of bytes to come. -/
  more : Nat
  /-- The least value of the next byte. -/
  low : Nat
  /-- The greatest value of the next byte. -/
  high : Nat
  /-- The digits of the code that have been read. -/
  code : Nat

namespace Pending

/-- The fault that this character ends with. -/
def refuse (pending : Pending) (reason : Reason) : Fault :=
  { first := pending.first, start := pending.start, count := pending.count, reason }

/-- What the first byte of a character of several bytes says. The bounds of the second byte leave
out overlong forms, surrogates and codes that are too large. -/
def ofFirst? (first : UInt8) (start : Nat) : Option Pending :=
  let byte := first.toNat
  let pending (more low high code : Nat) : Option Pending :=
    some { first, start, count := 1, more, low, high, code }
  if 0xC2 ≤ byte && byte ≤ 0xDF then pending 1 0x80 0xBF (byte - 0xC0)
  else if byte = 0xE0 then pending 2 0xA0 0xBF 0
  else if byte = 0xED then pending 2 0x80 0x9F 0xD
  else if 0xE1 ≤ byte && byte ≤ 0xEF then pending 2 0x80 0xBF (byte - 0xE0)
  else if byte = 0xF0 then pending 3 0x90 0xBF 0
  else if byte = 0xF4 then pending 3 0x80 0x8F 4
  else if 0xF1 ≤ byte && byte ≤ 0xF3 then pending 3 0x80 0xBF (byte - 0xF0)
  else none

/-- The character after one more byte. -/
def add (pending : Pending) (byte : Nat) : Pending :=
  { pending with
    count := pending.count + 1
    more := pending.more - 1
    low := 0x80
    high := 0xBF
    code := pending.code * 64 + (byte - 0x80) }

end Pending

/-- Reads bytes from a position on, within a character if one is pending. -/
def decodeFrom (position : Nat) (pending : Option Pending) :
    List UInt8 → Except Fault (List Char)
  | [] =>
    match pending with
    | none => .ok []
    | some pending => .error (pending.refuse .unexpectedEnd)
  | byte :: rest =>
    match pending with
    | none =>
      if byte < 0x80 then
        (decodeFrom (position + 1) none rest).map (Char.ofNat byte.toNat :: ·)
      else
        match Pending.ofFirst? byte position with
        | some pending => decodeFrom (position + 1) (some pending) rest
        | none =>
          .error { first := byte, start := position, count := 1, reason := .invalidStart }
    | some pending =>
      if pending.low ≤ byte.toNat && byte.toNat ≤ pending.high then
        let pending := pending.add byte.toNat
        if pending.more = 0 then
          (decodeFrom (position + 1) none rest).map (Char.ofNat pending.code :: ·)
        else decodeFrom (position + 1) (some pending) rest
      else .error (pending.refuse .invalidContinuation)

/-- The text that some bytes write. -/
def decode (bytes : ByteArray) : Except Fault (List Char) :=
  decodeFrom 0 none bytes.toList

end KixScript.Utf8
