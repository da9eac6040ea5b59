/-!
# Platforms

What a run hangs on besides its arguments and its files. Nothing in the library decides it, so whatever
is said of runs is said for every platform.
-/

namespace KixScript

/-- The releases of the `argparse` conventions for arguments that differ in what they take. -/
inductive Release where
  /-- The releases before 3.11.9. -/
  | early
  /-- The releases from 3.11.9 on, and 3.12.3. -/
  | current
  deriving DecidableEq, Repr

/-- What a run hangs on. -/
structure Platform where
  release : Release
  /-- The room for nesting when the values of a configuration are read. -/
  readRoom : Nat
  /-- The number of values that may stand inside of one another when they are printed. -/
  printRoom : Nat
  deriving DecidableEq, Repr

/-- A platform on which a thousand calls may be open at once, a few of them being taken before
anything is read or printed. -/
def Platform.usual : Platform :=
  { release := .current, readRoom := 990, printRoom := 990 }

end KixScript
