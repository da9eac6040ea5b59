import KixScript.Main
import KixScript.Session
import KixScript.Workspace
import KixScript.Proofs.Spelling
import KixScript.Proofs.Places
import KixScript.Proofs.Parentheses
import KixScript.Proofs.Sight
import KixScript.Proofs.Atoms
import KixScript.Proofs.Nesting
import KixScript.Proofs.Resolution
import KixScript.Proofs.Rows
import KixScript.Proofs.Contents
import KixScript.Proofs.Respaced
import KixScript.Proofs.Views
import KixScript.Proofs.Preservation
import KixScript.Proofs.Resumption
import KixScript.Proofs.Program
import KixScript.Proofs.Alignment
import KixScript.Proofs.Survey
import KixScript.Proofs.Placement
import KixScript.Proofs.Canonical
import KixScript.Proofs.Returns
import KixScript.Proofs.TopDown
import KixScript.Proofs.Automaton
import KixScript.Proofs.Pairing
import KixScript.Proofs.Heads
import KixScript.Proofs.Cover
import KixScript.Proofs.Sigils
import KixScript.Proofs.Shift
import KixScript.Proofs.Hidden
import KixScript.Proofs.Branches
import KixScript.Proofs.Commands
import KixScript.Proofs.Macros
import KixScript.Proofs.Checks
import KixScript.Proofs.Positions
import KixScript.Proofs.Joining
import KixScript.Proofs.Formatting
import KixScript.Proofs.Symbols
import KixScript.Proofs.NamedParts
import KixScript.Proofs.Snippets
import KixScript.Proofs.Requests
import KixScript.Proofs.Delivery
import KixScript.Proofs.Strays
import KixScript.Proofs.Reports
import KixScript.Proofs.Partition
import KixScript.Proofs.Groups
import KixScript.Proofs.Scaling
import KixScript.Proofs.Jumps
import KixScript.Proofs.LetterCase
import KixScript.Proofs.Access
import KixScript.Proofs.Totality
import KixScript.Proofs.Bisection
import KixScript.Proofs.Coordinates
import KixScript.Proofs.Lexing
import KixScript.Proofs.Merging
