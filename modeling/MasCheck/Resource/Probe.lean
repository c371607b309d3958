/-!
# Asking for resources

Checks ask two things about the files that a unit mentions: whether a file is there, and what its
first bytes are. A probe answers both, from memory, from a disk, or in any other way.
-/

namespace MasCheck

inductive ProbeError
  | missing (path : String)
  | unreadable (path reason : String)
  deriving DecidableEq, Repr

structure Probe where
  isPresent : String → Bool
  /-- At most the given number of bytes from the front of a file. -/
  firstBytes : String → Nat → Except ProbeError (List UInt8)

namespace ProbeError

def message : ProbeError → String
  | missing path => path ++ " does not exist"
  | unreadable path reason => "failed to read " ++ path ++ ": " ++ reason

end ProbeError

def zipSignature : List UInt8 :=
  [0x50, 0x4B, 0x03, 0x04]

namespace Probe

def isArchive (p : Probe) (path : String) : Except ProbeError Bool :=
  (p.firstBytes path zipSignature.length).map fun bytes ↦ bytes = zipSignature

end Probe

end MasCheck
