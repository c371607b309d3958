import MasCheck.Resource.Probe
import MasCheck.Text.Path

/-!
# Files in memory

A store holds files under their paths. Paths that read alike name the same file, and the last
content stored under a path counts.
-/

namespace MasCheck

structure FileStore where
  entries : List (Text.Path × List UInt8)
  deriving DecidableEq, Repr

namespace FileStore

def empty : FileStore :=
  ⟨[]⟩

def insert (f : FileStore) (path : String) (content : List UInt8) : FileStore :=
  ⟨(Text.Path.ofText path, content) :: f.entries⟩

def find? (f : FileStore) (path : String) : Option (List UInt8) :=
  f.entries.lookup (Text.Path.ofText path)

def probe (f : FileStore) : Probe :=
  { isPresent := fun path ↦ (f.find? path).isSome
    firstBytes := fun path count ↦
      match f.find? path with
      | some content => .ok (content.take count)
      | none => .error (.missing path) }

@[simp] theorem find?_insert (f : FileStore) (path : String) (content : List UInt8) :
    (f.insert path content).find? path = some content := by
  simp [find?, insert]

end FileStore

namespace Probe

/-- A probe for which some files are there and cannot be read. The first failure given for a path
counts; the error is made from the path that is asked for. -/
def withFailures (p : Probe) (failures : List (Text.Path × (String → ProbeError))) : Probe :=
  { isPresent := fun path ↦ (failures.lookup (Text.Path.ofText path)).isSome || p.isPresent path
    firstBytes := fun path count ↦
      match failures.lookup (Text.Path.ofText path) with
      | some failure => .error (failure path)
      | none => p.firstBytes path count }

end Probe

end MasCheck
