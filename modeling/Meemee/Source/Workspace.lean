import Meemee.Library.Paths
import Meemee.Source.Policy

/-!
# Paths of the workspace tools

`WorkspaceTool.resolve` of `meemee/tools/filesystem.py`, where no directory is a symbolic link: then
`Path.resolve` follows the components as they are written. A resolved path is its components.
-/
namespace Meemee.Source.Workspace
open Library.Paths
open Source.Policy (components)

/-- What a component of a path does. -/
def kind (component : List Char) : Kind :=
  if component = [] ∨ component = ['.'] then .stay
  else if component = ['.', '.'] then .up
  else .name

/-- A resolved directory. -/
structure Root where
  parts : List (List Char)
  resolved : ∀ part ∈ parts, kind part = .name

/-- `Path(raw).is_absolute()`. -/
def absolute (raw : String) : Bool := decide (raw.toList.head? = some '/')

/-- `(self.root / raw).resolve()`; an absolute path takes the root's place. -/
def joined (root : Root) (raw : String) : List (List Char) :=
  let start := if absolute raw then [] else root.parts.reverse
  ((components raw).foldl (walk kind) start).reverse

/-- `WorkspaceTool.resolve`; none where it raises ValueError, for a NUL or outside the workspace. -/
def resolve (root : Root) (raw : String) : Option (List (List Char)) :=
  if '\x00' ∈ raw.toList then none
  else if root.parts.isPrefixOf (joined root raw) then some (joined root raw)
  else none

theorem work_resolved : ∀ part ∈ ["work".toList], kind part = .name := by decide

example : resolve ⟨["work".toList], work_resolved⟩ "a/../b//." = some ["work".toList, "b".toList] ∧
    resolve ⟨["work".toList], work_resolved⟩ "../x" = none := by decide +kernel

end Meemee.Source.Workspace
