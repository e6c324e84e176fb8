import LoggingFacade.Files.Path
import LoggingFacade.Text.Utf8

/-!
# File trees

What a walk below a directory meets, links followed: files, directories, and
entries that cannot be read. The walk goes depth first and takes the entries of
a directory in their order.
-/

namespace LoggingFacade

open Text (Bytes)

inductive FileTree where
  | file (content : Bytes)
  | directory (entries : List (String × FileTree))
  | unreadable (reason : String)
  deriving Inhabited

/-- What is met at one place of a walk. -/
inductive Visit where
  | file (path : String) (content : Bytes)
  | unreadable (path reason : String)
  deriving DecidableEq, Repr

namespace FileTree

/-- The files and unreadable entries in the order of the walk. -/
def visits (path : String) : FileTree → List Visit
  | file content => [.file path content]
  | directory entries => entriesVisits path entries
  | unreadable reason => [.unreadable path reason]
where
  entriesVisits (path : String) : List (String × FileTree) → List Visit
    | [] => []
    | (name, tree) :: rest => tree.visits (Path.join path name) ++ entriesVisits path rest

end FileTree
end LoggingFacade
