import LoggingFacade.Files.System
import LoggingFacade.Provider.Source

/-!
# Provider records in directories

Every file below a search root whose path ends in the place of a provider
record is a source. A root that is no directory and an entry that cannot be read
are reported and contribute nothing.
-/

namespace LoggingFacade

/-- A search root by its path, with the tree below it if it is a directory. -/
structure SearchRoot where
  path : String
  tree : Option FileTree

namespace SearchRoot

/-- The search root that a path leads to. -/
def ofPath (fs : FileSystem) (path : String) : SearchRoot := ⟨path, fs.tree? path⟩

/-- Where a provider keeps its record. -/
def recordPlace : List String := ["META-INF", "lumber-provider.toml"]

/-- The sources among the visits of a walk. -/
def collect {σ : Type} (root : String) : List Visit → Traced σ (List Source)
  | [] => return []
  | .file path content :: rest => do
    if Path.endsWith path recordPlace then
      Traced.report (.recordFound path)
      return ⟨path, .file (Text.ofUtf8? content)⟩ :: (← collect root rest)
    else collect root rest
  | .unreadable _ reason :: rest => do
    Traced.report (.entryUnreadable root reason)
    collect root rest

def sources {σ : Type} (r : SearchRoot) : Traced σ (List Source) := do
  match r.tree with
  | some tree => collect r.path (tree.visits r.path)
  | none =>
    Traced.report (.rootUnsearchable
      (.discovery r.path "search path entry is not a directory" []))
    return []

end SearchRoot

namespace Locator

/-- The sources below search roots, root by root. -/
def directories {σ : Type} (roots : List SearchRoot) : Locator σ where
  description := toString roots.length ++ " search path root(s)"
  sources := return .ok (← Traced.forEach SearchRoot.sources roots).flatten

end Locator
end LoggingFacade
