/-!
# Paths

Paths as texts, with a slash between the names.
-/

namespace LoggingFacade
namespace Path

/-- The pieces between slashes. -/
def pieces (path : String) : List String :=
  let (current, done) := path.toList.foldr
    (fun c (current, done) => if c == '/' then ([], String.ofList current :: done)
      else (c :: current, done)) ([], [])
  .ofList current :: done

/-- The names along a path; an empty piece and a dot name nothing. -/
def names (path : String) : List String :=
  (pieces path).filter fun name => name != "" && name != "."

def isAbsolute (path : String) : Bool := path.toList.head? == some '/'

/-- Whether the path itself says that it leads to a directory. -/
def endsInDirectory (path : String) : Bool :=
  match (pieces path).getLast? with
  | some last => last == "" || last == "."
  | none => false

/-- The path of a name below a directory. -/
def join (directory name : String) : String :=
  if isAbsolute name || directory.isEmpty then name
  else if directory.toList.getLast? == some '/' then directory ++ name
  else directory ++ "/" ++ name

/-- Whether the last names of a path are the given ones. -/
def endsWith (path : String) (last : List String) : Bool := last.isSuffixOf (names path)

def ofNames (names : List String) : String := "/" ++ "/".intercalate names

end Path
end LoggingFacade
