import LoggingFacade.Files.Tree
import LoggingFacade.TextMap

/-!
# File systems

A file system as the list of its nodes, with symbolic links and a working
directory. Looking up a path follows links; walking below a directory follows
them too, but never into a directory that the walk is in.
-/

namespace LoggingFacade

open Text (Bytes)

inductive FileNode where
  | file (content : Bytes)
  | directory
  | link (target : String)
  deriving DecidableEq, Repr

inductive FileFault where
  | missing
  | notDirectory
  | tooManyLinks
  deriving DecidableEq, Repr

namespace FileFault

def message : FileFault → String
  | missing => "No such file or directory (os error 2)"
  | notDirectory => "Not a directory (os error 20)"
  | tooManyLinks => "Too many levels of symbolic links (os error 40)"

end FileFault

/-- Nodes stand under the names along their path from the root. -/
structure FileSystem where
  nodes : List (List String × FileNode)
  workingDirectory : List String
  deriving Repr

namespace FileSystem

def node? (fs : FileSystem) (place : List String) : Option FileNode :=
  if place.isEmpty then some .directory else fs.nodes.lookup place

/-- Puts a node in place; the directories above it are made. -/
def insert (fs : FileSystem) (place : List String) (node : FileNode) : FileSystem :=
  let above := (List.range place.length).map place.take
  let missing := above.filter fun p => (fs.node? p).isNone
  { fs with nodes := (place, node) ::
      (fs.nodes.filter (·.1 ≠ place) ++ missing.map fun p => (p, .directory)) }

/-- The place of a path below the working directory. -/
def place (fs : FileSystem) (path : String) : List String :=
  if Path.isAbsolute path then Path.names path else fs.workingDirectory ++ Path.names path

/-- Puts nodes under their paths, in order, into an empty working directory. -/
def ofNodes (workingDirectory : List String) (nodes : List (String × FileNode)) : FileSystem :=
  let start : FileSystem := (⟨[], workingDirectory⟩ : FileSystem).insert workingDirectory .directory
  nodes.foldl (fun fs n => fs.insert (fs.place n.1) n.2) start

/-- Follows names from a place, through at most so many links. -/
def follow (fs : FileSystem) (links : Nat) (here : List String) (names : List String) :
    Except FileFault (List String × FileNode) :=
  match names with
  | [] =>
    match fs.node? here with
    | some node => .ok (here, node)
    | none => .error .missing
  | ".." :: rest => fs.follow links here.dropLast rest
  | name :: rest =>
    match fs.node? (here ++ [name]) with
    | none => .error .missing
    | some .directory => fs.follow links (here ++ [name]) rest
    | some (.file content) =>
      if rest.isEmpty then .ok (here ++ [name], .file content) else .error .notDirectory
    | some (.link target) =>
      match links with
      | 0 => .error .tooManyLinks
      | links + 1 =>
        fs.follow links (if Path.isAbsolute target then [] else here) (Path.names target ++ rest)
termination_by (links, names.length)

def greatestLinks : Nat := 40

/-- The place and the node that a path leads to. -/
def resolve (fs : FileSystem) (path : String) : Except FileFault (List String × FileNode) :=
  if path.isEmpty then .error .missing
  else
    let start := if Path.isAbsolute path then [] else fs.workingDirectory
    match fs.follow greatestLinks start (Path.names path) with
    | .ok (place, .file content) =>
      if Path.endsInDirectory path then .error .notDirectory else .ok (place, .file content)
    | result => result

def isPresent (fs : FileSystem) (path : String) : Bool := (fs.resolve path).toOption.isSome

def isDirectory (fs : FileSystem) (path : String) : Bool :=
  match fs.resolve path with
  | .ok (_, .directory) => true
  | _ => false

/-- The bytes of a file. -/
def content? (fs : FileSystem) (path : String) : Option Bytes :=
  match fs.resolve path with
  | .ok (_, .file content) => some content
  | _ => none

/-- The entries of a directory in the order of their names. -/
def entries (fs : FileSystem) (place : List String) : List (String × FileNode) :=
  (TextMap.ofList (fs.nodes.filterMap fun n =>
    match n.1.getLast? with
    | some name => if n.1.dropLast = place then some (name, n.2) else none
    | none => none)).entries

def faultText (path : String) (fault : FileFault) : String :=
  "IO error for operation on " ++ path ++ ": " ++ fault.message

def loopText (path ancestor : String) : String :=
  "File system loop found: " ++ path ++ " points to an ancestor " ++ ancestor

/-- The number of names along the longest of the paths from the root. -/
def height (fs : FileSystem) : Nat := (fs.nodes.map (·.1.length)).max?.getD 0

/-- As many directories as a walk can be in at a time. It enters each place by a
link once at most, as it is then in that place; from there, and from where it
starts, it goes down no further than the longest path. A directory that it goes
down into may be one that it is in already. -/
def greatestDepth (fs : FileSystem) : Nat := (fs.nodes.length + 2) * (fs.height + 1)

/-- The tree below a directory at a place, under the path it was reached by, to
a number of levels. `above` lists the directories the walk is in, with the paths
they were reached by, the nearest first. -/
def treeBelow (fs : FileSystem) :
    Nat → List (List String × String) → List String → String → FileTree
  | 0, _, _, _ => .directory []
  | levels + 1, above, place, path =>
    .directory ((fs.entries place).map fun (name, node) =>
      let child := Path.join path name
      (name, match node with
        | .file content => .file content
        | .directory =>
          fs.treeBelow levels ((place ++ [name], child) :: above) (place ++ [name]) child
        | .link target =>
          let start := if Path.isAbsolute target then [] else place
          match fs.follow greatestLinks start (Path.names target) with
          | .error fault => .unreadable (faultText child fault)
          | .ok (_, .file content) => .file content
          | .ok (reached, _) =>
            match above.find? (·.1 == reached) with
            | some ancestor => .unreadable (loopText child ancestor.2)
            | none => fs.treeBelow levels ((reached, child) :: above) reached child))

/-- The tree below a path, if it leads to a directory. -/
def tree? (fs : FileSystem) (path : String) : Option FileTree :=
  match fs.resolve path with
  | .ok (place, .directory) =>
    some (fs.treeBelow fs.greatestDepth [(place, path)] place path)
  | _ => none

end FileSystem
end LoggingFacade
