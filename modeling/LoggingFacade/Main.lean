import LoggingFacade.Diagnostic.Written
import LoggingFacade.Inspection

/-!
# The program

Takes a picture of the environment and of the files that the command may look
at, runs the command on it, and writes what came of it.
-/

namespace LoggingFacade
namespace Program

/-- The name and the value of a variable. -/
def variableOf (text : String) : String × String :=
  let cs := text.toList
  (.ofList (cs.takeWhile (· != '=')), .ofList ((cs.dropWhile (· != '=')).drop 1))

/-- The variables of the process. -/
def environment : IO (List (String × String)) := do
  let bytes ← IO.FS.readBinFile "/proc/self/environ"
  let text := Text.ofUtf8Lossy bytes.toList
  return ((text.splitOn "\x00").filter fun entry => !entry.isEmpty).map variableOf

/-- Files seen so far, and the directories whose entries are among them. -/
structure Picture where
  files : FileSystem
  walked : List String

namespace Picture

def insert (p : Picture) (path : String) (node : FileNode) : Picture :=
  { p with files := p.files.insert (Path.names path) node }

/-- A link that leads nowhere. -/
def dangling : FileNode := .link "/\x00"

/-- Adds what an absolute path leads to. A path through links becomes a link to
the place it leads to. -/
partial def add (p : Picture) (path : String) : IO Picture := do
  match ← (IO.FS.realPath path).toBaseIO with
  | .error _ => return p
  | .ok real =>
    if real.toString != path then (p.insert path (.link real.toString)).add real.toString
    else if ← real.isDir then
      if p.walked.contains path then return p
      let mut picture := { p.insert path .directory with walked := path :: p.walked }
      for entry in ← real.readDir do
        let child := entry.path.toString
        picture := picture.insert child dangling
        picture ← picture.add child
      return picture
    else
      match ← (IO.FS.readBinFile path).toBaseIO with
      | .ok bytes => return p.insert path (.file bytes.toList)
      | .error _ => return p

def addAll (p : Picture) (paths : List String) : IO Picture :=
  paths.foldlM (fun picture path =>
    picture.add (Path.ofNames (picture.files.place path))) p

end Picture

/-- The machine as far as an invocation may look at it. -/
def hostFor (invocation : Invocation) : IO Host := do
  let settings ← environment
  let here := Path.names (← IO.FS.realPath ".").toString
  let start : Host := ⟨.ofNodes here [], settings⟩
  let places := match invocation.configPath with
    | some path => [path]
    | none => ConfigLoader.usualPaths start
  let picture ← (⟨start.files, []⟩ : Picture).addAll places
  let host : Host := ⟨picture.files, settings⟩
  let loading : Traced Unit (Except Error Config) :=
    (Inspection.loader invocation.configPath).load host
  match (loading.run ()).value with
  | .error _ => return host
  | .ok config => return ⟨(← picture.addAll config.manager.searchPath).files, settings⟩

def run (arguments : List String) : IO Inspection.Completion := do
  let now ← IO.monoMsNow
  let host ← match CommandLine.read arguments with
    | .run invocation => hostFor invocation
    | _ => pure ⟨.ofNodes [] [], []⟩
  return Inspection.run .standard host (.initial now "main") arguments

/-- Writes what a command came to; a misuse is answered with help. -/
def write (c : Inspection.Completion) : IO Unit := do
  let output ← IO.getStdout
  output.write ⟨c.output.toArray⟩
  output.flush
  for d in c.logged do IO.eprintln (d.written c.json)
  if let some failure := c.failure then IO.eprintln ("Error: " ++ failure)
  if c.status == Inspection.Completion.misused.status then IO.eprint Help.program

end Program
end LoggingFacade

def main (arguments : List String) : IO UInt32 := do
  let completion ← LoggingFacade.Program.run arguments
  LoggingFacade.Program.write completion
  return .ofNat completion.status
