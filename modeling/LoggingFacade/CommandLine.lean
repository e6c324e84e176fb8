import LoggingFacade.CommandLine.Help

/-!
# Command lines

What the arguments of the program ask for: one command, with the path of a
configuration file given before or after it, or one of the texts about the
program itself. Everything else is a misuse.
-/

namespace LoggingFacade

structure Invocation where
  configPath : Option String
  command : Command
  deriving DecidableEq, Repr

inductive Request where
  | run (invocation : Invocation)
  | tell (text : String)
  | misuse
  deriving DecidableEq, Repr

namespace CommandLine

/-- The configuration option of one side of the command as far as it was read:
the path given, and one that stands apart from its option and is examined when
the next option or the end is reached. -/
structure PathOption where
  given : Option String
  waiting : Option String
  deriving DecidableEq, Repr

namespace PathOption

def unset : PathOption := ⟨none, none⟩

/-- Examines the path that waits. It must not be empty, and there is only one on
a side. -/
def settle (p : PathOption) : Option PathOption :=
  match p.waiting with
  | none => some p
  | some path => if path.isEmpty || p.given.isSome then none else some ⟨some path, none⟩

/-- Takes a path that stands apart from its option. -/
def await (p : PathOption) (path : String) : Option PathOption :=
  p.settle.map fun settled => ⟨settled.given, some path⟩

/-- Takes a path attached to its option. -/
def attach (p : PathOption) (path : String) : Option PathOption :=
  (p.await path).bind settle

end PathOption

inductive Switch where
  | help
  | version
  | path
  | attachedPath (path : String)
  deriving DecidableEq, Repr

namespace Switch

/-- The characters after one dash. Help and version come at once; a path takes
all that follows. -/
def ofShort? : List Char → Option Switch
  | 'h' :: _ => some help
  | 'V' :: _ => some version
  | ['c'] => some path
  | 'c' :: '=' :: text => some (attachedPath (.ofList text))
  | 'c' :: text => some (attachedPath (.ofList text))
  | _ => none

/-- The characters after two dashes. -/
def ofLong? (cs : List Char) : Option Switch :=
  let name := String.ofList (cs.takeWhile (· != '='))
  match name, cs.dropWhile (· != '=') with
  | "help", [] => some help
  | "version", [] => some version
  | "config", [] => some path
  | "config", _ :: text => some (attachedPath (.ofList text))
  | _, _ => none

def ofArgument? (argument : String) : Option Switch :=
  match argument.toList with
  | '-' :: '-' :: cs => ofLong? cs
  | '-' :: cs => ofShort? cs
  | _ => none

end Switch

/-- Whether an argument can be the value of an option: a dash alone can. -/
def isValue (argument : String) : Bool :=
  match argument.toList with
  | '-' :: _ :: _ => false
  | _ => true

/-- The request once all arguments are read; a path after the command counts
before one in front of it. -/
def complete (command : Command) (before after : PathOption) : Request :=
  match before.settle, after.settle with
  | some b, some a => .run ⟨a.given.or b.given, command⟩
  | _, _ => .misuse

/-- Shows a text, unless the path that waits is at fault. -/
def tellSettled (p : PathOption) (text : String) : Request :=
  if p.settle.isSome then .tell text else .misuse

/-- Reads what follows the command. -/
def readAfter (command : Command) (before after : PathOption) : List String → Request
  | [] => complete command before after
  | ["--"] => complete command before after
  | argument :: rest =>
    match Switch.ofArgument? argument, rest with
    | some .help, _ => tellSettled after (Help.command command)
    | some (.attachedPath path), rest =>
      match after.attach path with
      | some after => readAfter command before after rest
      | none => .misuse
    | some .path, path :: rest =>
      match isValue path, after.await path with
      | true, some after => readAfter command before after rest
      | _, _ => .misuse
    | _, _ => .misuse

/-- Reads what follows the word that asks for help. -/
def readHelp : List String → Request
  | [] => .tell Help.program
  | ["help"] => .tell Help.help
  | [name] =>
    match Command.ofName? name with
    | some command => .tell (Help.command command)
    | none => .misuse
  | _ => .misuse

/-- Reads up to the command and on from there. -/
def readBefore (before : PathOption) : List String → Request
  | [] => .misuse
  | "help" :: rest => readHelp rest
  | argument :: rest =>
    match Command.ofName? argument with
    | some command => readAfter command before .unset rest
    | none =>
      match Switch.ofArgument? argument, rest with
      | some .help, _ => tellSettled before Help.program
      | some .version, _ => tellSettled before Help.version
      | some (.attachedPath path), rest =>
        match before.attach path with
        | some before => readBefore before rest
        | none => .misuse
      | some .path, path :: rest =>
        match isValue path, before.await path with
        | true, some before => readBefore before rest
        | _, _ => .misuse
      | _, _ => .misuse

def read (arguments : List String) : Request := readBefore .unset arguments

end CommandLine
end LoggingFacade
