import LoggingFacade.Config
import LoggingFacade.Config.Environment
import LoggingFacade.Document.Toml
import LoggingFacade.Document.Toml.Moments
import LoggingFacade.Document.Toml.Printer
import LoggingFacade.Files.System
import LoggingFacade.Traced

/-!
# Loading and writing configurations

The standard values, over them the configuration file, over that the
environment. The file is the one asked for or the first that exists of the
usual ones; that it was found, or not, is reported.
-/

namespace LoggingFacade

/-- What a program sees of the machine it runs on. -/
structure Host where
  files : FileSystem
  environment : List (String × String)

namespace Host

def setting? (h : Host) (name : String) : Option String := h.environment.lookup name

/-- The directory of the user's configuration files. -/
def configDirectory? (h : Host) : Option String :=
  match (h.setting? "XDG_CONFIG_HOME").filter Path.isAbsolute with
  | some directory => some directory
  | none => (h.setting? "HOME").bind fun home =>
    if home.isEmpty then none else some (Path.join home ".config")

end Host

structure ConfigLoader where
  configPath : Option String
  variablePrefix : String
  deriving DecidableEq, Repr

namespace ConfigLoader

def fileName : String := "lumber.toml"

def directoryName : String := "lumber"

def standard : ConfigLoader := ⟨none, "LUMBER"⟩

/-- Where a configuration is looked for, unless a path is given. -/
def usualPaths (h : Host) : List String :=
  let here := Path.ofNames h.files.workingDirectory
  let below (directory : String) := Path.join (Path.join directory directoryName) fileName
  [Path.join here fileName, below here] ++ (h.configDirectory?.map below).toList

/-- The file to read, if there is one. -/
def choose {σ : Type} (l : ConfigLoader) (h : Host) : Traced σ (Option String) :=
  match l.configPath with
  | some path =>
    if h.files.isPresent path then do
      Traced.report (.configurationLoaded path)
      return some path
    else do
      Traced.report (.configurationMissing path)
      return none
  | none =>
    match (usualPaths h).find? h.files.isPresent with
    | some path => do
      Traced.report (.configurationLoaded path)
      return some path
    | none => return none

/-- The document of a configuration text, whose integers all have 64 signed
bits. -/
def textDocument? (text : String) : Option Document := do
  return (← (← Toml.read? .v1_0 text).withinBounds? .int64).spelledOut

/-- The document of a configuration file. A path that leads to no file holds
nothing. -/
def fileDocument? (h : Host) (path : Option String) : Option Document :=
  match path.bind h.files.content? with
  | some content => do textDocument? (← Text.ofUtf8? content)
  | none => some (.table [])

/-- All layers on top of each other. -/
def layered? (l : ConfigLoader) (h : Host) (path : Option String) : Option Document := do
  let file ← fileDocument? h path
  let settings := Environment.document (l.variablePrefix ++ "_") h.environment
  return (Config.standard.toDocument.overlay file).overlay settings

def unreadable : Error := .configuration "Failed to extract configuration" []

def load {σ : Type} (l : ConfigLoader) (h : Host) : Traced σ (Except Error Config) := do
  let path ← l.choose h
  match (l.layered? h path).bind Config.ofDocument? with
  | some config => return config.validated
  | none => return .error unreadable

end ConfigLoader

namespace Config

/-- The text of a configuration file. -/
def render (c : Config) : String := Toml.print c.toDocument

end Config
end LoggingFacade
