import LoggingFacade.Appender.Writing

/-!
# Contexts and loggers at work

Finding the context of a caller, the logger of a name, and the appenders of an
event. Contexts and loggers are made when they are first asked for and are the
same ever after.
-/

namespace LoggingFacade

namespace Logger

def isEnabled (l : Logger) (level : Level) : Bool := level.isEnabledAt l.level

/-- Offers an event to an appender; a failure is reported. -/
def offer (l : Logger) (e : Event) (a : Appender) : Traced World Unit := do
  match ← a.append e with
  | .ok () => pure ()
  | .error failure => Traced.report (.appendFailed l.name a.name failure)

/-- Writes an event that the threshold lets through: to each appender of the
context at this moment, or as a plain line to standard error. -/
def logEvent (l : Logger) (e : Event) : Traced World Unit := do
  if l.isEnabled e.level then
    match l.context.kind with
    | .standard =>
      let w ← get
      (w.contextState l.context).table.appenders.forM (l.offer e)
    | .simple =>
      modify fun w =>
        { w with errorOutput := ⟨w.errorOutput.bytes ++ Layout.render none e⟩ }

/-- Logs a message as an event of this moment. -/
def log (l : Logger) (level : Level) (message : String) : Traced World Unit := do
  if l.isEnabled level then
    let w ← get
    l.logEvent (.create w.thread w.now l.name level message)

/-- Logs a pattern with its arguments filled in by the logger's format. -/
def logArguments (l : Logger) (level : Level) (pattern : String) (arguments : List String) :
    Traced World Unit :=
  l.log level (l.format.format pattern arguments)

end Logger

namespace Context

def standard (name : String) (level : Level) : Traced World Context :=
  World.addContext .standard name level

/-- The logger of a name that the context already has. -/
def existing? (w : World) (c : Context) (name : String) : Option Logger :=
  (w.contextState c).loggers.lookup name

def hasLogger (w : World) (c : Context) (name : String) : Bool := (c.existing? w name).isSome

/-- Adds a logger under a new name. -/
def addLogger (c : Context) (name : String) (format : MessageFormat) : Traced World Logger :=
  modifyGet fun w =>
    let logger : Logger := ⟨w.loggers, name, c.level, format, c⟩
    (logger, { w.updateContext c fun s => { s with loggers := s.loggers ++ [(name, logger)] } with
      loggers := w.loggers + 1 })

/-- Reports a request for another format than the logger was made with; the
simple backend takes no notice. -/
def reportFormat (c : Context) (l : Logger) (requested : MessageFormat) : Traced World Unit := do
  if c.kind = .standard ∧ requested.name ≠ l.format.name then
    Traced.report (.formatIgnored l.name l.format.name requested.name)

/-- The logger of a name. The format of the first request for it is kept; a
request without one asks for the parameterized format. -/
def logger (c : Context) (name : String) (requested : Option MessageFormat) :
    Traced World Logger := do
  let w ← get
  let found ← match c.existing? w name with
    | some l => pure l
    | none => c.addLogger name (requested.getD .parameterized)
  match requested with
  | some format => c.reportFormat found format
  | none => pure ()
  return found

/-- Gives a context its appenders, in place of those it had. The result tells
whether the context takes appenders at all. -/
def configure (c : Context) (next : AppenderMap) : Traced World Bool :=
  match c.kind with
  | .simple => return false
  | .standard => do
    let w ← get
    let previous := (w.contextState c).table
    set (w.updateContext c fun s => { s with table := next })
    let stopped ← previous.replace next
    Traced.report (.appendersPublished c.name next.size stopped)
    return true

def view (w : World) (c : Context) : String :=
  let state := w.contextState c
  "StandardLoggerContext \x7b name: " ++ Text.quoted c.name ++ ", level: " ++ c.level.viewName ++
    ", loggers: " ++ toString state.loggers.length ++ ", appenders: " ++
    toString state.table.size ++ " \x7d"

end Context

namespace Backend

def globalName : String := "global"

def simpleName : String := "simple"

/-- A standard backend under an implementation name of its own. -/
def standardNamed (implementation : String) (level : Level) : Traced World Backend := do
  let root ← World.addContext .standard globalName level
  modifyGet fun w =>
    (⟨w.backends.next, .standard, implementation, level, root⟩,
      { w with backends := w.backends.add ⟨[]⟩ })

def standard (level : Level) : Traced World Backend := standardNamed standardClass level

def simple (level : Level) : Traced World Backend := do
  let root ← World.addContext .simple simpleName level
  modifyGet fun w =>
    (⟨w.backends.next, .simple, simpleClass, level, root⟩,
      { w with backends := w.backends.add ⟨[]⟩ })

/-- The realm a request is for: the given one, else the current one of the
thread, else the default. -/
def requestedRealm (w : World) (isolation : Option Realm) : Realm :=
  (isolation.or w.realm).getD Realm.default

/-- The context of a realm, made on the first request. -/
def realmContext (b : Backend) (realm : Realm) : Traced World Context := do
  let w ← get
  match (w.realms b).lookup realm with
  | some c => return c
  | none => do
    Traced.report (.contextCreated realm)
    let c ← World.addContext .standard realm b.level
    modify fun w =>
      { w with backends := w.backends.update b.id fun s => ⟨s.realms ++ [(realm, c)]⟩ }
    return c

/-- The context of a caller. -/
def context (b : Backend) (caller : String) (isolation : Option Realm) (global : Bool) :
    Traced World Context :=
  match b.kind with
  | .simple => return b.root
  | .standard =>
    if global then return b.root
    else do
      let w ← get
      let realm := requestedRealm w isolation
      Traced.report (.contextResolved caller realm)
      b.realmContext realm

/-- The caller that the facade itself is known as. -/
def facadeCaller : String := "lumber"

def logger (b : Backend) (name : String) (requested : Option MessageFormat) :
    Traced World Logger := do
  let c ← b.context name none false
  c.logger name requested

def rootLogger (b : Backend) : Traced World Logger := do
  let c ← b.context facadeCaller none false
  c.logger "" none

def view (w : World) (b : Backend) : String :=
  "StandardContextFactory \x7b level: " ++ b.level.viewName ++ ", realms: " ++
    toString (w.realms b).length ++ " \x7d"

/-- The view of a handle that gives out contexts of the backend. -/
def locatorView (b : Backend) : String :=
  "LoggerContextLocator \x7b backend: " ++ Text.quoted b.implementation ++ " \x7d"

end Backend
end LoggingFacade
