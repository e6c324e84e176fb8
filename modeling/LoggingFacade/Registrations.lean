import LoggingFacade.Backend.Routing
import LoggingFacade.Plugin.Binding
import LoggingFacade.Plugin.Linked
import LoggingFacade.Selection

/-!
# Registrations

The plugins, backends and provider records that are part of a program.
-/

namespace LoggingFacade

structure Registrations where
  plugins : List (Plugin World)
  backends : List (BackendEntry World Backend)
  records : List Source

namespace Registrations

def standardBackend : BackendEntry World Backend where
  className := Backend.standardClass
  description := "Standard backend with per-realm contexts and appender tables"
  create := return .done (← Backend.standard Backend.standardLevel)

/-- The record of the standard backend. -/
def standardRecord : Source where
  id := "lumber-providers/META-INF/lumber-provider.toml"
  body := .inline ("# Discovery record for the standard backend\n" ++
    "LoggerContextFactory = \"lumber.providers.StandardContextFactory\"\n" ++
    "ApiVersion = \"2.0.0\"\n" ++
    "FactoryPriority = 10\n")

/-- What the facade brings with it. -/
def standard : Registrations where
  plugins := Plugin.linked
  backends := [standardBackend]
  records := [standardRecord]

def catalog (r : Registrations) : Catalog World Backend := .linked r.backends

def locator (r : Registrations) : Locator World := .linked r.records

def binding {σ : Type} (r : Registrations) : Traced σ (Binding World) :=
  Binding.ofList r.plugins

end Registrations
end LoggingFacade
