import LoggingFacade.Plugin.Arguments
import LoggingFacade.Traced

/-!
# Plugins

A plugin is registered with the schema of its parameters and a factory. The
schema alone decides how a declaration is read; the factory sees arguments of
the declared kinds only, but is not trusted to return.
-/

namespace LoggingFacade

inductive ParameterKind where
  | bool
  | int
  | charset
  | text
  | element (type : ElementType)
  | elements (type : ElementType)
  deriving DecidableEq, Repr

namespace ParameterKind

/-- Whether values are given as attributes, not as nested components. -/
def isAttribute : ParameterKind → Bool
  | element _ => false
  | elements _ => false
  | _ => true

def view : ParameterKind → String
  | bool => "Bool"
  | int => "Int"
  | charset => "Charset"
  | text => "Text"
  | element type => "Element(" ++ type.viewName ++ ")"
  | elements type => "Elements(" ++ type.viewName ++ ")"

end ParameterKind

structure Parameter where
  name : String
  kind : ParameterKind
  standard : Option String
  required : Bool
  deriving DecidableEq, Repr

namespace Parameter

/-- An attribute with a standard value. -/
def withStandard (name : String) (kind : ParameterKind) (standard : String) : Parameter :=
  ⟨name, kind, some standard, false⟩

def optional (name : String) (kind : ParameterKind) : Parameter := ⟨name, kind, none, false⟩

def mandatory (name : String) (kind : ParameterKind) : Parameter := ⟨name, kind, none, true⟩

def view (p : Parameter) : String :=
  let standard := match p.standard with
    | some value => "Some(" ++ Text.quoted value ++ ")"
    | none => "None"
  "ParameterSpec \x7b name: " ++ Text.quoted p.name ++ ", kind: " ++ p.kind.view ++
    ", default: " ++ standard ++ ", required: " ++ (if p.required then "true" else "false") ++
    " \x7d"

end Parameter

structure Plugin (σ : Type) where
  name : String
  elementType : ElementType
  description : String
  parameters : List Parameter
  factory : Arguments → Traced σ (Attempt Component)

namespace Plugin

variable {σ : Type}

def view (p : Plugin σ) : String :=
  "PluginEntry \x7b name: " ++ Text.quoted p.name ++ ", element_type: " ++
    p.elementType.viewName ++ ", parameters: [" ++
    ", ".intercalate (p.parameters.map Parameter.view) ++ "], .. \x7d"

/-- Whether an attribute of this name is read, in any case of its letters. -/
def knows (p : Plugin σ) (name : String) : Bool :=
  p.parameters.any fun q => q.kind.isAttribute && Text.sameName q.name name

end Plugin
end LoggingFacade
