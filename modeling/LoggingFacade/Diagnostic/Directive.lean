import LoggingFacade.Diagnostic
import LoggingFacade.Number.Integer
import LoggingFacade.Text.Alphanumeric
import LoggingFacade.Text.Blank
import LoggingFacade.Text.Cut
import LoggingFacade.Text.Letter
import LoggingFacade.Text.Pattern

/-!
# Directives on diagnostics

A directive lets a level through in the areas whose names start with its target.
In brackets it may name a span and, in braces, a field that a diagnostic must
have: `target[span{field=value}]=level`, where every part may be missing.
-/

namespace LoggingFacade

open Number (Bounds readInteger)

structure Directive where
  /-- Without a target a directive is for all areas. -/
  target : String
  /-- Without a field it is for all diagnostics there. -/
  field : Option String
  /-- Directives that name a span or the value of a field concern no diagnostic
  outside of spans. -/
  ofSpans : Bool
  /-- The least severe level let through; none lets nothing through. -/
  level : Option Severity
  deriving DecidableEq, Repr

namespace Directive

/-- A level by its name in any case, or by its rank; `off` and zero let nothing
through. -/
def level? (text : String) : Option (Option Severity) :=
  match readInteger .word64 text with
  | .ok rank => [none, some .error, some .warn, some .info, some .debug, some .trace][rank.toNat]?
  | .error _ =>
    match Text.lower text with
    | "off" => some none
    | "error" => some (some .error)
    | "warn" => some (some .warn)
    | "info" => some (some .info)
    | "debug" => some (some .debug)
    | "trace" => some (some .trace)
    | _ => none

/-- The level after an equals sign; an empty one lets everything through. -/
def levelFrom? (cs : List Char) (start : Nat) : Option (Option Severity) := do
  match ← Text.from? start cs with
  | [] => return some .trace
  | text => level? (.ofList text)

/-- The characters that a directive without brackets may start with. -/
def isInitial (c : Char) : Bool := c == '-' || c == ':' || c == '_' || Text.isAlphanumeric c

def isPlainNumber (cs : List Char) : Bool :=
  cs.any Char.isDigit && cs.all (fun c => c.isDigit || c == '.') && cs.count '.' ≤ 1

/-- The value of a field is a number or a pattern. -/
def isValue : List Char → Bool
  | '+' :: cs => isPlainNumber cs
  | cs => Text.Pattern.isWellFormed cs

/-- A field with its name, and whether a value is asked for. -/
def field? (cs : List Char) : Option (String × Bool) :=
  if cs.isEmpty then none
  else
    let name := String.ofList (cs.takeWhile (· != '='))
    match cs.dropWhile (· != '=') with
    | [] => some (name, false)
    | _ :: rest => if isValue (rest.takeWhile (· != '=')) then some (name, true) else none

/-- What may follow a closing bracket: nothing, or a level. -/
def afterBracket? (cs : List Char) (place : Nat) : List Char → Option (Option Severity)
  | [] => some (some .trace)
  | '=' :: _ => levelFrom? cs (place + 1)
  | _ => none

/-- The brackets of a directive. The rest is read after the opening one, whose
end is at the given place. -/
def bracketed? (cs : List Char) (target : String) (place : Nat) (rest : List Char) :
    Option Directive := do
  let isInner (c : Char) : Bool := c != ']' && c != '\x7b'
  let spanEnd := place + Text.byteCount (rest.takeWhile isInner)
  let span ← Text.between? place spanEnd cs
  match rest.dropWhile isInner with
  | ']' :: rest =>
    return ⟨target, none, true, ← afterBracket? cs (spanEnd + 1) rest⟩
  | '\x7b' :: rest =>
    let isField (c : Char) : Bool := c != '\x7d'
    let fieldEnd := spanEnd + 1 + Text.byteCount (rest.takeWhile isField)
    let (name, hasValue) ← field? (← Text.between? (spanEnd + 1) fieldEnd cs)
    match rest.dropWhile isField with
    | '\x7d' :: ']' :: rest =>
      return ⟨target, some name, hasValue || !span.isEmpty, ← afterBracket? cs (fieldEnd + 2) rest⟩
    | _ => none
  | _ => none

/-- Reads a directive. Its form is found in the text without the blanks around
it, but its parts are cut at the same places out of the text with them. -/
def read? (text : String) : Option Directive :=
  let cs := text.toList
  let form := Text.strip Text.isBlank cs
  let isOuter (c : Char) : Bool := c != '=' && c != '['
  match form with
  | [] => none
  | '[' :: rest => bracketed? cs "" 1 rest
  | c :: _ =>
    if !isInitial c then none
    else
      let place := Text.byteCount (form.takeWhile isOuter)
      match form.dropWhile isOuter with
      | [] =>
        match level? text with
        | some level => some ⟨"", none, false, level⟩
        | none => some ⟨text, none, false, some .trace⟩
      | mark :: rest => do
        let target := String.ofList (← Text.between? 0 place cs)
        if mark == '[' then bracketed? cs target (place + 1) rest
        else return ⟨target, none, false, ← levelFrom? cs (place + 1)⟩

/-- A directive is for a diagnostic of its areas that has its field. Every
diagnostic has a message. -/
def isFor (directive : Directive) (d : Diagnostic) : Bool :=
  !directive.ofSpans && directive.target.toList.isPrefixOf d.area.toList &&
    match directive.field with
    | some name => name == "message" || d.fields.any (·.1 == name)
    | none => true

def fieldIsBefore : Option String → Option String → Bool
  | some a, some b => b < a
  | some _, none => true
  | none, _ => false

/-- The order in which directives are asked: longer targets first, of equally
long ones those with a field, of these the one with the greater name. -/
def isBefore (a b : Directive) : Bool :=
  b.target.utf8ByteSize < a.target.utf8ByteSize ||
    (a.target.utf8ByteSize == b.target.utf8ByteSize && fieldIsBefore a.field b.field)

end Directive
end LoggingFacade
