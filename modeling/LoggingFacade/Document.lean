import LoggingFacade.Number.Binary64
import LoggingFacade.Number.Integer
import LoggingFacade.TextMap

/-!
# Documents

The value tree that every document format is read into. A table lists its
entries as the document gives them, so a repeated key is still visible.
-/

namespace LoggingFacade

open Number (Binary64 Bounds)

inductive Document where
  | null
  | bool (value : Bool)
  | integer (value : Int)
  | float (value : Binary64)
  | moment (text : String)
  | text (value : String)
  /-- A single character, which is a text but no attribute. -/
  | character (value : Char)
  /-- A well-formed value that none of the other forms can hold. -/
  | unreadable
  | list (items : List Document)
  | table (entries : List (String × Document))
  deriving Repr, Inhabited

namespace Document

/-- Reads a field by name. -/
def get? (d : Document) (key : String) : Option Document :=
  match d with
  | table entries => entries.lookup key
  | _ => none

def asText? : Document → Option String
  | text s => some s
  | character c => some (.ofList [c])
  | _ => none

def asBool? : Document → Option Bool
  | bool b => some b
  | _ => none

def asList? : Document → Option (List Document)
  | list items => some items
  | _ => none

/-- The text of a scalar: an integer that fits 64 signed bits in decimal, one
that fits 64 unsigned bits as the nearest binary fraction, and no other. -/
def scalarText? : Document → Option String
  | bool b => some (if b then "true" else "false")
  | integer n =>
    if Bounds.int64.contains n then some (toString n)
    else if Bounds.word64.contains n then some (Binary64.ofInt n).text
    else none
  | float x => some x.text
  | text s => some s
  | _ => none

/-- The only entry of a key: `none` if the key is repeated, `some none` if it
is missing. -/
def unique? (entries : List (String × Document)) (key : String) : Option (Option Document) :=
  match entries.filter (·.1 == key) with
  | [] => some none
  | [entry] => some (some entry.2)
  | _ => none

/-- Fields given in a record's order instead of by name. Items beyond the last
field are refused if `strict`, else ignored. -/
def positional? (strict : Bool) (names : List String) (items : List Document) :
    Option (List (String × Document)) :=
  if strict && names.length < items.length then none else some (names.zip items)

/-- The fields of a record, given by name or by position. -/
def fields? (strict : Bool) (names : List String) : Document → Option (List (String × Document))
  | table entries => some entries
  | list items => positional? strict names items
  | _ => none

/-- Lays one document over another: tables merge key by key, anything else is
replaced. -/
def overlay : Document → Document → Document
  | table below, table above =>
    table (mergeEntries below above ++ above.filter fun e => below.all (·.1 != e.1))
  | _, above => above
where
  mergeEntries : List (String × Document) → List (String × Document) →
      List (String × Document)
    | [], _ => []
    | (key, value) :: rest, above =>
      (key, match above.lookup key with
        | some given => overlay value given
        | none => value) :: mergeEntries rest above

/-- How deep lists and tables are nested; a scalar has height one. -/
def height : Document → Nat
  | list items => itemsHeight items + 1
  | table entries => entriesHeight entries + 1
  | _ => 1
where
  itemsHeight : List Document → Nat
    | [] => 0
    | item :: rest => max item.height (itemsHeight rest)
  entriesHeight : List (String × Document) → Nat
    | [] => 0
    | (_, value) :: rest => max value.height (entriesHeight rest)

/-- Whether every integer lies between the bounds. -/
def integersWithin (b : Bounds) : Document → Bool
  | integer n => b.contains n
  | list items => itemsWithin items
  | table entries => entriesWithin entries
  | _ => true
where
  itemsWithin : List Document → Bool
    | [] => true
    | item :: rest => integersWithin b item && itemsWithin rest
  entriesWithin : List (String × Document) → Bool
    | [] => true
    | (_, value) :: rest => integersWithin b value && entriesWithin rest

/-- The document itself, if its integers lie between the bounds. -/
def withinBounds? (b : Bounds) (d : Document) : Option Document :=
  if d.integersWithin b then some d else none

/-- A single value below a path of keys. -/
def nested : List String → Document → Document
  | [], d => d
  | key :: path, d => table [(key, nested path d)]

end Document
end LoggingFacade
