import LoggingFacade.Document

/-!
# The table tree of a TOML text

The tables that headers and dotted keys build up. A table remembers how it came
to be, since that decides how it may be extended: a header may define a table
that was only implied by a longer header, and a dotted key may extend only
tables that no header defined.
-/

namespace LoggingFacade
namespace Toml

inductive Origin where
  | header
  | implied
  | dotted
  deriving DecidableEq, Repr

inductive Node where
  | value (document : Document)
  | table (origin : Origin) (entries : List (String × Node))
  /-- An array of tables, the latest first. -/
  | tables (items : List (List (String × Node)))

abbrev Entries := List (String × Node)

namespace Node

/-- The document of a node; keys stand in ascending order. -/
def toDocument : Node → Document
  | value d => d
  | table _ entries => .table (entriesDocuments entries)
  | tables items => .list (itemsDocuments items).reverse
where
  entriesDocuments : Entries → List (String × Document)
    | [] => []
    | (key, node) :: rest => (key, node.toDocument) :: entriesDocuments rest
  itemsDocuments : List Entries → List Document
    | [] => []
    | item :: rest => .table (entriesDocuments item) :: itemsDocuments rest

end Node

namespace Entries

/-- Changes the table that a path leads to, making the tables on the way that
do not exist. `dotted` tells a dotted key from a header. -/
def change (dotted : Bool) (edit : Origin → Entries → Option Entries) :
    List String → Origin → Entries → Option Entries
  | [], origin, entries => edit origin entries
  | key :: path, _, entries =>
    match entries.lookup key with
    | none => do
      let origin := if dotted then Origin.dotted else Origin.implied
      let below ← change dotted edit path origin []
      return TextMap.put key (.table origin below) entries
    | some (.table origin below) =>
      if dotted && origin == .header then none
      else do
        let below ← change dotted edit path origin below
        return TextMap.put key (.table origin below) entries
    | some (.tables (latest :: earlier)) => do
      let latest ← change dotted edit path .header latest
      return TextMap.put key (.tables (latest :: earlier)) entries
    | _ => none

/-- Sets the value of a dotted key, which must be new. The table that holds it
was made by dotted keys exactly if the key has a path. -/
def insertValue (path : List String) (key : String) (value : Document) (origin : Origin)
    (entries : Entries) : Option Entries :=
  change true (edit path.isEmpty) path origin entries
where
  edit (plain : Bool) (origin : Origin) (entries : Entries) : Option Entries :=
    if (origin == .dotted) == plain then none
    else if (entries.lookup key).isSome then none
    else some (TextMap.put key (.value value) entries)

/-- Opens the table of a header. -/
def openTable (path : List String) (key : String) (entries : Entries) : Option Entries :=
  change false edit path .header entries
where
  edit (_ : Origin) (entries : Entries) : Option Entries :=
    match entries.lookup key with
    | none => some (TextMap.put key (.table .header []) entries)
    | some (.table .implied below) => some (TextMap.put key (.table .header below) entries)
    | _ => none

/-- Appends a table to an array of tables. -/
def appendTable (path : List String) (key : String) (entries : Entries) : Option Entries :=
  change false edit path .header entries
where
  edit (_ : Origin) (entries : Entries) : Option Entries :=
    match entries.lookup key with
    | none => some (TextMap.put key (.tables [[]]) entries)
    | some (.tables items) => some (TextMap.put key (.tables ([] :: items)) entries)
    | _ => none

end Entries
end Toml
end LoggingFacade
