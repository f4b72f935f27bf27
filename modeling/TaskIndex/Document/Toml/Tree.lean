import TaskIndex.Document.Basic

/-!
The tables of a TOML document while it is being read.

A table comes to be in one of three ways, and that decides who may still add to it: a header may take
over a table that only stood above other headers, a dotted key may go on in tables that no header has
opened and makes them its own, and nobody adds to what was written as a value. Each key is given a value
once.
-/

namespace TaskIndex.Toml

/-- How a table came to be. -/
inductive Origin where
  /-- It stands above the table of a header. -/
  | implied
  /-- A header has opened it. -/
  | opened
  /-- It stands in front of a dot in a key, whatever it was before. -/
  | dotted
deriving DecidableEq

/-- What a key stands for. -/
inductive Node where
  | value (d : Document)
  | table (origin : Origin) (entries : List (String × Node))
  /-- Tables that headers with two brackets have opened, the latest first. -/
  | tables (items : List (List (String × Node)))

abbrev Entries := List (String × Node)

namespace Entries

/-- Gives a key a node: in the place of the one it has, or at the end. -/
def put (key : String) (node : Node) : Entries → Entries
  | [] => [(key, node)]
  | entry :: rest => if entry.1 = key then (key, node) :: rest else entry :: put key node rest

/-- Changes the entries of the table that a path leads to, where a missing table is made. On the way a
list of tables stands for its latest one. -/
def alterAt? (dotted : Bool) (change : Origin → Entries → Option Entries) (origin : Origin) :
    (path : List String) → Entries → Option Entries
  | [], entries => change origin entries
  | key :: path, entries =>
    let step (origin : Origin) (inner : Entries) : Option Entries :=
      (alterAt? dotted change origin path inner).map fun inner => put key (.table origin inner) entries
    match entries.lookup key with
    | none => step (if dotted then .dotted else .implied) []
    | some (.table origin inner) =>
      if dotted then (if origin = .opened then none else step .dotted inner) else step origin inner
    | some (.tables (latest :: earlier)) =>
      (alterAt? dotted change .opened path latest).map fun latest =>
        put key (.tables (latest :: earlier)) entries
    | some _ => none

/-- Adds a value under a key that may have dots in front of it. The table it goes to has to be one of
dotted keys when there are dots, and must not be one when there are none. -/
def add? (path : List String) (key : String) (value : Document) (entries : Entries) : Option Entries :=
  let dotted := !path.isEmpty
  let addTo (origin : Origin) (entries : Entries) : Option Entries :=
    if (origin == .dotted) != dotted || (entries.lookup key).isSome then none
    else some (entries ++ [(key, .value value)])
  alterAt? dotted addTo .opened path entries

def open? (path : List String) (key : String) (root : Entries) : Option Entries :=
  let openIn (_ : Origin) (entries : Entries) : Option Entries :=
    match entries.lookup key with
    | none => some (put key (.table .opened []) entries)
    | some (.table .implied inner) => some (put key (.table .opened inner) entries)
    | some _ => none
  alterAt? false openIn .opened path root

def openNext? (path : List String) (key : String) (root : Entries) : Option Entries :=
  let openIn (_ : Origin) (entries : Entries) : Option Entries :=
    match entries.lookup key with
    | none => some (put key (.tables [[]]) entries)
    | some (.tables items) => some (put key (.tables ([] :: items)) entries)
    | some _ => none
  alterAt? false openIn .opened path root

/-- Adds a value to the table that a path leads to. -/
def addAt? (here path : List String) (key : String) (value : Document) (root : Entries) :
    Option Entries :=
  alterAt? false (fun _ entries => add? path key value entries) .opened here root

end Entries

mutual

/-- The value that a node has become. -/
def Node.document : Node → Document
  | .value d => d
  | .table _ entries => .table (documentEntries entries)
  | .tables items => .list (documentItems items).reverse

def documentEntries : List (String × Node) → List (String × Document)
  | [] => []
  | (key, node) :: rest => (key, node.document) :: documentEntries rest

def documentItems : List (List (String × Node)) → List Document
  | [] => []
  | entries :: rest => .table (documentEntries entries) :: documentItems rest

end

end TaskIndex.Toml
