import PluginHost.Data.Datum

/-!
# Tables under construction

A document names its tables piece by piece. What may be added to a table depends on how it came to
be: a table that only stood on the way to another one may still get a header of its own, and only a
table made by dotted names may be extended by dotted names.
-/

namespace PluginHost.Toml

/-- How a table came to be. -/
inductive Origin where
  /-- A header of its own. -/
  | header
  /-- It stands on the way in somebody else's header. -/
  | passed
  /-- It stands on the way in a dotted name. -/
  | dotted
  deriving DecidableEq, Repr

inductive Node where
  | value (datum : Datum)
  | table (origin : Origin) (entries : List (String × Node))
  /-- Tables under headers with the same name. -/
  | tables (items : List (List (String × Node)))

abbrev Entries := List (String × Node)

def Entries.replace (es : Entries) (name : String) (node : Node) : Entries :=
  es.map fun entry => if entry.1 = name then (name, node) else entry

/-- Changes the table at the end of a path, making tables on the way. Dotted names go through
tables without a header only; nothing goes through a value. -/
def within (isDotted : Bool) (change : Origin → Entries → Option Entries) :
    List String → Origin → Entries → Option Entries
  | [], origin, es => change origin es
  | name :: path, _, es =>
    let made := if isDotted then Origin.dotted else Origin.passed
    match es.lookup name with
    | none => do
      let inner ← within isDotted change path made []
      return es ++ [(name, .table made inner)]
    | some (.table origin inner) =>
      if isDotted && origin == .header then none
      else do
        let changed ← within isDotted change path origin inner
        return es.replace name (.table origin changed)
    | some (.tables items) =>
      match items.getLast? with
      | none => none
      | some last => do
        let changed ← within isDotted change path .header last
        return es.replace name (.tables (items.dropLast ++ [changed]))
    | some (.value _) => none

structure Pair where
  path : List String
  name : String
  value : Datum

/-- Adds a value to a table. The table at the end of a dotted name has to be made by dotted names,
and a plain name belongs to a table that was not. -/
def addPair (origin : Origin) (es : Entries) (pair : Pair) : Option Entries :=
  within true (fun reached inner =>
    if (reached == .dotted) == pair.path.isEmpty then none
    else if (inner.lookup pair.name).isSome then none
    else some (inner ++ [(pair.name, .value pair.value)])) pair.path origin es

def addPairs (origin : Origin) : Entries → List Pair → Option Entries
  | es, [] => some es
  | es, pair :: rest => do
    let next ← addPair origin es pair
    addPairs origin next rest

structure Section where
  path : List String
  name : String
  /-- The header adds a table to a list of tables. -/
  repeated : Bool
  pairs : List Pair

/-- Adds a section to the table that holds it. -/
def addToParent (s : Section) (es : Entries) : Option Entries :=
  match es.lookup s.name, s.repeated with
  | none, true => do
    let made ← addPairs .header [] s.pairs
    return es ++ [(s.name, .tables [made])]
  | some (.tables items), true => do
    let made ← addPairs .header [] s.pairs
    return es.replace s.name (.tables (items ++ [made]))
  | none, false => do
    let made ← addPairs .header [] s.pairs
    return es ++ [(s.name, .table .header made)]
  | some (.table .passed inner), false => do
    let made ← addPairs .header inner s.pairs
    return es.replace s.name (.table .header made)
  | _, _ => none

def addSection (es : Entries) (s : Section) : Option Entries :=
  within false (fun _ inner => addToParent s inner) s.path .header es

def addSections : Entries → List Section → Option Entries
  | es, [] => some es
  | es, s :: rest => do
    let next ← addSection es s
    addSections next rest

mutual

/-- The data a node holds, with the members of every table in the order of their names. -/
def Node.datum : Node → Datum
  | .value d => d
  | .table _ es => .record (Node.members es)
  | .tables items => .list (Node.records items)

def Node.members : List (String × Node) → List (String × Datum)
  | [] => []
  | (name, node) :: rest => Named.insert name node.datum (Node.members rest)

def Node.records : List (List (String × Node)) → List Datum
  | [] => []
  | es :: rest => .record (Node.members es) :: Node.records rest

end

end PluginHost.Toml
