/-!
# Tables of settings

A table holds values under keys, each key once. How a table came to be decides what may still be
added to it: a header `[a.b]` makes the table `b` its own and implies `a`, which may get a header
later; keys with dots reach into tables that such keys have made, and through tables that are only
implied:

    declare ["a", "b"], then declare ["a"]        : both are made
    declare ["a"], then declare ["a"]             : refused
    assign ["a", "x"] 1, then assign ["a", "y"] 2 : both are put into `a`
    declare ["a"], then, at the top, assign ["a", "x"] 1 : refused

Nothing that has been said is ever replaced.
-/

namespace Bulletin.Toml

/-- How a table came to be. -/
inductive Origin where
  /-- By a header of its own. -/
  | header
  /-- By the header of something inside it. -/
  | implied
  /-- By keys with dots. -/
  | dotted
  /-- It is written in braces. -/
  | inline
  deriving DecidableEq, Repr, Inhabited

/-- A value. No setting is a number with a fraction or a date, so of these nothing is kept. -/
inductive Value where
  | string (s : String)
  | integer (n : Int)
  | float
  | boolean (b : Bool)
  | dateTime
  | array (elements : List Value)
  | table (origin : Origin) (entries : List (String × Value))
  /-- Tables that have been added one by one under headers. -/
  | tables (tables : List (List (String × Value)))
  deriving Inhabited

/-- The values under the keys of a table. -/
abbrev Table := List (String × Value)

abbrev KeyPath := List String

namespace Table

/-- Gives a key the value that `f` makes of the one it has, if `f` agrees. -/
def alter (key : String) (f : Option Value → Option Value) : Table → Option Table
  | [] => (f none).map fun v => [(key, v)]
  | (k, v) :: rest =>
    if k = key then (f (some v)).map fun v => (k, v) :: rest
    else (alter key f rest).map ((k, v) :: ·)

/-- Changes the last of several tables. -/
def alterLast (f : Table → Option Table) : List Table → Option (List Table)
  | [] => none
  | [t] => (f t).map fun t => [t]
  | t :: rest => (alterLast f rest).map (t :: ·)

/-- Gives the key at the end of a path a value. -/
def assign (v : Value) : KeyPath → Table → Option Table
  | [], _ => none
  | [key], t => t.alter key fun before => if before.isSome then none else some v
  | key :: next :: path, t =>
    t.alter key fun
      | none => (assign v (next :: path) []).map (.table .dotted)
      | some (.table .dotted entries) => (assign v (next :: path) entries).map (.table .dotted)
      | some (.table .implied entries) =>
        if path.isEmpty then none else (assign v (next :: path) entries).map (.table .implied)
      | some (.tables ts) =>
        if path.isEmpty then none else (alterLast (assign v (next :: path)) ts).map .tables
      | _ => none

/-- Changes the table that a path of a header leads to. -/
def inside (f : Table → Option Table) : KeyPath → Table → Option Table
  | [], t => f t
  | key :: path, t =>
    t.alter key fun
      | none => (inside f path []).map (.table .implied)
      | some (.table .inline _) => none
      | some (.table origin entries) => (inside f path entries).map (.table origin)
      | some (.tables ts) => (alterLast (inside f path) ts).map .tables
      | _ => none

/-- Makes the table under a key one with a header of its own. -/
def declare (key : String) (t : Table) : Option Table :=
  t.alter key fun
    | none => some (.table .header [])
    | some (.table .implied entries) => some (.table .header entries)
    | _ => none

def append (key : String) (t : Table) : Option Table :=
  t.alter key fun
    | none => some (.tables [[]])
    | some (.tables ts) => some (.tables (ts ++ [[]]))
    | _ => none

end Table

/-- What a line of a document says. -/
inductive Statement where
  | assign (path : KeyPath) (v : Value)
  /-- The header of a table. -/
  | declare (path : KeyPath)
  /-- The header of one more table among several. -/
  | append (path : KeyPath)
  deriving Inhabited

/-- What a document has said so far, and the table that the next lines are about. -/
structure Document where
  root : Table
  current : KeyPath
  deriving Inhabited

namespace Document

def empty : Document := ⟨[], []⟩

/-- Changes the table that a header names, about which the next lines are then. -/
def open? (d : Document) (path : KeyPath) (f : String → Table → Option Table) :
    Option Document := do
  let key ← path.getLast?
  return ⟨← d.root.inside (f key) path.dropLast, path⟩

/-- Takes in what a line says. -/
def add (d : Document) : Statement → Option Document
  | .assign path v => do return { d with root := ← d.root.inside (Table.assign v path) d.current }
  | .declare path => d.open? path Table.declare
  | .append path => d.open? path Table.append

end Document

end Bulletin.Toml
