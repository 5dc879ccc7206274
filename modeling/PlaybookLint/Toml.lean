/-!
# Tables of settings

What a TOML file says: keys with values, in tables that a file may write in several places.

## Main definitions

* `Toml.Item` - a value, a table, or a list of tables.
* `Toml.Table` - the entries of a table, with how the table came to be.
* `Toml.Table.descend?` - changes a table inside a table.
* `Toml.Table.insert?`, `openTable?`, `appendTable?` - what the statements of a file do.

## Design notes

No key may be given twice. How a table came to be decides what may still be added to it: a table
that only stands on the way to another one can get a header of its own later, and one written with
dotted keys can get more dotted keys.
-/

namespace PlaybookLint.Toml

/-- How a table came to be. -/
inductive Origin where
  /-- Through a header, or as the table of the whole file. -/
  | header
  /-- On the way to the table of a header. -/
  | passage
  /-- On the way of a dotted key. -/
  | dotted
  /-- Between braces, where it is complete. -/
  | closed
  deriving Repr, DecidableEq, Inhabited

/-- What stands under a key. Of numbers and dates only that they are such is known. -/
inductive Item where
  | string (text : String)
  | boolean (value : Bool)
  | number
  | date
  | array (items : List Item)
  | table (origin : Origin) (entries : List (String × Item))
  /-- The tables of repeated headers. -/
  | tables (tables : List (List (String × Item)))
  deriving Repr, Inhabited

/-- A table. -/
structure Table where
  origin : Origin
  entries : List (String × Item)
  deriving Repr, Inhabited

namespace Table

/-- The table of a file that says nothing. -/
def empty : Table := ⟨.header, []⟩

/-- What stands under a key. -/
def get? (t : Table) (key : String) : Option Item :=
  t.entries.lookup key

/-- The table with something else under a key. -/
def set (t : Table) (key : String) (item : Item) : Table :=
  ⟨t.origin, (t.entries.filter fun e => e.1 ≠ key) ++ [(key, item)]⟩

/-- Changes the table that a path of keys leads to. Tables that are missing come to be, by dotted
keys if `dotted`. -/
def descend? (dotted : Bool) (f : Table → Option Table) : List String → Table → Option Table
  | [], t => f t
  | key :: path, t =>
    match t.get? key with
    | none =>
      (descend? dotted f path ⟨if dotted then .dotted else .passage, []⟩).map fun inner =>
        t.set key (.table inner.origin inner.entries)
    | some (.table origin entries) =>
      if origin = .closed || (dotted && origin = .header) then none
      else
        (descend? dotted f path ⟨origin, entries⟩).map fun inner =>
          t.set key (.table inner.origin inner.entries)
    | some (.tables tables) =>
      match tables.reverse with
      | [] => none
      | last :: earlier =>
        (descend? dotted f path ⟨.header, last⟩).map fun inner =>
          t.set key (.tables ((inner.entries :: earlier).reverse))
    | some _ => none

/-- Adds an entry under a key that is free. A dotted key adds to a table that dotted keys made, and
a plain one to any other. -/
def put? (isPlain : Bool) (key : String) (item : Item) (t : Table) : Option Table :=
  if (t.get? key).isSome || (t.origin == .dotted) == isPlain then none
  else some (t.set key item)

/-- Adds an entry under a dotted key. -/
def insert? (path : List String) (key : String) (item : Item) (t : Table) : Option Table :=
  t.descend? true (put? path.isEmpty key item) path

/-- Gives a table its header. -/
def openTable? (path : List String) (key : String) (t : Table) : Option Table :=
  t.descend? false (fun parent =>
    match parent.get? key with
    | none => some (parent.set key (.table .header []))
    | some (.table .passage entries) => some (parent.set key (.table .header entries))
    | some _ => none) path

/-- Adds a table to a list of tables. -/
def appendTable? (path : List String) (key : String) (t : Table) : Option Table :=
  t.descend? false (fun parent =>
    match parent.get? key with
    | none => some (parent.set key (.tables [[]]))
    | some (.tables tables) => some (parent.set key (.tables (tables ++ [[]])))
    | some _ => none) path

/-- Adds an entry to the table that the last header on a path opened. -/
def insertUnder? (header path : List String) (key : String) (item : Item) (t : Table) :
    Option Table :=
  t.descend? false (insert? path key item) header

end Table

end PlaybookLint.Toml
