/-!
# Items of TOML

The contents of a document, with a note on how each table came to be, because that decides what may
be added to it.

- `insertDotted`: adds a value at a dotted key
- `openTable`, `openElement`: start the table of a header
- `updateAt`: changes the table that a path leads to
-/

set_option autoImplicit false

namespace Rollback.Toml

/-- How a table came to be. -/
inductive Origin where
  /-- A header names the table. -/
  | header
  /-- A header names a table inside it. -/
  | implied
  /-- A dotted key leads through it. -/
  | dotted
deriving DecidableEq, Repr

/-- A part of a document. -/
inductive Item where
  | string (s : String)
  | bool (b : Bool)
  | number
  /-- A day, a time of day, or both. -/
  | time
  | array (items : List Item)
  /-- A table in braces, to which nothing can be added. -/
  | inline (entries : List (String × Item))
  | table (origin : Origin) (entries : List (String × Item))
  /-- Tables with one header each, the last of which can be added to. -/
  | tables (elements : List (List (String × Item)))

/-- The entries of a table. -/
abbrev Entries := List (String × Item)

/-- The entries with the item at a key set. -/
def setEntry (key : String) (item : Item) : Entries → Entries
  | [] => [(key, item)]
  | (k, old) :: rest => if k == key then (key, item) :: rest else (k, old) :: setEntry key item rest

/-- The entries with one more, whose key must be new. -/
def addEntry (key : String) (item : Item) (entries : Entries) : Option Entries :=
  if (entries.lookup key).isSome then none else some (setEntry key item entries)

/-- The elements with the last one changed. -/
def updateLast (change : Entries → Option Entries) :
    List Entries → Option (List Entries)
  | [] => none
  | [last] => (change last).map fun e => [e]
  | first :: rest => (updateLast change rest).map (first :: ·)

/--
The entries with one more at the end of a dotted key. Tables on the way must not have a header of
their own, and the last of them must come from dotted keys; `origin` is that of the present table.
-/
def insertDotted (origin : Origin) (key : String) (item : Item) :
    List String → Entries → Option Entries
  | [], entries => if origin == .implied then none else addEntry key item entries
  | step :: path, entries => do
    let next ← match entries.lookup step with
      | none => (insertDotted .dotted key item path []).map (.table .dotted)
      -- A dotted key does not reach into a table that has a header.
      | some (.table .header _) => none
      | some (.table origin sub) => (insertDotted origin key item path sub).map (.table origin)
      | some (.tables elements) =>
        (updateLast (insertDotted .implied key item path) elements).map .tables
      | _ => none
    return setEntry step next entries

/-- The entries with the table changed that a path of headers leads to. -/
def updateAt (change : Entries → Option Entries) : List String → Entries → Option Entries
  | [], entries => change entries
  | step :: path, entries => do
    let next ← match entries.lookup step with
      | none => (updateAt change path []).map (.table .implied)
      | some (.table origin sub) => (updateAt change path sub).map (.table origin)
      | some (.tables elements) => (updateLast (updateAt change path) elements).map .tables
      | _ => none
    return setEntry step next entries

/-- The entries with the table of a header, which may have been implied before. -/
def openTable (key : String) (entries : Entries) : Option Entries :=
  match entries.lookup key with
  | none => some (setEntry key (.table .header []) entries)
  | some (.table .implied sub) => some (setEntry key (.table .header sub) entries)
  | _ => none

/-- The entries with one more element for a header. -/
def openElement (key : String) (entries : Entries) : Option Entries :=
  match entries.lookup key with
  | none => some (setEntry key (.tables [[]]) entries)
  | some (.tables elements) => some (setEntry key (.tables (elements ++ [[]])) entries)
  | _ => none

end Rollback.Toml
