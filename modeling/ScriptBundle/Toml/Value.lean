/-! # Values of TOML documents

Tables of values by their keys, lists and texts; of all other values it is only known that they are
there. A table remembers how it came about, since that decides what may still be added to it.

* **`Value`** — a value;
* **`Table.put?`** — a value set under a dotted key;
* **`Table.openTable?`, `Table.openItem?`** — a table opened by a header, and one more table of a
  list of tables. -/

namespace ScriptBundle.Toml

/-- **How a `table` came about.** -/
inductive Origin
  /-- By a header of its own. -/
  | header
  /-- On the way to the table of a header. -/
  | path
  /-- By a dotted key. -/
  | dotted
  /-- Between braces. -/
  | inline
deriving DecidableEq, Repr

/-- **A value.** -/
inductive Value
  /-- A text. -/
  | text (s : String)
  /-- A number, a truth value, a date or a time. -/
  | scalar
  /-- A list, and whether it is made by headers. -/
  | list (byHeaders : Bool) (items : List Value)
  /-- A table, its entries in the order they were set. -/
  | table (origin : Origin) (entries : List (String × Value))
deriving Repr, Inhabited

/-- The entries of a table. -/
abbrev Table := List (String × Value)

namespace Table

/-- The table with the value of a key exchanged. -/
def replace (t : Table) (key : String) (v : Value) : Table :=
  t.map fun entry => if entry.1 = key then (key, v) else entry

/-- **A change of the `table` at the end of a path.** Tables that are missing on the way are made.
A path of a dotted key leads into no table that has a header or braces, and into no list; a path of
a header leads into the last table of a list that is made by headers. -/
def change? (isDotted : Bool) (f : Origin → Table → Option Table) :
    List String → Origin → Table → Option Table
  | [], origin, t => f origin t
  | key :: path, _, t =>
    let made : Origin := if isDotted then .dotted else .path
    match t.lookup key with
    | none => (change? isDotted f path made []).map fun inner => t ++ [(key, .table made inner)]
    | some (.table origin inner) =>
      if origin = .inline ∨ (isDotted = true ∧ origin = .header) then none
      else (change? isDotted f path origin inner).map fun inner =>
        t.replace key (.table origin inner)
    | some (.list true items) =>
      match items.getLast? with
      | some (.table origin inner) =>
        if isDotted then none
        else (change? isDotted f path origin inner).map fun inner =>
          t.replace key (.list true (items.dropLast ++ [.table origin inner]))
      | _ => none
    | some _ => none

/-- An entry added under a key that is not there yet. -/
def add? (t : Table) (key : String) (v : Value) : Option Table :=
  if (t.lookup key).isSome then none else some (t ++ [(key, v)])

/-- **A value set under a dotted key.** A table on the way that was made by a header takes no
entries from a dotted key. -/
def put? (path : List String) (key : String) (v : Value) (origin : Origin) (t : Table) :
    Option Table :=
  change? true (fun made t => if path ≠ [] ∧ made ≠ .dotted then none else t.add? key v)
    path origin t

/-- **A `table` opened by a header.** It may have been met on the way to another table before, but
not more. -/
def openTable? (path : List String) (key : String) (t : Table) : Option Table :=
  change? false (fun _ t =>
    match t.lookup key with
    | none => some (t ++ [(key, .table .header [])])
    | some (.table .path inner) => some (t.replace key (.table .header inner))
    | some _ => none) path .header t

/-- **One more `table` of a list of tables.** -/
def openItem? (path : List String) (key : String) (t : Table) : Option Table :=
  change? false (fun _ t =>
    match t.lookup key with
    | none => some (t ++ [(key, .list true [.table .header []])])
    | some (.list true items) =>
      some (t.replace key (.list true (items ++ [.table .header []])))
    | some _ => none) path .header t

/-- A value set under a dotted key of the table that a `header` opened. -/
def putBelow? (header path : List String) (key : String) (v : Value) (t : Table) : Option Table :=
  change? false (fun origin t => put? path key v origin t) header .header t

end Table

end ScriptBundle.Toml
