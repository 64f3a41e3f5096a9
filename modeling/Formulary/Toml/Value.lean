/-!
# TOML values and documents

A `Value` is what TOML text can give to a key. While a document is read its tables are still open:
an `Item` is a finished value, a table that may grow, or a list of tables of which the last one may.
`assign`, `openTable` and `openElement` are the three ways in which a line adds to a document; each
refuses what would define something twice.
-/

set_option autoImplicit false
set_option relaxedAutoImplicit false

namespace Formulary.Toml

/-! ### Values -/

/-- A TOML value. -/
inductive Value where
  | text (value : String)
  | integer (value : Int)
  | float (value : Float)
  | boolean (value : Bool)
  | dateTime (written : String)
  | list (items : List Value)
  | table (entries : List (String × Value))
  deriving Repr, Inhabited

/-! ### Open documents -/

/-- How a table came to be: by a header of its own, as a part of the header of another one, or by a
dotted key. -/
inductive Origin where
  | header
  | partOfHeader
  | dottedKey
  deriving Repr, DecidableEq

/-- What a key of an open table has. -/
inductive Item where
  | value (value : Value)
  | table (origin : Origin) (entries : List (String × Item))
  | tables (elements : List (List (String × Item)))
  deriving Repr, Inhabited

/-- The entries of an open table. -/
abbrev Entries := List (String × Item)

/-- Puts an item at a key in place of what it had. -/
def replaceItem (key : String) (item : Item) : Entries → Entries
  | [] => []
  | (other, current) :: rest =>
    if other = key then (key, item) :: rest else (other, current) :: replaceItem key item rest

/-- Changes the table at a path. Tables that are missing on the way are made; the way leads into the
last one of several tables, never into a value and, along dotted keys, into no table with a header
of its own. -/
def changeAt (dotted : Bool) (change : Origin → Entries → Option Entries) :
    List String → Origin → Entries → Option Entries
  | [], origin, entries => change origin entries
  | key :: path, _, entries =>
    match entries.lookup key with
    | none =>
      let origin := if dotted then .dottedKey else .partOfHeader
      (changeAt dotted change path origin []).map fun inner ↦
        entries ++ [(key, .table origin inner)]
    | some (.value _) => none
    | some (.table origin inner) =>
      if dotted && origin == .header then none
      else
        (changeAt dotted change path origin inner).map fun changed ↦
          replaceItem key (.table origin changed) entries
    | some (.tables elements) =>
      match elements.getLast? with
      | none => none
      | some last =>
        (changeAt dotted change path .header last).map fun changed ↦
          replaceItem key (.tables (elements.dropLast ++ [changed])) entries

/-- Adds a new key to a table; dotted keys and headers may not share one. -/
def addValue (dotted : Bool) (key : String) (value : Value) (origin : Origin)
    (entries : Entries) : Option Entries :=
  if (origin == .dottedKey) != dotted then none
  else if (entries.lookup key).isSome then none
  else some (entries ++ [(key, .value value)])

/-- Gives a value to a dotted key in a table. -/
def assignIn (path : List String) (key : String) (value : Value) (origin : Origin)
    (entries : Entries) : Option Entries :=
  changeAt true (addValue (!path.isEmpty) key value) path origin entries

/-- Gives a value to a dotted key under a header. -/
def assign (header path : List String) (key : String) (value : Value) (document : Entries) :
    Option Entries :=
  changeAt false (assignIn path key value) header .header document

/-- Opens the table of a header. -/
def openTable (path : List String) (key : String) (document : Entries) : Option Entries :=
  changeAt false
    (fun _ entries ↦
      match entries.lookup key with
      | none => some (entries ++ [(key, .table .header [])])
      | some (.table .partOfHeader inner) => some (replaceItem key (.table .header inner) entries)
      | some _ => none)
    path .header document

/-- Opens one more element of the list of tables of a header. -/
def openElement (path : List String) (key : String) (document : Entries) : Option Entries :=
  changeAt false
    (fun _ entries ↦
      match entries.lookup key with
      | none => some (entries ++ [(key, .tables [[]])])
      | some (.tables elements) => some (replaceItem key (.tables (elements ++ [[]])) entries)
      | some _ => none)
    path .header document

/-! ### Finished documents -/

mutual

/-- The value that an item has in the end. -/
def Item.toValue : Item → Value
  | .value value => value
  | .table _ entries => .table (finishedEntries entries)
  | .tables elements => .list (finishedTables elements)

/-- The entries that a table has in the end. -/
def finishedEntries : List (String × Item) → List (String × Value)
  | [] => []
  | (key, item) :: rest => (key, item.toValue) :: finishedEntries rest

/-- The tables of a list in the end. -/
def finishedTables : List (List (String × Item)) → List Value
  | [] => []
  | entries :: rest => .table (finishedEntries entries) :: finishedTables rest

end

end Formulary.Toml
