import RecordStore.KeyMap

/-!
# `RecordStore.Toml.Basic`: values and tables of TOML

A table remembers how it came about, because that decides what may still be added to it: a table
with a header of its own takes no second header, a table that a longer header implies takes one, a
table made by dotted keys takes dotted keys but no header, and an inline table takes nothing. A
list of tables grows by headers only.

Floating-point numbers and times are recognized, but no setting has such a value, so what they
stand for is not kept. A number may be too large to be read as one. It does no harm where it
stands, but neither it nor anything that contains it `isReadable`.
-/

set_option autoImplicit false

namespace RecordStore

/-- How a table came about:

- `closed`: written inline;
- `headed`: opened by its own header;
- `implied`: implied by the header of a table inside it;
- `dotted`: made by dotted keys. -/
inductive TableKind where
  | closed
  | headed
  | implied
  | dotted
deriving DecidableEq

/-- A value of TOML:

- `string`: a text;
- `integer`: a whole number;
- `bool`: a truth value;
- `unkept`: a floating-point number or a time;
- `tooLarge`: a floating-point number beyond the largest double;
- `array`: a list;
- `table`: a table;
- `tables`: a list of tables with headers, the latest first. -/
inductive Toml where
  | string (s : String)
  | integer (n : Int)
  | bool (b : Bool)
  | unkept
  | tooLarge
  | array (items : List Toml)
  | table (kind : TableKind) (entries : List (String × Toml))
  | tables (items : List (List (String × Toml)))

namespace Toml

/-- The text of a string. -/
def string? : Toml → Option String
  | .string s => some s
  | _ => none

/-- The value of a boolean. -/
def bool? : Toml → Option Bool
  | .bool b => some b
  | _ => none

/-- The value of a whole number that fits 64 bits without a sign. -/
def count? : Toml → Option Nat
  | .integer n => if 0 ≤ n ∧ n < 0x10000000000000000 then some n.toNat else none
  | _ => none

/-! ### Readable values -/

mutual

/-- The value holds no number that is too large: whole numbers fit 128 bits, with a sign if they
are negative. -/
def isReadable : Toml → Bool
  | .integer n => decide (-0x80000000000000000000000000000000 ≤ n) &&
      decide (n < 0x100000000000000000000000000000000)
  | .tooLarge => false
  | .string _ => true
  | .bool _ => true
  | .unkept => true
  | .array items => areReadable items
  | .table _ entries => hasReadable entries
  | .tables items => haveReadable items

/-- All values are readable. -/
def areReadable : List Toml → Bool
  | [] => true
  | v :: rest => isReadable v && areReadable rest

/-- All values of a table are readable. -/
def hasReadable : List (String × Toml) → Bool
  | [] => true
  | (_, v) :: rest => isReadable v && hasReadable rest

/-- All values of all tables are readable. -/
def haveReadable : List (List (String × Toml)) → Bool
  | [] => true
  | entries :: rest => hasReadable entries && haveReadable rest

end

/-! ### Adding to tables -/

/-- The entries with `value` under a dotted key. The tables on the way are made by dotted keys; a
table that a header implies, or the latest table of a list, may be passed through, but may not take
the value itself. -/
def putDotted? (value : Toml) : List String → List (String × Toml) → Option (List (String × Toml))
  | [], _ => none
  | [name], entries =>
    match KeyMap.get? name entries with
    | none => some (KeyMap.insert name value entries)
    | some _ => none
  | name :: next :: rest, entries =>
    match KeyMap.get? name entries with
    | none => (putDotted? value (next :: rest) []).map fun inner =>
        KeyMap.insert name (.table .dotted inner) entries
    | some (.table .dotted old) => (putDotted? value (next :: rest) old).map fun inner =>
        KeyMap.insert name (.table .dotted inner) entries
    | some (.table .implied old) =>
      if rest.isEmpty then none
      else (putDotted? value (next :: rest) old).map fun inner =>
        KeyMap.insert name (.table .implied inner) entries
    | some (.tables (latest :: others)) =>
      if rest.isEmpty then none
      else (putDotted? value (next :: rest) latest).map fun inner =>
        KeyMap.insert name (.tables (inner :: others)) entries
    | some _ => none

/-- The entries after `change` has been made to those at the end of a path of headed tables.
Tables that are not there yet are implied, and of a list of tables the latest one is meant. -/
def changeAt? (change : List (String × Toml) → Option (List (String × Toml))) :
    List String → List (String × Toml) → Option (List (String × Toml))
  | [], entries => change entries
  | name :: rest, entries =>
    match KeyMap.get? name entries with
    | none => (changeAt? change rest []).map fun inner =>
        KeyMap.insert name (.table .implied inner) entries
    | some (.table kind old) =>
      if kind = .closed then none
      else (changeAt? change rest old).map fun inner =>
        KeyMap.insert name (.table kind inner) entries
    | some (.tables (latest :: others)) => (changeAt? change rest latest).map fun inner =>
        KeyMap.insert name (.tables (inner :: others)) entries
    | some _ => none

/-- The entries with the table `name` opened by a header. -/
def openTable? (name : String) (entries : List (String × Toml)) :
    Option (List (String × Toml)) :=
  match KeyMap.get? name entries with
  | none => some (KeyMap.insert name (.table .headed []) entries)
  | some (.table .implied old) => some (KeyMap.insert name (.table .headed old) entries)
  | some _ => none

/-- The entries with one more table in the list `name`. -/
def appendTable? (name : String) (entries : List (String × Toml)) :
    Option (List (String × Toml)) :=
  match KeyMap.get? name entries with
  | none => some (KeyMap.insert name (.tables [[]]) entries)
  | some (.tables items) => some (KeyMap.insert name (.tables ([] :: items)) entries)
  | some _ => none

/-! ### Documents -/

/-- A line of a document that says something:

- `header`: a header: what follows is in the table at the end of the path;
- `listHeader`: a header of a list: what follows is in a new table of the list at the end of the
  path;
- `pair`: a value under a dotted key. -/
inductive Statement where
  | header (path : List String) (name : String)
  | listHeader (path : List String) (name : String)
  | pair (key : List String) (value : Toml)

/-- The top table, and the path to the table that pairs are put into:

- `top`: the entries of the top table;
- `current`: the path to the current table. -/
structure Document where
  top : List (String × Toml)
  current : List String

/-- The document after one more statement. -/
def Document.add? (d : Document) : Statement → Option Document
  | .header path name =>
    (changeAt? (openTable? name) path d.top).map fun top => ⟨top, path ++ [name]⟩
  | .listHeader path name =>
    (changeAt? (appendTable? name) path d.top).map fun top => ⟨top, path ++ [name]⟩
  | .pair key value =>
    (changeAt? (putDotted? value key) d.current d.top).map fun top => ⟨top, d.current⟩

/-- The entries of the top table of a document with the given statements. -/
def ofStatements? (statements : List Statement) : Option (List (String × Toml)) :=
  (statements.foldlM Document.add? ⟨[], []⟩).map Document.top

end Toml

end RecordStore
