/-
This file holds the values of the TOML data format, as far as configurations need
them: of numbers, truth values and moments only the kind is kept.

Tables are the point of the format. One table can be written in several pieces,
and how a piece was written decides which others may join it. A table is either
opened by a header of its own, or implied by the header of a table inside of it,
or made by a dotted key, or written inline. A header opens an implied table, and
no other that is already there. A dotted key adds to a table that dotted keys made
and to no other, though it may pass through implied ones on the way. Nothing is
ever added to an inline table once it is closed, and no key is written twice.

All additions walk down a path of keys and change the table at its end, so there
is one walk, `Toml.alter`, which is told what it may enter and what to do there.
-/

namespace StagedBuilder

/-- How a table came to be. -/
inductive TableForm where
  /-- By a header of its own; the whole document counts as such. -/
  | header
  /-- By the header of a table inside of it. -/
  | implied
  /-- By a dotted key. -/
  | dotted
  /-- Between braces. -/
  | inline
deriving DecidableEq, Inhabited

/-- A value of the TOML data format. -/
inductive Toml where
  | string (value : String)
  | number
  | truth
  | moment
  | array (items : List Toml)
  | table (form : TableForm) (entries : List (String × Toml))
  /-- Tables each of which has a header in double brackets. -/
  | tables (items : List Toml)
deriving Inhabited

namespace Toml

/-- The entries of a table, in the order of their writing. -/
abbrev Entries := List (String × Toml)

/-- The entries with the value of one key replaced. -/
def replace (entries : Entries) (key : String) (value : Toml) : Entries :=
  entries.map fun entry => if entry.1 = key then (key, value) else entry

/-- Changes the table at the end of a path. Where a table is missing on the way, one of the
form `fresh` is made; only tables of the forms that `enters` allows are entered, and of
several tables under one key the last. -/
def alter (fresh : TableForm) (enters : TableForm → Bool)
    (change : TableForm → Entries → Option Entries) :
    TableForm → List String → Entries → Option Entries
  | form, [], entries => change form entries
  | _, key :: rest, entries =>
    match entries.lookup key with
    | none =>
      (alter fresh enters change fresh rest []).map fun inner =>
        entries ++ [(key, .table fresh inner)]
    | some (.table form inner) =>
      if enters form then
        (alter fresh enters change form rest inner).map fun changed =>
          replace entries key (.table form changed)
      else none
    | some (.tables items) =>
      match items.getLast? with
      | some (.table form inner) =>
        (alter fresh enters change form rest inner).map fun changed =>
          replace entries key (.tables (items.dropLast ++ [.table form changed]))
      | _ => none
    | some _ => none

/-- Changes the table that a header names, all but inline tables entered. -/
def alterAt (change : TableForm → Entries → Option Entries) (path : List String)
    (entries : Entries) : Option Entries :=
  alter .implied (· ≠ .inline) change .header path entries

/-- Adds a value under a key that must be new. -/
def add (key : String) (value : Toml) (entries : Entries) : Option Entries :=
  if (entries.lookup key).isSome then none else some (entries ++ [(key, value)])

/-- Adds a value under a dotted key, of which `path` are the parts before the last. -/
def addDotted (path : List String) (key : String) (value : Toml) (form : TableForm)
    (entries : Entries) : Option Entries :=
  if path.isEmpty then if form = .dotted then none else add key value entries
  else
    alter .dotted (fun form => form = .dotted || form = .implied)
      (fun form inner => if form = .dotted then add key value inner else none)
      form path entries

/-- Opens the table of a header, of which `path` are the parts before the last. -/
def openTable (path : List String) (key : String) (entries : Entries) : Option Entries :=
  alterAt
    (fun _ inner =>
      match inner.lookup key with
      | none => some (inner ++ [(key, .table .header [])])
      | some (.table .implied found) => some (replace inner key (.table .header found))
      | some _ => none)
    path entries

/-- Opens a further table of a header in double brackets. -/
def openFurther (path : List String) (key : String) (entries : Entries) : Option Entries :=
  alterAt
    (fun _ inner =>
      match inner.lookup key with
      | none => some (inner ++ [(key, .tables [.table .header []])])
      | some (.tables items) =>
        some (replace inner key (.tables (items ++ [.table .header []])))
      | some _ => none)
    path entries

end Toml

end StagedBuilder
