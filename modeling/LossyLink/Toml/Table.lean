import LossyLink.Toml.Value

/-! # Tables under construction

A document fills its tables in any order, but no value is set twice and no table
is opened twice. What may still be added to a table depends on how it came
to be.
-/

namespace LossyLink.Toml

/-- How a table came to be. -/
inductive Origin where
  /-- The header of a table inside it names it. -/
  | implied
  /-- A dotted key names it. -/
  | dotted
  /-- It has a header of its own. -/
  | explicit
  deriving DecidableEq, Repr

/-- What stands under a key. -/
inductive Item where
  | value (v : Value)
  | table (origin : Origin) (entries : List (String × Item))
  /-- The tables that headers in double brackets open, the last one apart. -/
  | elements (last : List (String × Item)) (earlier : List (List (String × Item)))

abbrev Entries := List (String × Item)

namespace Entries

/-- Change what stands under a key, or set it. -/
def update (key : String) (f : Option Item → Option Item) : Entries → Option Entries
  | [] => (f none).map fun i => [(key, i)]
  | (k, i) :: rest =>
    if k = key then (f (some i)).map fun j => (k, j) :: rest
    else (update key f rest).map ((k, i) :: ·)

/-- Change the table that a path of headers leads to. Tables on the way that are
not there are implied; of elements, the last one is meant. -/
def within (f : Entries → Option Entries) : List String → Entries → Option Entries
  | [], t => f t
  | key :: path, t => update key (fun
      | none => (within f path []).map (.table .implied)
      | some (.table origin t) => (within f path t).map (.table origin)
      | some (.elements t earlier) => (within f path t).map (.elements · earlier)
      | some (.value _) => none) t

/-- Open a table by its header. -/
def openTable (key : String) : Entries → Option Entries :=
  update key fun
    | none => some (.table .explicit [])
    | some (.table .implied t) => some (.table .explicit t)
    | some _ => none

/-- Open one more element by a header in double brackets. -/
def openElement (key : String) : Entries → Option Entries :=
  update key fun
    | none => some (.elements [] [])
    | some (.elements last earlier) => some (.elements [] (last :: earlier))
    | some _ => none

/-- Set the value of a dotted key. It goes into a table that dotted keys made,
and no table with a header is entered on the way. -/
def assign (name : String) (v : Value) : List String → Entries → Option Entries
  | [], t => update name (fun
      | none => some (.value v)
      | some _ => none) t
  | key :: path, t => update key (fun
      | none => (assign name v path []).map (.table .dotted)
      | some (.table .dotted t) => (assign name v path t).map (.table .dotted)
      | some (.table .implied t) =>
        if path.isEmpty then none else (assign name v path t).map (.table .implied)
      | some (.table .explicit _) => none
      | some (.elements t earlier) =>
        if path.isEmpty then none else (assign name v path t).map (.elements · earlier)
      | some (.value _) => none) t

end Entries

mutual

def Item.toValue : Item → Value
  | .value v => v
  | .table _ entries => .table (entryValues entries)
  | .elements last earlier => .array (elementValues [.table (entryValues last)] earlier)

def entryValues : List (String × Item) → List (String × Value)
  | [] => []
  | e :: rest => entryValue e :: entryValues rest

def entryValue : String × Item → String × Value
  | (key, i) => (key, i.toValue)

/-- Put the values of earlier elements, the latest first, before others. -/
def elementValues (later : List Value) : List (List (String × Item)) → List Value
  | [] => later
  | t :: earlier => elementValues (.table (entryValues t) :: later) earlier

end

end LossyLink.Toml
