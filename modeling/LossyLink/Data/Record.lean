import LossyLink.Data.Read

/-! # Reading records

A record is written as a table or as the list of its fields in order. A table is
looked through in its own order, and only then the fields that it lacks are
noticed; a list is read from its front. In a tagged record the field `type`, or
the first item of the list, names the variant.
-/

namespace LossyLink.Data

variable {α β : Type}

/-- A record as it is written. A table may lack fields, a list has to hold them all. -/
structure Record where
  fields : List (String × Data)
  /-- What is wrong with a list that is too short. -/
  shortage : Option Mismatch := none

/-- A kind of records: its fields in order, with a check of the value of each, and how the
record is read. -/
structure Shape (α : Type) where
  fields : List (String × (Data → Except Mismatch Unit))
  read : Record → Except Mismatch α

namespace Shape

instance : Applicative Shape where
  pure a := ⟨[], fun _ => .ok a⟩
  seq f x := ⟨f.fields ++ (x ()).fields, fun r => do return (← f.read r) (← (x ()).read r)⟩

/-- A field that may not be missing. -/
def required (name : String) (read : Data → Except Mismatch α) : Shape α where
  fields := [(name, fun d => (read d).map fun _ => ())]
  read r :=
    match r.fields.lookup name with
    | some d => read d
    | none => .error (r.shortage.getD (.missingField name))

/-- A field that may be null, and that a table may lack. -/
def optional (name : String) (read : Data → Except Mismatch α) : Shape (Option α) :=
  let readOption : Data → Except Mismatch (Option α)
    | null => .ok none
    | d => (read d).map some
  { fields := [(name, fun d => (readOption d).map fun _ => ())]
    read := fun r =>
      match r.fields.lookup name, r.shortage with
      | some d, _ => readOption d
      | none, some e => .error e
      | none, none => .ok none }

/-- A field that has a default. -/
def withDefault (name : String) (default : α) (read : Data → Except Mismatch α) :
    Shape α where
  fields := [(name, fun d => (read d).map fun _ => ())]
  read r :=
    match r.fields.lookup name with
    | some d => read d
    | none => .ok default

/-- Check the value of a field of a table. A field that is not known has to be readable. -/
def check (s : Shape α) (f : String × Data) : Except Mismatch Unit :=
  match s.fields.lookup f.1 with
  | some check => check f.2
  | none => f.2.accept isBeyond "any value"

end Shape

def elements (n : Nat) : String := if n = 1 then "1 element" else s!"{n} elements"

/-- A record; what a list holds behind its fields is not looked at. -/
def asRecord (what : String) (shape : Shape α) : Data → Except Mismatch α
  | table fields => do
    fields.forM shape.check
    shape.read { fields }
  | list items =>
    let names := shape.fields.map Prod.fst
    let shortage := .wrongLength items.length s!"{what} with {elements names.length}"
    shape.read { fields := names.zip items, shortage := some shortage }
  | d => .error (d.misfit what)

/-- One of the forms of a tagged record. -/
structure Variant (α : Type) where
  tag : String
  /-- What the form is called in messages. -/
  title : String
  shape : Shape α

/-- The variant that a tag names. -/
def asVariant (dialect : Dialect) (variants : List (Variant α)) :
    Data → Except Mismatch (Variant α)
  | text name =>
    match variants.find? fun v => v.tag == name with
    | some v => .ok v
    | none => .error (.unknownVariant name (variants.map Variant.tag))
  | integer n =>
    if dialect.indexedTags ∧ Int64.maxValue.toInt < n ∧ n < UInt64.size then
      .error (.wrongValue n s!"variant index 0 <= i < {variants.length}")
    else .error (.wrongType (integer n) "variant identifier")
  | d => .error (d.misfit "variant identifier")

/-- Read what a tagged record holds besides its tag; a list may hold nothing behind the fields. -/
def Variant.read (v : Variant α) (d : Data) : Except Mismatch α := do
  let a ← d.asRecord s!"struct variant {v.title}" v.shape
  match d with
  | list items =>
    if v.shape.fields.length < items.length then
      throw (.wrongLength items.length s!"{elements v.shape.fields.length} in sequence")
    else return a
  | _ => return a

/-- A value that is refused wherever it stands in a tagged record. -/
def isRefused : Data → Bool
  | integer n => isWide n
  | d => d.isBeyond

/-- A tagged record. All of it is looked through before its fields are read. -/
def asTagged (dialect : Dialect) (what : String) (variants : List (Variant α)) :
    Data → Except Mismatch α
  | table fields => do
    fields.forM fun f =>
      if f.1 = "type" then (asVariant dialect variants f.2).map fun _ => ()
      else f.2.accept isRefused "any value"
    match fields.lookup "type" with
    | some tag =>
      (← asVariant dialect variants tag).read (table (fields.filter fun f => f.1 != "type"))
    | none => throw (.missingField "type")
  | list (tag :: items) => do
    let variant ← asVariant dialect variants tag
    (list items).accept isRefused "any value"
    variant.read (list items)
  | list [] => .error (.missingField "type")
  | d => .error (d.misfit what)

end LossyLink.Data
