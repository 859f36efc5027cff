import LossyLink.Toml.Scalar
import LossyLink.Toml.Table
import LossyLink.Toml.Text

/-! # TOML documents

A document is a row of headers and of keys with values. Its reader descends into
arrays and inline tables; its fuel is the length of the text, since every call
that goes deeper or further has consumed a character.
-/

namespace LossyLink.Toml

/-- A dotted key: the tables on the way, and the name in the last of them. -/
structure Key where
  path : List String
  name : String
  deriving DecidableEq, Repr

def isBareChar (c : Char) : Bool := c.isAlphanum || c == '_' || c == '-'

/-- One part of a key, bare or between quotes on one line. -/
def scanName? : List Char → Option (String × List Char)
  | '"' :: cs => (scanLine? .double [] cs).map fun (text, rest) => (String.ofList text, rest)
  | '\'' :: cs => (scanLine? .single [] cs).map fun (text, rest) => (String.ofList text, rest)
  | cs =>
    match cs.span isBareChar with
    | ([], _) => none
    | (name, rest) => some (String.ofList name, rest)

/-- Arrays and inline tables may stand in each other this deep, and keys have as many parts. -/
def depthLimit : Nat := 80

/-- A key of at most so many parts, and the blanks behind it. -/
def scanParts? : Nat → List Char → Option (Key × List Char)
  | 0, _ => none
  | limit + 1, cs => do
    let (name, cs) ← scanName? cs
    match skipBlanks cs with
    | '.' :: cs =>
      let (key, cs) ← scanParts? limit (skipBlanks cs)
      return ({ key with path := name :: key.path }, cs)
    | cs => return (⟨[], name⟩, cs)

def scanKey? (cs : List Char) : Option (Key × List Char) := scanParts? depthLimit cs

/-- A key and the sign behind it, with what may be skipped around the sign. -/
def scanKeySign? (skip? : List Char → Option (List Char)) (cs : List Char) :
    Option (Key × List Char) := do
  let (key, cs) ← scanKey? cs
  match ← skip? cs with
  | '=' :: cs => return (key, ← skip? cs)
  | _ => none

mutual

def scanValue? : Nat → Nat → List Char → Option (Value × List Char)
  | 0, _, _ => none
  | fuel + 1, depth, cs =>
    match cs with
    | '"' :: cs => (scanText? .double cs).map fun (text, rest) => (.text text, rest)
    | '\'' :: cs => (scanText? .single cs).map fun (text, rest) => (.text text, rest)
    | '[' :: cs => if depth = 0 then none else scanItems? fuel (depth - 1) [] cs
    | '\x7b' :: cs => if depth = 0 then none else scanEntries? fuel (depth - 1) [] cs
    | cs => scanWords? cs

def scanItems? : Nat → Nat → List Value → List Char → Option (Value × List Char)
  | 0, _, _, _ => none
  | fuel + 1, depth, items, cs =>
    match skipLayout? false cs with
    | none => none
    | some (']' :: cs) => some (.array items.reverse, cs)
    | some cs =>
      match scanValue? fuel depth cs with
      | none => none
      | some (v, cs) =>
        match skipLayout? false cs with
        | some (',' :: cs) => scanItems? fuel depth (v :: items) cs
        | some (']' :: cs) => some (.array (v :: items).reverse, cs)
        | _ => none

def scanEntries? : Nat → Nat → Entries → List Char → Option (Value × List Char)
  | 0, _, _, _ => none
  | fuel + 1, depth, entries, cs =>
    match skipLayout? false cs with
    | none => none
    | some ('\x7d' :: cs) => some (.table (entryValues entries), cs)
    | some cs =>
      match scanKeySign? (skipLayout? false) cs with
      | none => none
      | some (key, cs) =>
        match scanValue? fuel depth cs with
        | none => none
        | some (v, cs) =>
          match entries.assign key.name v key.path, skipLayout? false cs with
          | some entries, some (',' :: cs) => scanEntries? fuel depth entries cs
          | some entries, some ('\x7d' :: cs) => some (.table (entryValues entries), cs)
          | _, _ => none

end

/-- A document read in part: all entries, and the path to the open table. -/
structure Document where
  entries : Entries := []
  here : List String := []

namespace Document

/-- Read a header behind its brackets, down to the next line that holds something. -/
def scanHeader? (close : List Char) (cs : List Char) : Option (Key × List Char) := do
  let (key, cs) ← scanKey? (skipBlanks cs)
  if close.isPrefixOf cs then return (key, ← finishLine? (cs.drop close.length)) else none

def openWith (d : Document) (open? : String → Entries → Option Entries) (key : Key) :
    Option Document := do
  let entries ← d.entries.within (open? key.name) key.path
  return { entries, here := key.path ++ [key.name] }

def scanLines? : Nat → Document → List Char → Option Document
  | 0, _, _ => none
  | fuel + 1, d, cs =>
    match cs with
    | [] => some d
    | '[' :: '[' :: cs => do
      let (key, cs) ← scanHeader? [']', ']'] cs
      scanLines? fuel (← d.openWith Entries.openElement key) cs
    | '[' :: cs => do
      let (key, cs) ← scanHeader? [']'] cs
      scanLines? fuel (← d.openWith Entries.openTable key) cs
    | cs => do
      let (key, cs) ← scanKeySign? (fun cs => some (skipBlanks cs)) cs
      let (v, cs) ← scanValue? fuel depthLimit cs
      let cs ← finishLine? cs
      let entries ← d.entries.within (fun t => t.assign key.name v key.path) d.here
      scanLines? fuel { d with entries } cs

end Document

/-- A byte order mark may stand in front. -/
def skipMark : List Char → List Char
  | '\ufeff' :: cs => cs
  | cs => cs

/-- The table that a document writes. -/
def read? (text : String) : Option (List (String × Value)) := do
  let cs := skipMark text.toList
  let d ← Document.scanLines? (2 * cs.length + 2) {} (← skipLayout? false cs)
  return entryValues d.entries

end LossyLink.Toml
