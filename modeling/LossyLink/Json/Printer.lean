import LossyLink.Json.Value

/-! # Writing JSON

A document on one line without blanks, or with one item a line and two blanks
for every level. Either way the text is appended to what is already written.
-/

namespace LossyLink.Json

private def hexDigits (n : Nat) : String :=
  String.ofList ([12, 8, 4, 0].map fun shift => Nat.digitChar (n >>> shift % 16))

/-- How a piece of a string is written: quotes, backslashes and controls are escaped. -/
def writeChar (out : String) (c : Char) : String :=
  match c with
  | '"' => out ++ "\\\""
  | '\\' => out ++ "\\\\"
  | '\n' => out ++ "\\n"
  | '\r' => out ++ "\\r"
  | '\t' => out ++ "\\t"
  | '\x08' => out ++ "\\b"
  | '\x0c' => out ++ "\\f"
  | c => if isControl c then out ++ "\\u" ++ hexDigits c.toNat else out.push c

def writePieces (out : String) (ps : List Piece) : String :=
  let body := ps.foldl (fun out p =>
    match p with
    | .char c => writeChar out c
    | .unit code => out ++ "\\u" ++ hexDigits code) (out.push '"')
  body.push '"'

mutual

/-- Append a value on one line. -/
def Value.write (out : String) : Value → String
  | .null => out ++ "null"
  | .bool b => out ++ (if b then "true" else "false")
  | .number spelling => out ++ spelling
  | .string ps => writePieces out ps
  | .array items => (writeItems (out.push '[') true items).push ']'
  | .object members => (writeMembers (out.push '\x7b') true members).push '\x7d'

def writeItems (out : String) (first : Bool) : List Value → String
  | [] => out
  | v :: vs => writeItems (v.write (if first then out else out.push ',')) false vs

def writeMembers (out : String) (first : Bool) : List (List Piece × Value) → String
  | [] => out
  | m :: ms => writeMembers (writeMember (if first then out else out.push ',') m) false ms

def writeMember (out : String) : List Piece × Value → String
  | (key, v) => v.write ((writePieces out key).push ':')

end

def Value.compact (v : Value) : String := v.write ""

/-- Begin a line at a level. -/
def newLine (out : String) (level : Nat) : String :=
  (List.replicate (2 * level) ' ').foldl String.push (out.push '\n')

mutual

/-- Append a value with one item a line. -/
def Value.writeLines (out : String) (level : Nat) : Value → String
  | .null => out ++ "null"
  | .bool b => out ++ (if b then "true" else "false")
  | .number spelling => out ++ spelling
  | .string ps => writePieces out ps
  | .array [] => out ++ "[]"
  | .array (v :: vs) =>
    let out := v.writeLines (newLine (out.push '[') (level + 1)) (level + 1)
    (newLine (writeItemLines out (level + 1) vs) level).push ']'
  | .object [] => out ++ "\x7b\x7d"
  | .object (m :: ms) =>
    let out := writeMemberLine (newLine (out.push '\x7b') (level + 1)) (level + 1) m
    (newLine (writeMemberLines out (level + 1) ms) level).push '\x7d'

def writeItemLines (out : String) (level : Nat) : List Value → String
  | [] => out
  | v :: vs => writeItemLines (v.writeLines (newLine (out.push ',') level) level) level vs

def writeMemberLines (out : String) (level : Nat) : List (List Piece × Value) → String
  | [] => out
  | m :: ms => writeMemberLines (writeMemberLine (newLine (out.push ',') level) level m) level ms

def writeMemberLine (out : String) (level : Nat) : List Piece × Value → String
  | (key, v) => v.writeLines ((writePieces out key) ++ ": ") level

end

def Value.pretty (v : Value) : String := v.writeLines "" 0

end LossyLink.Json
