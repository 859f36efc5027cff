import LossyLink.Text.Digit
import LossyLink.Toml.Layout

/-! # Texts

A text stands between quotes on one line, or between triple quotes over several
lines. Between double quotes a backslash escapes; between single quotes every
character stands for itself.
-/

namespace LossyLink.Toml

inductive Quote | single | double
  deriving DecidableEq, Repr

def Quote.mark : Quote → Char
  | single => '\''
  | double => '"'

/-- The character whose number is written in hexadecimal. -/
def charOf? (digits : List Char) : Option Char :=
  match Text.ofDigits? 16 digits with
  | some n => if n.isValidChar then some (.ofNat n) else none
  | none => none

def simpleEscape? : Char → Option Char
  | 'b' => some '\x08'
  | 't' => some '\t'
  | 'n' => some '\n'
  | 'f' => some '\x0c'
  | 'r' => some '\r'
  | 'e' => some '\x1b'
  | '"' => some '"'
  | '\\' => some '\\'
  | _ => none

/-- Read an escape behind its backslash. -/
def scanEscape? : List Char → Option (Char × List Char)
  | 'x' :: a :: b :: cs => (charOf? [a, b]).map (·, cs)
  | 'u' :: a :: b :: c :: d :: cs => (charOf? [a, b, c, d]).map (·, cs)
  | 'U' :: a :: b :: c :: d :: e :: f :: g :: h :: cs =>
    (charOf? [a, b, c, d, e, f, g, h]).map (·, cs)
  | c :: cs => (simpleEscape? c).map (·, cs)
  | [] => none

theorem length_scanEscape?_lt {cs rest : List Char} {c : Char}
    (h : scanEscape? cs = some (c, rest)) : rest.length < cs.length := by
  unfold scanEscape? at h
  split at h
  case h_5 => cases h
  all_goals
    obtain ⟨_, _, h⟩ := Option.map_eq_some_iff.1 h
    cases h
    simp only [List.length_cons]
    omega

/-- Read the rest of a text on one line, behind its opening quote. -/
def scanLine? (q : Quote) (read cs : List Char) : Option (List Char × List Char) :=
  match cs with
  | [] => none
  | c :: cs =>
    if c = q.mark then some (read.reverse, cs)
    else if c = '\\' ∧ q = .double then
      match _h : scanEscape? cs with
      | some (e, rest) => scanLine? q (e :: read) rest
      | none => none
    else if isPlain c then scanLine? q (c :: read) cs
    else none
termination_by cs.length
decreasing_by
  · exact Nat.lt_succ_of_lt (length_scanEscape?_lt _h)
  · simp

/-- Skip blanks and line ends. -/
def skipSpace : List Char → List Char
  | ' ' :: cs => skipSpace cs
  | '\t' :: cs => skipSpace cs
  | '\n' :: cs => skipSpace cs
  | '\r' :: '\n' :: cs => skipSpace cs
  | cs => cs

theorem length_skipSpace_le (cs : List Char) : (skipSpace cs).length ≤ cs.length := by
  fun_induction skipSpace cs <;> simp <;> omega

/-- Behind a backslash at the end of a line: the next character that is no space. -/
def continue? (cs : List Char) : Option (List Char) :=
  (lineEnd? (skipBlanks cs)).map skipSpace

theorem length_continue?_lt {cs rest : List Char} (h : continue? cs = some rest) :
    rest.length < cs.length := by
  obtain ⟨r, hr, rfl⟩ := Option.map_eq_some_iff.1 h
  exact Nat.lt_of_le_of_lt (length_skipSpace_le r)
    (Nat.lt_of_lt_of_le (length_lineEnd?_lt hr) (length_skipBlanks_le cs))

/-- Up to two quotes before the closing three belong to the text. -/
def closeLines (q : Quote) (read : List Char) : List Char → List Char × List Char
  | a :: b :: cs =>
    if a = q.mark then
      if b = q.mark then ((b :: a :: read).reverse, cs) else ((a :: read).reverse, b :: cs)
    else (read.reverse, a :: b :: cs)
  | [a] => if a = q.mark then ((a :: read).reverse, []) else (read.reverse, [a])
  | [] => (read.reverse, [])

/-- Read the rest of a text over several lines. -/
def scanLines? (q : Quote) (read cs : List Char) : Option (List Char × List Char) :=
  match cs with
  | [] => none
  | c :: cs =>
    if c = q.mark then
      match cs with
      | a :: b :: rest =>
        if a = q.mark ∧ b = q.mark then some (closeLines q read rest)
        else scanLines? q (c :: read) (a :: b :: rest)
      | _ => none
    else if c = '\\' ∧ q = .double then
      match _hc : continue? cs with
      | some rest => scanLines? q read rest
      | none =>
        match _he : scanEscape? cs with
        | some (e, rest) => scanLines? q (e :: read) rest
        | none => none
    else if c = '\r' then
      match cs with
      | '\n' :: rest => scanLines? q ('\n' :: '\r' :: read) rest
      | _ => none
    else if c = '\n' ∨ isPlain c then scanLines? q (c :: read) cs
    else none
termination_by cs.length
decreasing_by
  · simp
  · exact Nat.lt_succ_of_lt (length_continue?_lt _hc)
  · exact Nat.lt_succ_of_lt (length_scanEscape?_lt _he)
  · simp only [List.length_cons]; omega
  · simp

/-- Read a text behind its first quote. A line end behind three quotes is skipped. -/
def scanText? (q : Quote) (cs : List Char) : Option (String × List Char) :=
  let found :=
    match cs with
    | a :: b :: rest =>
      if a = q.mark ∧ b = q.mark then scanLines? q [] ((lineEnd? rest).getD rest)
      else scanLine? q [] cs
    | _ => scanLine? q [] cs
  found.map fun (text, rest) => (String.ofList text, rest)

end LossyLink.Toml
