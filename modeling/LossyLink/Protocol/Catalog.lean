import LossyLink.Protocol.Ideal
import LossyLink.Protocol.Queued
import LossyLink.Protocol.AlternatingBit
import LossyLink.Text.Blank

/-! # The protocols by name

Three protocols, each with its two ends. A name is read without regard to case
(of ASCII letters) and to blanks around it.
-/

namespace LossyLink

inductive Protocol | ideal | queued | alternatingBit
  deriving DecidableEq, Repr

/-- A text that names no protocol. -/
structure UnknownProtocol where
  text : String
  deriving DecidableEq, Repr

namespace Protocol

def all : List Protocol := [ideal, queued, alternatingBit]

def name : Protocol → String
  | ideal => "rdt1"
  | queued => "rdt2"
  | alternatingBit => "rdt3"

/-- The protocol that a text names. -/
def ofName (text : String) : Except UnknownProtocol Protocol :=
  let name := String.ofList ((Text.trim text.toList).map Char.toLower)
  match all.find? fun p => p.name == name with
  | some p => .ok p
  | none => .error ⟨text⟩

def sender : Protocol → Agent
  | ideal => ⟨_, Ideal.sender⟩
  | queued => ⟨_, Queued.sender⟩
  | alternatingBit => ⟨_, AlternatingBit.sender⟩

def receiver : Protocol → Agent
  | ideal => ⟨_, Ideal.receiver⟩
  | queued => ⟨_, Queued.receiver⟩
  | alternatingBit => ⟨_, AlternatingBit.receiver⟩

end Protocol

def UnknownProtocol.message (e : UnknownProtocol) : String :=
  let names := ", ".intercalate (Protocol.all.map Protocol.name)
  s!"unknown builtin '{e.text}', try one of: {names}"

end LossyLink
