import FilterLine.Text.Basic

/-!
UTF-8. A machine reads one byte at a time and emits a character when its last byte arrives; bytes
that begin no character, or stop before one is complete, form a malformed piece, and the byte that
broke the piece is read afresh. Strict decoding refuses malformed pieces, lenient decoding shows
each as the replacement character.
-/
namespace FilterLine

abbrev Bytes := List UInt8

namespace Utf8

/-- A character whose first bytes have been read: its bits so far, the bytes still owed, and the
bounds of the next one. -/
structure Partial where
  bits : Nat
  owed : Nat
  low : Nat := 0x80
  high : Nat := 0xBF
  deriving DecidableEq, Repr

inductive Piece where
  | char (c : Char)
  | malformed
  deriving DecidableEq, Repr

/-- What a byte between characters does: it is a character, or begins one, or is malformed. -/
def lead (b : Nat) : List Piece × Option Partial :=
  if b < 0x80 then ([.char (Char.ofNat b)], none)
  else if b < 0xC2 then ([.malformed], none)
  else if b < 0xE0 then ([], some { bits := b - 0xC0, owed := 1 })
  else if b = 0xE0 then ([], some { bits := 0, owed := 2, low := 0xA0 })
  else if b = 0xED then ([], some { bits := 0xD, owed := 2, high := 0x9F })
  else if b < 0xF0 then ([], some { bits := b - 0xE0, owed := 2 })
  else if b = 0xF0 then ([], some { bits := 0, owed := 3, low := 0x90 })
  else if b < 0xF4 then ([], some { bits := b - 0xF0, owed := 3 })
  else if b = 0xF4 then ([], some { bits := 4, owed := 3, high := 0x8F })
  else ([.malformed], none)

/-- One byte: the pieces it completes, and the character it leaves unfinished. -/
def step : Option Partial → Nat → List Piece × Option Partial
  | none, b => lead b
  | some p, b =>
    if p.low ≤ b ∧ b ≤ p.high then
      let bits := p.bits * 64 + (b - 0x80)
      if p.owed ≤ 1 then ([.char (Char.ofNat bits)], none)
      else ([], some { bits := bits, owed := p.owed - 1 })
    else
      let next := lead b
      (.malformed :: next.1, next.2)

/-- The pieces of a byte sequence read in a given state. -/
def run : Option Partial → Bytes → List Piece
  | none, [] => []
  | some _, [] => [.malformed]
  | p, b :: r =>
    let next := step p b.toNat
    next.1 ++ run next.2 r

/-- The text of the bytes, when no piece is malformed. -/
def decode? (b : Bytes) : Option Text :=
  (run none b).mapM fun
    | .char c => some c
    | .malformed => none

/-- The text of the bytes, with U+FFFD for each malformed piece. -/
def decodeLossy (b : Bytes) : Text :=
  (run none b).map fun
    | .char c => c
    | .malformed => '\ufffd'

def encode (t : Text) : Bytes := t.flatMap String.utf8EncodeChar

def size : Text → Nat
  | [] => 0
  | c :: t => c.utf8Size + size t

theorem encode_cons (c : Char) (t : Text) : encode (c :: t) = String.utf8EncodeChar c ++ encode t :=
  List.flatMap_cons

end Utf8
end FilterLine
