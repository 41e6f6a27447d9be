import Stylesheet.Text.Quoted

/-!
# UTF-8

Strict decoding and encoding of texts as bytes. Decoding stops at the first sequence that is not well
formed and names the bytes of it that could still have become a character: the lead byte and the
continuation bytes that fit.
-/

namespace Stylesheet.Utf8

open Text

inductive Cause where
  | invalidStart
  | invalidContinuation
  | unexpectedEnd
deriving DecidableEq, Repr

/-- Where decoding stopped: at the bytes from position `first` to position `last`. -/
structure Fault where
  first : Nat
  /-- Position of the last byte that fits. -/
  last : Nat
  byte : UInt8
  cause : Cause
deriving DecidableEq

def Cause.message : Cause → Text
  | invalidStart => "invalid start byte"
  | invalidContinuation => "invalid continuation byte"
  | unexpectedEnd => "unexpected end of data"

def Fault.message (f : Fault) : Text :=
  "'utf-8' codec can't decode " ++
    (if f.first = f.last then "byte 0x" ++ hex 2 f.byte.toNat ++ " in position " ++ ofNat f.first
     else "bytes in position " ++ ofNat f.first ++ "-" ++ ofNat f.last) ++
    ": " ++ f.cause.message

/-- What a lead byte calls for. -/
structure Lead where
  count : Nat
  least : Nat
  greatest : Nat
  bits : Nat
deriving DecidableEq

/-- What a byte above ASCII calls for as the first of a sequence. The bounds on the second byte leave
out characters with a shorter form, surrogates, and numbers that are no characters. -/
def lead? (b : Nat) : Option Lead :=
  if 0xc2 ≤ b ∧ b ≤ 0xdf then some ⟨1, 0x80, 0xbf, b - 0xc0⟩
  else if b = 0xe0 then some ⟨2, 0xa0, 0xbf, 0⟩
  else if b = 0xed then some ⟨2, 0x80, 0x9f, 0xd⟩
  else if 0xe1 ≤ b ∧ b ≤ 0xef then some ⟨2, 0x80, 0xbf, b - 0xe0⟩
  else if b = 0xf0 then some ⟨3, 0x90, 0xbf, 0⟩
  else if 0xf1 ≤ b ∧ b ≤ 0xf3 then some ⟨3, 0x80, 0xbf, b - 0xf0⟩
  else if b = 0xf4 then some ⟨3, 0x80, 0x8f, 4⟩
  else none

/-- A sequence that has begun. -/
structure Partial where
  first : Nat
  byte : UInt8
  need : Lead
deriving DecidableEq

/-- Decodes bytes from a position on, perhaps in the middle of a sequence. -/
def decodeFrom : (position : Nat) → Option Partial → List UInt8 → Except Fault Text
  | _, none, [] => .ok []
  | position, some p, [] => .error ⟨p.first, position - 1, p.byte, .unexpectedEnd⟩
  | position, none, b :: rest =>
    if b.toNat < 0x80 then (decodeFrom (position + 1) none rest).map (Char.ofNat b.toNat :: ·)
    else
      match lead? b.toNat with
      | none => .error ⟨position, position, b, .invalidStart⟩
      | some need => decodeFrom (position + 1) (some ⟨position, b, need⟩) rest
  | position, some p, b :: rest =>
    if p.need.least ≤ b.toNat ∧ b.toNat ≤ p.need.greatest then
      let bits := p.need.bits * 64 + (b.toNat - 0x80)
      if p.need.count ≤ 1 then (decodeFrom (position + 1) none rest).map (Char.ofNat bits :: ·)
      else decodeFrom (position + 1) (some { p with need := ⟨p.need.count - 1, 0x80, 0xbf, bits⟩ }) rest
    else .error ⟨p.first, position - 1, p.byte, .invalidContinuation⟩

def decode (bytes : List UInt8) : Except Fault Text :=
  decodeFrom 0 none bytes

def encodeChar (c : Char) : List UInt8 :=
  let n := c.toNat
  if n < 0x80 then [n.toUInt8]
  else if n < 0x800 then [(0xc0 + n / 64).toUInt8, (0x80 + n % 64).toUInt8]
  else if n < 0x10000 then
    [(0xe0 + n / 4096).toUInt8, (0x80 + n / 64 % 64).toUInt8, (0x80 + n % 64).toUInt8]
  else
    [(0xf0 + n / 262144).toUInt8, (0x80 + n / 4096 % 64).toUInt8, (0x80 + n / 64 % 64).toUInt8,
     (0x80 + n % 64).toUInt8]

def encode (t : Text) : List UInt8 :=
  t.flatMap encodeChar

/-- A text in which every line ends with a line feed alone: a carriage return, with a line feed
behind it or without, becomes a line feed. -/
def unifyNewlines : Text → Text
  | [] => []
  | '\r' :: '\n' :: t => '\n' :: unifyNewlines t
  | '\r' :: t => '\n' :: unifyNewlines t
  | c :: t => c :: unifyNewlines t

end Stylesheet.Utf8
