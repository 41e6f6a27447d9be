import Stylesheet.Yaml.Token

/-!
# Sources

The text of a YAML file is taken in pieces, the first two of them at once. A piece that cannot be read, or
has a character in it that may not stand in a YAML text, is a fault only for those who get there: the text in
front of it can have a fault of its own.
-/

namespace Stylesheet.Yaml

/-- A text that may end too early. -/
structure Source where
  text : Text
  /-- What follows that cannot be read. -/
  ending : Option Fault := none
deriving DecidableEq

/-- Whether a character may stand in a YAML text. -/
def isAllowed (c : Char) : Bool :=
  let n := c.toNat
  n == 9 || n == 10 || n == 13 || (32 ≤ n && n ≤ 126) || n == 0x85 || (0xa0 ≤ n && n ≤ 0xfffd) ||
    0x10000 ≤ n

def pieceLength : Nat := 4096

/-- The number of bytes that are usually decoded at a time. -/
def blockLength : Nat := 8192

namespace Source

/-- A text with a fault behind some of its characters. The piece that the fault is in is lost, and of the
first two pieces both are. -/
def cut (t : Text) (characters : Nat) (fault : Fault) : Source :=
  let whole := characters / pieceLength * pieceLength
  { text := if whole < 2 * pieceLength then [] else t.take whole, ending := some fault }

/-- A source without the pieces from the first character on that may not stand in it. -/
def check (s : Source) : Source :=
  match s.text.findIdx? (!isAllowed ·) with
  | none => s
  | some position => cut s.text position .malformed

/-- The characters that bytes stand for, without a sequence that breaks off at the end. -/
def decodeSound (bytes : List UInt8) : Text :=
  match Utf8.decode bytes with
  | .ok t => t
  | .error fault =>
    match Utf8.decode (bytes.take fault.first) with
    | .ok t => t
    | .error _ => []

/-- The position of the byte with which a fault in bytes shows; a sequence that breaks off shows only when
no more bytes come. -/
def breaksAt (bytes : List UInt8) (fault : Utf8.Fault) : Nat :=
  match fault.cause with
  | .invalidStart => fault.first
  | .invalidContinuation => fault.last + 1
  | .unexpectedEnd => bytes.length

/-- For each character of a text with line feeds alone, how many bytes must have come for it. Whether a line
feed follows a carriage return is known with the next character. -/
def arrivals : (offset : Nat) → Text → List Nat
  | _, [] => []
  | _, ['\r'] => []
  | offset, '\r' :: '\n' :: t => (offset + 2) :: arrivals (offset + 2) t
  | offset, '\r' :: c :: t => (offset + 1 + (Utf8.encodeChar c).length) :: arrivals (offset + 1) (c :: t)
  | offset, c :: t =>
    (offset + (Utf8.encodeChar c).length) :: arrivals (offset + (Utf8.encodeChar c).length) t

/-- How far the decoding of a file has come. -/
structure Intake where
  bytes : Nat := 0
  characters : Nat := 0
  lastBytes : Nat := 0
  lastCharacters : Nat := 0

/-- The length of the next block, if some characters are wanted: as many bytes as they had in the block
before, but not less than usual. -/
def Intake.blockLength (s : Intake) (wanted : Nat) : Nat :=
  max Yaml.blockLength (wanted * s.lastBytes / s.lastCharacters)

/-- The intake after a block that ends at a position. -/
def Intake.advance (s : Intake) (arrival : List Nat) (position : Nat) : Intake :=
  let characters := (arrival.takeWhile (· ≤ position)).length
  { bytes := position
    characters
    lastBytes := position - s.bytes
    lastCharacters := characters - s.characters }

/-- How many pieces are read from a file of `total` bytes before the block with the fault at `broken` is
decoded. Every step has one more piece or block, so `fuel` need not exceed the number of bytes by more than
two. -/
def piecesBefore (arrival : List Nat) (total broken : Nat) : (fuel pieces : Nat) → Intake → Nat
  | 0, pieces, _ => pieces
  | fuel + 1, pieces, s =>
    let wanted := (pieces + 1) * pieceLength
    if wanted ≤ s.characters then piecesBefore arrival total broken fuel (pieces + 1) s
    else
      let next := min total (s.bytes + s.blockLength (wanted - s.characters))
      if s.bytes = total ∨ broken < next then pieces
      else piecesBefore arrival total broken fuel pieces (s.advance arrival next)

/-- The source that a file of the given bytes holds. -/
def ofBytes (bytes : List UInt8) : Source :=
  match Utf8.decode bytes with
  | .ok t => check { text := Utf8.unifyNewlines t }
  | .error fault =>
    let sound := decodeSound (bytes.take fault.first)
    let pieces := piecesBefore (arrivals 0 sound) bytes.length (breaksAt bytes fault) (bytes.length + 2) 0 {}
    check (cut (Utf8.unifyNewlines sound) (pieces * pieceLength) (.undecodable fault))

end Source

end Stylesheet.Yaml
