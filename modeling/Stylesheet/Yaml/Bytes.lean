import Stylesheet.Text.Quoted
import Stylesheet.Yaml.Token

/-!
# Bytes

Bytes are written four characters for three of them, six bits to a character, with equals signs to
fill the last four. Characters that are no such digits do not count.
-/

namespace Stylesheet.Yaml

open Text

def sixBits? (c : Char) : Option Nat :=
  if c.isUpper then some (c.toNat - 65)
  else if c.isLower then some (c.toNat - 71)
  else if c.isDigit then some (c.toNat + 4)
  else if c = '+' then some 62
  else if c = '/' then some 63
  else none

/-- The bytes that a text writes, from the digit number `position` of a group of four on. `left` are
the bits of the digit before that belong to no byte yet, and `fillers` the equals signs since then.
What stands behind a group that equals signs fill does not count. -/
def bytesFrom (position left fillers : Nat) : Text → Except Fault (List UInt8)
  | [] => if position = 0 then .ok [] else .error .malformed
  | c :: t =>
    if c = '=' then
      if 2 ≤ position ∧ 4 ≤ position + fillers + 1 then .ok []
      else bytesFrom position left (if 2 ≤ position then fillers + 1 else fillers) t
    else
      match sixBits? c with
      | none => bytesFrom position left fillers t
      | some n =>
        let byte (m : Nat) := (m % 256).toUInt8
        match position with
        | 0 => bytesFrom 1 n 0 t
        | 1 => (bytesFrom 2 (n % 16) 0 t).map (byte (left * 4 + n / 16) :: ·)
        | 2 => (bytesFrom 3 (n % 4) 0 t).map (byte (left * 16 + n / 4) :: ·)
        | _ => (bytesFrom 0 0 0 t).map (byte (left * 64 + n) :: ·)

/-- The bytes that a text writes; all its characters are ASCII. -/
def bytes (t : Text) : Except Fault (List UInt8) :=
  if t.all (·.toNat < 128) then bytesFrom 0 0 0 t else .error .malformed

/-- Bytes as text: those of ASCII characters that print stand for themselves. -/
def quoteBytes (bytes : List UInt8) : Text :=
  let chars := bytes.map fun b => Char.ofNat b.toNat
  let mark := quoteMark chars
  let quoteByte (c : Char) : Text :=
    if c.toNat < 128 then quoteChar mark c else "\\x" ++ hex 2 c.toNat
  'b' :: mark :: chars.flatMap quoteByte ++ [mark]

end Stylesheet.Yaml
