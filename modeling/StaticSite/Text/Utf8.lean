import StaticSite.Text.Digit

/-! # UTF-8

Reading bytes as text. A character takes one to four bytes: the first one says how many follow, and
which values the second one may have, so that no character has two spellings. What cannot be read is
a fault with the bytes it concerns.
-/

namespace StaticSite.Utf8

/-- Why bytes are no text. -/
inductive Cause
  /-- A byte that starts no character. -/
  | badStart (byte : UInt8)
  /-- A byte inside a character that cannot continue it; the character starts with `byte`. -/
  | badContinuation (byte : UInt8)
  /-- The bytes end inside a character, which starts with `byte`. -/
  | unexpectedEnd (byte : UInt8)
  deriving DecidableEq, Repr

/-- A cause with the offsets of the bytes it concerns, the last one excluded. -/
structure Fault where
  cause : Cause
  first : Nat
  last : Nat
  deriving DecidableEq, Repr

namespace Cause

/-- The first of the bytes that a cause concerns. -/
def byte : Cause → UInt8
  | .badStart b | .badContinuation b | .unexpectedEnd b => b

/-- The wording of a cause. -/
def reason : Cause → String
  | .badStart _ => "invalid start byte"
  | .badContinuation _ => "invalid continuation byte"
  | .unexpectedEnd _ => "unexpected end of data"

end Cause

/-- The wording of a fault: one byte is shown, several are located. -/
def Fault.message (fault : Fault) : Text :=
  let place : Text :=
    if fault.last = fault.first + 1 then
      "byte 0x" ++ Text.hexOfWidth 2 fault.cause.byte.toNat ++ " in position " ++
        Text.ofNat fault.first
    else
      "bytes in position " ++ Text.ofNat fault.first ++ "-" ++ Text.ofNat (fault.last - 1)
  "'utf-8' codec can't decode " ++ place ++ ": " ++ fault.cause.reason

/-- A character that is being read: where it starts and with which byte, how many bytes are still
to come, the range of the next one, and the bits so far. -/
structure Partial where
  start : Nat
  byte : UInt8
  missing : Nat
  low : Nat
  high : Nat
  bits : Nat

/-- The character that a byte starts, if it takes more than that byte. -/
def start? (offset : Nat) (byte : UInt8) : Option Partial :=
  let b := byte.toNat
  if 0xc2 ≤ b ∧ b ≤ 0xdf then some ⟨offset, byte, 1, 0x80, 0xbf, b - 0xc0⟩
  else if b = 0xe0 then some ⟨offset, byte, 2, 0xa0, 0xbf, 0⟩
  else if b = 0xed then some ⟨offset, byte, 2, 0x80, 0x9f, 0xd⟩
  else if 0xe1 ≤ b ∧ b ≤ 0xef then some ⟨offset, byte, 2, 0x80, 0xbf, b - 0xe0⟩
  else if b = 0xf0 then some ⟨offset, byte, 3, 0x90, 0xbf, 0⟩
  else if 0xf1 ≤ b ∧ b ≤ 0xf3 then some ⟨offset, byte, 3, 0x80, 0xbf, b - 0xf0⟩
  else if b = 0xf4 then some ⟨offset, byte, 3, 0x80, 0x8f, 4⟩
  else none

/-- Reads bytes from an offset on; `seen` holds the characters so far, last one first. -/
def decodeFrom (offset : Nat) (seen : Text) : Option Partial → List UInt8 → Except Fault Text
  | none, [] => .ok seen.reverse
  | some p, [] => .error ⟨.unexpectedEnd p.byte, p.start, offset⟩
  | none, byte :: rest =>
      if byte.toNat < 0x80 then
        decodeFrom (offset + 1) (Char.ofNat byte.toNat :: seen) none rest
      else
        match start? offset byte with
        | none => .error ⟨.badStart byte, offset, offset + 1⟩
        | some p => decodeFrom (offset + 1) seen (some p) rest
  | some p, byte :: rest =>
      let b := byte.toNat
      if p.low ≤ b ∧ b ≤ p.high then
        let bits := p.bits * 64 + (b - 0x80)
        if p.missing ≤ 1 then decodeFrom (offset + 1) (Char.ofNat bits :: seen) none rest
        else
          let next : Partial := ⟨p.start, p.byte, p.missing - 1, 0x80, 0xbf, bits⟩
          decodeFrom (offset + 1) seen (some next) rest
      else .error ⟨.badContinuation p.byte, p.start, offset⟩

/-- Reads bytes as text. -/
def decode (bytes : List UInt8) : Except Fault Text := decodeFrom 0 [] none bytes

/-- The number of bytes that a text takes. -/
def size (t : Text) : Nat := t.foldl (fun size c => size + c.utf8Size) 0

end StaticSite.Utf8
