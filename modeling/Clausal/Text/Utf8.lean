/-!
# UTF-8

Decoding bytes into characters. A fault names the bytes that cannot be part of any character and
why: no character starts with the first of them, the byte after them cannot continue it, or the data
end before the character is complete.
-/

namespace Clausal.Text.Utf8

/-- Why a run of bytes is no character. -/
inductive Reason where
  /-- No character starts with this byte. -/
  | start
  /-- The byte that follows cannot continue the character. -/
  | continuation
  /-- The data end within the character. -/
  | truncated
  deriving DecidableEq, Repr

/-- The faulty bytes, where they stand, and what is wrong with them. -/
structure Fault where
  position : Nat
  bytes : List UInt8
  reason : Reason
  deriving DecidableEq, Repr

/-- How many continuation bytes follow a first byte, and the range of the first of them: the
narrower ranges rule out overlong forms, surrogates and values beyond the last code point. -/
def lead (b : Nat) : Option (Nat × Nat × Nat) :=
  if b < 0x80 then some (0, 0x80, 0xBF)
  else if b < 0xC2 then none
  else if b < 0xE0 then some (1, 0x80, 0xBF)
  else if b = 0xE0 then some (2, 0xA0, 0xBF)
  else if b = 0xED then some (2, 0x80, 0x9F)
  else if b < 0xF0 then some (2, 0x80, 0xBF)
  else if b = 0xF0 then some (3, 0x90, 0xBF)
  else if b < 0xF4 then some (3, 0x80, 0xBF)
  else if b = 0xF4 then some (3, 0x80, 0x8F)
  else none

/-- The bits that a first byte contributes, by the number of bytes that follow it. -/
def leadBits (owed b : Nat) : Nat :=
  match owed with
  | 0 => b
  | 1 => b % 0x20
  | 2 => b % 0x10
  | _ => b % 0x08

/-- The faulty bytes of a character of which `seen`, in reverse, has been read up to `position`. -/
def Fault.within (position : Nat) (seen : List UInt8) (reason : Reason) : Fault :=
  ⟨position - seen.length, seen.reverse, reason⟩

/-- Decodes from `position` on, within a character that owes `owed` more bytes, the next one from
`low` to `high`; `seen` are its bytes so far, in reverse, and `value` their bits. -/
def decodeFrom (position : Nat) (seen : List UInt8) (owed low high value : Nat) :
    List UInt8 → Except Fault (List Char)
  | [] => if owed = 0 then .ok [] else .error (.within position seen .truncated)
  | b :: rest =>
    let n := b.toNat
    if owed = 0 then
      match lead n with
      | none => .error ⟨position, [b], .start⟩
      | some (0, _, _) => (Char.ofNat n :: ·) <$> decodeFrom (position + 1) [] 0 0x80 0xBF 0 rest
      | some (k + 1, low', high') =>
        decodeFrom (position + 1) [b] (k + 1) low' high' (leadBits (k + 1) n) rest
    else if n < low || high < n then .error (.within position seen .continuation)
    else
      let value' := value * 0x40 + n % 0x40
      if owed = 1 then (Char.ofNat value' :: ·) <$> decodeFrom (position + 1) [] 0 0x80 0xBF 0 rest
      else decodeFrom (position + 1) (b :: seen) (owed - 1) 0x80 0xBF value' rest

/-- The characters that the bytes encode, or the first fault in them. -/
def decode (bytes : List UInt8) : Except Fault (List Char) :=
  decodeFrom 0 [] 0 0x80 0xBF 0 bytes

/-- Wording of a reason. -/
def Reason.text : Reason → String
  | .start => "invalid start byte"
  | .continuation => "invalid continuation byte"
  | .truncated => "unexpected end of data"

/-- A byte as two hexadecimal digits. -/
def hexByte (b : UInt8) : String :=
  String.ofList [Nat.digitChar (b.toNat / 16), Nat.digitChar (b.toNat % 16)]

/-- Wording of a fault: a single byte is shown, a longer run is given by its first and last
position. -/
def Fault.message (f : Fault) : String :=
  let place := match f.bytes with
    | [b] => "byte 0x" ++ hexByte b ++ " in position " ++ Nat.repr f.position
    | bytes => "bytes in position " ++ Nat.repr f.position ++ "-"
        ++ Nat.repr (f.position + bytes.length - 1)
  "'utf-8' codec can't decode " ++ place ++ ": " ++ f.reason.text

end Clausal.Text.Utf8
