import Scribe.Text.Hex

/-!
# Reading bytes as text

UTF-8 is read strictly: no overlong forms, no surrogates, nothing beyond U+10FFFF. A fault names
the bytes that cannot stand, and why.
-/
namespace Scribe.Text.Utf8

inductive Reason where
  | start
  | continuation
  | truncated
deriving DecidableEq, Repr

def Reason.text : Reason → String
  | .start => "invalid start byte"
  | .continuation => "invalid continuation byte"
  | .truncated => "unexpected end of data"

/-- The bytes from `start` up to `stop`, the first of which is `byte`, are not a character. -/
structure Fault where
  start : Nat
  stop : Nat
  byte : UInt8
  reason : Reason
deriving DecidableEq, Repr

def Fault.message (f : Fault) : String :=
  let byte := String.ofList (hex 2 f.byte.toNat)
  if f.stop - f.start == 1 then
    s!"'utf-8' codec can't decode byte 0x{byte} in position {f.start}: {f.reason.text}"
  else
    s!"'utf-8' codec can't decode bytes in position {f.start}-{f.stop - 1}: {f.reason.text}"

def isTail (b : UInt8) : Bool :=
  0x80 ≤ b && b < 0xC0

def isSecond (a b : UInt8) : Bool :=
  isTail b && !(a == 0xE0 && b < 0xA0) && !(a == 0xED && 0xA0 ≤ b) &&
    !(a == 0xF0 && b < 0x90) && !(a == 0xF4 && 0x90 ≤ b)

def tailLength? (a : UInt8) : Option Nat :=
  if a < 0x80 then some 0
  else if 0xC2 ≤ a && a < 0xE0 then some 1
  else if 0xE0 ≤ a && a < 0xF0 then some 2
  else if 0xF0 ≤ a && a < 0xF5 then some 3
  else none

def lead (a : UInt8) (tail : Nat) : Nat :=
  a.toNat % Nat.pow 2 (if tail == 0 then 7 else 6 - tail)

/-- What is known of a character some of whose bytes have been read. -/
structure Partial where
  first : UInt8
  start : Nat
  read : Nat
  owed : Nat
  code : Nat

/-- Decodes the bytes from position `i` on, with the character `part` under way. -/
def decodeFrom (i : Nat) (part : Option Partial) : List UInt8 → Except Fault (List Char)
  | [] =>
    match part with
    | none => .ok []
    | some p => .error ⟨p.start, i, p.first, .truncated⟩
  | b :: r =>
    match part with
    | none =>
      match tailLength? b with
      | none => .error ⟨i, i + 1, b, .start⟩
      | some 0 => (decodeFrom (i + 1) none r).map (Char.ofNat b.toNat :: ·)
      | some n => decodeFrom (i + 1) (some ⟨b, i, 1, n, lead b n⟩) r
    | some p =>
      if if p.read == 1 then isSecond p.first b else isTail b then
        let code := p.code * 64 + b.toNat % 64
        if p.owed == 1 then (decodeFrom (i + 1) none r).map (Char.ofNat code :: ·)
        else decodeFrom (i + 1) (some { p with read := p.read + 1, owed := p.owed - 1, code }) r
      else .error ⟨p.start, i, p.first, .continuation⟩

def decode (bytes : List UInt8) : Except Fault (List Char) :=
  decodeFrom 0 none bytes

end Scribe.Text.Utf8
