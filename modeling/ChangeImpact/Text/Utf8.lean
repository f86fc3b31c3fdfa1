import ChangeImpact.Number.Decimal
import ChangeImpact.Text.Quoted

/-!
# UTF-8

Decoding bytes as text. A failure names the bytes of the ill-formed sequence, from its first byte up
to the last one that could belong to it, and says what is wrong with it; `decodeLossy` puts a
replacement character in its place.
-/

namespace ChangeImpact.Text.Utf8

/-- What is wrong with a sequence of bytes. -/
inductive Reason where
  | badStart
  | badContinuation
  | endOfData
deriving DecidableEq, Repr

def Reason.words : Reason → String
  | .badStart => "invalid start byte"
  | .badContinuation => "invalid continuation byte"
  | .endOfData => "unexpected end of data"

/-- An ill-formed sequence: its first byte, where it starts and how many bytes it has. -/
structure Failure where
  lead : UInt8
  position : Nat
  count : Nat
  reason : Reason
deriving DecidableEq, Repr

def Failure.message (f : Failure) : String :=
  (if f.count == 1 then
    "'utf-8' codec can't decode byte 0x" ++ String.ofList (hex 2 f.lead.toNat) ++ " in position " ++
      natText f.position
  else
    "'utf-8' codec can't decode bytes in position " ++ natText f.position ++ "-" ++
      natText (f.position + f.count - 1)) ++ ": " ++ f.reason.words

/-- The ranges in which the bytes after a first byte must lie; none for a byte that starts nothing. -/
def continuations? (lead : Nat) : Option (List (Nat × Nat)) :=
  let any : Nat × Nat := (0x80, 0xbf)
  if lead < 0x80 then some []
  else if lead < 0xc2 then none
  else if lead < 0xe0 then some [any]
  else if lead == 0xe0 then some [(0xa0, 0xbf), any]
  else if lead == 0xed then some [(0x80, 0x9f), any]
  else if lead < 0xf0 then some [any, any]
  else if lead == 0xf0 then some [(0x90, 0xbf), any, any]
  else if lead < 0xf4 then some [any, any, any]
  else if lead == 0xf4 then some [(0x80, 0x8f), any, any]
  else none

/-- Reads the bytes after a first byte; `code` and `count` describe those before. -/
def sequence : List (Nat × Nat) → (code count : Nat) → List UInt8 →
    Except (Reason × Nat) (Nat × Nat)
  | [], code, count, _ => .ok (code, count)
  | _ :: _, _, count, [] => .error (.endOfData, count)
  | (low, high) :: ranges, code, count, b :: bs =>
    if low ≤ b.toNat && b.toNat ≤ high then
      sequence ranges (code * 64 + (b.toNat - 0x80)) (count + 1) bs
    else .error (.badContinuation, count)

/-- The bits of the code point that a first byte holds, when `more` bytes follow it. -/
def leadBits (lead more : Nat) : Nat :=
  match more with
  | 0 => lead
  | 1 => lead - 0xc0
  | 2 => lead - 0xe0
  | _ => lead - 0xf0

/-- Decodes from a position on; the first `skip` bytes belong to a sequence that has been read. -/
def decodeFrom (position skip : Nat) (read : List Char) : List UInt8 → Except Failure (List Char)
  | [] => .ok read.reverse
  | b :: bs =>
    if 0 < skip then decodeFrom (position + 1) (skip - 1) read bs
    else
      match continuations? b.toNat with
      | none => .error ⟨b, position, 1, .badStart⟩
      | some ranges =>
        match sequence ranges (leadBits b.toNat ranges.length) 1 bs with
        | .ok (code, count) =>
          decodeFrom (position + 1) (count - 1) ((Point.ofCode code).text.reverse ++ read) bs
        | .error (reason, count) => .error ⟨b, position, count, reason⟩

/-- The text that bytes encode. -/
def decode (bytes : List UInt8) : Except Failure (List Char) := decodeFrom 0 0 [] bytes

/-- Decodes with a replacement character for each ill-formed sequence; the first `skip` bytes belong
to a sequence that has been read. -/
def decodeLossyFrom (skip : Nat) (read : List Char) : List UInt8 → List Char
  | [] => read.reverse
  | b :: bs =>
    if 0 < skip then decodeLossyFrom (skip - 1) read bs
    else
      match continuations? b.toNat with
      | none => decodeLossyFrom 0 (Char.ofNat 0xfffd :: read) bs
      | some ranges =>
        match sequence ranges (leadBits b.toNat ranges.length) 1 bs with
        | .ok (code, count) =>
          decodeLossyFrom (count - 1) ((Point.ofCode code).text.reverse ++ read) bs
        | .error (_, count) => decodeLossyFrom (count - 1) (Char.ofNat 0xfffd :: read) bs

/-- The text that bytes encode, as far as they encode one. -/
def decodeLossy (bytes : List UInt8) : List Char := decodeLossyFrom 0 [] bytes

end ChangeImpact.Text.Utf8
