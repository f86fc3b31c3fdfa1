import ChangeImpact.Yaml.Content

/-!
# Files as they arrive

A file is not read at once. Its bytes are decoded chunk by chunk, and the characters are handed on in
blocks of equal size, of which the first two come together. What is wrong with a file further on
shows only when the block with it is read, so a text that fails before never gets there.

* `Arrival` says how much of a file has been decoded; the size of a chunk depends on the one before.
* `obstacle?` is what keeps a file from being read to its end, and where that is noticed.
* `valueOf` is the value of a file, or the first failure.
-/

namespace ChangeImpact.Config

/-- Line ends of all styles as line feeds. -/
def unifyLineEnds : List Char → List Char
  | [] => []
  | '\r' :: '\n' :: cs => '\n' :: unifyLineEnds cs
  | '\r' :: cs => '\n' :: unifyLineEnds cs
  | c :: cs => c :: unifyLineEnds cs

/-- The characters that bytes encode, up to the first ill-formed sequence. -/
def wellFormedPart (data : List UInt8) : List Char :=
  match Text.Utf8.decode data with
  | .ok cs => cs
  | .error f =>
    match Text.Utf8.decode (data.take f.position) with
    | .ok cs => cs
    | .error _ => []

/-- The text of a file, up to the first ill-formed sequence. -/
def textOf (data : List UInt8) : List Char := unifyLineEnds (wellFormedPart data)

/-- How many characters the first bytes of a file show. A carriage return at their end is held back,
because a line feed may follow it. -/
def shown (data : List UInt8) (count : Nat) : Nat :=
  let cs := wellFormedPart (data.take count)
  Text.width (unifyLineEnds cs) - (if cs.getLast? == some '\r' then 1 else 0)

/-- How much of a file has been decoded: its bytes and characters, and those of the last chunk. -/
structure Arrival where
  bytes : Nat := 0
  chars : Nat := 0
  lastBytes : Nat := 0
  lastChars : Nat := 0

namespace Arrival

/-- The least number of bytes that are decoded at once. -/
def chunkSize : Nat := 8192

/-- The size of the next chunk: the bytes that the characters still wanted would have taken in the
last one. -/
def nextSize (a : Arrival) (wanted : Nat) : Nat :=
  let perChar := Binary64.ofRatio false a.lastBytes a.lastChars
  max chunkSize ((perChar.mul (.ofInt wanted)).truncate?.getD 0).toNat

/-- Decodes chunks until a number of characters is there or the file ends. There is no result if the
chunks hold the byte that gives an ill-formed sequence away; the end of the file counts as a byte. -/
def fill (data : List UInt8) (culprit target : Nat) : (fuel : Nat) → Arrival → Option Arrival
  | 0, a => some a
  | fuel + 1, a =>
    if target ≤ a.chars then some a else
      let stop := min data.length (a.bytes + a.nextSize (target - a.chars))
      if culprit < stop || (stop == a.bytes && data.length ≤ culprit) then none
      else if stop == a.bytes then some a
      else
        let chars := shown data stop
        fill data culprit target fuel
          { bytes := stop, chars, lastBytes := stop - a.bytes, lastChars := chars - a.chars }

end Arrival

/-- The number of characters of a block. -/
def blockSize : Nat := 4096

/-- The first block that cannot be decoded, from a block on. -/
def brokenBlock? (data : List UInt8) (culprit : Nat) :
    (fuel block : Nat) → Arrival → Option Nat
  | 0, _, _ => none
  | fuel + 1, block, a =>
    match a.fill data culprit ((block + 1) * blockSize) (data.length + 1) with
    | none => some block
    | some next => brokenBlock? data culprit fuel (block + 1) next

/-- The place before which a block is not read. The first two blocks are always read. -/
def blockStart (block : Nat) : Nat := if block < 2 then 0 else block * blockSize

/-- Where it is noticed that a file has an ill-formed sequence. -/
def brokenAt? (data : List UInt8) : Option Nat :=
  match Text.Utf8.decode data with
  | .ok _ => none
  | .error f =>
    let culprit := match f.reason with
      | .badStart => f.position
      | .badContinuation => f.position + f.count
      | .endOfData => data.length
    (brokenBlock? data culprit (data.length + 1) 0 {}).map blockStart

/-- What keeps a file from being read to its end, and the place where that is noticed. Bytes are
decoded before their characters are judged. -/
def obstacle? (data : List UInt8) : Option (Nat × Yaml.Failure) :=
  let broken := (brokenAt? data).map fun place => (place, Yaml.Failure.fault .undecodableText)
  let forbidden := (Yaml.forbidden? (textOf data)).map fun (code, place) =>
    (blockStart (place / blockSize), Yaml.Failure.character code place)
  match broken, forbidden with
  | some b, some f => some (if b.1 ≤ f.1 then b else f)
  | b, f => b <|> f

/-- The value of a file. What stands further on is judged only when the reading gets there. -/
def valueOf (data : List UInt8) : Except Yaml.Failure Value :=
  match obstacle? data with
  | none => Yaml.load (textOf data)
  | some (place, failure) => .error ((Yaml.failureBefore? place (textOf data)).getD failure)

end ChangeImpact.Config
