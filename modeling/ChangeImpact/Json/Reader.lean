import ChangeImpact.Number.Numeral
import ChangeImpact.Text.Point
import ChangeImpact.Value.Basic

/-!
# Reading JSON

`Json.read` reads one document. A number with a fraction or an exponent is a floating-point number
and any other is an integer; `NaN`, `Infinity` and `-Infinity` are accepted. Of two members with one
name the later wins, and arrays and objects nest only to a limit. A failure says what was expected
and at which character.
-/

namespace ChangeImpact.Json

/-- What is wrong with a document. -/
inductive Problem where
  | byteOrderMark
  | noValue
  | extraData
  | noName
  | noColon
  | noComma
  | unterminated
  | controlCharacter
  | badEscape
  | badCodeEscape
  | tooManyDigits (count : Nat)
  | tooDeep
deriving DecidableEq, Repr

def Problem.words : Problem → String
  | .byteOrderMark => "Unexpected UTF-8 BOM (decode using utf-8-sig)"
  | .noValue => "Expecting value"
  | .extraData => "Extra data"
  | .noName => "Expecting property name enclosed in double quotes"
  | .noColon => "Expecting ':' delimiter"
  | .noComma => "Expecting ',' delimiter"
  | .unterminated => "Unterminated string starting at"
  | .controlCharacter => "Invalid control character at"
  | .badEscape => "Invalid \\escape"
  | .badCodeEscape => "Invalid \\uXXXX escape"
  | .tooManyDigits count =>
    "Exceeds the limit (4300 digits) for integer string conversion: value has " ++ natText count ++
      " digits; use sys.set_int_max_str_digits() to increase the limit"
  | .tooDeep => "maximum recursion depth exceeded"

/-- A problem and the number of characters before it. -/
structure Failure where
  problem : Problem
  offset : Nat
deriving DecidableEq, Repr

/-- The failure in words, with its line, its column and its character in the text. -/
def Failure.message (f : Failure) (text : List Char) : String :=
  match f.problem with
  | .tooManyDigits _ | .tooDeep => f.problem.words
  | _ =>
    let before := text.take f.offset
    let line := before.count '\n' + 1
    let column := Text.width (before.reverse.takeWhile (· != '\n')) + 1
    f.problem.words ++ ": line " ++ natText line ++ " column " ++ natText column ++ " (char " ++
      natText (Text.width before) ++ ")"

/-- The characters still to be read and the number of those before them. -/
structure Cursor where
  offset : Nat
  rest : List Char

def isSpace (c : Char) : Bool := c == ' ' || c == '\t' || c == '\n' || c == '\r'

/-- Moves over characters. -/
def Cursor.advance (c : Cursor) (n : Nat) : Cursor := ⟨c.offset + n, c.rest.drop n⟩

def Cursor.skipSpace (c : Cursor) : Cursor := c.advance (c.rest.takeWhile isSpace).length

def Cursor.fail {α : Type} (c : Cursor) (problem : Problem) : Except Failure α :=
  .error ⟨problem, c.offset⟩

/-- The value of four hexadecimal digits. -/
def hex4? : List Char → Option Nat
  | a :: b :: c :: d :: _ =>
    if [a, b, c, d].all Text.isHexDigit then Numeral.digits? 16 [a, b, c, d] else none
  | _ => none

/-- The short escapes. -/
def shortEscape? : Char → Option Char
  | '"' => some '"'
  | '\\' => some '\\'
  | '/' => some '/'
  | 'b' => some '\x08'
  | 'f' => some '\x0c'
  | 'n' => some '\n'
  | 'r' => some '\r'
  | 't' => some '\t'
  | _ => none

/-- The code point of an escape by code unit, from the text after its mark, and how many characters
stand after the backslash. Two escapes that form a surrogate pair are one character. The failure is
the number of characters before the mark of the escape that is wrong. -/
def codeEscape (afterMark : List Char) : Except Nat (Text.Point × Nat) := do
  let more := afterMark.drop 4
  match hex4? afterMark, more with
  | none, _ | _, [] => .error 0
  | some high, '\\' :: 'u' :: digits =>
    if Text.isHighHalf high && 6 < more.length then
      match hex4? digits with
      | none => .error 6
      | some low =>
        if Text.isLowHalf low then return (.char (Text.pairChar high low), 11) else return (.half high, 5)
    else return (.ofCode high, 5)
  | some code, _ => return (.ofCode code, 5)

/-- The rest of a string that started at `start`. The first `skip` characters belong to an escape
that has been read. -/
def stringFrom (start offset skip : Nat) (read : List Char) :
    List Char → Except Failure (String × Cursor)
  | [] => .error ⟨.unterminated, start⟩
  | c :: cs =>
    if 0 < skip then stringFrom start (offset + 1) (skip - 1) read cs
    else if c == '"' then .ok (String.ofList read.reverse, ⟨offset + 1, cs⟩)
    else if c == '\\' then
      match cs with
      | [] => .error ⟨.unterminated, start⟩
      | mark :: after =>
        if mark == 'u' then
          match codeEscape after with
          | .ok (point, width) =>
            stringFrom start (offset + 1) width (point.text.reverse ++ read) cs
          | .error before => .error ⟨.badCodeEscape, offset + 1 + before⟩
        else
          match shortEscape? mark with
          | some char => stringFrom start (offset + 1) 1 (char :: read) cs
          | none => .error ⟨.badEscape, offset⟩
    else if c.toNat < 0x20 then .error ⟨.controlCharacter, offset⟩
    else stringFrom start (offset + 1) 0 (c :: read) cs

def isAsciiDigit (c : Char) : Bool := '0' ≤ c && c ≤ '9'

/-- The number of characters of a fraction. -/
def fractionWidth : List Char → Nat
  | '.' :: cs => match (cs.takeWhile isAsciiDigit).length with
    | 0 => 0
    | n => n + 1
  | _ => 0

/-- The number of characters of an exponent. -/
def exponentWidth : List Char → Nat
  | c :: cs =>
    if c == 'e' || c == 'E' then
      let (signWidth, digits) := match cs with
        | '+' :: ds => (1, ds)
        | '-' :: ds => (1, ds)
        | ds => (0, ds)
      match (digits.takeWhile isAsciiDigit).length with
      | 0 => 0
      | n => n + 1 + signWidth
    else 0
  | [] => 0

/-- A number at the cursor. -/
def number? (here : Cursor) : Except Failure (Value × Cursor) :=
  let (signWidth, body) := match here.rest with
    | '-' :: cs => (1, cs)
    | cs => (0, cs)
  let wholeWidth := match body with
    | '0' :: _ => 1
    | cs => (cs.takeWhile isAsciiDigit).length
  if wholeWidth == 0 then here.fail .noValue else
    let f := fractionWidth (body.drop wholeWidth)
    let e := exponentWidth (body.drop (wholeWidth + f))
    let width := signWidth + wholeWidth + f + e
    let text := here.rest.take width
    if f == 0 && e == 0 then
      if Numeral.mostDigits < wholeWidth then here.fail (.tooManyDigits wholeWidth)
      else .ok (.int ((Numeral.int? 10 text).getD 0), here.advance width)
    else .ok (.float ((Numeral.float? text).getD .nan), here.advance width)

/-- The words that stand for a value. -/
def constants : List (String × Value) :=
  [("null", .null), ("true", .bool true), ("false", .bool false), ("NaN", .float .nan),
    ("Infinity", .float (.infinite false)), ("-Infinity", .float (.infinite true))]

/-- Arrays and objects nest at most this deep. -/
def deepestLevel : Nat := 985

mutual

/-- The value at the cursor, inside `level` arrays and objects. -/
def value : (fuel level : Nat) → Cursor → Except Failure (Value × Cursor)
  | 0, _, here => here.fail .noValue
  | fuel + 1, level, here =>
    match here.rest with
    | '"' :: cs => do
      let (s, next) ← stringFrom here.offset (here.offset + 1) 0 [] cs
      return (.str s, next)
    | '[' :: _ =>
      if deepestLevel ≤ level then here.fail .tooDeep else
        let first := (here.advance 1).skipSpace
        match first.rest with
        | ']' :: _ => .ok (.list [], first.advance 1)
        | _ => items fuel (level + 1) [] first
    | '\x7b' :: _ =>
      if deepestLevel ≤ level then here.fail .tooDeep else
        let first := (here.advance 1).skipSpace
        match first.rest with
        | '\x7d' :: _ => .ok (.map [], first.advance 1)
        | _ => members fuel (level + 1) [] first
    | cs =>
      match constants.find? fun c => c.1.toList.isPrefixOf cs with
      | some c => .ok (c.2, here.advance c.1.length)
      | none => number? here

/-- The items of an array from the cursor on; `read` holds those before, last first. -/
def items : (fuel level : Nat) → List Value → Cursor → Except Failure (Value × Cursor)
  | 0, _, _, here => here.fail .noValue
  | fuel + 1, level, read, here => do
    let (v, next) ← value fuel level here
    let next := next.skipSpace
    match next.rest with
    | ']' :: _ => return (.list (v :: read).reverse, next.advance 1)
    | ',' :: _ => items fuel level (v :: read) (next.advance 1).skipSpace
    | _ => next.fail .noComma

/-- The members of an object from the cursor on; `read` holds those before. -/
def members : (fuel level : Nat) → Entries → Cursor → Except Failure (Value × Cursor)
  | 0, _, _, here => here.fail .noName
  | fuel + 1, level, read, here =>
    match here.rest with
    | '"' :: cs => do
      let (name, next) ← stringFrom here.offset (here.offset + 1) 0 [] cs
      let next := next.skipSpace
      match next.rest with
      | ':' :: _ =>
        let (v, next) ← value fuel level (next.advance 1).skipSpace
        let read := Entries.putName read name v
        let next := next.skipSpace
        match next.rest with
        | '\x7d' :: _ => return (.map read, next.advance 1)
        | ',' :: _ => members fuel level read (next.advance 1).skipSpace
        | _ => next.fail .noComma
      | _ => next.fail .noColon
    | _ => here.fail .noName

end

/-- Reads one document. Two steps for each character always suffice. -/
def read (text : List Char) : Except Failure Value := do
  if text.head? == some (Char.ofNat 0xfeff) then .error ⟨.byteOrderMark, 0⟩
  let (v, next) ← value (2 * text.length + 2) 0 (Cursor.mk 0 text).skipSpace
  let next := next.skipSpace
  if next.rest.isEmpty then return v else next.fail .extraData

end ChangeImpact.Json
