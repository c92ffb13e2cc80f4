import ContractFuzz.Json.Basic
import ContractFuzz.Text.Numeral

namespace ContractFuzz.Json.Reader

/-- Containers nested deeper than this have no value. -/
def maximalDepth : Nat := 127

def isSpace (c : Char) : Bool := c == ' ' || c == '\n' || c == '\t' || c == '\r'

def skipSpace : List Char → List Char := List.dropWhile isSpace

/-- A part of a string literal: a character, or the unit of UTF-16 that an escape names. -/
inductive Piece where
  | char (c : Char)
  | unit (n : Nat)

/-- The number of four hexadecimal digits. -/
def hex4? : List Char → Option (Nat × List Char)
  | a :: b :: c :: d :: rest =>
      match [a, b, c, d].mapM Text.digitValue? with
      | some digits =>
          if digits.all (· < 16) then some (digits.foldl (fun n digit => n * 16 + digit) 0, rest)
          else none
      | none => none
  | _ => none

/-- The character that a backslash and one letter stand for. -/
def escaped? : Char → Option Char
  | '"' => some '"'
  | '\\' => some '\\'
  | '/' => some '/'
  | 'b' => some '\x08'
  | 'f' => some '\x0C'
  | 'n' => some '\n'
  | 'r' => some '\r'
  | 't' => some '\t'
  | _ => none

/-- The parts of a string literal after its opening quote, and what follows its closing quote.
`fuel` bounds the characters that are left. -/
def pieces? (fuel : Nat) (read : List Piece) (s : List Char) : Option (List Piece × List Char) :=
  match fuel, s with
  | 0, _ => none
  | _, [] => none
  | _ + 1, '"' :: rest => some (read.reverse, rest)
  | fuel + 1, '\\' :: 'u' :: rest =>
      match hex4? rest with
      | some (n, rest) => pieces? fuel (.unit n :: read) rest
      | none => none
  | fuel + 1, '\\' :: c :: rest =>
      match escaped? c with
      | some c => pieces? fuel (.char c :: read) rest
      | none => none
  | fuel + 1, c :: rest =>
      if c.toNat < 0x20 || c == '\\' then none else pieces? fuel (.char c :: read) rest

/-- Put the parts of a literal together. A unit that is half of a pair needs the other half. -/
def assemble? : List Piece → Option (List Char)
  | [] => some []
  | .char c :: rest => (assemble? rest).map (c :: ·)
  | .unit n :: rest =>
      if n < 0xD800 || 0xDFFF < n then (assemble? rest).map (Char.ofNat n :: ·)
      else if 0xDBFF < n then none
      else
        match rest with
        | .unit low :: rest =>
            if 0xDC00 ≤ low && low ≤ 0xDFFF then
              (assemble? rest).map
                (Char.ofNat (0x10000 + (n - 0xD800) * 0x400 + (low - 0xDC00)) :: ·)
            else none
        | _ => none

/-- A string literal after its opening quote; its text is none when it has no value. -/
def literal? (fuel : Nat) (s : List Char) : Option (Option String × List Char) :=
  match pieces? fuel [] s with
  | some (pieces, rest) => some ((assemble? pieces).map String.ofList, rest)
  | none => none

def digitsValue (digits : List Char) : Nat :=
  digits.foldl (fun n c => n * 10 + (c.toNat - '0'.toNat)) 0

/-- The digits at the front of a text, of which there has to be one. -/
def digits? (s : List Char) : Option (List Char × List Char) :=
  match s.takeWhile Char.isDigit with
  | [] => none
  | digits => some (digits, s.dropWhile Char.isDigit)

/-- The digits of an integer part: a zero alone, or digits that do not start with one. -/
def integerDigits? (s : List Char) : Option (List Char × List Char) :=
  match digits? s with
  | some (['0'], rest) => some (['0'], rest)
  | some ('0' :: _, _) => none
  | other => other

/-- The digits after a point, or none without a point. -/
def fraction? : List Char → Option (List Char × List Char)
  | '.' :: rest => digits? rest
  | s => some ([], s)

/-- The exponent after an `e`, or none without one. -/
def exponent? (s : List Char) : Option (Option Int × List Char) :=
  match s with
  | c :: rest =>
      if c == 'e' || c == 'E' then
        match rest with
        | '+' :: rest => (digits? rest).map fun (d, rest) => (some (digitsValue d : Int), rest)
        | '-' :: rest => (digits? rest).map fun (d, rest) => (some (-(digitsValue d : Int)), rest)
        | rest => (digits? rest).map fun (d, rest) => (some (digitsValue d : Int), rest)
      else some (none, s)
  | [] => some (none, [])

/-- Continue a number with digits as long as it fits a word: the number, and the digits left out. -/
def gather (n : Nat) : List Char → Nat × List Char
  | [] => (n, [])
  | c :: rest =>
      let next := n * 10 + (c.toNat - '0'.toNat)
      if next < Text.wordBound then gather next rest else (n, c :: rest)

/-- The value of an integer literal that fits a word: an integer if it fits with its sign. -/
def integerValue (negative : Bool) (n : Nat) : Json :=
  if !negative then .int n
  else if 0 < n && n ≤ 1 <<< 63 then .int (-(n : Int))
  else .decimal ⟨true, n, 0⟩

/-- The value of a number literal by its digits before and after the point. Each digit left out
before the point is a power of ten, and so is each one kept after it, the other way. -/
def decimalValue (negative : Bool) (whole fraction : List Char) (exponent : Int) : Decimal :=
  let (n, leftOut) := gather 0 whole
  let (n, ignored) := gather n fraction
  ⟨negative, n, exponent + leftOut.length - ((fraction.length : Int) - ignored.length)⟩

/-- A number too large for a double has no value. -/
def bounded (d : Decimal) : Json := if d.isFinite then .decimal d else .unreadable

/-- The value of a number literal. Without a point and an exponent it is an integer, if it fits a
word. -/
def numberValue (negative : Bool) (whole fraction : List Char) (exponent : Option Int) : Json :=
  match fraction, exponent, gather 0 whole with
  | [], none, (n, []) => integerValue negative n
  | _, _, _ => bounded (decimalValue negative whole fraction (exponent.getD 0))

/-- A number literal after its sign. -/
def number? (negative : Bool) (s : List Char) : Option (Json × List Char) :=
  match integerDigits? s with
  | none => none
  | some (whole, rest) =>
      match fraction? rest with
      | none => none
      | some (fraction, rest) =>
          match exponent? rest with
          | none => none
          | some (exponent, rest) => some (numberValue negative whole fraction exponent, rest)

/-- Drop a word that has to stand at the front. -/
def word? (word s : List Char) : Option (List Char) :=
  if s.take word.length == word then some (s.drop word.length) else none

/-- A container in a place with no depth left has no value. -/
def contained (depth : Nat) (value : Json) : Json :=
  if depth = 0 then .unreadable else value

/-- The object of the fields read, which has no value when one of the names has none. -/
def ofFields (fields : List (Option String × Json)) : Json :=
  match fields.mapM fun (name, value) => name.map fun name => (name, value) with
  | some fields => .object fields
  | none => .unreadable

mutual

/-- A value at the front of a text, blanks before it included. `fuel` bounds the characters that
are left, `depth` the containers that may still be opened. -/
def value? (fuel depth : Nat) (s : List Char) : Option (Json × List Char) :=
  match fuel with
  | 0 => none
  | fuel + 1 =>
      match skipSpace s with
      | 'n' :: rest => (word? "ull".toList rest).map fun rest => (.null, rest)
      | 't' :: rest => (word? "rue".toList rest).map fun rest => (.bool true, rest)
      | 'f' :: rest => (word? "alse".toList rest).map fun rest => (.bool false, rest)
      | '"' :: rest =>
          (literal? fuel rest).map fun (text, rest) =>
            (match text with
              | some text => .string text
              | none => .unreadable, rest)
      | '[' :: rest =>
          match skipSpace rest with
          | ']' :: rest => some (contained depth (.array []), rest)
          | rest =>
              (items? fuel (depth - 1) [] rest).map fun (items, rest) =>
                (contained depth (.array items), rest)
      | '\x7b' :: rest =>
          match skipSpace rest with
          | '\x7d' :: rest => some (contained depth (.object []), rest)
          | rest =>
              (fields? fuel (depth - 1) [] rest).map fun (fields, rest) =>
                (contained depth (ofFields fields), rest)
      | '-' :: rest => number? true rest
      | rest => number? false rest

/-- The items of an array up to its bracket, of which there has to be one. -/
def items? (fuel depth : Nat) (read : List Json) (s : List Char) :
    Option (List Json × List Char) :=
  match fuel with
  | 0 => none
  | fuel + 1 =>
      match value? fuel depth s with
      | none => none
      | some (item, rest) =>
          match skipSpace rest with
          | ',' :: rest => items? fuel depth (item :: read) rest
          | ']' :: rest => some ((item :: read).reverse, rest)
          | _ => none

/-- The fields of an object up to its brace, of which there has to be one. -/
def fields? (fuel depth : Nat) (read : List (Option String × Json)) (s : List Char) :
    Option (List (Option String × Json) × List Char) :=
  match fuel with
  | 0 => none
  | fuel + 1 =>
      match skipSpace s with
      | '"' :: rest =>
          match literal? fuel rest with
          | none => none
          | some (name, rest) =>
              match skipSpace rest with
              | ':' :: rest =>
                  match value? fuel depth rest with
                  | none => none
                  | some (value, rest) =>
                      match skipSpace rest with
                      | ',' :: rest => fields? fuel depth ((name, value) :: read) rest
                      | '\x7d' :: rest => some (((name, value) :: read).reverse, rest)
                      | _ => none
              | _ => none
      | _ => none

end

end Reader

/-- The value of a text, parts without a value and repeated fields included. -/
def parseLoosely (text : String) : Option Json :=
  let s := text.toList
  match Reader.value? (2 * s.length + 2) Reader.maximalDepth s with
  | some (value, rest) => if (Reader.skipSpace rest).isEmpty then some value else none
  | none => none

/-- The value of a text in which every part has a value; of fields with one name the last
counts. -/
def parse (text : String) : Option Json :=
  match parseLoosely text with
  | some value => if value.isReadable then some value.distinct else none
  | none => none

end ContractFuzz.Json
