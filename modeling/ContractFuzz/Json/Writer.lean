import ContractFuzz.Json.Basic
import ContractFuzz.Text.Numeral

namespace ContractFuzz.Json

/-- How a text is laid out. -/
structure Style where
  /-- Write every character beyond ASCII as an escape. -/
  asciiOnly : Bool
  /-- Put every item on a line of its own, indented by two blanks for each container. -/
  indented : Bool

/-- One line, all characters ASCII. -/
def Style.line : Style := ⟨true, false⟩

/-- One item a line, characters as they are. -/
def Style.page : Style := ⟨false, true⟩

namespace Writer

/-- A unit of UTF-16 as an escape. -/
def escapeUnit (n : Nat) : List Char :=
  let digits := Text.hexDigits n
  '\\' :: 'u' :: (List.replicate (4 - digits.length) '0' ++ digits)

/-- A character as one escape, or as two when it needs a surrogate pair. -/
def escapeChar (c : Char) : List Char :=
  if c.toNat < 0x10000 then escapeUnit c.toNat
  else
    let offset := c.toNat - 0x10000
    escapeUnit (0xD800 + offset / 0x400) ++ escapeUnit (0xDC00 + offset % 0x400)

def charText (style : Style) (c : Char) : List Char :=
  if c == '"' then ['\\', '"']
  else if c == '\\' then ['\\', '\\']
  else if c == '\n' then ['\\', 'n']
  else if c == '\r' then ['\\', 'r']
  else if c == '\t' then ['\\', 't']
  else if c == '\x08' then ['\\', 'b']
  else if c == '\x0C' then ['\\', 'f']
  else if c.toNat < 0x20 then escapeUnit c.toNat
  else if style.asciiOnly && 0x7F ≤ c.toNat then escapeChar c
  else [c]

def pushAll (out : String) (cs : List Char) : String := cs.foldl String.push out

def writeString (style : Style) (out : String) (s : String) : String :=
  (s.foldl (fun out c => pushAll out (charText style c)) (out.push '"')).push '"'

def decimalText (d : Decimal) : String :=
  let sign := if d.negative then "-" else ""
  s!"{sign}{d.digits}e{d.exponent}"

def newline (style : Style) (level : Nat) (out : String) : String :=
  if style.indented then pushAll (out.push '\n') (List.replicate (2 * level) ' ') else out

def colon (style : Style) : String := if style.indented then ": " else ":"

mutual

def write (style : Style) (level : Nat) (out : String) : Json → String
  | .null => out ++ "null"
  | .bool true => out ++ "true"
  | .bool false => out ++ "false"
  | .int n => out ++ toString n
  | .decimal d => out ++ decimalText d
  | .string s => writeString style out s
  | .array [] => out ++ "[]"
  | .array (item :: rest) =>
      let out := write style (level + 1) (newline style (level + 1) (out.push '[')) item
      (newline style level (writeItems style (level + 1) out rest)).push ']'
  | .object [] => (out.push '\x7b').push '\x7d'
  | .object ((name, value) :: rest) =>
      let out := writeString style (newline style (level + 1) (out.push '\x7b')) name
      let out := write style (level + 1) (out ++ colon style) value
      (newline style level (writeFields style (level + 1) out rest)).push '\x7d'
  | .unreadable => out ++ "null"

def writeItems (style : Style) (level : Nat) (out : String) : List Json → String
  | [] => out
  | item :: rest =>
      writeItems style level (write style level (newline style level (out.push ',')) item) rest

def writeFields (style : Style) (level : Nat) (out : String) : List (String × Json) → String
  | [] => out
  | (name, value) :: rest =>
      let out := writeString style (newline style level (out.push ',')) name
      writeFields style level (write style level (out ++ colon style) value) rest

end

end Writer

def render (style : Style) (value : Json) : String := Writer.write style 0 "" value

end ContractFuzz.Json
