import ContractFuzz.Abi.Entry
import ContractFuzz.Calldata.Shape
import ContractFuzz.Text.Blank

/-!
Reading the types of an interface. A type is a base followed by stars; a base is a path or a
parenthesised list of members, each of which may have a name and a colon in front. Blanks may
stand around every token.
-/

namespace ContractFuzz.Calldata

/-- Why a text is no type. -/
inductive TypeFault where
  | endOfInput
  | codeOffset
  | nameExpected
  | unterminatedTuple
  /-- A character that cannot stand at this offset, counted in octets of UTF-8. -/
  | unexpected (c : Char) (offset : Nat)
  /-- An array input without its length in front of it. -/
  | lengthMissing (name : String)
  deriving DecidableEq, Repr

def TypeFault.message : TypeFault → String
  | .endOfInput => "unexpected end of input"
  | .codeOffset => "codeoffset is not a calldata type"
  | .nameExpected => "expected a type name"
  | .unterminatedTuple => "unterminated tuple"
  | .unexpected c offset => s!"unexpected '{c}' at offset {offset}"
  | .lengthMissing name => s!"array argument '{name}' must be preceded by '{name}_len: felt'"

structure TypeError where
  input : String
  fault : TypeFault
  deriving DecidableEq, Repr

def TypeError.message (e : TypeError) : String :=
  s!"cannot parse type '{e.input}': {e.fault.message}"

namespace Parser

/-- The ways to fail before the offset in the whole input is known: an unexpected character comes
with the text that starts with it. -/
inductive Failure where
  | endOfInput
  | codeOffset
  | nameExpected
  | unterminatedTuple
  | unexpected (c : Char) (rest : List Char)

/-- A character of a path. -/
def isPathChar (c : Char) : Bool := c.isAlphanum || c == '_' || c == '.'

/-- The path at the front of a text, which may be empty, and the rest. -/
def path (s : List Char) : List Char × List Char :=
  (s.takeWhile isPathChar, s.dropWhile isPathChar)

/-- The shape that a path names. -/
def ofPath (p : List Char) : Except Failure Shape :=
  if p.isEmpty then .error .nameExpected
  else if p == "felt".toList then .ok .felt
  else if p == "codeoffset".toList then .error .codeOffset
  else .ok (.struct (String.ofList (Abi.lastSegment p)))

/-- Wrap a pointer around the base for each star that follows, and drop the blanks after. -/
def stars (base : Shape) : List Char → Shape × List Char
  | [] => (base, [])
  | c :: rest =>
      if Text.isBlank c then stars base rest
      else if c == '*' then stars (.pointer base) rest
      else (base, c :: rest)

/-- Drop the name and the colon in front of a tuple member. A member that starts with a
parenthesis has neither; any other starts with a path, which is its name only before a colon. -/
def dropName (s : List Char) : Except Failure (List Char) :=
  match Text.skipBlank s with
  | '(' :: rest => .ok ('(' :: rest)
  | start =>
      match path start with
      | ([], _) => .error .nameExpected
      | (_, rest) =>
          match Text.skipBlank rest with
          | ':' :: rest => .ok rest
          | _ => .ok start

mutual

/-- The type at the front of a text, and the rest after its stars and blanks. `fuel` bounds the
characters that are left. -/
def shape (fuel : Nat) (s : List Char) : Except Failure (Shape × List Char) :=
  match fuel with
  | 0 => .error .endOfInput
  | fuel + 1 =>
      match Text.skipBlank s with
      | [] => .error .endOfInput
      | '(' :: rest =>
          match Text.skipBlank rest with
          | ')' :: rest => .ok (stars (.tuple []) rest)
          | rest =>
              match members fuel rest with
              | .ok (found, rest) => .ok (stars (.tuple found) rest)
              | .error failure => .error failure
      | start =>
          match ofPath (path start).1 with
          | .ok base => .ok (stars base (path start).2)
          | .error failure => .error failure

/-- The members of a tuple up to its closing parenthesis, of which there has to be one. -/
def members (fuel : Nat) (s : List Char) : Except Failure (List Shape × List Char) :=
  match fuel with
  | 0 => .error .endOfInput
  | fuel + 1 =>
      match dropName s with
      | .error failure => .error failure
      | .ok start =>
          match shape fuel start with
          | .error failure => .error failure
          | .ok (member, rest) =>
              match rest with
              | [] => .error .unterminatedTuple
              | ',' :: rest =>
                  match members fuel rest with
                  | .ok (others, rest) => .ok (member :: others, rest)
                  | .error failure => .error failure
              | ')' :: rest => .ok ([member], rest)
              | c :: rest => .error (.unexpected c (c :: rest))

end

/-- The number of octets of a text in UTF-8. -/
def octets (s : List Char) : Nat := s.foldr (fun c count => c.utf8Size + count) 0

def Failure.fault (input : List Char) : Failure → TypeFault
  | .endOfInput => .endOfInput
  | .codeOffset => .codeOffset
  | .nameExpected => .nameExpected
  | .unterminatedTuple => .unterminatedTuple
  | .unexpected c rest => .unexpected c (octets input - octets rest)

/-- The type that a whole text spells. -/
def whole (s : List Char) : Except Failure Shape :=
  match shape (2 * s.length + 1) s with
  | .error failure => .error failure
  | .ok (found, []) => .ok found
  | .ok (_, c :: rest) => .error (.unexpected c (c :: rest))

end Parser

/-- Read a type. -/
def Shape.parse (input : String) : Except TypeError Shape :=
  match Parser.whole input.toList with
  | .ok found => .ok found
  | .error failure => .error ⟨input, failure.fault input.toList⟩

end ContractFuzz.Calldata
