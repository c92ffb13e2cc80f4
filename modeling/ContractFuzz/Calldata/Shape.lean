namespace ContractFuzz.Calldata

inductive Shape where
  /-- One field element. -/
  | felt
  /-- An array: its length, then so many values of the pointee. -/
  | pointer (pointee : Shape)
  /-- The members in their order. -/
  | tuple (members : List Shape)
  /-- A struct, named by the last part of its scope. -/
  | struct (name : String)
  deriving Inhabited, Repr

namespace Shape

def isFelt : Shape → Bool
  | .felt => true
  | _ => false

def isPointer : Shape → Bool
  | .pointer _ => true
  | _ => false

mutual

/-- The text of a shape, which can be read again. -/
def text : Shape → List Char
  | .felt => "felt".toList
  | .pointer pointee => pointee.text ++ ['*']
  | .tuple [] => ['(', ')']
  | .tuple (first :: rest) => '(' :: (first.text ++ textRest rest ++ [')'])
  | .struct name => name.toList

/-- The members after the first, each with the separator before it. -/
def textRest : List Shape → List Char
  | [] => []
  | member :: rest => ',' :: ' ' :: (member.text ++ textRest rest)

end

def render (shape : Shape) : String := String.ofList shape.text

end Shape

end ContractFuzz.Calldata
