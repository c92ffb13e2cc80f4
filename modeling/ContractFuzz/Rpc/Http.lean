import ContractFuzz.Text.Blank
import ContractFuzz.Text.Front
import ContractFuzz.Text.Numeral

namespace ContractFuzz.Rpc.Http

/-- Where a service listens. -/
structure Address where
  host : String
  /-- The number of the socket. -/
  socket : Nat
  /-- What the request names, with the query. -/
  resource : String
  deriving DecidableEq, Repr

/-- The socket of a service that names none. -/
def defaultSocket : Nat := 80

/-- The number of a socket after the colon of an authority. -/
def socket? : List Char → Option Nat
  | [] => some defaultSocket
  | _ :: digits => (Text.word? digits).filter fun n => n < 1 <<< 16

/-- Read the address of a service without encryption. -/
def Address.parse (endpoint : String) : Option Address := do
  let rest ← Text.dropFront? "http://" endpoint
  let rest := rest.toList.takeWhile (· != '#')
  let inAuthority (c : Char) : Bool := c != '/' && c != '?'
  let authority := rest.takeWhile inAuthority
  let resource := match rest.dropWhile inAuthority with
    | '/' :: path => '/' :: path
    | query => '/' :: query
  let socket ← socket? (authority.dropWhile (· != ':'))
  let host := authority.takeWhile (· != ':')
  if host.isEmpty then none else return ⟨String.ofList host, socket, String.ofList resource⟩

/-- The message that posts a text to an address. -/
def request (address : Address) (body : String) : ByteArray :=
  let lines := [s!"POST {address.resource} HTTP/1.1", s!"Host: {address.host}:{address.socket}",
    "Content-Type: application/json", s!"Content-Length: {body.utf8ByteSize}",
    "Connection: close", "", body]
  ("\r\n".intercalate lines).toUTF8

/-- The octets up to a line break, and those after it. -/
def line? : List UInt8 → Option (List UInt8 × List UInt8)
  | 13 :: 10 :: rest => some ([], rest)
  | octet :: rest => (line? rest).map fun (line, rest) => (octet :: line, rest)
  | [] => none

/-- The characters of a line, in which every octet is one. -/
def characters (line : List UInt8) : List Char := line.map fun octet => Char.ofNat octet.toNat

/-- A header of an answer: its name in lower case, and its value without blanks around it. -/
def header (line : List Char) : String × String :=
  let name := String.ofList (line.takeWhile (· != ':'))
  let value := String.ofList ((line.dropWhile (· != ':')).drop 1)
  (name.map Char.toLower, Text.trim value)

/-- The headers of an answer up to the empty line that ends them, and the octets after it. `fuel`
bounds the number of lines. -/
def headers? : Nat → List UInt8 → Option (List (String × String) × List UInt8)
  | 0, _ => none
  | fuel + 1, octets => do
      let (line, rest) ← line? octets
      if line.isEmpty then return ([], rest)
      else
        let (others, rest) ← headers? fuel rest
        return (header (characters line) :: others, rest)

/-- A length in hexadecimal, which an extension may follow. -/
def chunkLength? (line : List Char) : Option Nat :=
  Text.numeral? 16 (line.takeWhile fun c => (Text.digitValue? c).any (· < 16))

/-- The content of chunks up to an empty one. `fuel` bounds their number. -/
def chunks? : Nat → List UInt8 → Option (List UInt8)
  | 0, _ => none
  | fuel + 1, octets => do
      let (line, rest) ← line? octets
      let length ← chunkLength? (characters line)
      if length = 0 then return []
      else if rest.length < length then none
      else
        let others ← chunks? fuel (rest.drop (length + 2))
        return rest.take length ++ others

/-- The content of an answer, whatever its status. -/
def content? (answer : ByteArray) : Option ByteArray := do
  let octets := answer.toList
  let (_, rest) ← line? octets
  let (headers, rest) ← headers? octets.length rest
  if headers.lookup "transfer-encoding" == some "chunked" then
    let content ← chunks? octets.length rest
    return ⟨content.toArray⟩
  else
    match headers.lookup "content-length" with
    | none => return ⟨rest.toArray⟩
    | some length => do
        let length ← Text.word? length.toList
        if rest.length < length then none else return ⟨(rest.take length).toArray⟩

end ContractFuzz.Rpc.Http
