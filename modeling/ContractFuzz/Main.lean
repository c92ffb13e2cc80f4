import ContractFuzz.CommandLine.Run
import ContractFuzz.Rpc.Http
import Std.Async.DNS
import Std.Async.TCP
import Std.Time

namespace ContractFuzz.Main

open Std.Async
open Std.Net

/-- The failure of an action on a file. -/
def systemError : IO.Error → SystemError
  | .noFileOrDirectory .. => .notFound
  | .permissionDenied .. => .permissionDenied
  | .inappropriateType _ 21 _ => .isDirectory
  | .inappropriateType .. => .notDirectory
  | .invalidArgument _ _ "name too long" => .nameTooLong
  | e => .other (toString e)

/-- The outcome of an action that may fail. -/
def attempt {α : Type} (action : IO α) : IO (Except IO.Error α) := do
  try
    return .ok (← action)
  catch e =>
    return .error e

/-- The outcome of an action on a file. -/
def attemptFile {α : Type} (action : IO α) : IO (Except SystemError α) := do
  return (← attempt action).mapError systemError

/-- The network addresses of a host. -/
def resolve (host : String) : Async (List IPAddr) := do
  match IPv4Addr.ofString host with
  | some address => return [.v4 address]
  | none => return (← DNS.getAddrInfo host "" none).toList

def socketAddress (address : IPAddr) (number : UInt16) : SocketAddress :=
  match address with
  | .v4 address => .v4 ⟨address, number⟩
  | .v6 address => .v6 ⟨address, number⟩

/-- Everything that arrives until the other side closes the connection. -/
partial def receive (socket : TCP.Socket.Client) (received : ByteArray) : Async ByteArray := do
  match ← socket.recv? 65536 with
  | some more => receive socket (received ++ more)
  | none => return received

/-- Send a message to an address, and receive the answer. -/
def exchange (address : Rpc.Http.Address) (message : ByteArray) : Async ByteArray := do
  match ← resolve address.host with
  | [] => throw (IO.userError "the host has no address")
  | target :: _ =>
      let socket ← TCP.Socket.Client.mk
      socket.connect (socketAddress target address.socket.toUInt16)
      socket.send message
      receive socket .empty

def post (endpoint : String) (body : Json) : IO (Except String ByteArray) := do
  match Rpc.Http.Address.parse endpoint with
  | none => return .error "the endpoint is no address of a service"
  | some address =>
      let message := Rpc.Http.request address (body.render .line)
      match ← attempt (Async.block (exchange address message)) with
      | .error failure => return .error (toString failure)
      | .ok answer =>
          match Rpc.Http.content? answer with
          | some content => return .ok content
          | none => return .error "the answer is incomplete"

def host : CommandLine.Host IO where
  content path := attemptFile (IO.FS.readBinFile path)
  runProgram _ _ := return .error (.other "no program can be started")

def machine : CommandLine.Machine IO where
  host := host
  post := post
  save path content := attemptFile (IO.FS.writeFile path content)
  print s := do
    let output ← IO.getStdout
    output.putStr s
    output.flush
  complain s := IO.eprint s
  record r := IO.eprintln r.line
  milliseconds := do
    let now ← Std.Time.Timestamp.now
    return now.toMillisecondsSinceUnixEpoch.val.toNat

end ContractFuzz.Main

def main (words : List String) : IO UInt32 := do
  let endpoint ← IO.getEnv ContractFuzz.CommandLine.endpointVariable
  let status ← ContractFuzz.Main.machine.run endpoint words
  return status.code.toUInt32
