import BookCatalog.Command.Help
import BookCatalog.Command.Run
import BookCatalog.Service.Wire
import Std.Async.DNS
import Std.Async.TCP

/-!
The program. It reads its arguments and its environment, performs what the command asks for, and
ends with 0 if all went well, with 1 if the command failed and with 2 if the command line is wrong.
-/
namespace BookCatalog.Program

open Std.Async Std.Net
open BookCatalog.Service BookCatalog.Command

/-- Everything that comes over a connection until its other end is closed. -/
def receive (socket : TCP.Socket.Client) : Async ByteArray := do
  let mut received := ByteArray.empty
  repeat
    match ← socket.recv? 65536 with
    | some bytes => received := received ++ bytes
    | none => break
  return received

/-- An address with a port. -/
def socketAddress (port : UInt16) : IPAddr → SocketAddress
  | .v4 address => .v4 ⟨address, port⟩
  | .v6 address => .v6 ⟨address, port⟩

/-- A connection to the first of the addresses that can be reached. -/
def connect : List SocketAddress → IO (Option TCP.Socket.Client)
  | [] => return none
  | address :: others => do
    try
      let socket ← TCP.Socket.Client.mk
      (socket.connect address).block
      return some socket
    catch _ => connect others

/-- Sends a request to its destination, once, and gives what comes back. -/
def sendTo (destination : Destination) (request : Request) : IO Outcome := do
  let addresses ← (DNS.getAddrInfo destination.host (toString destination.port)).block
  match ← connect (addresses.toList.map (socketAddress destination.port.toUInt16)) with
  | none => return .unanswered
  | some socket =>
    (socket.send (request.encode destination)).block
    return Outcome.decode (← (receive socket).block).data.toList

/-- Sends a request; whatever goes wrong on the way leaves it without an answer. -/
def send (request : Request) : IO Outcome := do
  match Destination.ofUrl? request.url with
  | none => return .unanswered
  | some destination =>
    try sendTo destination request
    catch _ => return .unanswered

/-- Performs one effect of a command. -/
def perform : (effect : Effect) → IO effect.Answer
  | .send request => send request
  | .load path => do
    try return some (← IO.FS.readFile path)
    catch _ => return none
  | .store path content => do
    try
      IO.FS.writeFile path content
      return true
    catch _ => return false
  | .print line => IO.println line

/-- The variables of the environment. -/
def environment : IO Environment :=
  return ⟨← IO.getEnv "CATALOG_URL", ← IO.getEnv "UI_BIND", ← IO.getEnv "TOP_K"⟩

/-- Carries out a command line and gives the status to end with. -/
def run (arguments : List String) : IO UInt32 := do
  let environment ← environment
  match readArguments environment.catalogUrl arguments with
  | .error problem =>
    if problem.isRequest then
      IO.println problem.message
      return 0
    else
      IO.eprintln problem.message
      return 2
  | .ok arguments =>
    match ← (execute environment arguments).run.perform perform with
    | .ok () => return 0
    | .error failure =>
      IO.eprintln failure.message
      return 1

end BookCatalog.Program

/-- The command line program. -/
def main (arguments : List String) : IO UInt32 := BookCatalog.Program.run arguments
