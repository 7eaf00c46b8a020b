import BookCatalog.Service.Exchange
import BookCatalog.Text.Basic

/-!
Requests and answers as bytes, for a connection that carries one of each. A request asks for the
connection to be closed behind the answer, so an answer that states neither its length nor that it
comes in chunks ends where the connection does. An answer that is cut short is none at all.
-/
namespace BookCatalog.Service

/-- Where a request goes: a machine, a port there, and what is asked for. -/
structure Destination where
  /-- The machine and its port as the URL has them. -/
  authority : String
  host : String
  port : Nat
  resource : String
  deriving DecidableEq

namespace Destination

/-- The port behind a colon; without one it is 80. -/
def readPort? : List Char → Option Nat
  | [] | [':'] => some 80
  | ':' :: digits => (Text.natural? 10 digits).filter (· < 65536)
  | _ => none

/-- The host, which may stand in brackets, and what comes behind it. -/
def splitHost? : List Char → Option (List Char × List Char)
  | '[' :: chars => Text.splitChars ']' chars
  | chars => some (chars.span (· != ':'))

/-- How a URL begins that can be reached. -/
def scheme : String := "http://"

/-- Whether a URL can be reached. -/
def hasScheme (url : String) : Bool := scheme.toList.isPrefixOf url.toList

/-- The destination of a URL. Encrypted connections are not supported. -/
def ofUrl? (url : String) : Option Destination := do
  let chars ← if hasScheme url then some (url.toList.drop scheme.length) else none
  let (authority, path) := chars.span fun c => c != '/' && c != '?' && c != '#'
  let (host, port) ← splitHost? authority
  let path := path.takeWhile (· != '#')
  let path := if path.head? == some '/' then path else '/' :: path
  if host.isEmpty then none
  else some ⟨.ofList authority, .ofList host, ← readPort? port, .ofList path⟩

end Destination

/-- The end of a line. -/
def lineBreak : String := "\r\n"

/-- A request as it is sent to its destination. -/
def Request.encode (request : Request) (destination : Destination) : ByteArray :=
  let body := (request.body.map Json.compact).getD ""
  let lines :=
    [request.method.name ++ " " ++ destination.resource ++ " HTTP/1.1",
      "Host: " ++ destination.authority, "Accept: */*", "Connection: close"] ++
      (if request.body.isSome then ["Content-Type: application/json"] else []) ++
      ["Content-Length: " ++ toString body.utf8ByteSize, "", body]
  (lineBreak.intercalate lines).toUTF8

/-- The characters that single bytes stand for. -/
def charsOf (bytes : List UInt8) : List Char := bytes.map fun byte => Char.ofNat byte.toNat

/-- The bytes in front of the first line end, and those behind it. -/
def splitLine? : List UInt8 → Option (List UInt8 × List UInt8)
  | 13 :: 10 :: rest => some ([], rest)
  | byte :: rest => (splitLine? rest).map fun (line, rest) => (byte :: line, rest)
  | [] => none

/-- What stands behind a line is shorter than the whole. -/
theorem length_of_splitLine? {bytes line rest : List UInt8}
    (split : splitLine? bytes = some (line, rest)) : rest.length < bytes.length := by
  fun_induction splitLine? bytes generalizing line with
  | case1 tail =>
    simp only [Option.some.injEq, Prod.mk.injEq] at split
    simp only [← split.2, List.length_cons]
    omega
  | case2 byte tail _ ih =>
    obtain ⟨⟨before, after⟩, found, same⟩ := Option.map_eq_some_iff.mp split
    simp only [Prod.mk.injEq] at same
    have shorter := ih (same.2 ▸ found)
    simp only [List.length_cons]
    omega
  | case3 => simp at split

/-- The lines up to the first empty one, and what comes behind it. -/
def splitHead? (bytes : List UInt8) : Option (List String × List UInt8) :=
  match split : splitLine? bytes with
  | none => none
  | some ([], rest) => some ([], rest)
  | some (line, rest) =>
    have := length_of_splitLine? split
    (splitHead? rest).map fun (lines, rest) => (.ofList (charsOf line) :: lines, rest)
termination_by bytes.length

/-- The content of a body that comes in chunks, each behind its size; the last one is empty. -/
def joinChunks? (bytes : List UInt8) : Option (List UInt8) :=
  match split : splitLine? bytes with
  | none => none
  | some (line, rest) => do
    let size ← Text.natural? 16 ((charsOf line).takeWhile fun c => (Text.hexValue? c).isSome)
    if size = 0 then some []
    else if rest.length < size + lineBreak.length then none
    else
      have := length_of_splitLine? split
      let more ← joinChunks? (rest.drop (size + lineBreak.length))
      some (rest.take size ++ more)
termination_by bytes.length
decreasing_by simp only [List.length_drop]; omega

/-- The status in the first line of an answer. -/
def statusOf? (line : String) : Option Nat := do
  let (version, rest) ← Text.splitOnce ' ' line
  if version = "HTTP/1.1" ∨ version = "HTTP/1.0" then
    Text.natural? 10 (rest.toList.takeWhile (· != ' '))
  else none

/-- The value of a header, whose name counts in either case. -/
def header? (lines : List String) (name : String) : Option String :=
  lines.findSome? fun line => do
    let (key, value) ← Text.splitOnce ':' line
    if key.toLower = name then some (Text.trim value) else none

/-- The body behind a head. -/
def body? (status : Nat) (lines : List String) (bytes : List UInt8) : Option (List UInt8) :=
  if status = 204 ∨ status = 304 then some []
  else if header? lines "transfer-encoding" = some "chunked" then joinChunks? bytes
  else match header? lines "content-length" with
    | none => some bytes
    | some length => do
      let length ← Text.natural? 10 length.toList
      if bytes.length < length then none else some (bytes.take length)

/-- What the bytes of a connection say, from its start to its end. -/
def Outcome.decode (bytes : List UInt8) : Outcome :=
  let answer := do
    let (lines, rest) ← splitHead? bytes
    let status ← statusOf? (lines.headD "")
    let body ← body? status lines rest
    some (Outcome.answered status ⟨body.toArray⟩)
  answer.getD .unanswered

end BookCatalog.Service
