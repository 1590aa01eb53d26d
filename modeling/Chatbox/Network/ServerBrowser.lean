import Chatbox.Lib.Fields
import Chatbox.Lib.OrderedMap
import Chatbox.Protocol.FrameCodec

/-!
The directory of servers: `ServerBrowser` keeps the entries and answers one request a
connection, `ServerBrowserClient` makes the requests and reads the answers. Requests
and answers are frames, and their fields are separated by bars.
-/

namespace Chatbox.Network

open Text Protocol

def BROWSER_NAME_MAX_LEN : Nat := 48
def BROWSER_ENTRY_TTL_SECONDS : Int := 180

/-- A reading of the system clock, in nanoseconds since the epoch. -/
abbrev TimePoint := Fin (2 ^ 63)

structure BrowserEntry where
  name : Bytes
  host : Bytes
  port : UInt16 := 0
  hasPassword : Bool := false
  usesTls : Bool := true
  users : Int := 0
  updatedAt : TimePoint := 0
deriving DecidableEq, Repr

abbrev Directory := Std.ExtTreeMap Bytes BrowserEntry

/-- `'|'` -/
def fieldBar : UInt8 := 124

def sanitizeBrowserField (text : Bytes) (maxLen : Nat) : Bytes :=
  (text.filter fun ch => !(isCntrl ch || ch == fieldBar)).take maxLen

def browserEntryKey (host : Bytes) (port : UInt16) (name : Bytes) : Bytes :=
  host ++ fieldBar :: (toDecimal port.toNat ++ fieldBar :: name)

def parseU16Field (text : Bytes) : Option UInt16 :=
  match stoi text with
  | none => none
  | some (value, consumed) =>
      if consumed ≠ text.length ∨ value < 0 ∨ value > 65535 then none
      else some (UInt16.ofNat value.toNat)

def flagField (flag : Bool) : Bytes := if flag then ascii "1" else ascii "0"

/-- `std::max(0, std::stoi(text))`, and 0 where it throws. -/
def countField (text : Bytes) : Int :=
  match stoi text with
  | none => 0
  | some (value, _) => max 0 value

def fields (parts : List Bytes) : Bytes := [fieldBar].intercalate parts

namespace Directory

variable (directory : Directory)

def isLive (now : TimePoint) (entry : BrowserEntry) : Bool :=
  (now.val : Int) - entry.updatedAt.val ≤ BROWSER_ENTRY_TTL_SECONDS * 1000000000

/-- `remove_stale_locked` -/
def removeStale (now : TimePoint) : Directory := directory.filter fun _ entry => isLive now entry

/-- The line of an entry in the answer to LIST. -/
def serverLine (now : TimePoint) (entry : BrowserEntry) : Bytes :=
  fields [ascii "SERVER", entry.name, entry.host, toDecimal entry.port.toNat,
    flagField entry.hasPassword, toDecimalInt entry.users, flagField entry.usesTls,
    toDecimalInt (((now.val : Int) - entry.updatedAt.val).tdiv 1000000000)]

/-- The REGISTER branch. -/
def register (now staleNow : TimePoint) (parts : List Bytes) : List Bytes × Directory :=
  if parts.length < 7 then
    ([ascii "ERROR|REGISTER requires name, host, port, password flag, users, and TLS flag"],
      directory)
  else
    let name := sanitizeBrowserField (parts.getD 1 []) BROWSER_NAME_MAX_LEN
    let host := sanitizeBrowserField (parts.getD 2 []) HOST_MAX_LEN
    let name := if name.isEmpty then ascii "chatbox room" else name
    match (if host.isEmpty then none else parseU16Field (parts.getD 3 [])) with
    | none => ([ascii "ERROR|Invalid host or port"], directory)
    | some port =>
        let entry : BrowserEntry :=
          { name, host, port
            hasPassword := parts.getD 4 [] == ascii "1"
            users := countField (parts.getD 5 [])
            usesTls := parts.getD 6 [] == ascii "1"
            updatedAt := now }
        ([ascii "OK"], (directory.removeStale staleNow).insert (browserEntryKey host port name) entry)

/-- The UNREGISTER branch. -/
def unregister (parts : List Bytes) : List Bytes × Directory :=
  if parts.length < 4 then
    ([ascii "ERROR|UNREGISTER requires host, port, name"], directory)
  else
    match parseU16Field (parts.getD 2 []) with
    | none => ([ascii "ERROR|Invalid port"], directory)
    | some port =>
        let host := sanitizeBrowserField (parts.getD 1 []) HOST_MAX_LEN
        let name := sanitizeBrowserField (parts.getD 3 []) BROWSER_NAME_MAX_LEN
        ([ascii "OK"], directory.erase (browserEntryKey host port name))

/-- The LIST branch. -/
def list (now staleNow : TimePoint) : List Bytes × Directory :=
  let directory := directory.removeStale staleNow
  ((directory.toList.map fun item => serverLine now item.2) ++ [ascii "END"], directory)

/-- The clock is read at most twice: for the answer, and to find what is stale. -/
def processRequest (now staleNow : TimePoint) (request : Bytes) : List Bytes × Directory :=
  let parts := split fieldBar request
  match parts.head? with
  | none => ([ascii "ERROR|Empty request"], directory)
  | some command =>
      if command = ascii "REGISTER" then directory.register now staleNow parts
      else if command = ascii "UNREGISTER" then directory.unregister parts
      else if command = ascii "LIST" then directory.list now staleNow
      else ([ascii "ERROR|Unknown request"], directory)

/-- `Session::read_request`: a line comes in and the frames of the answer go out. -/
def readRequest (now staleNow : TimePoint) (line : Bytes) : Bytes × Directory :=
  let (responses, directory) := match decodeFrame line with
    | .error _ => ([ascii "ERROR|Invalid framing"], directory)
    | .ok request => directory.processRequest now staleNow request
  (responses.flatMap fun response => (encodeFrame response).toOption.getD [], directory)

/-- The states of a directory. -/
inductive Reachable : Directory → Prop where
  | empty : Reachable ∅
  | request {directory : Directory} (now staleNow : TimePoint) (line : Bytes) :
      Reachable directory → Reachable (directory.readRequest now staleNow line).2

end Directory

section Client

/-- The last response there is. -/
def endsResponses (response : Bytes) : Bool :=
  response == ascii "END" || response == ascii "OK" || (ascii "ERROR|").isPrefixOf response

/-- The reading loop of `send_request`, with the number of responses it still takes. -/
def readResponses : Nat → Bytes → Except Bytes (List Bytes)
  | 0, _ => .ok []
  | room + 1, wire =>
      if newline ∈ wire then
        match decodeFrame (wire.takeWhile (· ≠ newline)) with
        | .error _ => .error (ascii "Invalid directory response")
        | .ok response =>
            if endsResponses response then .ok [response]
            else
              (readResponses room ((wire.dropWhile (· ≠ newline)).drop 1)).map (response :: ·)
      else .ok []

def MAX_RESPONSES : Nat := 1000

/-- `send_request`, with nothing lost and no time running out. -/
def sendRequest (directory : Directory) (now staleNow : TimePoint) (request : Bytes) :
    Except Bytes (List Bytes) × Directory :=
  match encodeFrame request with
  | .error _ => (.error (ascii "Invalid directory request"), directory)
  | .ok payload =>
      let (wire, directory) := directory.readRequest now staleNow (payload.takeWhile (· ≠ newline))
      (match readResponses MAX_RESPONSES wire with
        | .error error => .error error
        | .ok [] => .error (ascii "No response from browser server")
        | .ok responses => .ok responses, directory)

def registerRequest (entry : BrowserEntry) : Bytes :=
  fields [ascii "REGISTER", sanitizeBrowserField entry.name BROWSER_NAME_MAX_LEN,
    sanitizeBrowserField entry.host HOST_MAX_LEN, toDecimal entry.port.toNat,
    flagField entry.hasPassword, toDecimalInt (max 0 entry.users), flagField entry.usesTls]

def unregisterRequest (entry : BrowserEntry) : Bytes :=
  fields [ascii "UNREGISTER", sanitizeBrowserField entry.host HOST_MAX_LEN,
    toDecimal entry.port.toNat, sanitizeBrowserField entry.name BROWSER_NAME_MAX_LEN]

def registerServer (directory : Directory) (now staleNow : TimePoint) (entry : BrowserEntry) :
    Except Bytes Unit × Directory :=
  let (response, directory) := sendRequest directory now staleNow (registerRequest entry)
  (match response with
    | .error error => .error error
    | .ok [] => .error (ascii "No browser response")
    | .ok (first :: _) => if first = ascii "OK" then .ok () else .error first, directory)

def unregisterServer (directory : Directory) (now staleNow : TimePoint) (entry : BrowserEntry) :
    Bool × Directory :=
  let (response, directory) := sendRequest directory now staleNow (unregisterRequest entry)
  (response.toOption.isSome, directory)

/-- The entry a line of the answer describes, nothing where the line is passed over. -/
def parseServerLine (now : TimePoint) (line : Bytes) : Option BrowserEntry :=
  let parts := split fieldBar line
  if parts.length < 8 ∨ parts.getD 0 [] ≠ ascii "SERVER" then none
  else
    (parseU16Field (parts.getD 3 [])).map fun port =>
      { name := parts.getD 1 []
        host := parts.getD 2 []
        port
        hasPassword := parts.getD 4 [] == ascii "1"
        users := countField (parts.getD 5 [])
        usesTls := parts.getD 6 [] == ascii "1"
        updatedAt := Fin.ofNat _ ((now.val : Int) - countField (parts.getD 7 []) * 1000000000).toNat }

/-- The loop of `list_servers` over the response. -/
def readServers (now : TimePoint) : List Bytes → Except Bytes (List BrowserEntry)
  | [] => .error (ascii "Browser response did not include END")
  | line :: rest =>
      if line = ascii "END" then .ok []
      else
        match parseServerLine now line with
        | none => readServers now rest
        | some entry => (readServers now rest).map (entry :: ·)

/-- The result is what `list_servers` leaves in `entries` when it returns `true`. -/
def listServers (directory : Directory) (now staleNow clientNow : TimePoint) :
    Except Bytes (List BrowserEntry) :=
  match (sendRequest directory now staleNow (ascii "LIST")).1 with
  | .error error => .error error
  | .ok response => readServers clientNow response

end Client

end Chatbox.Network
