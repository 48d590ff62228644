import HomeMonitor.Arduino.Chars

/-! The web server library: how a request is read from the packets of a connection, and
which handler is called for it. -/
namespace HomeMonitor.Http
open HomeMonitor.Arduino

/-- A `WebRequestMethodComposite`: one bit for each method. -/
abbrev Methods := BitVec 8

def HTTP_GET : Methods := 0b00000001
def HTTP_POST : Methods := 0b00000010
def HTTP_DELETE : Methods := 0b00000100
def HTTP_PUT : Methods := 0b00001000
def HTTP_PATCH : Methods := 0b00010000
def HTTP_HEAD : Methods := 0b00100000
def HTTP_OPTIONS : Methods := 0b01000000
def HTTP_ANY : Methods := 0b01111111

inductive ParseState
  | START
  | HEADERS
  | BODY
  | END
  | FAIL
  deriving DecidableEq, Repr

inductive MultiParseState
  | EXPECT_BOUNDARY
  | PARSE_HEADERS
  | WAIT_FOR_RETURN1
  | EXPECT_FEED1
  | EXPECT_DASH1
  | EXPECT_DASH2
  | BOUNDARY_OR_DATA
  | DASH3_OR_RETURN2
  | EXPECT_FEED2
  | PARSING_FINISHED
  | PARSE_ERROR
  deriving DecidableEq, Repr

/-- What `server.on` registers. -/
structure Handler (ρ : Type*) where
  uri : Str
  method : Methods
  onRequest : ρ

/-- The request of a connection. Its handler is `some none` where the catch-all handler is
attached, which has no `onRequest`. -/
structure Request (ρ : Type*) where
  temp : Str
  parseState : ParseState
  version : ℕ
  method : Methods
  url : Str
  isMultipart : Bool
  boundary : Str
  multiParseState : MultiParseState
  boundaryPosition : BitVec 8
  expectingContinue : Bool
  contentLength : BitVec 32
  parsedLength : BitVec 32
  handler : Option (Option ρ)
  deriving DecidableEq, Repr

inductive Effect (ρ : Type*)
  | close
  | sendContinue
  | call (onRequest : ρ)
  | send (code : ℕ)
  deriving DecidableEq, Repr

variable {ρ : Type*}

def Request.init : Request ρ where
  temp := []
  parseState := .START
  version := 0
  method := HTTP_ANY
  url := []
  isMultipart := false
  boundary := []
  multiParseState := .EXPECT_BOUNDARY
  boundaryPosition := 0
  expectingContinue := false
  contentLength := 0
  parsedLength := 0
  handler := none

/-- A percent sign with two letters behind it stands for one letter, whatever they are. -/
def urlDecode : Str → Str
  | [] => []
  | '%' :: a :: b :: text => Char.ofNat (strtolHex a b) :: urlDecode text
  | '+' :: text => ' ' :: urlDecode text
  | c :: text => c :: urlDecode text

def Handler.canHandle (h : Handler ρ) (method : Methods) (url : Str) : Bool :=
  if h.method &&& method = 0 then false
  else if h.uri.length ≠ 0 ∧ startsWith h.uri "/*.".toList then
    endsWith url (substring h.uri (lastIndexOf h.uri ".".toList) h.uri.length)
  else if h.uri.length ≠ 0 ∧ endsWith h.uri "*".toList then
    startsWith url (substring h.uri 0 (h.uri.length - 1 : ℕ))
  else h.uri.length = 0 ∨ equalsString h.uri url ∨ startsWith url (h.uri ++ "/".toList)

/-- `_attachHandler`: the first handler that can handle the request. -/
def attachHandler (handlers : List (Handler ρ)) (method : Methods) (url : Str) : Option ρ :=
  (handlers.find? fun h => h.canHandle method url).map Handler.onRequest

namespace Request

def handleRequest (r : Request ρ) : Effect ρ :=
  match r.handler with
  | some (some onRequest) => .call onRequest
  | some none => .send 500
  | none => .send 501

/-- The method stays any method unless it is one that the library knows. -/
def methodOf (r : Request ρ) (m : Str) : Methods :=
  if equalsLiteral m "GET".toList then HTTP_GET
  else if equalsLiteral m "POST".toList then HTTP_POST
  else if equalsLiteral m "DELETE".toList then HTTP_DELETE
  else if equalsLiteral m "PUT".toList then HTTP_PUT
  else if equalsLiteral m "PATCH".toList then HTTP_PATCH
  else if equalsLiteral m "HEAD".toList then HTTP_HEAD
  else if equalsLiteral m "OPTIONS".toList then HTTP_OPTIONS
  else r.method

def parseReqHead (r : Request ρ) : Request ρ :=
  let index := indexOfChar r.temp ' ' 0
  let m := substring r.temp 0 index
  let index := indexOfChar r.temp ' ' (index + 1).toNat
  let u := substring r.temp (m.length + 1 : ℕ) index
  let temp := substring r.temp (index + 1) r.temp.length
  let index := indexOfChar u '?' 0
  let u := if 0 < index then substring u 0 index else u
  { r with
    method := r.methodOf m
    url := urlDecode u
    version := if startsWith temp "HTTP/1.0".toList then r.version else 1
    temp := [] }

def parseReqHeader (r : Request ρ) : Request ρ :=
  let index := indexOfChar r.temp ':' 0
  if index ≠ 0 then
    let name := substring r.temp 0 index
    let value := substring r.temp (index + 2) r.temp.length
    if equalsIgnoreCase name "Host".toList then { r with temp := [] }
    else if equalsIgnoreCase name "Content-Type".toList then
      if startsWith value "multipart/".toList then
        let boundary := substring value (indexOfChar value '=' 0 + 1) value.length
        { r with boundary := boundary.filter (· ≠ '"'), isMultipart := true, temp := [] }
      else { r with temp := [] }
    else if equalsIgnoreCase name "Content-Length".toList then
      { r with contentLength := BitVec.ofInt 32 (atoi (cstr value)), temp := [] }
    else if equalsIgnoreCase name "Expect".toList ∧ equalsLiteral value "100-continue".toList then
      { r with expectingContinue := true, temp := [] }
    else { r with temp := [] }
  else { r with temp := [] }

def endHeaders (handlers : List (Handler ρ)) (r : Request ρ) : Request ρ × List (Effect ρ) :=
  let r := { r with handler := some (attachHandler handlers r.method r.url) }
  let effects := if r.expectingContinue then [.sendContinue] else []
  if r.contentLength ≠ 0 then ({ r with parseState := .BODY }, effects)
  else ({ r with parseState := .END }, effects ++ [r.handleRequest])

def parseLine (handlers : List (Handler ρ)) (r : Request ρ) : Request ρ × List (Effect ρ) :=
  match r.parseState with
  | .START =>
    if r.temp.length = 0 then ({ r with parseState := .FAIL }, [.close])
    else ({ r.parseReqHead with parseState := .HEADERS }, [])
  | .HEADERS =>
    if r.temp.length = 0 then r.endHeaders handlers else (r.parseReqHeader, [])
  | _ => (r, [])

/-- A byte of a part, or one that turned out not to belong to a delimiter. -/
def waitForReturn (r : Request ρ) (data : Char) : Request ρ :=
  if data ≠ CR then { r with multiParseState := .WAIT_FOR_RETURN1 }
  else { r with multiParseState := .EXPECT_FEED1 }

/-- `_parseMultipartPostByte`, but for the parts that it collects. At the end of the last
delimiter it moves the end of the body. -/
def parseMultipartPostByte (r : Request ρ) (data : Char) : Request ρ :=
  let r :=
    if r.parsedLength = 0 then { r with multiParseState := .EXPECT_BOUNDARY, temp := [] } else r
  match r.multiParseState with
  | .WAIT_FOR_RETURN1 => r.waitForReturn data
  | .EXPECT_BOUNDARY =>
    if r.parsedLength < 2 ∧ data ≠ '-' then { r with multiParseState := .PARSE_ERROR }
    else if (r.parsedLength - 2).toNat < r.boundary.length ∧
        r.boundary[(r.parsedLength - 2).toNat]? ≠ some data then
      { r with multiParseState := .PARSE_ERROR }
    else if (r.parsedLength - 2).toNat = r.boundary.length ∧ data ≠ CR then
      { r with multiParseState := .PARSE_ERROR }
    else if (r.parsedLength - 3).toNat = r.boundary.length then
      if data ≠ '\n' then { r with multiParseState := .PARSE_ERROR }
      else { r with multiParseState := .PARSE_HEADERS }
    else r
  | .PARSE_HEADERS =>
    let r := if data ≠ CR ∧ data ≠ '\n' then { r with temp := r.temp ++ [data] } else r
    if data = '\n' then
      if r.temp.length ≠ 0 then { r with temp := [] }
      else { r with multiParseState := .WAIT_FOR_RETURN1 }
    else r
  | .EXPECT_FEED1 =>
    if data ≠ '\n' then r.waitForReturn data else { r with multiParseState := .EXPECT_DASH1 }
  | .EXPECT_DASH1 =>
    if data ≠ '-' then r.waitForReturn data else { r with multiParseState := .EXPECT_DASH2 }
  | .EXPECT_DASH2 =>
    if data ≠ '-' then r.waitForReturn data
    else { r with multiParseState := .BOUNDARY_OR_DATA, boundaryPosition := 0 }
  | .BOUNDARY_OR_DATA =>
    if r.boundaryPosition.toNat < r.boundary.length ∧
        r.boundary[r.boundaryPosition.toNat]? ≠ some data then r.waitForReturn data
    else if r.boundaryPosition.toNat + 1 = r.boundary.length then
      { r with multiParseState := .DASH3_OR_RETURN2 }
    else { r with boundaryPosition := r.boundaryPosition + 1 }
  | .DASH3_OR_RETURN2 =>
    let r :=
      if data = '-' ∧ r.contentLength - r.parsedLength - 4 ≠ 0 then
        { r with contentLength := r.parsedLength + 4 }
      else r
    if data = CR then { r with multiParseState := .EXPECT_FEED2 }
    else if data = '-' ∧ r.contentLength = r.parsedLength + 4 then
      { r with multiParseState := .PARSING_FINISHED }
    else r.waitForReturn data
  | .EXPECT_FEED2 =>
    if data = '\n' then { r with multiParseState := .PARSE_HEADERS } else r.waitForReturn data
  | .PARSING_FINISHED | .PARSE_ERROR => r

/-- The bytes of a packet in the body. Those of a multipart body are parsed if a handler waits for
the parts. -/
def takeBody (r : Request ρ) (buf : Str) : Request ρ :=
  if r.isMultipart ∧ (r.handler.bind id).isSome then
    buf.foldl (fun r data =>
      let r := r.parseMultipartPostByte data
      { r with parsedLength := r.parsedLength + 1 }) r
  else { r with parsedLength := r.parsedLength + BitVec.ofNat 32 buf.length }

def onBody (r : Request ρ) (buf : Str) : Request ρ × List (Effect ρ) :=
  let r := r.takeBody buf
  if r.parsedLength = r.contentLength then ({ r with parseState := .END }, [r.handleRequest])
  else (r, [])

/-- The loop of `_onData` over a packet, from the letter to which the search for a new line
has come. The letters before it since the last new line are `str`; they go to `temp` as a C
string, but for the last letter of a packet. -/
def onDataFrom (handlers : List (Handler ρ)) (r : Request ρ) (str : Str) :
    Str → Request ρ × List (Effect ρ)
  | [] => ({ r with temp := r.temp ++ cstr str.dropLast ++ str.getLast?.toList }, [])
  | c :: rest =>
    if c = '\n' then
      let (r, effects) := parseLine handlers { r with temp := trim (r.temp ++ cstr str) }
      if rest = [] then (r, effects)
      else
        let (r, more) :=
          match r.parseState with
          | .START | .HEADERS => onDataFrom handlers r [] rest
          | .BODY => r.onBody rest
          | .END | .FAIL => (r, [])
        (r, effects ++ more)
    else onDataFrom handlers r (str ++ [c]) rest

def onData (handlers : List (Handler ρ)) (r : Request ρ) (buf : Str) :
    Request ρ × List (Effect ρ) :=
  match r.parseState with
  | .START | .HEADERS => onDataFrom handlers r [] buf
  | .BODY => r.onBody buf
  | .END | .FAIL => (r, [])

end Request
end HomeMonitor.Http
