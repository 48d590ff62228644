import HomeMonitor.Arduino.Chars
import HomeMonitor.Template.Engine

/-! The web server library: responses, and how they are written to a client that takes only
so many bytes before it acknowledges some. -/
namespace HomeMonitor.Http
open HomeMonitor.Arduino HomeMonitor.Template

inductive ResponseState
  | SETUP
  | HEADERS
  | CONTENT
  | WAIT_ACK
  | END
  | FAILED
  deriving DecidableEq, Repr

structure WebServerResponse where
  code : ℕ
  headers : List (Str × Str)
  contentType : Str
  contentLength : ℕ
  sendContentLength : Bool
  chunked : Bool
  sentLength : ℕ
  ackedLength : ℕ
  writtenLength : ℕ
  state : ResponseState
  deriving DecidableEq, Repr

def CRLF : Str := ['\r', '\n']

/-- `AsyncClient::write`: the bytes for which the client has room. -/
def write (space : ℕ) (data : Str) : Str := data.take space

def responseCodes : List (ℕ × String) :=
  [(100, "Continue"), (101, "Switching Protocols"), (200, "OK"), (201, "Created"),
    (202, "Accepted"), (203, "Non-Authoritative Information"), (204, "No Content"),
    (205, "Reset Content"), (206, "Partial Content"), (300, "Multiple Choices"),
    (301, "Moved Permanently"), (302, "Found"), (303, "See Other"), (304, "Not Modified"),
    (305, "Use Proxy"), (307, "Temporary Redirect"), (400, "Bad Request"), (401, "Unauthorized"),
    (402, "Payment Required"), (403, "Forbidden"), (404, "Not Found"),
    (405, "Method Not Allowed"), (406, "Not Acceptable"), (407, "Proxy Authentication Required"),
    (408, "Request Time-out"), (409, "Conflict"), (410, "Gone"), (411, "Length Required"),
    (412, "Precondition Failed"), (413, "Request Entity Too Large"),
    (414, "Request-URI Too Large"), (415, "Unsupported Media Type"),
    (416, "Requested range not satisfiable"), (417, "Expectation Failed"),
    (500, "Internal Server Error"), (501, "Not Implemented"), (502, "Bad Gateway"),
    (503, "Service Unavailable"), (504, "Gateway Time-out"), (505, "HTTP Version not supported")]

def responseCodeToString (code : ℕ) : Str := ((responseCodes.lookup code).getD "").toList

/-- `snprintf` of a line to `buf`, which is given out as a C string. -/
def snprintf (line : Str) : Str := (line ++ CRLF).take (300 - 1)

namespace WebServerResponse

variable (r : WebServerResponse) (version : ℕ)

def addHeader (name value : String) : WebServerResponse :=
  { r with headers := r.headers ++ [(name.toList, value.toList)] }

def statusLine : Str :=
  "HTTP/1.".toList ++ Nat.toDigits 10 version ++ ' ' :: Nat.toDigits 10 r.code ++
    ' ' :: responseCodeToString r.code

def addedHeaders : List (Str × Str) :=
  if version ≠ 0 then
    ("Accept-Ranges".toList, "none".toList) ::
      if r.chunked then [("Transfer-Encoding".toList, "chunked".toList)] else []
  else []

def headLines : List Str :=
  r.statusLine version ::
    ((if r.sendContentLength then ["Content-Length: ".toList ++ Nat.toDigits 10 r.contentLength]
      else []) ++
    (if r.contentType.length ≠ 0 then ["Content-Type: ".toList ++ cstr r.contentType] else []) ++
    (r.headers ++ r.addedHeaders version).map fun header =>
      cstr header.1 ++ ": ".toList ++ cstr header.2)

def assembleHead : Str := (r.headLines version).flatMap snprintf ++ CRLF

/-- `_finished`: such a response gets no more acknowledgements. -/
def finished : Bool := r.state = .END ∨ r.state = .FAILED

theorem finished_iff : r.finished = true ↔ r.state = .END ∨ r.state = .FAILED := by
  unfold finished
  rw [decide_eq_true_eq]

end WebServerResponse

structure BasicResponse extends WebServerResponse where
  content : Str
  deriving DecidableEq, Repr

namespace BasicResponse

def new (code : ℕ) (contentType content : Str) : BasicResponse where
  code := code
  headers := [("Connection".toList, "close".toList)]
  contentType :=
    if content.length ≠ 0 ∧ contentType.length = 0 then "text/plain".toList else contentType
  contentLength := content.length
  sendContentLength := true
  chunked := false
  sentLength := 0
  ackedLength := 0
  writtenLength := 0
  state := .SETUP
  content := content

variable (r : BasicResponse)

/-- What is written, and the response after it. -/
def written (space : ℕ) (out : Str) : Str × BasicResponse :=
  (write space out, { r with writtenLength := r.writtenLength + (write space out).length })

def respond (version space : ℕ) : Str × BasicResponse :=
  let out := r.assembleHead version
  let outLen := out.length
  if r.contentLength = 0 ∧ outLen ≤ space then
    { r with state := .WAIT_ACK }.written space out
  else if r.contentLength ≠ 0 ∧ outLen + r.contentLength ≤ space then
    { r with state := .WAIT_ACK }.written space
      ((out ++ r.content).take (outLen + r.contentLength))
  else if space ≠ 0 ∧ space < outLen then
    { r with
      content := out.drop space ++ r.content
      contentLength := r.contentLength + (outLen - space)
      state := .CONTENT }.written space (out.take space)
  else if outLen < space ∧ space < outLen + r.contentLength then
    let shift := space - outLen
    { r with
      sentLength := r.sentLength + shift
      content := r.content.drop shift
      state := .CONTENT }.written space ((out ++ r.content.take shift).take (outLen + shift))
  else
    ([], { r with
      content := out ++ r.content
      contentLength := r.contentLength + outLen
      state := .CONTENT })

def ack (len space : ℕ) : Str × BasicResponse :=
  let r := { r with ackedLength := r.ackedLength + len }
  match r.state with
  | .CONTENT =>
    let available := r.contentLength - r.sentLength
    if available < space then
      { r with content := [], state := .WAIT_ACK }.written space (r.content.take available)
    else
      { r with
        content := r.content.drop space
        sentLength := r.sentLength + space }.written space (r.content.take space)
  | .WAIT_ACK =>
    ([], if r.writtenLength ≤ r.ackedLength then { r with state := .END } else r)
  | _ => ([], r)

end BasicResponse

structure AbstractResponse extends WebServerResponse where
  head : Str
  deriving DecidableEq, Repr

/-- What a call comes to: it returns, or it fills a buffer of some length from the source
and returns what depends on the bytes. -/
inductive Call (α : Type*)
  | ret (a : α)
  | fill (len : ℕ) (k : Str → α)

/-- The buffer for a chunk, with the head in front. -/
def frame (head : Str) (outLen : ℕ) (data : Str) : Str :=
  let buf := memcpy (List.replicate (outLen + head.length) NUL) 0 head
  let buf := memcpy buf (head.length + 6) data
  let size := List.rightpad 4 ' ' (Nat.toDigits 16 data.length) ++ CRLF
  let buf := memcpy buf head.length size
  let stop := head.length + size.length + data.length
  (memcpy buf stop CRLF).take (stop + 2)

namespace AbstractResponse

/-- The constructor of `AsyncProgmemResponse`, with a template callback or without. -/
def progmem (code : ℕ) (contentType : Str) (len : ℕ) (callback : Bool) : AbstractResponse where
  code := code
  headers := []
  contentType := contentType
  contentLength := len
  sendContentLength := !callback
  chunked := callback
  sentLength := 0
  ackedLength := 0
  writtenLength := 0
  state := .SETUP
  head := []

variable (r : AbstractResponse)

/-- The part of `_ack` that sends content: `space` is what the client has room for behind a
head that is sent now. -/
def sendContent (room space : ℕ) : Call (Str × AbstractResponse) :=
  if r.chunked ∧ space ≤ 8 then .ret ([], r)
  else
    let outLen :=
      if r.chunked ∨ !r.sendContentLength then space
      else min (r.contentLength - r.sentLength) space
    .fill (if r.chunked then outLen - 8 else outLen) fun data =>
      let buf := if r.chunked then frame r.head outLen data else r.head ++ data
      let out := write room buf
      let sentLength :=
        r.sentLength + (if r.chunked then data.length else buf.length - r.head.length)
      let last := (r.chunked ∧ data.length = 0) ∨ (!r.sendContentLength ∧ buf.length = 0) ∨
        (!r.chunked ∧ sentLength = r.contentLength)
      (out,
        { r with
          head := []
          writtenLength := r.writtenLength + out.length
          sentLength := sentLength
          state := if last then .WAIT_ACK else r.state })

def ack (len space : ℕ) : Call (Str × AbstractResponse) :=
  let r := { r with ackedLength := r.ackedLength + len }
  match r.state with
  | .HEADERS =>
    if r.head.length ≤ space then
      sendContent { r with state := .CONTENT } space (space - r.head.length)
    else
      let out := write space (r.head.take space)
      .ret (out,
        { r with head := r.head.drop space, writtenLength := r.writtenLength + out.length })
  | .CONTENT => sendContent r space space
  | .WAIT_ACK =>
    .ret ([],
      if !r.sendContentLength ∨ r.writtenLength ≤ r.ackedLength then { r with state := .END }
      else r)
  | _ => .ret ([], r)

theorem ack_headers {r : AbstractResponse} (h : r.state = .HEADERS) (len space : ℕ) :
    r.ack len space =
      if r.head.length ≤ space then
        sendContent { r with ackedLength := r.ackedLength + len, state := .CONTENT } space
          (space - r.head.length)
      else
        .ret (write space (r.head.take space),
          { r with
            ackedLength := r.ackedLength + len
            head := r.head.drop space
            writtenLength := r.writtenLength + (write space (r.head.take space)).length }) := by
  unfold ack
  simp only [h]

theorem ack_content {r : AbstractResponse} (h : r.state = .CONTENT) (len space : ℕ) :
    r.ack len space =
      sendContent { r with ackedLength := r.ackedLength + len } space space := by
  unfold ack
  simp only [h]

theorem ack_wait {r : AbstractResponse} (h : r.state = .WAIT_ACK) (len space : ℕ) :
    r.ack len space =
      .ret ([],
        if !r.sendContentLength ∨ r.writtenLength ≤ r.ackedLength + len then
          { r with ackedLength := r.ackedLength + len, state := .END }
        else { r with ackedLength := r.ackedLength + len }) := by
  unfold ack
  simp only [h]

/-- `_respond` up to its call of `_ack`. -/
def prepare (version : ℕ) : AbstractResponse :=
  let added := r.addHeader "Connection" "close"
  { added with head := added.assembleHead version, state := .HEADERS }

end AbstractResponse

/-- `AsyncProgmemResponse::_fillBuffer`, where `content` stands at the pointer when it is
called: the bytes, and how many are read after it. -/
def fillBuffer (contentLength : ℕ) (content : Str) (readLength len : ℕ) : Str × ℕ :=
  let left := contentLength - readLength
  if len < left then ((content.drop readLength).take len, readLength + len)
  else ((content.drop readLength).take left, readLength + left)

end HomeMonitor.Http
