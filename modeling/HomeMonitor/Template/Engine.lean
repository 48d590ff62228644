import HomeMonitor.Machine.Loop
import HomeMonitor.Arduino.WString

/-! The template engine of the web server library: how the body of a response with a
template callback is produced, one send buffer after another. -/
namespace HomeMonitor.Template
open HomeMonitor.Arduino

def TEMPLATE_PLACEHOLDER : Char := '%'

def TEMPLATE_PARAM_NAME_LENGTH : ℕ := 32

/-- `memcpy` into a buffer: the bytes from `at` on are overwritten. -/
def memcpy (data : Str) (dst : ℕ) (bytes : Str) : Str :=
  data.take dst ++ bytes ++ data.drop (dst + bytes.length)

def memmove (data : Str) (dst src count : ℕ) : Str :=
  memcpy data dst ((data.drop src).take count)

/-- `memchr` for the placeholder, as an index into the whole buffer. -/
def memchr (data : Str) (start count : ℕ) : Option ℕ :=
  ((data.drop start).take count).idxOf? TEMPLATE_PLACEHOLDER |>.map (start + ·)

/-- What a response has not sent: the cache, which comes first, and the unread content. -/
structure Response where
  cache : Str
  content : Str
  deriving DecidableEq, Repr

/-- `_readDataFromCacheOrContent`: the bytes read and the response after it. -/
def Response.readDataFromCacheOrContent (r : Response) (len : ℕ) : Str × Response :=
  let readFromCache := min len r.cache.length
  let needFromFile := len - readFromCache
  (r.cache.take readFromCache ++ r.content.take needFromFile,
    { cache := r.cache.drop readFromCache, content := r.content.drop needFromFile })

/-- The state of the loop in `_fillBufferAndProcessTemplates`: the send buffer, how many
of its bytes are data, the index of `pTemplateStart` and the response. -/
structure Buffer where
  data : Str
  len : ℕ
  start : ℕ
  response : Response
  deriving DecidableEq, Repr

variable (callback : Str → Str) (originalLen : ℕ)

/-- Make room for a value that ends at `stop` in place of a placeholder that ends at `tend`:
data that no longer fits goes to the cache, and the rest of the data is moved. -/
def makeRoom (b : Buffer) (tend stop : ℕ) : Buffer :=
  if tend + 1 < stop ∧ originalLen - (stop - tend - 1) < b.len then
    { b with
      data := memmove b.data stop (tend + 1) (originalLen - stop)
      len := originalLen
      response.cache :=
        (b.data.take b.len).drop (originalLen - (stop - tend - 1)) ++ b.response.cache }
  else if tend + 1 ≠ stop then
    { b with data := memmove b.data stop (tend + 1) (b.len - tend - 1) }
  else b

/-- The replacement of the bytes from `start` to `tend` by the value of a parameter. -/
def replaceParam (b : Buffer) (tend : ℕ) (paramName : Str) : Buffer :=
  if paramName.length = 0 then b
  else
    let paramValue := callback paramName
    let pvlen := paramValue.length
    let numBytesCopied := min pvlen (originalLen - b.start)
    let stop := b.start + numBytesCopied
    let moved := makeRoom originalLen b tend stop
    let copied := { moved with data := memcpy moved.data b.start (paramValue.take numBytesCopied) }
    if numBytesCopied < pvlen then
      { copied with response.cache := paramValue.drop numBytesCopied ++ copied.response.cache }
    else if stop < tend + 1 then
      -- the freed room is filled from the cache or the content
      let roomFreed := tend + 1 - stop
      let totalFreeRoom := originalLen - copied.len + roomFreed
      let (bytes, response) := copied.response.readDataFromCacheOrContent totalFreeRoom
      { copied with
        data := memcpy copied.data (copied.len - roomFreed) bytes
        len := copied.len + bytes.length - roomFreed
        response := response }
    else
      let roomTaken := stop - tend - 1
      { copied with len := min (copied.len + roomTaken) originalLen }

/-- One iteration of the loop; `none` when its condition fails. -/
def iterate (b : Buffer) : Option Buffer :=
  if b.start < b.len then
    match memchr b.data b.start (b.len - b.start) with
    | none => none
    | some start =>
      let templateEnd :=
        if start < b.len - 1 then memchr b.data (start + 1) (b.len - 1 - start) else none
      match templateEnd with
      | some tend =>
        let paramNameLength := min TEMPLATE_PARAM_NAME_LENGTH (tend - start - 1)
        if paramNameLength ≠ 0 then
          let paramName := cstr ((b.data.drop (start + 1)).take paramNameLength)
          some (replaceParam callback originalLen { b with start := start } tend paramName)
        else
          -- a double percent sign stands for a single one
          let data := memmove b.data tend (tend + 1) (b.len - tend - 1)
          let (bytes, response) := b.response.readDataFromCacheOrContent 1
          some
            { data := memcpy data (b.len - 1) bytes
              len := b.len + bytes.length - 1
              start := start + 1
              response := response }
      | none =>
        if b.len - start < TEMPLATE_PARAM_NAME_LENGTH + 2 then
          -- look for the closing sign in the data that follows the buffer
          let held := (b.data.drop (start + 1)).take (b.len - 1 - start)
          let (ahead, response) := b.response.readDataFromCacheOrContent
            (TEMPLATE_PARAM_NAME_LENGTH + 2 - (b.len - start))
          if ahead.length ≠ 0 then
            match ahead.idxOf? TEMPLATE_PLACEHOLDER with
            | some i =>
              let paramName := cstr (held ++ ahead.take i)
              let cached := { response with cache := ahead.drop (i + 1) ++ response.cache }
              some (replaceParam callback originalLen
                { b with start := start, response := cached } (b.len - 1) paramName)
            | none =>
              some
                { b with
                  start := start + 1
                  response := { response with cache := ahead ++ response.cache } }
          else some { b with start := start + 1, response := response }
        else some { b with start := start + 1 }
  else none

def readBuffer (r : Response) : Buffer :=
  let (bytes, response) := r.readDataFromCacheOrContent originalLen
  { data := memcpy (List.replicate originalLen NUL) 0 bytes
    len := bytes.length
    start := 0
    response := response }

/-- `_fillBufferAndProcessTemplates` on a buffer of the given length returns with these
bytes and leaves the response in this state. -/
def Fills (r : Response) (out : Str) (r' : Response) : Prop :=
  ∃ b, Machine.Loop (iterate callback originalLen) (readBuffer originalLen r) b ∧
    out = b.data.take b.len ∧ r' = b.response

/-- The body produced for the send buffers of the given lengths: the response is finished
by the first buffer that stays empty. -/
inductive Produces (callback : Str → Str) : (ℕ → ℕ) → Response → Str → Prop
  | finish {lens : ℕ → ℕ} {r r' : Response} (h : Fills callback (lens 0) r [] r') :
    Produces callback lens r []
  | send {lens : ℕ → ℕ} {r r' : Response} {out rest : Str} (h : Fills callback (lens 0) r out r')
    (hout : out ≠ []) (hrest : Produces callback (fun n => lens (n + 1)) r' rest) :
    Produces callback lens r (out ++ rest)

end HomeMonitor.Template
