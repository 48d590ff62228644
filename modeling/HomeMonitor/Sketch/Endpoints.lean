import HomeMonitor.Http.Request
import HomeMonitor.Sketch.AsyncWebserver
import HomeMonitor.Sketch.Website

/-! The endpoints that the server sketch registers, in their order. -/
namespace HomeMonitor.AsyncWebserver
open HomeMonitor.Arduino HomeMonitor.Http

inductive Endpoint
  | root
  | temperature
  | humidity
  | motionDetection
  | lightDetection
  | rfid
  | keypad
  | on
  deriving DecidableEq, Repr

def Endpoint.name : Endpoint → Str
  | .root => []
  | .temperature => "temperature".toList
  | .humidity => "humidity".toList
  | .motionDetection => "motionDetection".toList
  | .lightDetection => "lightDetection".toList
  | .rfid => "rfid".toList
  | .keypad => "keypad".toList
  | .on => "on".toList

def Endpoint.handler (e : Endpoint) : Handler Endpoint where
  uri := '/' :: e.name
  method := HTTP_GET
  onRequest := e

def Endpoint.all : List Endpoint :=
  [.root, .temperature, .humidity, .motionDetection, .lightDetection, .rfid, .keypad, .on]

def endpoints : List (Handler Endpoint) := Endpoint.all.map Endpoint.handler

/-- What a handler sends: with `send_P` a page whose placeholders `processor` replaces, or the
bytes at a pointer to a C string, and with `send` a string. -/
inductive Reply
  | page (content : Str)
  | text (content : Str)
  | string (content : Str)
  deriving DecidableEq, Repr

def Reply.content : Reply → Str
  | .page content => content
  | .text content => content
  | .string content => content

/-- The handlers, which send all of it with code 200, the page as `text/html` and the rest as
`text/plain`. -/
def Endpoint.reply {F Conn : Type*} (fl : FloatLib F) (s : State F Conn) : Endpoint → Reply
  | .root => .page WEBSITE
  | .temperature => .text (cstr (fl.render s.t))
  | .humidity => .text (cstr (fl.render s.h))
  | .motionDetection => .text (cstr s.motionStatus)
  | .lightDetection => .text (cstr (fl.render s.l))
  | .rfid => .text (cstr s.rfidStatus)
  | .keypad => .text (cstr s.keypadStatus)
  | .on => .string "ok".toList

end HomeMonitor.AsyncWebserver
