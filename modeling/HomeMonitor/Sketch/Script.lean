import HomeMonitor.Sketch.Endpoints

/-! The script of the page: a timer for each value asks for it and writes the answer into its
element. -/
namespace HomeMonitor.AsyncWebserver
open HomeMonitor.Arduino

/-- The elements with a timer, which has the name of the endpoint that it asks. -/
inductive Element
  | temperature
  | humidity
  | motionDetection
  | lightDetection
  | keypad
  | rfid
  deriving DecidableEq, Repr

def Element.endpoint : Element → Endpoint
  | .temperature => .temperature
  | .humidity => .humidity
  | .motionDetection => .motionDetection
  | .lightDetection => .lightDetection
  | .keypad => .keypad
  | .rfid => .rfid

def asked {F Conn : Type*} (fl : FloatLib F) (s : State F Conn) (el : Element) : Str :=
  (el.endpoint.reply fl s).content

def Element.text {F : Type*} (fl : FloatLib F) (values : F × F × F × Str × Str × Str) :
    Element → Str
  | .temperature => cstr (fl.render values.1)
  | .humidity => cstr (fl.render values.2.1)
  | .motionDetection => cstr values.2.2.2.1
  | .lightDetection => cstr (fl.render values.2.2.1)
  | .keypad => cstr values.2.2.2.2.1
  | .rfid => cstr values.2.2.2.2.2

theorem asked_eq {F Conn : Type*} (fl : FloatLib F) (s : State F Conn) (el : Element) :
    asked fl s el = el.text fl s.reported := by
  cases el <;> rfl

end HomeMonitor.AsyncWebserver
