import HomeMonitor.Arduino.Host
import HomeMonitor.Framing.Extract

/-! The server sketch: its variables, the port-81 handlers, the `/on` endpoint and
the template callback of the root page. -/
namespace HomeMonitor.AsyncWebserver
open HomeMonitor.Arduino

variable {F Conn : Type*}

/-- The global variables. `rfidClient` is unset until an RFID request is handled. -/
structure State (F Conn : Type*) where
  t : F
  h : F
  l : F
  motionStatus : Str
  keypadStatus : Str
  rfidStatus : Str
  rfidClient : Option Conn

def boot (fl : FloatLib F) : State F Conn where
  t := fl.zero
  h := fl.zero
  l := fl.zero
  motionStatus := "No motion".toList
  keypadStatus := "No access".toList
  rfidStatus := "No access".toList
  rfidClient := none

def proximityName : Str := "ProximityNode".toList
def tempHumLightNode : Str := "TemHumLightNode".toList
def keypadName : Str := "KeypadNode".toList
def rfidName : Str := "RFIDNode".toList

/-- The template callback of the root page. -/
def processor (fl : FloatLib F) (s : State F Conn) (var : Str) : Str :=
  if equalsLiteral var "TEMPERATURE".toList then fl.render s.t
  else if equalsLiteral var "HUMIDITY".toList then fl.render s.h
  else if equalsLiteral var "MOTION".toList then s.motionStatus
  else if equalsLiteral var "LIGHT".toList then fl.render s.l
  else if equalsLiteral var "RFID Status".toList then s.rfidStatus
  else if equalsLiteral var "Keypad Status".toList then s.keypadStatus
  else []

def getClientSubstring (request identifier : Str) : Str := Framing.getSubstring request identifier

/-- The line the `/on` handler prints on `rfidClient`; it always answers `ok`. -/
def onCommand : Str := "c[Server]c: r[Open]r".toList

def handleTemperatureInput (fl : FloatLib F) (s : State F Conn) (request : Str) : State F Conn :=
  { s with
    t := fl.strtof (cstr (getClientSubstring request "t".toList))
    h := fl.strtof (cstr (getClientSubstring request "h".toList))
    l := fl.strtof (cstr (getClientSubstring request "l".toList)) }

def handleProximityInput (s : State F Conn) (request : Str) : State F Conn :=
  { s with motionStatus := getClientSubstring request "m".toList }

/-- The new state and the line printed on `rfidClient`. -/
def handleRFIDInput (s : State F Conn) (request : Str) : State F Conn × Str :=
  let rfidStatus := getClientSubstring request "a".toList
  ({ s with rfidStatus := rfidStatus },
    if equalsLiteral rfidStatus "Access Martin".toList then "r[Access Martin]r".toList
    else if equalsLiteral rfidStatus "Access Magnus".toList then "r[Access Magnus]r".toList
    else "r[Access NO]r".toList)

/-- The new state and the line printed on `rfidClient`. -/
def handleKeypadInput (s : State F Conn) (request : Str) : State F Conn × Str :=
  let keypadStatus := getClientSubstring request "k".toList
  ({ s with keypadStatus := keypadStatus },
    if equalsLiteral keypadStatus "ACCESS GRANTED".toList then "r[Access OK]r".toList
    else "r[Access NO]r".toList)

/-- The body of `clientRequest` for a connected client and the request read from it:
the new state and the lines printed on the new `rfidClient`. -/
def clientRequest (fl : FloatLib F) (s : State F Conn) (client : Conn) (request : Str) :
    State F Conn × List Str :=
  let clientName := getClientSubstring request "c".toList
  if equalsString clientName tempHumLightNode then (handleTemperatureInput fl s request, [])
  else if equalsString clientName proximityName then (handleProximityInput s request, [])
  else if equalsString clientName keypadName then
    let (s', reply) := handleKeypadInput s request
    (s', [reply])
  else if equalsString clientName rfidName then
    let (s', reply) := handleRFIDInput { s with rfidClient := some client } request
    (s', [reply])
  else (s, [])

/-- The state after a request that a client sends on port 81. -/
def handle (fl : FloatLib F) (s : State F Conn) (request : Conn × Str) : State F Conn :=
  (clientRequest fl s request.1 request.2).1

/-- The six variables that the nodes report. -/
def State.reported (s : State F Conn) : F × F × F × Str × Str × Str :=
  (s.t, s.h, s.l, s.motionStatus, s.keypadStatus, s.rfidStatus)

inductive Node
  | temHumLight
  | proximity
  | keypad
  | rfid
  deriving DecidableEq, Repr

def Node.name : Node → Str
  | .temHumLight => tempHumLightNode
  | .proximity => proximityName
  | .keypad => keypadName
  | .rfid => rfidName

/-- The node whose handler `clientRequest` runs. -/
def dispatch (request : Str) : Option Node :=
  let clientName := getClientSubstring request "c".toList
  if clientName = tempHumLightNode then some .temHumLight
  else if clientName = proximityName then some .proximity
  else if clientName = keypadName then some .keypad
  else if clientName = rfidName then some .rfid
  else none

theorem dispatch_eq_some_iff (request : Str) (n : Node) :
    dispatch request = some n ↔ getClientSubstring request "c".toList = n.name := by
  constructor
  · unfold dispatch
    dsimp only
    split_ifs with h1 h2 h3 h4 <;> intro h <;> cases h <;> assumption
  · intro h
    unfold dispatch
    rw [h]
    cases n <;> rfl

/-- `clientRequest` runs the handler of the dispatched node and nothing else. -/
theorem clientRequest_eq (fl : FloatLib F) (s : State F Conn) (client : Conn) (request : Str) :
    clientRequest fl s client request =
      match dispatch request with
      | some .temHumLight => (handleTemperatureInput fl s request, [])
      | some .proximity => (handleProximityInput s request, [])
      | some .keypad => ((handleKeypadInput s request).1, [(handleKeypadInput s request).2])
      | some .rfid =>
        let r := handleRFIDInput { s with rfidClient := some client } request
        (r.1, [r.2])
      | none => (s, []) := by
  unfold clientRequest dispatch
  have h1 := equalsString_iff (getClientSubstring request "c".toList) tempHumLightNode (by decide)
  have h2 := equalsString_iff (getClientSubstring request "c".toList) proximityName (by decide)
  have h3 := equalsString_iff (getClientSubstring request "c".toList) keypadName (by decide)
  have h4 := equalsString_iff (getClientSubstring request "c".toList) rfidName (by decide)
  simp only [h1, h2, h3, h4]
  split_ifs <;> rfl

end HomeMonitor.AsyncWebserver
