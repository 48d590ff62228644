import HomeMonitor.Machine.Run
import HomeMonitor.Sketch.AsyncWebserver
import HomeMonitor.Sketch.Keypad
import HomeMonitor.Sketch.Sensors
import HomeMonitor.Sketch.RFID

/-! The server, the four nodes and the connections between them. Connections on port
81 are numbered in the order in which the server accepts them. -/
namespace HomeMonitor.Network
open HomeMonitor.Arduino HomeMonitor.AsyncWebserver

variable {F : Type*}

structure System (F : Type*) where
  server : AsyncWebserver.State F ℕ
  keypad : Keypad.State
  /-- `previousRequest` of the proximity, the temperature and the RFID node. -/
  proximity : BitVec 32
  temperature : BitVec 32
  rfid : BitVec 32
  /-- The connections that the server has not served, oldest first, with the bytes sent
  on each. -/
  pending : List (ℕ × Str)
  accepted : ℕ
  /-- The connection that the RFID node holds. -/
  host : Option ℕ
  /-- The bytes on it that the RFID node has not read. -/
  inbox : Str

def boot (fl : FloatLib F) : System F where
  server := AsyncWebserver.boot fl
  keypad := Keypad.boot
  proximity := 0
  temperature := 0
  rfid := 0
  pending := []
  accepted := 0
  host := none
  inbox := []

inductive Event (F : Type*)
  | key (key : Char) (a : Attempt)
  | scan (uid : List UInt8) (a : Attempt)
  | motion (high : Bool) (a : Attempt)
  | measure (r : TemperatureNode.Reading F) (a : Attempt)
  /-- A browser requests `/on`. -/
  | on
  /-- `clientRequest` takes the oldest connection; `n` bytes arrive before the timeout. -/
  | serve (n : ℕ)
  /-- `clientRequest` takes the oldest connection and finds it closed. -/
  | skip
  /-- The `readString` of the RFID node returns the next `n` bytes. -/
  | read (n : ℕ)

namespace System

/-- A node other than the RFID node has called `requestHost`. -/
def request (s : System F) : HostResult → System F
  | .printed text =>
    { s with pending := s.pending ++ [(s.accepted, text)], accepted := s.accepted + 1 }
  | _ => s

/-- The RFID node has called `requestHost`: connecting closes the connection it held. -/
def requestRFID (s : System F) : HostResult → System F
  | .suppressed => s
  | .noConnection => { s with host := none, inbox := [] }
  | .printed text =>
    { s with
      pending := s.pending ++ [(s.accepted, text)]
      accepted := s.accepted + 1
      host := some s.accepted
      inbox := [] }

/-- Lines printed on `rfidClient` reach the RFID node on the connection that it holds. -/
def print (s : System F) (lines : List Str) : System F :=
  if s.server.rfidClient.isSome ∧ s.server.rfidClient = s.host then
    { s with inbox := s.inbox ++ lines.flatMap println }
  else s

/-- The request that the server reads when `n` bytes arrive. -/
def arrived (text : Str) (n : ℕ) : Str := readStringUntil CR (text.take n)

def serve (fl : FloatLib F) (s : System F) (n : ℕ) : System F :=
  match s.pending with
  | [] => s
  | (client, text) :: rest =>
    let r := clientRequest fl s.server client (arrived text n)
    ({ s with server := r.1, pending := rest } : System F).print r.2

def step (fl : FloatLib F) (s : System F) : Event F → System F
  | .key key a =>
    let r := Keypad.handleKeypad s.keypad key a
    ({ s with keypad := r.1 } : System F).request (r.2.elim .suppressed Prod.snd)
  | .scan uid a =>
    let r := RFID.checkRFID s.rfid uid a
    r.2.foldl requestRFID { s with rfid := r.1 }
  | .motion high a =>
    let r := Proximity.loop s.proximity high a
    ({ s with proximity := r.1 } : System F).request r.2
  | .measure reading a =>
    let r := TemperatureNode.loop fl s.temperature reading a
    ({ s with temperature := r.1 } : System F).request r.2
  | .on => s.print [onCommand]
  | .serve n => s.serve fl n
  | .skip => { s with pending := s.pending.tail }
  | .read n => { s with inbox := s.inbox.drop n }

theorem request_server (s : System F) (r : HostResult) : (s.request r).server = s.server := by
  cases r with
  | suppressed => rfl
  | noConnection => rfl
  | printed text => rfl

theorem scan_server (s : System F) (results : List HostResult) :
    (results.foldl requestRFID s).server = s.server := by
  induction results generalizing s with
  | nil => rfl
  | cons r results ih =>
    rw [List.foldl_cons, ih]
    cases r with
    | suppressed => rfl
    | noConnection => rfl
    | printed text => rfl

theorem print_same (s : System F) (lines : List Str) :
    (s.print lines).server = s.server ∧ (s.print lines).host = s.host ∧
      (s.print lines).pending = s.pending := by
  unfold print
  split_ifs
  · exact ⟨rfl, rfl, rfl⟩
  · exact ⟨rfl, rfl, rfl⟩

def actions (s : System F) : Event F → List RFID.Action
  | .read n => RFID.getHostMessage (s.inbox.take n)
  | _ => []

def after (fl : FloatLib F) (events : List (Event F)) : System F :=
  Machine.run (step fl) (Network.boot fl) events

end System
end HomeMonitor.Network
