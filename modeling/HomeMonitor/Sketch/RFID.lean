import HomeMonitor.Arduino.Host
import HomeMonitor.Framing.Extract

/-! The RFID sketch: the card check and the decoding of the server's replies. -/
namespace HomeMonitor.RFID
open HomeMonitor.Arduino

def nom : Str := "RFIDNode".toList

/-- The enrolled tags: Martin, Martin's card, Magnus. -/
def IDs : List Str := ["2C76454A".toList, "B32CDF0E".toList, "23475B1F".toList]

/-- `String(byte, HEX)`: the unpadded lowercase numeral. -/
def hexText (b : UInt8) : Str := Nat.toDigits 16 b.toNat

def uidText (uid : List UInt8) : Str :=
  (uid.flatMap fun b => (if b < 0x10 then "0".toList else []) ++ hexText b).map Char.toUpper

def authorized (uid : List UInt8) : Bool := IDs.any fun id => uidText uid == id

def scanMessages (uid : List UInt8) : List Str :=
  if authorized uid then
    (if some (uidText uid) = IDs[0]? then ["Access Martin".toList] else []) ++
      (if some (uidText uid) = IDs[2]? then ["Access Magnus".toList] else [])
  else ["Access denied".toList]

def requestText (msg : Str) : Str :=
  "c[".toList ++ nom ++ "]c".toList ++ ":  a[".toList ++ msg ++ "]a \r".toList

def requestHost (previousRequest : BitVec 32) (msg : Str) (a : Attempt) : BitVec 32 × HostResult :=
  limited previousRequest (requestText msg) a

/-- `checkRFID` for a card whose UID was read: the new `previousRequest` and what
became of each `requestHost` call. -/
def checkRFID (previousRequest : BitVec 32) (uid : List UInt8) (a : Attempt) :
    BitVec 32 × List HostResult :=
  (scanMessages uid).foldl
    (fun (prev, results) msg =>
      let (prev', result) := requestHost prev msg a
      (prev', results ++ [result]))
    (previousRequest, [])

inductive Action
  | runServo
  | playStarWars
  | Pirates
  | playError
  deriving DecidableEq, Repr

def handleHostSubstring (hostSubstring : Str) : List Action :=
  if equalsLiteral hostSubstring "Open".toList then [.runServo]
  else if equalsLiteral hostSubstring "Access Martin".toList then [.runServo, .playStarWars]
  else if equalsLiteral hostSubstring "Access Magnus".toList then [.runServo, .Pirates]
  else if equalsLiteral hostSubstring "Access OK".toList then [.runServo]
  else [.playError]

def getSubstring (request identifier : Str) : Str := Framing.getSubstring request identifier

/-- `getHostMessage` on the bytes one `readString` returns. -/
def getHostMessage (hostMsg : Str) : List Action :=
  if hostMsg = [] then [] else handleHostSubstring (getSubstring hostMsg "r".toList)

end HomeMonitor.RFID
