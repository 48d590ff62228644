import HomeMonitor.Arduino.Host
import HomeMonitor.Framing.Extract

/-! The keypad sketch. -/
namespace HomeMonitor.Keypad
open HomeMonitor.Arduino

def nom : Str := "KeypadNode".toList

def password : Str := "1111".toList

structure State where
  input_password : Str
  previousRequest : BitVec 32
  deriving DecidableEq, Repr

def boot : State where
  input_password := []
  previousRequest := 0

/-- The text a `requestHost` call prints, before the line end of `println`. -/
def requestText (Message : Str) : Str :=
  "c[".toList ++ nom ++ "]c".toList ++ "k[".toList ++ Message ++ "]k \r".toList

def requestHost (previousRequest : BitVec 32) (Message : Str) (a : Attempt) :
    BitVec 32 × HostResult :=
  limited previousRequest (requestText Message) a

/-- One `handleKeypad` call for the key that `getKey` returns, NUL when none is
pressed: the new state, and the message passed to `requestHost` with what became of it. -/
def handleKeypad (s : State) (key : Char) (a : Attempt) : State × Option (Str × HostResult) :=
  if key ≠ NUL then
    if key = '*' then ({ s with input_password := [] }, none)
    else if key = 'D' then
      let Message :=
        if equalsString password s.input_password then "ACCESS GRANTED".toList
        else "ACCESS DENIED".toList
      let (previousRequest, result) := requestHost s.previousRequest Message a
      ({ input_password := [], previousRequest := previousRequest }, some (Message, result))
    else ({ s with input_password := s.input_password ++ [key] }, none)
  else (s, none)

/-- Unused by the sketch as it stands: its `getHostMessage` only prints what it reads. -/
def getSubstring (request identifier : Str) : Str := Framing.getSubstring request identifier

end HomeMonitor.Keypad
