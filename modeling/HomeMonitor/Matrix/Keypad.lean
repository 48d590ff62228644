import HomeMonitor.Arduino.Host
import Mathlib.Algebra.GroupWithZero.Nat
import Mathlib.Data.List.FinRange
import Mathlib.Logic.Function.Basic

/-! The keypad library: the list of the keys that are being pressed, and `getKey`. -/
namespace HomeMonitor.Matrix
open HomeMonitor.Arduino

def NO_KEY : Char := '\x00'

abbrev LIST_MAX : ℕ := 10

instance : NeZero LIST_MAX := ⟨Nat.succ_ne_zero 9⟩

inductive KeyState
  | IDLE
  | PRESSED
  | HOLD
  | RELEASED
  deriving DecidableEq, Repr

structure Key where
  kchar : Char
  kcode : ℤ
  kstate : KeyState
  stateChanged : Bool
  deriving DecidableEq, Repr

/-- What the constructor sets. No button has the character that stands for none. -/
structure Layout where
  rows : ℕ
  columns : ℕ
  keymap : ℕ → Char
  debounceTime : BitVec 32
  holdTime : BitVec 32
  keymap_ne : ∀ keyCode < rows * columns, keymap keyCode ≠ NO_KEY

structure Keypad where
  key : Fin LIST_MAX → Key
  holdTimer : BitVec 32
  startTime : BitVec 32

/-- The members of a global object before its constructor runs are zero. -/
def boot : Keypad where
  key _ := ⟨NO_KEY, 0, .IDLE, false⟩
  holdTimer := 0
  startTime := 0

/-- What a `getKey` call meets: the true times at which it reads the counter, first to limit
the scans, then while it processes a button, and at last to record the scan; and the buttons
that `scanKeys` finds closed, by row and column. -/
structure Scan where
  check : ℕ
  during : ℕ → ℕ
  finish : ℕ
  bitMap : ℕ → ℕ → Bool

def transitionTo (key : Key) (nextState : KeyState) : Key :=
  { key with kstate := nextState, stateChanged := true }

/-- `nextKeyState` on a key: the key and the hold timer after it. -/
def nextKey (holdTime holdTimer : BitVec 32) (now : ℕ) (key : Key) (button : Bool) :
    Key × BitVec 32 :=
  let key := { key with stateChanged := false }
  match key.kstate with
  | .IDLE => if button then (transitionTo key .PRESSED, millis now) else (key, holdTimer)
  | .PRESSED =>
    if millis now - holdTimer > holdTime then (transitionTo key .HOLD, holdTimer)
    else if !button then (transitionTo key .RELEASED, holdTimer)
    else (key, holdTimer)
  | .HOLD => if !button then (transitionTo key .RELEASED, holdTimer) else (key, holdTimer)
  | .RELEASED => (transitionTo key .IDLE, holdTimer)

namespace Keypad

/-- `findInList`: the first key of the list with a code. -/
def findInList (kpd : Keypad) (keyCode : ℤ) : Option (Fin LIST_MAX) :=
  (List.finRange LIST_MAX).find? fun i => (kpd.key i).kcode = keyCode

def emptySlot (kpd : Keypad) : Option (Fin LIST_MAX) :=
  (List.finRange LIST_MAX).find? fun i => (kpd.key i).kchar = NO_KEY

def nextKeyState (b : Layout) (kpd : Keypad) (idx : Fin LIST_MAX) (button : Bool) (now : ℕ) :
    Keypad :=
  let (key, holdTimer) := nextKey b.holdTime kpd.holdTimer now (kpd.key idx) button
  { kpd with key := Function.update kpd.key idx key, holdTimer := holdTimer }

def deleteIdle (kpd : Keypad) : Keypad :=
  { kpd with
    key := fun i =>
      if (kpd.key i).kstate = .IDLE then
        { kpd.key i with kchar := NO_KEY, kcode := -1, stateChanged := false }
      else kpd.key i }

/-- The body of the loops of `updateList`, for the button in a row and a column. -/
def updateButton (b : Layout) (scan : Scan) (kpd : Keypad) (place : ℕ × ℕ) : Keypad :=
  let button := scan.bitMap place.1 place.2
  let keyCode := place.1 * b.columns + place.2
  match kpd.findInList keyCode with
  | some idx => kpd.nextKeyState b idx button (scan.during keyCode)
  | none =>
    if button then
      match kpd.emptySlot with
      | some i =>
        let added := { kpd.key i with
          kchar := b.keymap keyCode
          kcode := keyCode
          kstate := .IDLE }
        ({ kpd with key := Function.update kpd.key i added } : Keypad).nextKeyState b i button
          (scan.during keyCode)
      | none => kpd
    else kpd

def places (b : Layout) : List (ℕ × ℕ) :=
  (List.range b.rows).flatMap fun r => (List.range b.columns).map fun c => (r, c)

def updateList (b : Layout) (kpd : Keypad) (scan : Scan) : Keypad :=
  (places b).foldl (updateButton b scan) kpd.deleteIdle

def anyActivity (kpd : Keypad) : Bool :=
  (List.finRange LIST_MAX).any fun i => (kpd.key i).stateChanged

/-- The keypad is not scanned again before the debounce time has passed. -/
def Due (b : Layout) (kpd : Keypad) (scan : Scan) : Prop :=
  millis scan.check - kpd.startTime > b.debounceTime

instance (b : Layout) (kpd : Keypad) (scan : Scan) : Decidable (Due b kpd scan) :=
  inferInstanceAs (Decidable (_ > _))

def getKeys (b : Layout) (kpd : Keypad) (scan : Scan) : Bool × Keypad :=
  if Due b kpd scan then
    let updated := kpd.updateList b scan
    (updated.anyActivity, { updated with startTime := millis scan.finish })
  else (false, kpd)

/-- The key that is returned, and the keypad after the call. -/
def getKey (b : Layout) (kpd : Keypad) (scan : Scan) : Char × Keypad :=
  let (keyActivity, kpd') := kpd.getKeys b scan
  (if keyActivity ∧ (kpd'.key 0).stateChanged ∧ (kpd'.key 0).kstate = .PRESSED then
    (kpd'.key 0).kchar else NO_KEY, kpd')

end Keypad

def sketchLayout : Layout where
  rows := 4
  columns := 4
  keymap keyCode := "123A456B789C*0#D".toList.getD keyCode NO_KEY
  debounceTime := 10
  holdTime := 500
  keymap_ne := by decide

end HomeMonitor.Matrix
