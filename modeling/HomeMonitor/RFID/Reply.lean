import HomeMonitor.Sketch.RFID
import HomeMonitor.Framing.Acceptance

/-! The lines that the server prints on `rfidClient` and the node decodes. -/
namespace HomeMonitor.RFID
open HomeMonitor.Text HomeMonitor.Arduino HomeMonitor.AsyncWebserver HomeMonitor.Framing

variable {F Conn : Type*}

/-- The answers to RFID and keypad requests, and the command of the web page. -/
inductive Reply
  | accessMartin
  | accessMagnus
  | accessOK
  | accessNO
  | serverOpen
  deriving DecidableEq, Repr

namespace Reply

def header : Reply → Str
  | .serverOpen => "c[Server]c: ".toList
  | _ => []

def payload : Reply → Str
  | .accessMartin => "Access Martin".toList
  | .accessMagnus => "Access Magnus".toList
  | .accessOK => "Access OK".toList
  | .accessNO => "Access NO".toList
  | .serverOpen => "Open".toList

def line (r : Reply) : Str := r.header ++ frame 'r' r.payload

def opening : Reply → Bool
  | .accessNO => false
  | _ => true

/-- The node opens the door once on an opening command and sounds the error tone on
the other. -/
theorem handleHostSubstring_payload (r : Reply) :
    if r.opening then (handleHostSubstring r.payload).count .runServo = 1 ∧
        .playError ∉ handleHostSubstring r.payload
      else handleHostSubstring r.payload = [.playError] := by
  cases r <;> decide

theorem getSubstring_line (r : Reply) :
    RFID.getSubstring (println r.line) "r".toList = r.payload := by
  cases r <;> decide

theorem getHostMessage_line (r : Reply) :
    getHostMessage (println r.line) = handleHostSubstring r.payload := by
  unfold getHostMessage
  rw [if_neg (by simp [println]), getSubstring_line]

end Reply

def keypadReply (status : Str) : Reply :=
  if status = "ACCESS GRANTED".toList then .accessOK else .accessNO

def rfidReply (status : Str) : Reply :=
  if status = "Access Martin".toList then .accessMartin
  else if status = "Access Magnus".toList then .accessMagnus
  else .accessNO

def replyTo (request : Str) : Option Reply :=
  match dispatch request with
  | some .keypad => some (keypadReply (getClientSubstring request ['k']))
  | some .rfid => some (rfidReply (getClientSubstring request ['a']))
  | _ => none

theorem clientRequest_replies (fl : FloatLib F) (s : State F Conn) (client : Conn) {request : Str}
    (h : NUL ∉ request) :
    (clientRequest fl s client request).2 = ((replyTo request).map Reply.line).toList := by
  unfold replyTo
  cases hd : dispatch request with
  | none => exact replies_eq_nil fl s client (by simp [hd]) (by simp [hd])
  | some n =>
    cases n with
    | temHumLight => exact replies_eq_nil fl s client (by simp [hd]) (by simp [hd])
    | proximity => exact replies_eq_nil fl s client (by simp [hd]) (by simp [hd])
    | keypad =>
      rw [replies_keypad fl s client h hd]
      unfold keypadReply
      split_ifs <;> rfl
    | rfid =>
      rw [replies_rfid fl s client h hd]
      unfold rfidReply
      split_ifs <;> rfl

theorem clientRequest_rfidClient (fl : FloatLib F) (s : State F Conn) (client : Conn)
    (request : Str) :
    (clientRequest fl s client request).1.rfidClient =
      if dispatch request = some .rfid then some client else s.rfidClient := by
  rw [clientRequest_eq]
  cases hd : dispatch request with
  | none => rfl
  | some n => cases n <;> rfl

end HomeMonitor.RFID
