import HomeMonitor.Machine.Run
import HomeMonitor.Sketch.AsyncWebserver

/-! The variables of the server after a sequence of requests: each one holds what the last
request of its node said, whatever comes in between. -/
namespace HomeMonitor.AsyncWebserver
open HomeMonitor.Arduino HomeMonitor.Machine

variable {F Conn β : Type*}

def clientName (request : Str) : Str := getClientSubstring request "c".toList

/-- The requests in another order, those of one client name in the same order. -/
structure Reordered (requests requests' : List Str) : Prop where
  perm : requests.Perm requests'
  order : ∀ name, requests.filter (fun r => clientName r = name) =
    requests'.filter (fun r => clientName r = name)

/-- The last request that the handler of a node ran on. -/
def lastRequest (requests : List Str) (n : Node) : Option Str :=
  (requests.filter fun r => dispatch r = some n).getLast?

theorem Reordered.lastRequest {requests requests' : List Str} (h : Reordered requests requests')
    (n : Node) : lastRequest requests n = lastRequest requests' n := by
  unfold AsyncWebserver.lastRequest
  simp only [dispatch_eq_some_iff]
  exact congrArg List.getLast? (h.order n.name)

theorem Reordered.swap (before after : List Str) {r r' : Str} (h : clientName r ≠ clientName r') :
    Reordered (before ++ r :: r' :: after) (before ++ r' :: r :: after) where
  perm := (List.Perm.swap r' r after).append_left before
  order name := by
    rw [List.filter_append, List.filter_append]
    congr 1
    by_cases hr : clientName r = name
    · have hr' : clientName r' ≠ name := fun heq => h (hr.trans heq.symm)
      simp [hr, hr']
    · simp [List.filter_cons, hr]

/-- A variable that the handler of one node sets from the request, and no other request
changes. -/
def OwnedBy (fl : FloatLib F) (n : Node) (get : State F Conn → β) (read : Str → β) : Prop :=
  ∀ s e, get (handle fl s e) = if dispatch e.2 = some n then read e.2 else get s

theorem OwnedBy.after {fl : FloatLib F} {n : Node} {get : State F Conn → β} {read : Str → β}
    (h : OwnedBy fl n get read) (s : State F Conn) (requests : List (Conn × Str)) :
    get (run (handle fl) s requests) =
      ((lastRequest (requests.map Prod.snd) n).map read).getD (get s) := by
  have hstep : ∀ (s : State F Conn) (e : Conn × Str), get (handle fl s e) =
      if decide (dispatch e.2 = some n) = true then read e.2 else get s := by
    intro s e
    simp only [decide_eq_true_eq]
    exact h s e
  rw [run_last (handle fl) get (fun e => read e.2) (fun e => dispatch e.2 = some n) hstep]
  unfold lastRequest
  rw [List.filter_map, List.getLast?_map, Option.map_map]
  rfl

section Owners

variable (fl : FloatLib F)

private theorem handle_eq (s : State F Conn) (e : Conn × Str) :
    handle fl s e =
      match dispatch e.2 with
      | some .temHumLight => handleTemperatureInput fl s e.2
      | some .proximity => handleProximityInput s e.2
      | some .keypad => (handleKeypadInput s e.2).1
      | some .rfid => (handleRFIDInput { s with rfidClient := some e.1 } e.2).1
      | none => s := by
  unfold handle
  rw [clientRequest_eq]
  cases dispatch e.2 with
  | none => rfl
  | some n => cases n <;> rfl

/-- Every handler writes the variables of its own node only. -/
theorem owners :
    OwnedBy fl .temHumLight (fun s : State F Conn => s.t)
      (fun r => fl.strtof (cstr (getClientSubstring r "t".toList))) ∧
    OwnedBy fl .temHumLight (fun s : State F Conn => s.h)
      (fun r => fl.strtof (cstr (getClientSubstring r "h".toList))) ∧
    OwnedBy fl .temHumLight (fun s : State F Conn => s.l)
      (fun r => fl.strtof (cstr (getClientSubstring r "l".toList))) ∧
    OwnedBy fl .proximity (fun s : State F Conn => s.motionStatus)
      (fun r => getClientSubstring r "m".toList) ∧
    OwnedBy fl .keypad (fun s : State F Conn => s.keypadStatus)
      (fun r => getClientSubstring r "k".toList) ∧
    OwnedBy fl .rfid (fun s : State F Conn => s.rfidStatus)
      (fun r => getClientSubstring r "a".toList) := by
  refine ⟨?_, ?_, ?_, ?_, ?_, ?_⟩ <;> intro s e <;> rw [handle_eq] <;>
    cases dispatch e.2 with
    | none => rfl
    | some n => cases n <;> rfl

/-- The six variables, out of the initial ones and the last request of each node. -/
def State.after (s : State F Conn) (last : Node → Option Str) : F × F × F × Str × Str × Str :=
  (((last .temHumLight).map fun r => fl.strtof (cstr (getClientSubstring r "t".toList))).getD s.t,
    ((last .temHumLight).map fun r => fl.strtof (cstr (getClientSubstring r "h".toList))).getD s.h,
    ((last .temHumLight).map fun r => fl.strtof (cstr (getClientSubstring r "l".toList))).getD s.l,
    ((last .proximity).map fun r => getClientSubstring r "m".toList).getD s.motionStatus,
    ((last .keypad).map fun r => getClientSubstring r "k".toList).getD s.keypadStatus,
    ((last .rfid).map fun r => getClientSubstring r "a".toList).getD s.rfidStatus)

theorem reported_after (s : State F Conn) (requests : List (Conn × Str)) :
    (run (handle fl) s requests).reported =
      s.after fl (lastRequest (requests.map Prod.snd)) := by
  obtain ⟨ht, hh, hl, hm, hk, ha⟩ := @owners F Conn fl
  unfold State.reported State.after
  rw [ht.after, hh.after, hl.after, hm.after, hk.after, ha.after]

/-- Requests of different nodes can be handled in any order: each variable holds what the last
request of its node says, and an unrecognised request changes nothing. -/
theorem reported_reordered (s : State F Conn) (requests : List (Conn × Str)) :
    (run (handle fl) s requests).reported =
      s.after fl (lastRequest (requests.map Prod.snd)) ∧
    (∀ requests' : List (Conn × Str),
      Reordered (requests.map Prod.snd) (requests'.map Prod.snd) →
      (run (handle fl) s requests').reported = (run (handle fl) s requests).reported) ∧
    ∀ (s' : State F Conn) (e : Conn × Str), dispatch e.2 = none → handle fl s' e = s' := by
  refine ⟨reported_after fl s requests, ?_, ?_⟩
  · intro requests' h
    have hlast : lastRequest (requests.map Prod.snd) = lastRequest (requests'.map Prod.snd) :=
      funext h.lastRequest
    rw [reported_after, reported_after, hlast]
  · intro s' e he
    rw [handle_eq, he]

end Owners

/-- A motion report and a grant of the keypad, in both orders. -/
theorem reported_reordered_swap :
    (run (handle FloatLib.hundredths) (boot FloatLib.hundredths)
      [((), "c[KeypadNode]ck[ACCESS GRANTED]k ".toList),
        ((), "c[ProximityNode]c motion m[detected]m ".toList)]).reported =
    (run (handle FloatLib.hundredths) (boot FloatLib.hundredths)
      [((), "c[ProximityNode]c motion m[detected]m ".toList),
        ((), "c[KeypadNode]ck[ACCESS GRANTED]k ".toList)]).reported :=
  (reported_reordered FloatLib.hundredths (boot FloatLib.hundredths) _).2.1 _
    (Reordered.swap [] [] (by decide))

end HomeMonitor.AsyncWebserver
