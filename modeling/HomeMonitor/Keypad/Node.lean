import HomeMonitor.Keypad.Password
import HomeMonitor.Matrix.Typing
import Mathlib.Data.List.ReduceOption

/-! The keypad node: the keypad library under the sketch. -/
namespace HomeMonitor.Keypad
open HomeMonitor.Arduino HomeMonitor.Machine HomeMonitor.Matrix

structure Turn where
  scan : Scan
  attempt : Attempt

structure Node where
  keypad : Matrix.Keypad
  state : State

def Node.boot : Node := ⟨Matrix.boot, Keypad.boot⟩

/-- `handleKeypad` with the key that `getKey` returns: the message passed to `requestHost`. -/
def turn (node : Node) (t : Turn) : Option Str × Node :=
  let (key, keypad) := node.keypad.getKey sketchLayout t.scan
  let (state, request) := handleKeypad node.state key t.attempt
  (request.map Prod.fst, ⟨keypad, state⟩)

def messages (node : Node) (turns : List Turn) : List Str :=
  (outputs turn node turns).reduceOption

def returned (keypad : Matrix.Keypad) (turns : List Turn) : List Char :=
  (outputs (Matrix.Keypad.getKey sketchLayout) keypad (turns.map Turn.scan)).filter (· ≠ NO_KEY)

/-- What was typed since the last `*` or `D`. -/
def typed (keys : List Char) : Str := keys.rtakeWhile fun c => c ≠ '*' ∧ c ≠ 'D'

def verdict (keys : List Char) : Str :=
  if typed keys = password then "ACCESS GRANTED".toList else "ACCESS DENIED".toList

/-- The verdicts on the keys that follow others: one for each `D`, on the keys before it. -/
def verdicts (before : List Char) : List Char → List Str
  | [] => []
  | key :: keys =>
    if key = 'D' then verdict before :: verdicts (before ++ [key]) keys
    else verdicts (before ++ [key]) keys

theorem turn_eq (keypad : Matrix.Keypad) (presses : List Press) (t : Turn) :
    let read := keypad.getKey sketchLayout t.scan
    let p : Press := ⟨read.1, t.attempt⟩
    turn ⟨keypad, run press boot presses⟩ t =
      (if p.key = 'D' then some (verdict (keys presses)) else none,
        ⟨read.2, run press boot (presses ++ [p])⟩) := by
  intro read p
  have hmessage := message_eq presses p
  rw [run_append]
  unfold turn
  dsimp only
  congr 1

theorem keys_concat (presses : List Press) (p : Press) :
    keys (presses ++ [p]) = keys presses ++ if p.key = NO_KEY then [] else [p.key] := by
  unfold keys
  rw [List.map_append, List.filter_append, List.map_singleton]
  congr 1
  by_cases hkey : p.key = NO_KEY
  · rw [if_pos hkey]
    exact List.filter_cons_of_neg (by rw [hkey]; decide)
  · rw [if_neg hkey]
    exact List.filter_cons_of_pos (decide_eq_true hkey)

theorem returned_cons (keypad : Matrix.Keypad) (t : Turn) (turns : List Turn) :
    let read := keypad.getKey sketchLayout t.scan
    returned keypad (t :: turns) =
      (if read.1 = NO_KEY then [] else [read.1]) ++ returned read.2 turns := by
  intro read
  unfold returned
  rw [List.map_cons, outputs]
  by_cases hkey : read.1 = NO_KEY
  · rw [if_pos hkey, List.filter_cons_of_neg (by simpa using hkey)]
    rfl
  · rw [if_neg hkey, List.filter_cons_of_pos (by simpa using hkey)]
    rfl

/-- Whatever the history, the messages that follow are the verdicts on the keys that follow. -/
theorem messages_eq_verdicts (keypad : Matrix.Keypad) (presses : List Press) (turns : List Turn) :
    messages ⟨keypad, run press boot presses⟩ turns =
      verdicts (keys presses) (returned keypad turns) := by
  unfold messages
  induction turns generalizing keypad presses with
  | nil => rfl
  | cons t turns ih =>
    rw [outputs, turn_eq, returned_cons]
    have hrest := ih (keypad.getKey sketchLayout t.scan).2
      (presses ++ [⟨(keypad.getKey sketchLayout t.scan).1, t.attempt⟩])
    rw [keys_concat] at hrest
    dsimp only at hrest ⊢
    by_cases hkey : (keypad.getKey sketchLayout t.scan).1 = NO_KEY
    · rw [if_pos hkey, List.append_nil] at hrest
      rw [if_pos hkey, hkey, if_neg (by decide), List.reduceOption_cons_of_none, ← hkey, hrest]
      rfl
    · rw [if_neg hkey] at hrest
      rw [if_neg hkey, List.singleton_append, verdicts]
      by_cases hD : (keypad.getKey sketchLayout t.scan).1 = 'D'
      · rw [if_pos hD, if_pos hD, List.reduceOption_cons_of_some, hrest]
      · rw [if_neg hD, if_neg hD, List.reduceOption_cons_of_none, hrest]

/-- A text typed at the buttons of a fresh node is answered, one message for each `D`, by the
verdicts on it. -/
theorem messages_of_typed {text : List ℕ} {turns : List Turn}
    (h : Typed sketchLayout text
      ((Matrix.boot.reads sketchLayout (turns.map Turn.scan)).map Prod.fst)) :
    messages .boot turns = verdicts [] (text.map sketchLayout.keymap) := by
  have hmessages := messages_eq_verdicts Matrix.boot [] turns
  have hreturned := (returned_of_typed Matrix.Keypad.released_boot h).1
  change returned Matrix.boot turns = _ at hreturned
  rw [hreturned] at hmessages
  exact hmessages

/-- The password is granted, and without its last digit it is not. -/
theorem messages_of_typed_strokes :
    messages .boot ((strokes sketchLayout 20 [0, 0, 0, 0, 15, 0, 0, 0, 15]).map
        fun scan => ⟨scan, ⟨5000, 5000, true⟩⟩) =
      verdicts [] ([0, 0, 0, 0, 15, 0, 0, 0, 15].map sketchLayout.keymap) :=
  messages_of_typed (typed_strokes sketchLayout 20 (by decide) :
    Typed sketchLayout [0, 0, 0, 0, 15, 0, 0, 0, 15] (strokes sketchLayout 20 _))

theorem typed_concat (keys : List Char) (key : Char) :
    typed (keys ++ [key]) = if key ≠ '*' ∧ key ≠ 'D' then typed keys ++ [key] else [] := by
  unfold typed
  rw [List.rtakeWhile_concat]
  simp only [decide_eq_true_eq]

/-- Every grant is paid for by four keys `1`. -/
theorem four_mul_count_le (before keys : List Char) :
    4 * (verdicts before keys).count "ACCESS GRANTED".toList ≤
      keys.count '1' + (typed before).count '1' := by
  induction keys generalizing before with
  | nil => exact Nat.zero_le _
  | cons key keys ih =>
    have hrest := ih (before ++ [key])
    rw [typed_concat] at hrest
    rw [verdicts]
    by_cases hD : key = 'D'
    · subst hD
      rw [if_neg (by decide), List.count_nil] at hrest
      have hone : ('D' :: keys).count '1' = keys.count '1' := List.count_cons_of_ne (by decide)
      rw [if_pos rfl, hone]
      unfold verdict
      by_cases hpassword : typed before = password
      · rw [if_pos hpassword, List.count_cons_self, hpassword]
        have hones : password.count '1' = 4 := by decide
        omega
      · rw [if_neg hpassword, List.count_cons_of_ne (by decide)]
        omega
    · rw [if_neg hD]
      by_cases hstar : key = '*'
      · rw [if_neg fun h => h.1 hstar, List.count_nil] at hrest
        have hcons : keys.count '1' ≤ (key :: keys).count '1' := List.count_le_count_cons
        omega
      · rw [if_pos ⟨hstar, hD⟩, List.count_append] at hrest
        rw [List.count_cons]
        rw [List.count_singleton] at hrest
        omega

theorem length_verdicts (before keys : List Char) :
    (verdicts before keys).length = keys.count 'D' := by
  induction keys generalizing before with
  | nil => rfl
  | cons key keys ih =>
    rw [verdicts, List.count_cons]
    by_cases hD : key = 'D'
    · rw [if_pos hD, List.length_cons, ih, hD]
      rfl
    · rw [if_neg hD, ih, if_neg (by simpa using hD)]
      rfl

/-- The button with code 0 is the only one with a `1`, and that with code 15 the only `D`. -/
theorem codesOf_sketchLayout :
    codesOf sketchLayout '1' = {0} ∧ codesOf sketchLayout 'D' = {15} := by
  decide

/-- However the buttons are pressed or bounce: the node passes at most one message for each
closing of `D`, and four closings of `1` for each grant. -/
theorem messages_bounded (turns : List Turn) :
    let scans := (Matrix.boot.reads sketchLayout (turns.map Turn.scan)).map Prod.fst
    (messages .boot turns).length ≤ closings sketchLayout 15 false scans ∧
      4 * (messages .boot turns).count "ACCESS GRANTED".toList ≤
        closings sketchLayout 0 false scans := by
  intro scans
  have hmessages : messages .boot turns = verdicts [] (returned Matrix.boot turns) :=
    messages_eq_verdicts Matrix.boot [] turns
  have hcount : ∀ key : Char, key ≠ NO_KEY → (returned Matrix.boot turns).count key ≤
      ∑ code ∈ codesOf sketchLayout key, closings sketchLayout code false scans := by
    intro key hkey
    have hreturned := count_returned_le (Matrix.Keypad.sound_boot sketchLayout)
      (turns.map Turn.scan) hkey
    unfold returned
    rw [List.count_filter (p := fun k => decide (k ≠ NO_KEY)) (decide_eq_true hkey)]
    exact hreturned
  have hD := hcount 'D' (by decide)
  have hone := hcount '1' (by decide)
  rw [codesOf_sketchLayout.2, Finset.sum_singleton] at hD
  rw [codesOf_sketchLayout.1, Finset.sum_singleton] at hone
  have hpaid := four_mul_count_le [] (returned Matrix.boot turns)
  have hnone : (typed []).count '1' = 0 := rfl
  rw [hmessages, length_verdicts]
  exact ⟨hD, by omega⟩

end HomeMonitor.Keypad
