import HomeMonitor.Machine.Run
import HomeMonitor.Sketch.Keypad
import HomeMonitor.Framing.Extract
import Mathlib.Data.List.DropRight

/-! The decisions of the keypad over a run of key presses. -/
namespace HomeMonitor.Keypad
open HomeMonitor.Arduino HomeMonitor.Machine HomeMonitor.Framing

/-- A key press and what a `requestHost` call during it would meet. -/
structure Press where
  key : Char
  attempt : Attempt
  deriving DecidableEq, Repr

def press (s : State) (p : Press) : State := (handleKeypad s p.key p.attempt).1

def sent (s : State) (p : Press) : Str :=
  match (handleKeypad s p.key p.attempt).2 with
  | some (_, result) => result.text
  | none => []

def keys (presses : List Press) : List Char := (presses.map Press.key).filter (· ≠ NUL)

/-- The keys since the last `*` or `D`. -/
def entered (presses : List Press) : Str :=
  (keys presses).rtakeWhile fun c => c ≠ '*' ∧ c ≠ 'D'

/-- The true time at which the last attempt that passed the window was recorded, zero
before the first. -/
def lastAttempt (presses : List Press) : ℕ :=
  presses.foldl
    (fun last p =>
      if p.key = 'D' ∧ WindowOpen last p.attempt.check then p.attempt.record else last) 0

theorem entered_concat (presses : List Press) (p : Press) :
    entered (presses ++ [p]) =
      if p.key = NUL then entered presses
      else if p.key = '*' ∨ p.key = 'D' then []
      else entered presses ++ [p.key] := by
  unfold entered keys
  rw [List.map_append, List.filter_append, List.map_singleton]
  by_cases hnul : p.key = NUL
  · simp [hnul]
  · rw [if_neg hnul, List.filter_cons_of_pos (by simpa using hnul), List.filter_nil,
      List.rtakeWhile_concat]
    split_ifs with h1 h2 h2 <;> simp_all

theorem lastAttempt_concat (presses : List Press) (p : Press) :
    lastAttempt (presses ++ [p]) =
      if p.key = 'D' ∧ WindowOpen (lastAttempt presses) p.attempt.check then p.attempt.record
      else lastAttempt presses := by
  unfold lastAttempt
  rw [List.foldl_concat]

def decision (s : State) : Str :=
  if s.input_password = password then "ACCESS GRANTED".toList else "ACCESS DENIED".toList

theorem handleKeypad_D (s : State) (a : Attempt) :
    handleKeypad s 'D' a =
      let r := requestHost s.previousRequest (decision s) a
      (⟨[], r.1⟩, some (decision s, r.2)) := by
  have hpw : equalsString password s.input_password = decide (s.input_password = password) := by
    rw [Bool.eq_iff_iff, decide_eq_true_eq]
    unfold equalsString
    rw [cstr_eq_self (by decide : NUL ∉ password), Bool.and_eq_true, beq_iff_eq, beq_iff_eq]
    constructor
    · rintro ⟨hlen, hs⟩
      exact ((hs ▸ cstr_isPrefix _).eq_of_length hlen).symm
    · rintro h
      rw [h]
      exact ⟨rfl, rfl⟩
  unfold handleKeypad decision
  rw [if_pos (by decide), if_neg (by decide), if_pos rfl, hpw]
  simp only [decide_eq_true_eq]

theorem handleKeypad_of_ne_D (s : State) {key : Char} (h : key ≠ 'D') (a : Attempt) :
    (handleKeypad s key a).2 = none := by
  unfold handleKeypad
  split_ifs <;> rfl

/-- The state holds the keys since the last `*` or `D` and, in 32 bits, the time of the
last attempt. -/
theorem run_eq (presses : List Press) :
    run press boot presses = ⟨entered presses, BitVec.ofNat 32 (lastAttempt presses)⟩ := by
  apply run_history press (R := fun presses s =>
    s = ⟨entered presses, BitVec.ofNat 32 (lastAttempt presses)⟩)
  · rfl
  · intro presses p h
    rw [h, entered_concat, lastAttempt_concat]
    unfold press
    by_cases hD : p.key = 'D'
    · rw [hD, handleKeypad_D]
      unfold requestHost
      dsimp only
      rw [limited_eq, if_neg (by decide : 'D' ≠ NUL), if_pos (Or.inr rfl)]
      by_cases hw : WindowOpen (lastAttempt presses) p.attempt.check
      · simp only [hw, and_self, if_true]
        rfl
      · simp only [hw, and_false, if_false]
    · unfold handleKeypad
      by_cases hnul : p.key = NUL
      · simp [hnul, (by decide : NUL ≠ 'D')]
      by_cases hstar : p.key = '*'
      · simp [hstar, (by decide : '*' ≠ NUL)]
      · simp [hnul, hstar, hD]

/-- A `D` on the correct password reports the grant to the server or leaves the
password entered. -/
def DecisionKept (s : State) (p : Press) : Prop :=
  p.key = 'D' → s.input_password = password →
    frame 'k' "ACCESS GRANTED".toList <:+: sent s p ∨ (press s p).input_password = password

theorem sent_granted (presses : List Press) (p : Press) (hD : p.key = 'D')
    (hpw : entered presses = password) :
    sent (run press boot presses) p =
      if WindowOpen (lastAttempt presses) p.attempt.check ∧ p.attempt.connects then
        println (requestText "ACCESS GRANTED".toList)
      else [] := by
  unfold sent
  rw [run_eq, hD, handleKeypad_D]
  unfold requestHost decision
  rw [if_pos hpw]
  dsimp only
  rw [limited_eq]
  split_ifs <;> simp_all [HostResult.text]

theorem frame_infix_granted :
    frame 'k' "ACCESS GRANTED".toList <:+: println (requestText "ACCESS GRANTED".toList) :=
  ⟨"c[KeypadNode]c".toList, " \r\r\n".toList, by decide⟩

theorem decisionKept_iff (presses : List Press) (p : Press) :
    DecisionKept (run press boot presses) p ↔
      (p.key = 'D' → entered presses = password →
        WindowOpen (lastAttempt presses) p.attempt.check ∧ p.attempt.connects) := by
  have hinput : (run press boot presses).input_password = entered presses := by rw [run_eq]
  unfold DecisionKept
  rw [hinput]
  apply forall_congr'
  intro hD
  apply forall_congr'
  intro hpw
  rw [sent_granted presses p hD hpw]
  have hcleared : (press (run press boot presses) p).input_password ≠ password := by
    unfold press
    rw [hD, handleKeypad_D]
    exact (by decide : ([] : Str) ≠ password)
  constructor
  · intro h
    by_contra hlost
    rw [if_neg hlost] at h
    rcases h with h | h
    · exact absurd (List.infix_nil.mp h) (by decide)
    · exact hcleared h
  · intro h
    rw [if_pos h]
    exact Or.inl frame_infix_granted

/-- In a run of presses no decision is lost exactly when every `D` on the correct
password finds the window open and reaches the server. -/
theorem decisionsKept_iff (presses : List Press) :
    Along press DecisionKept boot presses ↔
      ∀ before p after, presses = before ++ p :: after →
        p.key = 'D' → entered before = password →
          WindowOpen (lastAttempt before) p.attempt.check ∧ p.attempt.connects := by
  unfold Along
  apply forall_congr'
  intro before
  apply forall_congr'
  intro p
  apply forall_congr'
  intro after
  rw [decisionKept_iff]

/-- Presses come one after the other. -/
def InOrder (presses : List Press) : Prop :=
  (presses.flatMap fun p => [p.attempt.check, p.attempt.record]).Pairwise (· ≤ ·)

instance (presses : List Press) : Decidable (InOrder presses) :=
  inferInstanceAs (Decidable (List.Pairwise _ _))

/-- The correct password within a second of the start, and the correct password while
the server is not reached, are consumed and not reported. -/
theorem decisionsKept_counterexample :
    (InOrder ("1111D".toList.map fun key => ⟨key, 500, 500, true⟩) ∧
      ¬ Along press DecisionKept boot ("1111D".toList.map fun key => ⟨key, 500, 500, true⟩)) ∧
    (InOrder ("1111D".toList.map fun key => ⟨key, 5000, 5000, false⟩) ∧
      ¬ Along press DecisionKept boot
        ("1111D".toList.map fun key => ⟨key, 5000, 5000, false⟩)) := by
  refine ⟨⟨by decide, fun h => ?_⟩, ⟨by decide, fun h => ?_⟩⟩
  · have hlost := h ("1111".toList.map fun key => ⟨key, 500, 500, true⟩)
      ⟨'D', 500, 500, true⟩ [] rfl rfl (by decide)
    exact absurd hlost (by decide)
  · have hlost := h ("1111".toList.map fun key => ⟨key, 5000, 5000, false⟩)
      ⟨'D', 5000, 5000, false⟩ [] rfl rfl (by decide)
    exact absurd hlost (by decide)

end HomeMonitor.Keypad
