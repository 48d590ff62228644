import HomeMonitor.Keypad.Decisions

/-! The password automaton of the keypad: each decision as a property of the whole history
of keys. -/
namespace HomeMonitor.Keypad
open HomeMonitor.Arduino HomeMonitor.Machine

/-- The keys end in the given ones, entered since the last `*` or `D` or, without any, since
boot. -/
def SinceReset (keys typed : List Char) : Prop :=
  ∃ earlier, keys = earlier ++ typed ∧
    (earlier = [] ∨ earlier.getLast? = some '*' ∨ earlier.getLast? = some 'D') ∧
    ∀ c ∈ typed, c ≠ '*' ∧ c ≠ 'D'

def message (s : State) (p : Press) : Option Str := (handleKeypad s p.key p.attempt).2.map Prod.fst

private theorem rtakeWhile_eq_nil {earlier : List Char}
    (h : earlier = [] ∨ earlier.getLast? = some '*' ∨ earlier.getLast? = some 'D') :
    earlier.rtakeWhile (fun c => decide (c ≠ '*' ∧ c ≠ 'D')) = [] := by
  rcases h with rfl | h | h
  · rfl
  · obtain ⟨front, rfl⟩ := List.getLast?_eq_some_iff.mp h
    exact List.rtakeWhile_concat_neg _ _ _ (by decide)
  · obtain ⟨front, rfl⟩ := List.getLast?_eq_some_iff.mp h
    exact List.rtakeWhile_concat_neg _ _ _ (by decide)

private theorem rtakeWhile_append {earlier typed : List Char}
    (htyped : ∀ c ∈ typed, c ≠ '*' ∧ c ≠ 'D') :
    (earlier ++ typed).rtakeWhile (fun c => decide (c ≠ '*' ∧ c ≠ 'D')) =
      earlier.rtakeWhile (fun c => decide (c ≠ '*' ∧ c ≠ 'D')) ++ typed := by
  induction typed using List.reverseRecOn with
  | nil => rw [List.append_nil, List.append_nil]
  | append_singleton typed c ih =>
    have hc := htyped c (by simp)
    have hfront : ∀ d ∈ typed, d ≠ '*' ∧ d ≠ 'D' :=
      fun d hd => htyped d (List.mem_append_left _ hd)
    rw [← List.append_assoc, List.rtakeWhile_concat_pos _ _ _ (by simpa using hc), ih hfront,
      List.append_assoc]

private theorem sinceReset_rtakeWhile (keys : List Char) :
    SinceReset keys (keys.rtakeWhile fun c => decide (c ≠ '*' ∧ c ≠ 'D')) := by
  induction keys using List.reverseRecOn with
  | nil => exact ⟨[], rfl, Or.inl rfl, by simp⟩
  | append_singleton keys c ih =>
    by_cases hc : c ≠ '*' ∧ c ≠ 'D'
    · obtain ⟨earlier, hsplit, hreset, htyped⟩ := ih
      rw [List.rtakeWhile_concat_pos _ _ _ (by simpa using hc)]
      refine ⟨earlier, ?_, hreset, ?_⟩
      · rw [← List.append_assoc, ← hsplit]
      · intro d hd
        rcases List.mem_append.mp hd with hd | hd
        · exact htyped d hd
        · rw [List.mem_singleton.mp hd]
          exact hc
    · rw [List.rtakeWhile_concat_neg _ _ _ (by simpa using hc)]
      refine ⟨keys ++ [c], (List.append_nil _).symm, Or.inr ?_, by simp⟩
      rw [List.getLast?_concat, Option.some.injEq, Option.some.injEq]
      by_cases hstar : c = '*'
      · exact Or.inl hstar
      · exact Or.inr (not_not.mp fun hD => hc ⟨hstar, hD⟩)

theorem sinceReset_iff (presses : List Press) (typed : Str) :
    SinceReset (keys presses) typed ↔ entered presses = typed := by
  unfold entered
  constructor
  · rintro ⟨earlier, hsplit, hreset, htyped⟩
    rw [hsplit, rtakeWhile_append htyped, rtakeWhile_eq_nil hreset, List.nil_append]
  · rintro rfl
    exact sinceReset_rtakeWhile (keys presses)

theorem message_eq (presses : List Press) (p : Press) :
    message (run press boot presses) p =
      if p.key = 'D' then
        some (if entered presses = password then "ACCESS GRANTED".toList
          else "ACCESS DENIED".toList)
      else none := by
  unfold message
  split_ifs with hD hpw
  · rw [hD, handleKeypad_D, run_eq]
    unfold decision
    rw [if_pos hpw]
    rfl
  · rw [hD, handleKeypad_D, run_eq]
    unfold decision
    rw [if_neg hpw]
    rfl
  · rw [handleKeypad_of_ne_D _ hD]
    rfl

/-- A press passes a message exactly when it is a `D`: a grant if the keys since the last reset
are the password, a denial if they are anything else. -/
theorem message_iff (presses : List Press) (p : Press) :
    (message (run press boot presses) p = some "ACCESS GRANTED".toList ↔
      p.key = 'D' ∧ SinceReset (keys presses) password) ∧
    (message (run press boot presses) p = some "ACCESS DENIED".toList ↔
      p.key = 'D' ∧ ¬ SinceReset (keys presses) password) ∧
    (message (run press boot presses) p = none ↔ p.key ≠ 'D') ∧
    ∀ typed, SinceReset (keys presses) typed →
      (message (run press boot presses) p = some "ACCESS GRANTED".toList ↔
        p.key = 'D' ∧ typed = password) := by
  have hgranted : message (run press boot presses) p = some "ACCESS GRANTED".toList ↔
      p.key = 'D' ∧ entered presses = password := by
    rw [message_eq]
    split_ifs with hD hpw
    · simp [hD, hpw]
    · simp [hD, hpw]
    · simp [hD]
  have hdenied : message (run press boot presses) p = some "ACCESS DENIED".toList ↔
      p.key = 'D' ∧ entered presses ≠ password := by
    rw [message_eq]
    split_ifs with hD hpw
    · simp [hD, hpw]
    · simp [hD, hpw]
    · simp [hD]
  refine ⟨?_, ?_, ?_, ?_⟩
  · rw [sinceReset_iff, hgranted]
  · rw [sinceReset_iff, hdenied]
  · rw [message_eq]
    split_ifs with hD <;> simp [hD]
  · intro typed htyped
    rw [hgranted, (sinceReset_iff presses typed).mp htyped]

/-- The password after a star is granted, and a fifth digit denies it. -/
theorem message_iff_extension :
    (message (run press boot ("2*1111".toList.map fun key => ⟨key, ⟨5000, 5000, true⟩⟩))
        ⟨'D', ⟨5000, 5000, true⟩⟩ = some "ACCESS GRANTED".toList ↔
      'D' = 'D' ∧ "1111".toList = password) ∧
    (message (run press boot ("11111".toList.map fun key => ⟨key, ⟨5000, 5000, true⟩⟩))
        ⟨'D', ⟨5000, 5000, true⟩⟩ = some "ACCESS GRANTED".toList ↔
      'D' = 'D' ∧ "11111".toList = password) :=
  ⟨(message_iff _ _).2.2.2 _ ⟨"2*".toList, rfl, by decide, forall_mem_of_all (by decide)⟩,
    (message_iff _ _).2.2.2 _ ⟨[], rfl, by decide, forall_mem_of_all (by decide)⟩⟩

end HomeMonitor.Keypad
