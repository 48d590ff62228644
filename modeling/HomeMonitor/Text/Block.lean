import Mathlib.Data.List.Flatten
import Mathlib.Tactic.Common

/-! Block codes: every letter is written as a word of one fixed length. -/
namespace HomeMonitor.Text

variable {α β : Type*} {f : α → List β} {n : ℕ}

theorem length_flatMap_block (hlen : ∀ a, (f a).length = n) (s : List α) :
    (s.flatMap f).length = n * s.length := by
  induction s with
  | nil => rfl
  | cons a s ih =>
    rw [List.flatMap_cons, List.length_append, hlen, ih, List.length_cons, Nat.mul_succ,
      Nat.add_comm]

/-- A block code is uniquely decodable, also between sequences of different lengths. -/
theorem flatMap_injective_of_block (hn : 0 < n) (hlen : ∀ a, (f a).length = n)
    (hinj : Function.Injective f) : Function.Injective (List.flatMap f) := by
  intro s t h
  induction s generalizing t with
  | nil =>
    cases t with
    | nil => rfl
    | cons b t =>
      have hl := congrArg List.length h
      rw [length_flatMap_block hlen, length_flatMap_block hlen] at hl
      have hpos := Nat.mul_pos hn (Nat.succ_pos t.length)
      simp only [List.length_nil, List.length_cons, Nat.mul_zero, Nat.succ_eq_add_one] at hl hpos
      omega
  | cons a s ih =>
    cases t with
    | nil =>
      have hl := congrArg List.length h
      rw [length_flatMap_block hlen, length_flatMap_block hlen] at hl
      have hpos := Nat.mul_pos hn (Nat.succ_pos s.length)
      simp only [List.length_nil, List.length_cons, Nat.mul_zero, Nat.succ_eq_add_one] at hl hpos
      omega
    | cons b t =>
      rw [List.flatMap_cons, List.flatMap_cons] at h
      obtain ⟨hab, hst⟩ := List.append_inj h (by rw [hlen, hlen])
      rw [hinj hab, ih hst]

end HomeMonitor.Text
