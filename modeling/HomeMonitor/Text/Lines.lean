import HomeMonitor.Text.Mark
import HomeMonitor.Text.Occurrence
import Mathlib.Algebra.Order.BigOperators.Group.List
import Mathlib.Algebra.Order.Group.Nat
import Mathlib.Algebra.GroupWithZero.Nat

/-! Texts as sequences of lines, each ended by one letter that no line holds. -/
namespace HomeMonitor.Text

variable {α : Type*} (e : α)

/-- The lines, each followed by the line end. -/
def unlines (lines : List (List α)) : List α := lines.flatMap fun line => line ++ [e]

@[simp] theorem unlines_nil : unlines e [] = [] := rfl

@[simp] theorem unlines_cons (line : List α) (lines : List (List α)) :
    unlines e (line :: lines) = line ++ e :: unlines e lines := by
  unfold unlines
  rw [List.flatMap_cons, List.append_assoc, List.singleton_append]

variable {e}

theorem prefix_of_unlines_prefix [DecidableEq α] {ls ms : List (List α)} (hls : ∀ l ∈ ls, e ∉ l)
    (hms : ∀ m ∈ ms, e ∉ m) (h : unlines e ls <+: unlines e ms) : ls <+: ms := by
  induction ls generalizing ms with
  | nil => exact List.nil_prefix
  | cons l ls ih =>
    obtain ⟨rest, hrest⟩ := h
    cases ms with
    | nil => simp at hrest
    | cons m ms =>
      rw [unlines_cons, unlines_cons, List.append_assoc, List.cons_append] at hrest
      obtain ⟨rfl, htail⟩ := append_letter_inj (hls l List.mem_cons_self)
        (hms m List.mem_cons_self) hrest
      rw [List.cons_prefix_cons]
      exact ⟨rfl, ih (fun k hk => hls k (List.mem_cons_of_mem _ hk))
        (fun k hk => hms k (List.mem_cons_of_mem _ hk)) ⟨rest, htail⟩⟩

theorem not_mem_of_mem_splitOn [DecidableEq α] {text part : List α}
    (h : part ∈ text.splitOn e) : e ∉ part := by
  induction text generalizing part with
  | nil => simp_all
  | cons c text ih =>
    rw [List.splitOn_cons_eq_if_modifyHead] at h
    split_ifs at h with hc
    · rcases List.mem_cons.mp h with rfl | h
      · exact List.not_mem_nil
      · exact ih h
    · cases hparts : text.splitOn e with
      | nil => exact absurd hparts (List.splitOn_ne_nil _ _)
      | cons first parts =>
        rw [hparts] at ih h
        rw [List.modifyHead_cons] at h
        rcases List.mem_cons.mp h with rfl | h
        · have hne : e ≠ c := fun hec => hc (by rw [hec]; exact beq_self_eq_true c)
          exact List.not_mem_cons_of_ne_of_not_mem hne (ih List.mem_cons_self)
        · exact ih (List.mem_cons_of_mem _ h)

theorem prefix_of_prefix_append_letter {pat x t : List α} (hpat : e ∉ pat)
    (h : pat <+: x ++ e :: t) : pat <+: x := by
  obtain ⟨rest, hrest⟩ := h
  rcases List.append_eq_append_iff.mp hrest with ⟨y, rfl, -⟩ | ⟨y, hy, htail⟩
  · exact List.prefix_append pat y
  · cases y with
    | nil =>
      rw [hy, List.append_nil]
    | cons c y =>
      obtain ⟨rfl, -⟩ := List.cons_eq_cons.mp htail
      exact absurd (by rw [hy]; simp) hpat

/-- A pattern that is in none of the lines is found behind them at the earliest. -/
theorem not_occursAt_unlines {pat : List α} (hpat : e ∉ pat) {lines : List (List α)}
    (h : ∀ l ∈ lines, ¬ pat <:+: l) (tail : List α) {i : ℕ} (hi : i < (unlines e lines).length) :
    ¬ OccursAt pat (unlines e lines ++ tail) i := by
  induction lines generalizing i with
  | nil => exact absurd hi (Nat.not_lt_zero _)
  | cons l lines ih =>
    intro hocc
    rw [unlines_cons, List.append_assoc, List.cons_append] at hocc
    unfold OccursAt at hocc
    by_cases hil : i ≤ l.length
    · rw [List.drop_append_of_le_length hil] at hocc
      have hin := (prefix_of_prefix_append_letter hpat hocc).isInfix
      exact h l List.mem_cons_self (hin.trans (List.drop_suffix i l).isInfix)
    · obtain ⟨j, rfl⟩ := Nat.exists_eq_add_of_lt (not_le.mp hil)
      rw [Nat.add_assoc, List.drop_length_add_append, List.drop_succ_cons] at hocc
      refine ih (fun k hk => h k (List.mem_cons_of_mem _ hk)) ?_ hocc
      rw [unlines_cons, List.length_append, List.length_cons] at hi
      omega

private theorem eq_of_sum_le {β : Type*} {g k : β → ℕ} {s : List β} (hle : ∀ b ∈ s, g b ≤ k b)
    (hsum : (s.map k).sum ≤ (s.map g).sum) : ∀ b ∈ s, g b = k b := by
  induction s with
  | nil => simp
  | cons b s ih =>
    have hb := hle b List.mem_cons_self
    have hrest : ∀ c ∈ s, g c ≤ k c := fun c hc => hle c (List.mem_cons_of_mem _ hc)
    have hle' := List.sum_le_sum hrest
    simp only [List.map_cons, List.sum_cons] at hsum
    intro c hc
    rcases List.mem_cons.mp hc with rfl | hc
    · omega
    · exact ih hrest (by omega) c hc

private theorem sum_map_flatMap {β : Type*} (f : β → List α) (w : α → ℕ) (s : List β) :
    ((s.flatMap f).map w).sum = (s.map fun b => ((f b).map w).sum).sum := by
  induction s with
  | nil => rfl
  | cons b s ih =>
    rw [List.flatMap_cons, List.map_append, List.sum_append, ih, List.map_cons, List.sum_cons]

/-- Letters are rewritten to words that are no heavier. If the words begin with the letters
one after the other, then none of them is lighter than its letter. -/
theorem weight_eq_of_prefix_flatMap {β : Type*} {f : β → List α} {label : β → α} {s : List β}
    (h : s.map label <+: s.flatMap f) (w : α → ℕ)
    (hw : ∀ b ∈ s, ((f b).map w).sum ≤ w (label b)) :
    ∀ b ∈ s, ((f b).map w).sum = w (label b) := by
  apply eq_of_sum_le hw
  obtain ⟨rest, hrest⟩ := h
  rw [← sum_map_flatMap, ← hrest, List.map_append, List.sum_append, List.map_map]
  exact Nat.le_add_right _ _

end HomeMonitor.Text
