import Mathlib.Data.List.TakeWhile
import Mathlib.Tactic.Common

/-! The first marked letter of a word splits it in one way only. -/
namespace HomeMonitor.Text

variable {α : Type*} {mark : α → Bool}

theorem takeWhile_unmarked {w t : List α} {z : α} (hw : w.countP mark = 0) (hz : mark z) :
    (w ++ z :: t).takeWhile (fun a => ! mark a) = w := by
  have hall : ∀ a ∈ w, (! mark a) = true := by
    intro a ha
    simpa using List.countP_eq_zero.mp hw a ha
  rw [List.takeWhile_append_of_pos hall, List.takeWhile_cons_of_neg (by simp [hz]), List.append_nil]

theorem append_mark_inj {w w' t t' : List α} {z z' : α} (hw : w.countP mark = 0)
    (hw' : w'.countP mark = 0) (hz : mark z) (hz' : mark z')
    (h : w ++ z :: t = w' ++ z' :: t') : w = w' ∧ z :: t = z' :: t' := by
  have hfirst : w = w' := by
    rw [← takeWhile_unmarked (t := t) hw hz, ← takeWhile_unmarked (t := t') hw' hz', h]
  rw [hfirst] at h
  exact ⟨hfirst, List.append_cancel_left h⟩

theorem append_letter_inj [DecidableEq α] {a : α} {x y s t : List α} (hx : a ∉ x) (hy : a ∉ y)
    (h : x ++ a :: s = y ++ a :: t) : x = y ∧ s = t := by
  have hcount : ∀ w : List α, a ∉ w → w.countP (· == a) = 0 := by
    intro w hw
    rw [List.countP_eq_zero]
    intro b hb hba
    rw [beq_iff_eq] at hba
    exact hw (hba ▸ hb)
  obtain ⟨hxy, hst⟩ := append_mark_inj (hcount x hx) (hcount y hy) (beq_self_eq_true a)
    (beq_self_eq_true a) h
  exact ⟨hxy, (List.cons_eq_cons.mp hst).2⟩

theorem suffix_behind (x : List α) (a : α) (t : List α) : t <:+ x ++ a :: t :=
  (List.suffix_cons a t).trans (List.suffix_append x (a :: t))

/-- The first occurrence of a letter in a word of two parts lies in one of them. -/
theorem append_eq_append_letter {a : α} {u v x t : List α} (hx : a ∉ x)
    (h : u ++ v = x ++ a :: t) :
    (∃ u', u = x ++ a :: u' ∧ t = u' ++ v) ∨
      (a ∉ u ∧ ∃ y, a ∉ y ∧ x = u ++ y ∧ v = y ++ a :: t) := by
  rcases List.append_eq_append_iff.mp h with ⟨y, rfl, hv⟩ | ⟨y, hu, hv⟩
  · rw [List.mem_append, not_or] at hx
    exact Or.inr ⟨hx.1, y, hx.2, rfl, hv⟩
  · cases y with
    | nil =>
      rw [List.append_nil] at hu
      exact Or.inr ⟨hu ▸ hx, [], by simp, by rw [hu, List.append_nil], hv.symm⟩
    | cons b u' =>
      obtain ⟨rfl, rfl⟩ := List.cons_eq_cons.mp hv
      exact Or.inl ⟨u', hu, rfl⟩

theorem mem_take_of_length_lt {a : α} {x : List α} {n : ℕ} (h : x.length < n) (t : List α) :
    a ∈ (x ++ a :: t).take n := by
  rw [List.take_append, List.mem_append]
  right
  rw [List.take_cons (by omega)]
  exact List.mem_cons_self

theorem append_of_unmarked {v w t rest : List α} {z : α} (hv : v.countP mark = 0) (hz : mark z)
    (h : v ++ rest = w ++ z :: t) : ∃ w', w = v ++ w' ∧ rest = w' ++ z :: t := by
  rcases List.append_eq_append_iff.mp h with ⟨w', hw, hrest⟩ | ⟨v', hvw, htail⟩
  · exact ⟨w', hw, hrest⟩
  · rcases v' with _ | ⟨a, v'⟩
    · exact ⟨[], by simpa using hvw.symm, by simpa using htail.symm⟩
    · obtain ⟨rfl, -⟩ := List.cons_eq_cons.mp htail
      rw [List.countP_eq_zero] at hv
      exact absurd hz (hv z (by rw [hvw]; simp))

/-- The index of a letter is the length of what precedes its first occurrence. -/
theorem idxOf?_eq_some_split [BEq α] [LawfulBEq α] {s : List α} {a : α} {i : ℕ} :
    s.idxOf? a = some i ↔ ∃ x y, s = x ++ a :: y ∧ a ∉ x ∧ x.length = i := by
  rw [List.idxOf?_eq_some_iff]
  constructor
  · rintro ⟨h, hat, hbefore⟩
    refine ⟨s.take i, s.drop (i + 1), ?_, ?_, by simp; omega⟩
    · rw [← hat, ← List.drop_eq_getElem_cons h, List.take_append_drop]
    · intro hmem
      obtain ⟨j, hj, hja⟩ := List.getElem_of_mem hmem
      rw [List.length_take] at hj
      rw [List.getElem_take] at hja
      exact hbefore j (by omega) hja
  · rintro ⟨x, y, rfl, hx, rfl⟩
    refine ⟨by simp, by simp, fun j hj heq => hx ?_⟩
    rw [List.getElem_append_left hj] at heq
    exact heq ▸ List.getElem_mem hj

theorem idxOf?_eq_ite [DecidableEq α] (s : List α) (a : α) :
    s.idxOf? a = if a ∈ s then some (s.takeWhile (· ≠ a)).length else none := by
  induction s with
  | nil => rfl
  | cons b s ih =>
    rw [List.idxOf?_cons, ih]
    by_cases hb : b = a
    · simp [hb]
    · by_cases hmem : a ∈ s
      · simp [hb, hmem]
      · simp [hb, hmem, Ne.symm hb]

theorem takeWhile_ne_eq_self [DecidableEq α] {s : List α} {a : α} (h : a ∉ s) :
    s.takeWhile (· ≠ a) = s := by
  rw [List.takeWhile_eq_self_iff]
  intro b hb
  exact decide_eq_true fun heq => h (heq ▸ hb)

theorem length_takeWhile_lt [DecidableEq α] {s : List α} {a : α} (h : a ∈ s) :
    (s.takeWhile (· ≠ a)).length < s.length := by
  have hidx := idxOf?_eq_ite s a
  rw [if_pos h] at hidx
  obtain ⟨hlt, -⟩ := List.idxOf?_eq_some_iff.mp hidx
  exact hlt

theorem take_length_takeWhile (p : α → Bool) (s : List α) :
    s.take (s.takeWhile p).length = s.takeWhile p :=
  (List.prefix_iff_eq_take.mp (List.takeWhile_prefix p)).symm

end HomeMonitor.Text
