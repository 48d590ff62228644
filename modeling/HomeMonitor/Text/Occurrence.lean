import Mathlib.Data.List.Infix
import Mathlib.Tactic.Common

/-! First and last occurrences of a pattern in a list, and occurrences of a
two-letter pattern across a concatenation. -/
namespace HomeMonitor.Text

variable {α : Type*}

def OccursAt (pat s : List α) (i : ℕ) : Prop := pat <+: s.drop i

instance [DecidableEq α] (pat s : List α) (i : ℕ) : Decidable (OccursAt pat s i) :=
  inferInstanceAs (Decidable (pat <+: s.drop i))

theorem occursAt_cons_succ (pat s : List α) (a : α) (i : ℕ) :
    OccursAt pat (a :: s) (i + 1) ↔ OccursAt pat s i := by
  simp only [OccursAt, List.drop_succ_cons]

theorem infix_iff_occursAt (pat s : List α) : pat <:+: s ↔ ∃ i, OccursAt pat s i := by
  constructor
  · rintro ⟨pre, post, rfl⟩
    exact ⟨pre.length, post, by simp⟩
  · rintro ⟨i, hi⟩
    exact hi.isInfix.trans (List.drop_suffix i s).isInfix

theorem occursAt_append (pat pre post : List α) : OccursAt pat (pre ++ pat ++ post) pre.length :=
  ⟨post, by simp⟩

theorem OccursAt.split {pat s : List α} {i : ℕ} (h : OccursAt pat s i) (hp : pat ≠ []) :
    s = s.take i ++ pat ++ s.drop (i + pat.length) ∧ i + pat.length ≤ s.length := by
  obtain ⟨post, hpost⟩ := h
  have hlen := congrArg List.length hpost
  have hpos := List.length_pos_of_ne_nil hp
  simp only [List.length_append, List.length_drop] at hlen
  have hdrop : s.drop (i + pat.length) = post := by
    rw [← List.drop_drop, ← hpost, List.drop_left]
  refine ⟨?_, by omega⟩
  rw [hdrop, List.append_assoc, hpost, List.take_append_drop]

theorem occursAt_pair (a b : α) (s : List α) (i : ℕ) :
    OccursAt [a, b] s i ↔ s[i]? = some a ∧ s[i + 1]? = some b := by
  unfold OccursAt
  have h0 : (s.drop i)[0]? = s[i]? := by simp
  have h1 : (s.drop i)[1]? = s[i + 1]? := by simp
  rw [← h0, ← h1]
  cases s.drop i with
  | nil => simp
  | cons x t => cases t <;> simp [List.cons_prefix_cons, eq_comm]

theorem OccursAt.pair_split {a b : α} {s : List α} {i : ℕ} (h : OccursAt [a, b] s i) :
    ∃ pre post, s = pre ++ a :: b :: post ∧ pre.length = i := by
  obtain ⟨hs, hlen⟩ := h.split (by simp)
  simp only [List.length_cons, List.length_nil] at hs hlen
  exact ⟨s.take i, s.drop (i + 2), by simpa using hs, by simp; omega⟩

theorem pair_infix_iff (a b : α) (s : List α) :
    [a, b] <:+: s ↔ ∃ i, s[i]? = some a ∧ s[i + 1]? = some b := by
  simp only [infix_iff_occursAt, occursAt_pair]

theorem not_pair_infix_of_left_not_mem {a : α} (b : α) {s : List α} (h : a ∉ s) :
    ¬ [a, b] <:+: s := fun hs => h (hs.subset (by simp))

theorem not_pair_infix_of_right_not_mem (a : α) {b : α} {s : List α} (h : b ∉ s) :
    ¬ [a, b] <:+: s := fun hs => h (hs.subset (by simp))

/-- A two-letter pattern in a concatenation lies in one part or across the seam. -/
theorem pair_infix_append (a b : α) (s t : List α) :
    [a, b] <:+: s ++ t ↔
      [a, b] <:+: s ∨ [a, b] <:+: t ∨ (s.getLast? = some a ∧ t.head? = some b) := by
  constructor
  · rw [pair_infix_iff]
    rintro ⟨i, ha, hb⟩
    rcases lt_trichotomy (i + 1) s.length with hi | hi | hi
    · rw [List.getElem?_append_left (by omega)] at ha hb
      exact Or.inl ((pair_infix_iff a b s).mpr ⟨i, ha, hb⟩)
    · rw [List.getElem?_append_left (by omega)] at ha
      rw [List.getElem?_append_right (by omega)] at hb
      refine Or.inr (Or.inr ⟨?_, ?_⟩)
      · rw [List.getLast?_eq_getElem?, show s.length - 1 = i by omega, ha]
      · rw [List.head?_eq_getElem?, ← hb, hi, Nat.sub_self]
    · rw [List.getElem?_append_right (by omega)] at ha hb
      refine Or.inr (Or.inl ((pair_infix_iff a b t).mpr ⟨i - s.length, ha, ?_⟩))
      rwa [show i - s.length + 1 = i + 1 - s.length by omega]
  · rintro (h | h | ⟨hs, ht⟩)
    · exact h.trans (List.prefix_append s t).isInfix
    · exact h.trans (List.suffix_append s t).isInfix
    · obtain ⟨s', rfl⟩ := List.getLast?_eq_some_iff.mp hs
      obtain ⟨t', rfl⟩ := List.head?_eq_some_iff.mp ht
      exact ⟨s', t', by simp⟩

theorem not_pair_infix_concat {a : α} (b : α) {s : List α} (h : a ∉ s) :
    ¬ [a, b] <:+: s ++ [a] := by
  have hlast : s.getLast? ≠ some a := fun hs => h (List.mem_of_getLast? hs)
  rw [pair_infix_append]
  simp [not_pair_infix_of_left_not_mem b h, hlast, List.infix_cons_iff]

theorem pair_infix_skip_right {a b c : α} {s : List α} (t : List α) (hs : a ∉ s) (hb : c ≠ b)
    (ha : c ≠ a) : [a, b] <:+: s ++ a :: c :: t ↔ [a, b] <:+: t := by
  have hhere : ¬ [a, b] <+: a :: c :: t := by simp [List.cons_prefix_cons, Ne.symm hb]
  have hnext : ¬ [a, b] <+: c :: t := by simp [List.cons_prefix_cons, Ne.symm ha]
  have hlast : s.getLast? ≠ some a := fun h => hs (List.mem_of_getLast? h)
  rw [pair_infix_append, List.infix_cons_iff, List.infix_cons_iff]
  simp [not_pair_infix_of_left_not_mem b hs, hhere, hnext, hlast]

theorem pair_infix_skip_left {a b c : α} {s : List α} (t : List α) (hs : b ∉ s) (ha : c ≠ a)
    (hb : c ≠ b) (hab : a ≠ b) : [a, b] <:+: s ++ c :: b :: t ↔ [a, b] <:+: t := by
  have hhere : ¬ [a, b] <+: c :: b :: t := by simp [List.cons_prefix_cons, Ne.symm ha]
  have hnext : ¬ [a, b] <+: b :: t := by simp [List.cons_prefix_cons, hab]
  rw [pair_infix_append, List.infix_cons_iff, List.infix_cons_iff]
  simp [not_pair_infix_of_right_not_mem a hs, hhere, hnext, hb]

variable [DecidableEq α]

def first? (pat : List α) : List α → Option ℕ
  | [] => if pat = [] then some 0 else none
  | a :: s => if pat <+: a :: s then some 0 else (first? pat s).map (· + 1)

def last? (pat : List α) : List α → Option ℕ
  | [] => if pat = [] then some 0 else none
  | a :: s =>
    match last? pat s with
    | some i => some (i + 1)
    | none => if pat <+: a :: s then some 0 else none

theorem first?_eq_none_iff (pat s : List α) : first? pat s = none ↔ ¬ pat <:+: s := by
  induction s with
  | nil => simp [first?]
  | cons a s ih =>
    rw [List.infix_cons_iff, not_or, ← ih, first?]
    split_ifs with h0 <;> simp [h0]

theorem last?_eq_none_iff (pat s : List α) : last? pat s = none ↔ ¬ pat <:+: s := by
  induction s with
  | nil => simp [last?]
  | cons a s ih =>
    rw [List.infix_cons_iff, not_or, ← ih, last?]
    cases last? pat s <;> simp

theorem first?_eq_some_iff (pat s : List α) (hp : pat ≠ []) (i : ℕ) :
    first? pat s = some i ↔ OccursAt pat s i ∧ ∀ j < i, ¬ OccursAt pat s j := by
  induction s generalizing i with
  | nil => simp [first?, hp, OccursAt]
  | cons a s ih =>
    rw [first?]
    split_ifs with h0
    · constructor
      · intro hi
        cases hi
        exact ⟨h0, by omega⟩
      · rintro ⟨-, hmin⟩
        cases i with
        | zero => rfl
        | succ i => exact absurd h0 (hmin 0 (by omega))
    · cases i with
      | zero =>
        have hnot : ¬ OccursAt pat (a :: s) 0 := h0
        simp [hnot]
      | succ i =>
        have hstep : (first? pat s).map (· + 1) = some (i + 1) ↔ first? pat s = some i := by simp
        rw [hstep, ih, occursAt_cons_succ]
        refine and_congr_right fun _ => ⟨fun h j hj => ?_, fun h j hj => ?_⟩
        · cases j with
          | zero => exact h0
          | succ j => rw [occursAt_cons_succ]; exact h j (by omega)
        · rw [← occursAt_cons_succ pat s a]; exact h (j + 1) (by omega)

theorem last?_eq_some_iff (pat s : List α) (hp : pat ≠ []) (i : ℕ) :
    last? pat s = some i ↔ OccursAt pat s i ∧ ∀ j, i < j → ¬ OccursAt pat s j := by
  induction s generalizing i with
  | nil => simp [last?, hp, OccursAt]
  | cons a s ih =>
    rw [last?]
    cases hl : last? pat s with
    | none =>
      have hnone : ∀ j, ¬ OccursAt pat s j := by
        have := (last?_eq_none_iff pat s).mp hl
        rwa [infix_iff_occursAt, not_exists] at this
      have hlater : ∀ j, 0 < j → ¬ OccursAt pat (a :: s) j := by
        rintro (_ | j) hj
        · omega
        · rw [occursAt_cons_succ]; exact hnone j
      cases i with
      | zero =>
        constructor
        · intro h
          exact ⟨by by_contra h0; exact absurd h (by simp [show ¬ pat <+: a :: s from h0]), hlater⟩
        · rintro ⟨h0, -⟩
          simp [show pat <+: a :: s from h0]
      | succ i =>
        constructor
        · intro h; split_ifs at h; simp at h
        · rintro ⟨h, -⟩; exact absurd h (hlater _ (by omega))
    | some k =>
      have hk := (ih k).mp hl
      simp only [Option.some.injEq]
      cases i with
      | zero =>
        constructor
        · intro h; omega
        · rintro ⟨-, h⟩
          exact absurd ((occursAt_cons_succ pat s a k).mpr hk.1) (h (k + 1) (by omega))
      | succ i =>
        have hki : k + 1 = i + 1 ↔ last? pat s = some i := by rw [hl]; simp
        rw [hki, ih, occursAt_cons_succ]
        refine and_congr_right fun _ => ⟨fun h j hj => ?_, fun h j hj => ?_⟩
        · cases j with
          | zero => omega
          | succ j => rw [occursAt_cons_succ]; exact h j (by omega)
        · rw [← occursAt_cons_succ pat s a]; exact h (j + 1) (by omega)

/-- The first occurrence of a two-letter pattern splits the list, with none before it. -/
theorem first?_pair_eq_some_iff (a b : α) (s : List α) (i : ℕ) :
    first? [a, b] s = some i ↔
      ∃ pre post, s = pre ++ a :: b :: post ∧ pre.length = i ∧ ¬ [a, b] <:+: pre ++ [a] := by
  rw [first?_eq_some_iff _ _ (by simp)]
  constructor
  · rintro ⟨hocc, hmin⟩
    obtain ⟨pre, post, rfl, rfl⟩ := hocc.pair_split
    refine ⟨pre, post, rfl, rfl, fun hin => ?_⟩
    obtain ⟨j, hja, hjb⟩ := (pair_infix_iff _ _ _).mp hin
    have hj := (List.getElem?_eq_some_iff.mp hjb).1
    simp only [List.length_append, List.length_cons, List.length_nil] at hj
    refine hmin j (by omega) ((occursAt_pair _ _ _ _).mpr ⟨?_, ?_⟩)
    · rw [← hja]; grind
    · rw [← hjb]; grind
  · rintro ⟨pre, post, rfl, rfl, h⟩
    refine ⟨by simpa using occursAt_append [a, b] pre post, fun j hj hocc => h ?_⟩
    obtain ⟨hja, hjb⟩ := (occursAt_pair _ _ _ _).mp hocc
    refine (pair_infix_iff _ _ _).mpr ⟨j, ?_, ?_⟩
    · rw [← hja]; grind
    · rw [← hjb]; grind

/-- The last occurrence of a two-letter pattern splits the list, with none after it. -/
theorem last?_pair_eq_some_iff (a b : α) (s : List α) (i : ℕ) :
    last? [a, b] s = some i ↔
      ∃ pre post, s = pre ++ a :: b :: post ∧ pre.length = i ∧ ¬ [a, b] <:+: b :: post := by
  rw [last?_eq_some_iff _ _ (by simp)]
  constructor
  · rintro ⟨hocc, hmax⟩
    obtain ⟨pre, post, rfl, rfl⟩ := hocc.pair_split
    refine ⟨pre, post, rfl, rfl, fun hin => ?_⟩
    obtain ⟨j, hja, hjb⟩ := (pair_infix_iff _ _ _).mp hin
    refine hmax (pre.length + 1 + j) (by omega) ((occursAt_pair _ _ _ _).mpr ⟨?_, ?_⟩)
    · rw [← hja]; grind
    · rw [← hjb]; grind
  · rintro ⟨pre, post, rfl, rfl, h⟩
    refine ⟨by simpa using occursAt_append [a, b] pre post, fun j hj hocc => h ?_⟩
    obtain ⟨hja, hjb⟩ := (occursAt_pair _ _ _ _).mp hocc
    refine (pair_infix_iff _ _ _).mpr ⟨j - (pre.length + 1), ?_, ?_⟩
    · rw [← hja]; grind
    · rw [← hjb]; grind

end HomeMonitor.Text
