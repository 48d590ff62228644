import HomeMonitor.Machine.Run

/-! A head of lines that ends with a blank line, and the body behind it, read letter by
letter. -/
namespace HomeMonitor.Text
open HomeMonitor.Machine

variable {α : Type*} [DecidableEq α] (newline : α) (clean : List α → List α)

/-- What has been read: the lines of a head that goes on and the start of the next line, or the
lines of a head that has ended and what of the body follows it. -/
inductive Head (α : Type*)
  | lines (done : List (List α)) (line : List α)
  | ended (done : List (List α)) (body : List α)
  deriving DecidableEq, Repr

/-- A line counts as what is left of it by `clean`, and is blank when that is nothing. -/
def Head.next : Head α → α → Head α
  | .lines done line, c =>
    if c = newline then
      if clean line = [] then .ended done [] else .lines (done ++ [clean line]) []
    else .lines done (line ++ [c])
  | .ended done body, c => .ended done (body ++ [c])

def Head.read (text : List α) : Head α := run (Head.next newline clean) (.lines [] []) text

namespace Head

theorem read_append (text text' : List α) :
    read newline clean (text ++ text') =
      run (next newline clean) (read newline clean text) text' := run_append ..

@[simp] theorem run_ended (done : List (List α)) (body text : List α) :
    run (next newline clean) (.ended done body) text = .ended done (body ++ text) := by
  induction text generalizing body with
  | nil => rw [List.append_nil]; rfl
  | cons c text ih => rw [run_cons, next, ih, List.append_assoc, List.singleton_append]

theorem read_append_of_ended {text : List α} {done : List (List α)} {body : List α}
    (h : read newline clean text = .ended done body) (text' : List α) :
    read newline clean (text ++ text') = .ended done (body ++ text') := by
  rw [read_append, h, run_ended]

theorem run_letters (done : List (List α)) (line : List α) {text : List α}
    (h : newline ∉ text) (rest : List α) :
    run (next newline clean) (.lines done line) (text ++ rest) =
      run (next newline clean) (.lines done (line ++ text)) rest := by
  induction text generalizing line with
  | nil => rw [List.nil_append, List.append_nil]
  | cons c text ih =>
    obtain ⟨hc, htext⟩ := not_or.mp (mt List.mem_cons.mpr h)
    rw [List.cons_append, run_cons, next, if_neg (Ne.symm hc), ih _ htext, List.append_assoc,
      List.singleton_append]

theorem run_lines (done : List (List α)) {lines : List (List α)}
    (h : ∀ line ∈ lines, newline ∉ line ∧ clean line ≠ []) (rest : List α) :
    run (next newline clean) (.lines done [])
        ((lines.flatMap fun line => line ++ [newline]) ++ rest) =
      run (next newline clean) (.lines (done ++ lines.map clean) []) rest := by
  induction lines generalizing done with
  | nil => rw [List.map_nil, List.append_nil]; rfl
  | cons line lines ih =>
    obtain ⟨hline, hclean⟩ := h line List.mem_cons_self
    rw [List.flatMap_cons, List.append_assoc, List.append_assoc, run_letters _ _ _ _ hline,
      List.nil_append, List.singleton_append, run_cons, next, if_pos rfl, if_neg hclean,
      ih _ fun l hl => h l (List.mem_cons_of_mem _ hl), List.map_cons, List.append_assoc,
      List.singleton_append]

theorem read_head {lines : List (List α)} (h : ∀ line ∈ lines, newline ∉ line ∧ clean line ≠ [])
    {blank : List α} (hblank : newline ∉ blank) (hclean : clean blank = []) (body : List α) :
    read newline clean
        ((lines.flatMap fun line => line ++ [newline]) ++ (blank ++ newline :: body)) =
      .ended (lines.map clean) body := by
  unfold read
  rw [run_lines _ _ _ h, run_letters _ _ _ _ hblank, run_cons, next, if_pos rfl, List.nil_append,
    if_pos hclean, run_ended, List.nil_append, List.nil_append]

def Within (text : List α) : Head α → Prop
  | .lines done line => (∀ l ∈ done, l ⊆ text) ∧ line ⊆ text
  | .ended done body => (∀ l ∈ done, l ⊆ text) ∧ body ⊆ text

theorem read_subset {clean : List α → List α} (hclean : ∀ l, clean l ⊆ l) (text : List α) :
    Within text (read newline clean text) := by
  apply run_history _ (R := Within)
  · exact ⟨by simp, by simp⟩
  · intro text c h
    have hleft : ∀ l : List α, l ⊆ text → l ⊆ text ++ [c] :=
      fun l hl => List.Subset.trans hl (List.subset_append_left _ _)
    have hadd : ∀ l : List α, l ⊆ text → l ++ [c] ⊆ text ++ [c] :=
      fun l hl => List.append_subset.mpr ⟨hleft l hl, List.subset_append_right _ _⟩
    cases hread : run (next newline clean) (.lines [] []) text with
    | lines done line =>
      rw [hread] at h
      obtain ⟨hdone, hline⟩ := h
      rw [next]
      split_ifs with hc hblank
      · exact ⟨fun l hl => hleft l (hdone l hl), by simp⟩
      · refine ⟨fun l hl => ?_, by simp⟩
        rcases List.mem_append.mp hl with hl | hl
        · exact hleft l (hdone l hl)
        · rw [List.mem_singleton.mp hl]
          exact hleft _ (List.Subset.trans (hclean line) hline)
      · exact ⟨fun l hl => hleft l (hdone l hl), hadd line hline⟩
    | ended done body =>
      rw [hread] at h
      exact ⟨fun l hl => hleft l (h.1 l hl), hadd body h.2⟩

end Head
end HomeMonitor.Text
