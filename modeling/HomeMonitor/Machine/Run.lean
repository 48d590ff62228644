import Mathlib.Data.List.Induction
import Mathlib.Tactic.Common

/-! Runs of a deterministic machine: a step function folded over a sequence of events. -/
namespace HomeMonitor.Machine

variable {σ ε : Type*} (step : σ → ε → σ)

def run (s : σ) (es : List ε) : σ := es.foldl step s

@[simp] theorem run_nil (s : σ) : run step s [] = s := rfl

@[simp] theorem run_cons (s : σ) (e : ε) (es : List ε) :
    run step s (e :: es) = run step (step s e) es := rfl

theorem run_append (s : σ) (es es' : List ε) :
    run step s (es ++ es') = run step (run step s es) es' := List.foldl_append

/-- What every event keeps true of the history and the state holds after every run. -/
theorem run_history {R : List ε → σ → Prop} {s : σ} (start : R [] s)
    (next : ∀ es e, R es (run step s es) → R (es ++ [e]) (step (run step s es) e))
    (es : List ε) : R es (run step s es) := by
  induction es using List.reverseRecOn with
  | nil => exact start
  | append_singleton es e ih =>
    rw [run_append]
    exact next es e ih

/-- What each index keeps true of the number of the indices before it and the state holds after
a loop over a range. -/
theorem run_range {step : σ → ℕ → σ} {P : ℕ → σ → Prop} {s : σ} {n : ℕ} (start : P 0 s)
    (next : ∀ i s, i < n → P i s → P (i + 1) (step s i)) : P n (run step s (List.range n)) := by
  induction n with
  | zero => exact start
  | succ n ih =>
    rw [List.range_succ, run_append]
    exact next n _ (by omega) (ih fun i s hi => next i s (by omega))

/-- A component that some events set to a value of their own and that the others leave alone
holds the last of these values. -/
theorem run_last {β : Type*} (get : σ → β) (value : ε → β) (sets : ε → Bool)
    (h : ∀ s e, get (step s e) = if sets e then value e else get s) (s : σ) (es : List ε) :
    get (run step s es) = ((es.filter sets).getLast?.map value).getD (get s) := by
  induction es using List.reverseRecOn with
  | nil => rfl
  | append_singleton es e ih =>
    rw [run_append, run_cons, run_nil, h, ih, List.filter_append]
    cases he : sets e with
    | false => simp [he]
    | true => simp [he]

/-- `Q` holds at every event of a run, of the state before the event and the event. -/
def Along (Q : σ → ε → Prop) (s : σ) (es : List ε) : Prop :=
  ∀ before e after, es = before ++ e :: after → Q (run step s before) e

theorem along_cons {Q : σ → ε → Prop} {s : σ} {e : ε} {es : List ε} :
    Along step Q s (e :: es) ↔ Q s e ∧ Along step Q (step s e) es := by
  constructor
  · intro h
    refine ⟨h [] e es rfl, fun before e' after hsplit => h (e :: before) e' after ?_⟩
    rw [hsplit]
    rfl
  · rintro ⟨hfirst, hrest⟩ before e' after hsplit
    cases before with
    | nil =>
      obtain ⟨rfl, -⟩ := List.cons.inj hsplit
      exact hfirst
    | cons d before =>
      obtain ⟨rfl, htail⟩ := List.cons.inj hsplit
      exact hrest before e' after htail

def total (f : σ → ε → ℕ) : σ → List ε → ℕ
  | _, [] => 0
  | s, e :: es => f s e + total f (step s e) es

theorem total_concat (f : σ → ε → ℕ) (s : σ) (es : List ε) (e : ε) :
    total step f s (es ++ [e]) = total step f s es + f (run step s es) e := by
  induction es generalizing s with
  | nil => exact Nat.add_comm ..
  | cons d es ih => rw [List.cons_append, total, total, ih, run_cons, Nat.add_assoc]

/-- If no event earns more than it is charged and takes out of the potential, no run
earns more than it is charged and than the potential it starts with. -/
theorem total_add_potential_le {I : σ → Prop} {earned charged : σ → ε → ℕ} (potential : σ → ℕ)
    (keeps : ∀ s e, I s → I (step s e))
    (pays : ∀ s e, I s → earned s e + potential (step s e) ≤ charged s e + potential s)
    {s : σ} (hs : I s) (es : List ε) :
    total step earned s es + potential (run step s es) ≤ total step charged s es + potential s := by
  induction es generalizing s with
  | nil => simp [total]
  | cons e es ih =>
    have hrest := ih (keeps s e hs)
    have hfirst := pays s e hs
    simp only [total, run_cons]
    omega

end HomeMonitor.Machine
