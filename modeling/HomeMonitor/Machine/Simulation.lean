import HomeMonitor.Machine.Run
import Mathlib.Algebra.GroupWithZero.Nat
import Mathlib.Data.List.ReduceOption

/-! Machines with outputs, and their simulation by a transition system that leaves more
open. -/
namespace HomeMonitor.Machine

variable {σ ε ο α l : Type*}

def outputs (step : σ → ε → ο × σ) : σ → List ε → List ο
  | _, [] => []
  | s, e :: es => (step s e).1 :: outputs step (step s e).2 es

theorem outputs_concat (step : σ → ε → ο × σ) (s : σ) (es : List ε) (e : ε) :
    outputs step s (es ++ [e]) =
      outputs step s es ++ [(step (run (fun s e => (step s e).2) s es) e).1] := by
  induction es generalizing s with
  | nil => rfl
  | cons d es ih => rw [List.cons_append, outputs, outputs, ih, run_cons, List.cons_append]

/-- A component that an event sets to its output, where it has one, and leaves alone otherwise
holds the last output of the run. -/
theorem run_getLast? {β : Type*} (step : σ → ε → Option β × σ) (get : σ → Option β)
    (h : ∀ s e, get (step s e).2 = (step s e).1.or (get s)) (s : σ) (es : List ε) :
    get (run (fun s e => (step s e).2) s es) =
      (outputs step s es).reduceOption.getLast?.or (get s) := by
  induction es using List.reverseRecOn with
  | nil => rfl
  | append_singleton es e ih =>
    rw [run_append, run_cons, run_nil, h, ih, outputs_concat, List.reduceOption_append,
      List.reduceOption_singleton, List.getLast?_append, Option.or_assoc]
    cases (step (run (fun s e => (step s e).2) s es) e).1 with
    | none => rfl
    | some b => rfl

/-- The events of a run that are seen by an observer, with their outputs. -/
def observed (step : σ → ε → ο × σ) (seen : σ → ε → Bool) : σ → List ε → List (ε × ο)
  | _, [] => []
  | s, e :: es =>
    if seen s e then (e, (step s e).1) :: observed step seen (step s e).2 es
    else observed step seen (step s e).2 es

/-- If the other events have no output of interest, then no output of interest is missed. -/
theorem filter_outputs {step : σ → ε → ο × σ} {seen : σ → ε → Bool} {keep : ο → Bool}
    (silent : ∀ s e, seen s e = false → keep (step s e).1 = false) (s : σ) (es : List ε) :
    (outputs step s es).filter keep =
      ((observed step seen s es).map Prod.snd).filter keep := by
  induction es generalizing s with
  | nil => rfl
  | cons e es ih =>
    rw [outputs, observed]
    cases hseen : seen s e with
    | true =>
      rw [if_pos rfl, List.map_cons, List.filter_cons, List.filter_cons, ih]
    | false =>
      rw [if_neg Bool.false_ne_true, List.filter_cons, silent s e hseen,
        if_neg Bool.false_ne_true, ih]

/-- A machine that puts out a text piece by piece: after any events, their amounts say how much
of it is out. -/
theorem outputs_flatten {β : Type*} {step : σ → ε → List β × σ} {Owes : List β → σ → Prop}
    {amount : ε → ℕ} {es : List ε}
    (pays : ∀ e ∈ es, ∀ rest s, Owes rest s →
      (step s e).1 = rest.take (amount e) ∧ Owes (rest.drop (amount e)) (step s e).2)
    {rest : List β} {s : σ} (h : Owes rest s) :
    (outputs step s es).flatten = rest.take (es.map amount).sum ∧
      Owes (rest.drop (es.map amount).sum) (run (fun s e => (step s e).2) s es) := by
  induction es generalizing rest s with
  | nil => exact ⟨rfl, h⟩
  | cons e es ih =>
    obtain ⟨hout, hnext⟩ := pays e List.mem_cons_self rest s h
    obtain ⟨houts, hend⟩ := ih (fun e' he => pays e' (List.mem_cons_of_mem e he)) hnext
    rw [outputs, List.flatten_cons, List.map_cons, List.sum_cons, run_cons, hout, houts]
    rw [List.drop_drop] at hend
    exact ⟨List.take_add.symm, hend⟩

/-- The runs of a transition system with labelled steps. -/
inductive Trace (Step : α → l → α → Prop) : α → List l → α → Prop
  | nil (a : α) : Trace Step a [] a
  | cons {a a' a'' : α} {label : l} {labels : List l} (first : Step a label a')
    (rest : Trace Step a' labels a'') : Trace Step a (label :: labels) a''

theorem Trace.exists_of_append {Step : α → l → α → Prop} {a a'' : α} {labels labels' : List l}
    (h : Trace Step a (labels ++ labels') a'') :
    ∃ a', Trace Step a labels a' ∧ Trace Step a' labels' a'' := by
  induction labels generalizing a with
  | nil => exact ⟨a, .nil a, h⟩
  | cons label labels ih =>
    cases h with
    | cons first rest =>
      obtain ⟨a', hfront, hback⟩ := ih rest
      exact ⟨a', .cons first hfront, hback⟩

/-- If the events that are seen are matched by steps and the others change nothing that a
relation says, then what is seen of a run is a run of the transition system. -/
theorem exists_trace {step : σ → ε → ο × σ} {seen : σ → ε → Bool}
    {Step : α → ε × ο → α → Prop} {R : α → σ → Prop}
    (matched : ∀ a s e, seen s e → R a s → ∃ a', Step a (e, (step s e).1) a' ∧ R a' (step s e).2)
    (silent : ∀ a s e, seen s e = false → R a s → R a (step s e).2)
    {a : α} {s : σ} (h : R a s) (es : List ε) :
    ∃ a', Trace Step a (observed step seen s es) a' ∧
      R a' (run (fun s e => (step s e).2) s es) := by
  induction es generalizing a s with
  | nil => exact ⟨a, .nil a, h⟩
  | cons e es ih =>
    rw [observed]
    cases hseen : seen s e with
    | true =>
      obtain ⟨a₁, hstep, h₁⟩ := matched a s e hseen h
      obtain ⟨a₂, hrest, h₂⟩ := ih h₁
      exact ⟨a₂, .cons hstep hrest, h₂⟩
    | false => exact ih (silent a s e hseen h)

end HomeMonitor.Machine
