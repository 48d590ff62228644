import HomeMonitor.Machine.Run
import Mathlib.Data.List.InsertIdx
import Mathlib.Data.Nat.Basic
import Mathlib.Logic.Function.Basic

/-! Polling a state that changes: a request for a part of it is answered with what the part is at
that moment, and the answer comes back at a moment of its own. -/
namespace HomeMonitor.Machine

variable {σ τ ε κ α β : Type*}

/-- The state, the requests under way, oldest first, each with its answer if it has one, and what
was last shown of each part. -/
structure Polled (σ κ α : Type*) where
  source : σ
  polls : List (κ × Option α)
  shown : κ → α

inductive Polling (ε κ : Type*)
  | change (e : ε)
  | send (k : κ)
  | answer (i : ℕ)
  | receive (i : ℕ)
  | lose (i : ℕ)

def changes : List (Polling ε κ) → List ε
  | [] => []
  | .change e :: events => e :: changes events
  | _ :: events => changes events

theorem changes_append (events more : List (Polling ε κ)) :
    changes (events ++ more) = changes events ++ changes more := by
  induction events with
  | nil => rfl
  | cons e events ih =>
    cases e with
    | change e => exact congrArg (e :: ·) ih
    | _ => exact ih

namespace Polled

section step

variable [DecidableEq κ] (next : σ → ε → σ) (read : σ → κ → α)

def step (p : Polled σ κ α) : Polling ε κ → Polled σ κ α
  | .change e => { p with source := next p.source e }
  | .send k => { p with polls := p.polls ++ [(k, none)] }
  | .answer i =>
    match p.polls[i]? with
    | some (k, none) => { p with polls := p.polls.set i (k, some (read p.source k)) }
    | _ => p
  | .receive i =>
    match p.polls[i]? with
    | some (k, some a) =>
      { p with polls := p.polls.eraseIdx i, shown := Function.update p.shown k a }
    | _ => p
  | .lose i => { p with polls := p.polls.eraseIdx i }

def start (s : σ) (loaded : κ → α) : Polled σ κ α := ⟨s, [], loaded⟩

theorem step_answer (p : Polled σ κ α) (i : ℕ) :
    (∃ k, p.polls[i]? = some (k, none) ∧ step next read p (.answer i : Polling ε κ) =
        { p with polls := p.polls.set i (k, some (read p.source k)) }) ∨
      step next read p (.answer i : Polling ε κ) = p := by
  unfold step
  dsimp only
  rcases p.polls[i]? with _ | ⟨k, _ | a⟩
  · exact Or.inr rfl
  · exact Or.inl ⟨k, rfl, rfl⟩
  · exact Or.inr rfl

/-- The answer of a request is shown and the request is over, or nothing happens. -/
theorem step_receive (p : Polled σ κ α) (i : ℕ) :
    (∃ k a, p.polls[i]? = some (k, some a) ∧ step next read p (.receive i : Polling ε κ) =
        { p with polls := p.polls.eraseIdx i, shown := Function.update p.shown k a }) ∨
      step next read p (.receive i : Polling ε κ) = p := by
  unfold step
  dsimp only
  rcases p.polls[i]? with _ | ⟨k, _ | a⟩
  · exact Or.inr rfl
  · exact Or.inr rfl
  · exact Or.inl ⟨k, a, rfl, rfl⟩

theorem source_step (p : Polled σ κ α) (e : Polling ε κ) :
    (step next read p e).source = run next p.source (changes [e]) := by
  cases e with
  | change e => rfl
  | send k => rfl
  | lose i => rfl
  | answer i =>
    rcases step_answer next read p i with ⟨k, -, hstep⟩ | hstep
    · rw [hstep]
      rfl
    · rw [hstep]
      rfl
  | receive i =>
    rcases step_receive next read p i with ⟨k, a, -, hstep⟩ | hstep
    · rw [hstep]
      rfl
    · rw [hstep]
      rfl

theorem source_run (p : Polled σ κ α) (events : List (Polling ε κ)) :
    (run (step next read) p events).source = run next p.source (changes events) := by
  induction events generalizing p with
  | nil => rfl
  | cons e events ih =>
    rw [run_cons, ih, source_step, ← run_append, ← changes_append]
    rfl

/-- Another state with other values, in the places of those of `p`. -/
def map (f : κ → α → β) (t : τ) (p : Polled σ κ α) : Polled τ κ β where
  source := t
  polls := p.polls.map fun q => (q.1, q.2.map (f q.1))
  shown k := f k (p.shown k)

/-- The polling of moments: the state is how often it has changed, and an answer is the moment at
which it was given, counted from one. -/
def stepMoments : Polled ℕ κ ℕ → Polling ε κ → Polled ℕ κ ℕ :=
  step (fun n _ => n + 1) fun n _ => n + 1

/-- What is shown of a part since a moment of a history. -/
def seen (s : σ) (loaded : κ → α) (history : List ε) (k : κ) : ℕ → α
  | 0 => loaded k
  | n + 1 => read (run next s (history.take n)) k

end step

/-- The requests for a part are answered in the order in which they were sent, and what comes back
is the answer of the oldest of them. -/
def InTurn (p : Polled σ κ α) : Polling ε κ → Prop
  | .answer i => ∀ k, p.polls[i]? = some (k, none) →
    ∀ q ∈ p.polls.drop (i + 1), q.1 = k → q.2 = none
  | .receive i => ∀ k a, p.polls[i]? = some (k, some a) → ∀ q ∈ p.polls.take i, q.1 ≠ k
  | _ => True

/-- The moments that are on their way: not before what is shown, and in order. -/
structure InOrder (p : Polled ℕ κ ℕ) : Prop where
  shown : ∀ k, p.shown k ≤ p.source + 1
  answered : ∀ q ∈ p.polls, ∀ n, q.2 = some n → p.shown q.1 ≤ n ∧ n ≤ p.source + 1
  sorted : p.polls.Pairwise fun q q' => q.1 = q'.1 →
    ∀ m n, q.2 = some m → q'.2 = some n → m ≤ n

theorem eq_take_append_drop {l : List α} {i : ℕ} {a : α} (h : l[i]? = some a) :
    l = l.take i ++ a :: l.drop (i + 1) := by
  obtain ⟨hi, rfl⟩ := List.getElem?_eq_some_iff.mp h
  rw [List.getElem_cons_drop, List.take_append_drop]

section order

variable {p : Polled ℕ κ ℕ}

theorem InOrder.answer (h : InOrder p) {i : ℕ} {k : κ} (hk : p.polls[i]? = some (k, none))
    (hturn : ∀ q ∈ p.polls.drop (i + 1), q.1 = k → q.2 = none) :
    InOrder { p with polls := p.polls.set i (k, some (p.source + 1)) } := by
  have hsplit := eq_take_append_drop hk
  have hset : p.polls.set i (k, some (p.source + 1)) =
      p.polls.take i ++ (k, some (p.source + 1)) :: p.polls.drop (i + 1) := by
    obtain ⟨hi, -⟩ := List.getElem?_eq_some_iff.mp hk
    rw [List.set_eq_take_append_cons_drop, if_pos hi]
  have hsorted := h.sorted
  rw [hsplit, List.pairwise_append, List.pairwise_cons] at hsorted
  obtain ⟨hfront, ⟨-, hback⟩, hcross⟩ := hsorted
  refine ⟨h.shown, ?_, ?_⟩
  · intro q hq n hn
    rcases List.mem_or_eq_of_mem_set hq with hq | rfl
    · exact h.answered q hq n hn
    · cases hn
      exact ⟨h.shown k, le_rfl⟩
  · show List.Pairwise _ (p.polls.set i _)
    rw [hset, List.pairwise_append, List.pairwise_cons]
    refine ⟨hfront, ⟨?_, hback⟩, ?_⟩
    · intro q hq hkey m n _ hn
      rw [hturn q hq hkey.symm] at hn
      cases hn
    · intro q hq q' hq'
      rcases List.mem_cons.mp hq' with rfl | hq'
      · intro _ m n hm hn
        cases hn
        exact (h.answered q (List.mem_of_mem_take hq) m hm).2
      · exact hcross q hq q' (List.mem_cons_of_mem _ hq')

variable [DecidableEq κ]

theorem InOrder.receive (h : InOrder p) {i : ℕ} {k : κ} {a : ℕ}
    (hk : p.polls[i]? = some (k, some a)) (hturn : ∀ q ∈ p.polls.take i, q.1 ≠ k) :
    InOrder { p with polls := p.polls.eraseIdx i, shown := Function.update p.shown k a } ∧
      ∀ k', p.shown k' ≤ Function.update p.shown k a k' := by
  obtain ⟨hle, hnow⟩ := h.answered _ (List.mem_of_getElem? hk) a rfl
  have hsub := List.eraseIdx_sublist p.polls i
  have hsorted := h.sorted
  rw [eq_take_append_drop hk, List.pairwise_append, List.pairwise_cons] at hsorted
  obtain ⟨-, ⟨hnext, -⟩, -⟩ := hsorted
  refine ⟨⟨?_, ?_, h.sorted.sublist hsub⟩, ?_⟩
  · intro k'
    show Function.update p.shown k a k' ≤ _
    rw [Function.update_apply]
    split_ifs
    · exact hnow
    · exact h.shown k'
  · intro q hq n hn
    obtain ⟨hshown, hsource⟩ := h.answered q (hsub.subset hq) n hn
    refine ⟨?_, hsource⟩
    show Function.update p.shown k a q.1 ≤ n
    rw [Function.update_apply]
    split_ifs with hkey
    · -- an answer to a request for the same part is behind this one
      rw [List.eraseIdx_eq_take_drop_succ] at hq
      rcases List.mem_append.mp hq with hq | hq
      · exact absurd hkey (hturn q hq)
      · exact hnext q hq hkey.symm a n rfl hn
    · exact hshown
  · intro k'
    rw [Function.update_apply]
    split_ifs with hkey
    · rw [hkey]
      exact hle
    · exact le_rfl

theorem InOrder.step (h : InOrder p) {e : Polling ε κ} (hturn : InTurn p e) :
    InOrder (stepMoments p e) ∧ ∀ k, p.shown k ≤ (stepMoments p e).shown k := by
  cases e with
  | change e =>
    refine ⟨⟨fun k => le_trans (h.shown k) (Nat.le_succ _), fun q hq n hn => ?_, h.sorted⟩,
      fun k => le_rfl⟩
    obtain ⟨hle, hnow⟩ := h.answered q hq n hn
    exact ⟨hle, le_trans hnow (Nat.le_succ _)⟩
  | send k =>
    refine ⟨⟨h.shown, fun q hq n hn => ?_, ?_⟩, fun k => le_rfl⟩
    · rcases List.mem_append.mp hq with hq | hq
      · exact h.answered q hq n hn
      · rw [List.mem_singleton.mp hq] at hn
        cases hn
    · refine List.pairwise_append.mpr ⟨h.sorted, List.pairwise_singleton _ _, ?_⟩
      intro q _ q' hq' _ m n _ hn
      rw [List.mem_singleton.mp hq'] at hn
      cases hn
  | lose i =>
    have hsub := List.eraseIdx_sublist p.polls i
    exact ⟨⟨h.shown, fun q hq => h.answered q (hsub.subset hq), h.sorted.sublist hsub⟩,
      fun k => le_rfl⟩
  | answer i =>
    rcases step_answer (fun n (_ : ε) => n + 1) (fun n _ => n + 1) p i with ⟨k, hk, hstep⟩ | hstep
    · unfold stepMoments
      rw [hstep]
      exact ⟨h.answer hk (hturn k hk), fun k => le_rfl⟩
    · unfold stepMoments
      rw [hstep]
      exact ⟨h, fun k => le_rfl⟩
  | receive i =>
    rcases step_receive (fun n (_ : ε) => n + 1) (fun n _ => n + 1) p i with
      ⟨k, a, hk, hstep⟩ | hstep
    · unfold stepMoments
      rw [hstep]
      exact h.receive hk (hturn k a hk)
    · unfold stepMoments
      rw [hstep]
      exact ⟨h, fun k => le_rfl⟩

theorem InOrder.run (h : InOrder p) {events : List (Polling ε κ)}
    (hturn : Along stepMoments InTurn p events) :
    InOrder (Machine.run stepMoments p events) ∧
      ∀ k, p.shown k ≤ (Machine.run stepMoments p events).shown k := by
  induction events generalizing p with
  | nil => exact ⟨h, fun k => le_rfl⟩
  | cons e events ih =>
    obtain ⟨hfirst, hrest⟩ := (along_cons stepMoments).mp hturn
    obtain ⟨hstep, hle⟩ := h.step hfirst
    obtain ⟨hrun, hle'⟩ := ih hstep hrest
    exact ⟨hrun, fun k => le_trans (hle k) (hle' k)⟩

end order

section run

variable [DecidableEq κ] (next : σ → ε → σ) (read : σ → κ → α)

/-- All answers to requests for a part are the same. -/
def Agree (k : κ) (v : α) (p : Polled σ κ α) : Prop :=
  ∀ q ∈ p.polls, q.1 = k → ∀ a, q.2 = some a → a = v

variable {next read} {p : Polled σ κ α} {k : κ} {v : α}

/-- While a part stays as it is, the answers agree on it, and once it is shown it stays so. -/
theorem Agree.step (h : Agree k v p) (hread : read p.source k = v) (e : Polling ε κ) :
    Agree k v (step next read p e) ∧ (p.shown k = v → (step next read p e).shown k = v) := by
  cases e with
  | change e => exact ⟨h, id⟩
  | send k' =>
    refine ⟨fun q hq hkey a ha => ?_, id⟩
    rcases List.mem_append.mp hq with hq | hq
    · exact h q hq hkey a ha
    · rw [List.mem_singleton.mp hq] at ha
      cases ha
  | lose i => exact ⟨fun q hq => h q ((List.eraseIdx_sublist p.polls i).subset hq), id⟩
  | answer i =>
    rcases step_answer next read p i with ⟨k', -, hstep⟩ | hstep
    · rw [hstep]
      refine ⟨fun q hq hkey a ha => ?_, id⟩
      rcases List.mem_or_eq_of_mem_set hq with hq | rfl
      · exact h q hq hkey a ha
      · cases ha
        rw [← hread, ← hkey]
    · rw [hstep]
      exact ⟨h, id⟩
  | receive i =>
    rcases step_receive next read p i with ⟨k', a, hk, hstep⟩ | hstep
    · rw [hstep]
      refine ⟨fun q hq => h q ((List.eraseIdx_sublist p.polls i).subset hq), fun hshown => ?_⟩
      show Function.update p.shown k' a k = v
      rw [Function.update_apply]
      split_ifs with hkey
      · exact h _ (List.mem_of_getElem? hk) hkey.symm a rfl
      · exact hshown
    · rw [hstep]
      exact ⟨h, id⟩

theorem Agree.run (h : Agree k v p) {events : List (Polling ε κ)}
    (hread : ∀ front, front <+: changes events → read (Machine.run next p.source front) k = v) :
    Agree k v (Machine.run (Polled.step next read) p events) ∧
      (p.shown k = v → (Machine.run (Polled.step next read) p events).shown k = v) := by
  induction events generalizing p with
  | nil => exact ⟨h, id⟩
  | cons e events ih =>
    obtain ⟨hagree, hshown⟩ := h.step (hread [] List.nil_prefix) e
    have hrest : ∀ front, front <+: changes events →
        read (Machine.run next (Polled.step next read p e).source front) k = v := by
      intro front hfront
      rw [source_step, ← run_append]
      apply hread
      show _ <+: changes ([e] ++ events)
      rw [changes_append]
      exact List.prefix_append_right_inj _ |>.mpr hfront
    obtain ⟨hrun, hshown'⟩ := ih hagree hrest
    exact ⟨hrun, fun h => hshown' (hshown h)⟩

theorem shown_receive {i : ℕ} {a : α} (h : p.polls[i]? = some (k, some a)) :
    (step next read p (.receive i : Polling ε κ)).shown k = a := by
  unfold step
  dsimp only
  rw [h]
  exact Function.update_self ..

/-- If no request for a part is under way, the part stays as it is, and the answer of a request for
it comes back, then it is shown as it is. -/
theorem shown_of_received {before after : List (Polling ε κ)} {i : ℕ} {a : α}
    (hfree : ∀ q ∈ p.polls, q.1 ≠ k)
    (hread : ∀ front, front <+: changes (before ++ .receive i :: after) →
      read (Machine.run next p.source front) k = v)
    (hreceived : (Machine.run (step next read) p before).polls[i]? = some (k, some a)) :
    (Machine.run (step next read) p (before ++ .receive i :: after)).shown k = v := by
  have hbefore : ∀ front, front <+: changes before →
      read (Machine.run next p.source front) k = v := by
    intro front hfront
    apply hread
    rw [changes_append]
    exact hfront.trans (List.prefix_append _ _)
  have hafter : ∀ front, front <+: changes after →
      read (Machine.run next (Machine.run (step next read) p before).source front) k = v := by
    intro front hfront
    rw [source_run, ← run_append]
    apply hread
    rw [changes_append]
    exact List.prefix_append_right_inj _ |>.mpr hfront
  have hstart : Agree k v p := fun q hq hkey => absurd hkey (hfree q hq)
  obtain ⟨hagree, -⟩ := hstart.run hbefore
  have hvalue : a = v := hagree _ (List.mem_of_getElem? hreceived) rfl a rfl
  obtain ⟨hnext, -⟩ := hagree.step (hafter [] List.nil_prefix) (.receive i)
  have hshown : (step next read (Machine.run (step next read) p before)
      (.receive i : Polling ε κ)).shown k = v := (shown_receive hreceived).trans hvalue
  have hsource : (step next read (Machine.run (step next read) p before)
      (.receive i : Polling ε κ)).source = (Machine.run (step next read) p before).source :=
    source_step ..
  rw [run_append, run_cons]
  exact (hnext.run (hsource ▸ hafter)).2 hshown

end run

end Polled
end HomeMonitor.Machine
