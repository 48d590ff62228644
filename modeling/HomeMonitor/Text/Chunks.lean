import HomeMonitor.Machine.Run
import Mathlib.Tactic.IntervalCases

/-! A body that comes in chunks. Each chunk stands behind a line with its length to the base
16, and a chunk of length 0 ends the body. It is read letter by letter. -/
namespace HomeMonitor.Text.Chunks
open HomeMonitor.Machine

def digit? (c : Char) : Option ℕ := (List.range 16).find? fun d => d.digitChar = c.toLower

/-- Where the reader stands. The numbers are the length of the chunk that begins, as far as it
is read, and in `data` how many of its letters are missing. -/
inductive Phase
  | size (length : Option ℕ)
  | blanks (length : ℕ)
  | sized (length : ℕ)
  | data (missing : ℕ)
  | whole
  | last
  | closed
  | ended
  | failed
  deriving DecidableEq, Repr

structure Reader where
  phase : Phase
  body : List Char
  deriving DecidableEq, Repr

def Phase.behind (n : ℕ) (c : Char) : Phase :=
  if c = ' ' then .blanks n else if c = '\r' then .sized n else .failed

def Phase.next : Phase → Char → Phase
  | .size length, c =>
    match digit? c with
    | some d => .size (some (16 * length.getD 0 + d))
    | none => length.elim .failed fun n => .behind n c
  | .blanks n, c => .behind n c
  | .sized n, c => if c = '\n' then (if n = 0 then .last else .data n) else .failed
  | .data 0, c => if c = '\r' then .whole else .failed
  | .data (n + 1), _ => .data n
  | .whole, c => if c = '\n' then .size none else .failed
  | .last, c => if c = '\r' then .closed else .failed
  | .closed, c => if c = '\n' then .ended else .failed
  | .ended, _ => .failed
  | .failed, _ => .failed

def next (r : Reader) (c : Char) : Reader where
  phase := r.phase.next c
  body :=
    match r.phase with
    | .data (_ + 1) => r.body ++ [c]
    | _ => r.body

def read (text : List Char) : Reader := run next ⟨.size none, []⟩ text

/-- A chunk as it is written, its length filled up with blanks. -/
def chunk (width : ℕ) (data : List Char) : List Char :=
  List.rightpad width ' ' (Nat.toDigits 16 data.length) ++
    '\r' :: '\n' :: (data ++ ['\r', '\n'])

theorem digit?_digitChar {d : ℕ} (h : d < 16) : digit? d.digitChar = some d := by
  interval_cases d <;> decide

theorem run_digit {d : ℕ} (h : d < 16) (length : Option ℕ) (body rest : List Char) :
    run next ⟨.size length, body⟩ (d.digitChar :: rest) =
      run next ⟨.size (some (16 * length.getD 0 + d)), body⟩ rest := by
  have hphase : (Phase.size length).next d.digitChar =
      .size (some (16 * length.getD 0 + d)) := by
    simp only [Phase.next, digit?_digitChar h]
  rw [run_cons, next, hphase]

theorem run_digits (n : ℕ) (body rest : List Char) :
    run next ⟨.size none, body⟩ (Nat.toDigits 16 n ++ rest) =
      run next ⟨.size (some n), body⟩ rest := by
  induction n using Nat.strong_induction_on generalizing rest with
  | h n ih =>
    rw [Nat.toDigits_eq_if (by omega)]
    by_cases hn : n < 16
    · rw [if_pos hn, List.singleton_append, run_digit hn, Option.getD_none, Nat.mul_zero,
        Nat.zero_add]
    · have hdigit : n % 16 < 16 := Nat.mod_lt n (by omega)
      have hsplit : 16 * (n / 16) + n % 16 = n := Nat.div_add_mod n 16
      rw [if_neg hn, List.append_assoc, ih (n / 16) (by omega), List.singleton_append,
        run_digit hdigit, Option.getD_some, hsplit]

theorem run_blanks (n k : ℕ) (body rest : List Char) :
    run next ⟨.blanks n, body⟩ (List.replicate k ' ' ++ '\r' :: rest) =
      run next ⟨.sized n, body⟩ rest := by
  induction k with
  | zero => rfl
  | succ k ih =>
    rw [List.replicate_succ, List.cons_append, run_cons]
    exact ih

theorem run_size (width n : ℕ) (body rest : List Char) :
    run next ⟨.size none, body⟩
        (List.rightpad width ' ' (Nat.toDigits 16 n) ++ '\r' :: '\n' :: rest) =
      run next ⟨if n = 0 then .last else .data n, body⟩ rest := by
  unfold List.rightpad
  rw [List.append_assoc, run_digits]
  have hsized : run next ⟨.sized n, body⟩ ('\n' :: rest) =
      run next ⟨if n = 0 then .last else .data n, body⟩ rest := rfl
  cases width - (Nat.toDigits 16 n).length with
  | zero => exact hsized
  | succ k =>
    rw [List.replicate_succ, List.cons_append, run_cons]
    exact (run_blanks n k body _).trans hsized

theorem run_data (data body rest : List Char) :
    run next ⟨.data data.length, body⟩ (data ++ rest) =
      run next ⟨.data 0, body ++ data⟩ rest := by
  induction data generalizing body with
  | nil => rw [List.append_nil]; rfl
  | cons c data ih =>
    rw [List.cons_append, run_cons]
    change run next ⟨.data data.length, body ++ [c]⟩ (data ++ rest) = _
    rw [ih, List.append_assoc, List.singleton_append]

theorem run_chunk (width : ℕ) {data : List Char} (h : data ≠ []) (body rest : List Char) :
    run next ⟨.size none, body⟩ (chunk width data ++ rest) =
      run next ⟨.size none, body ++ data⟩ rest := by
  have hlength : data.length ≠ 0 := fun hzero => h (List.length_eq_zero_iff.mp hzero)
  unfold chunk
  rw [List.append_assoc, List.cons_append, List.cons_append, List.append_assoc, run_size,
    if_neg hlength, run_data]
  rfl

theorem read_chunks (width : ℕ) {parts : List (List Char)} (h : ∀ part ∈ parts, part ≠ []) :
    read (parts.flatMap (chunk width)) = ⟨.size none, parts.flatten⟩ := by
  have hrun : ∀ body, run next ⟨.size none, body⟩ (parts.flatMap (chunk width)) =
      ⟨.size none, body ++ parts.flatten⟩ := by
    induction parts with
    | nil => intro body; rw [List.flatten_nil, List.append_nil]; rfl
    | cons part parts ih =>
      intro body
      rw [List.flatMap_cons, run_chunk width (h part List.mem_cons_self),
        ih fun p hp => h p (List.mem_cons_of_mem _ hp), List.flatten_cons, List.append_assoc]
  exact hrun []

theorem read_chunks_ended (width : ℕ) {parts : List (List Char)} (h : ∀ part ∈ parts, part ≠ []) :
    read (parts.flatMap (chunk width) ++ chunk width []) = ⟨.ended, parts.flatten⟩ := by
  have hopen := read_chunks width h
  unfold read at hopen ⊢
  rw [run_append, hopen]
  unfold chunk
  rw [List.length_nil, run_size, if_pos rfl]
  rfl

end HomeMonitor.Text.Chunks
