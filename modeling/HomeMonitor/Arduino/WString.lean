import HomeMonitor.Text.Occurrence
import Mathlib.Algebra.Group.Nat.Defs
import Mathlib.Data.List.TakeWhile
import Mathlib.Order.Lattice

/-! The Arduino `String` operations the sketches call. A string is its list of
bytes; the C search functions stop at the first NUL. -/
namespace HomeMonitor.Arduino
open HomeMonitor.Text

abbrev Str := List Char

/-- A check of the letters of one text, not of all letters. -/
theorem forall_mem_of_all {p : Char → Prop} [DecidablePred p] {s : Str}
    (h : s.all (fun c => decide (p c)) = true) : ∀ c ∈ s, p c := by
  intro c hc
  exact of_decide_eq_true (List.all_eq_true.mp h c hc)

/-- The letters of a literal, where the literal is unfolded to them. -/
theorem toList_literal {s : String} {l : Str} (h : s = String.ofList l) : s.toList = l := by
  rw [h, String.toList_ofList]

def NUL : Char := '\x00'
def CR : Char := '\r'

def UINT_MAX : ℕ := 2 ^ 32 - 1

/-- The part of a string that `strstr` and `strcmp` see. -/
def cstr (s : Str) : Str := s.takeWhile (· ≠ NUL)

theorem cstr_eq_self {s : Str} (h : NUL ∉ s) : cstr s = s := by
  unfold cstr
  rw [List.takeWhile_eq_self_iff]
  intro c hc
  simp only [decide_eq_true_eq]
  rintro rfl
  exact h hc

theorem cstr_isPrefix (s : Str) : cstr s <+: s := List.takeWhile_prefix _

/-- `String::indexOf(const String&)`: −1 when the pattern is absent. -/
def indexOf (s pat : Str) : ℤ :=
  if s.length = 0 then -1
  else
    match first? pat (cstr s) with
    | some i => i
    | none => -1

/-- `String::lastIndexOf(const String&)`: −1 when the pattern is absent. -/
def lastIndexOf (s pat : Str) : ℤ :=
  if pat.length = 0 ∨ s.length = 0 ∨ pat.length > s.length then -1
  else
    match last? pat (cstr s) with
    | some i => i
    | none => -1

/-- An `int` passed as `unsigned int`. A negative index becomes `UINT_MAX`, and no
string on the device is longer than that. -/
def toUnsigned (s : Str) (i : ℤ) : ℕ :=
  if 0 ≤ i then i.toNat else max s.length UINT_MAX

/-- `String::substring(left, right)`: the bounds are swapped when out of order and
clamped to the length. -/
def substring (s : Str) (left right : ℤ) : Str :=
  let l := toUnsigned s left
  let r := toUnsigned s right
  (s.take (max l r)).drop (min l r)

/-- `String == const char*`, a `strcmp`. -/
def equalsLiteral (s lit : Str) : Bool := cstr s == lit

/-- `String == const String&`: equal lengths and a `strcmp`. -/
def equalsString (s t : Str) : Bool := s.length == t.length && cstr s == cstr t

def println (s : Str) : Str := s ++ "\r\n".toList

/-- `Stream::readStringUntil`: the bytes before the terminator, out of those that
arrive before the timeout. -/
def readStringUntil (terminator : Char) (arrived : Str) : Str :=
  arrived.takeWhile (· ≠ terminator)

theorem indexOf_eq {s : Str} (h : NUL ∉ s) (pat : Str) (hp : pat ≠ []) :
    indexOf s pat = (match first? pat s with | some i => (i : ℤ) | none => -1) := by
  unfold indexOf
  rw [cstr_eq_self h]
  split_ifs with h0
  · rw [List.length_eq_zero_iff.mp h0]
    simp [first?, hp]
  · rfl

theorem lastIndexOf_eq {s : Str} (h : NUL ∉ s) (pat : Str) (hp : pat ≠ []) :
    lastIndexOf s pat = (match last? pat s with | some i => (i : ℤ) | none => -1) := by
  unfold lastIndexOf
  rw [cstr_eq_self h]
  split_ifs with h0
  · have hnone : last? pat s = none := by
      rw [last?_eq_none_iff]
      intro hin
      have hle := hin.length_le
      have hpos := List.length_pos_of_ne_nil hp
      omega
    rw [hnone]
  · rfl

theorem substring_within (s : Str) (left right : ℤ) : substring s left right <:+: s :=
  (List.drop_suffix _ _).isInfix.trans (List.take_prefix _ _).isInfix

@[simp] theorem toUnsigned_natCast (s : Str) (n : ℕ) : toUnsigned s (n : ℤ) = n := by
  simp [toUnsigned]

theorem length_le_toUnsigned_neg (s : Str) : s.length ≤ toUnsigned s (-1) := le_max_left _ _

theorem equalsLiteral_iff {s : Str} (h : NUL ∉ s) (lit : Str) : equalsLiteral s lit ↔ s = lit := by
  simp [equalsLiteral, cstr_eq_self h]

theorem readStringUntil_append {terminator : Char} {x : Str} (h : terminator ∉ x) (rest : Str) :
    readStringUntil terminator (x ++ terminator :: rest) = x := by
  have hx : ∀ c ∈ x, decide (c ≠ terminator) = true := by
    intro c hc
    simp only [decide_eq_true_eq]
    rintro rfl
    exact h hc
  unfold readStringUntil
  rw [List.takeWhile_append_of_pos hx, List.takeWhile_cons_of_neg (by simp), List.append_nil]

/-- Of a cut request, the part before the terminator is a cut of the complete part. -/
theorem readStringUntil_take (terminator : Char) (sent : Str) (n : ℕ) :
    readStringUntil terminator (sent.take n) = (readStringUntil terminator sent).take n := by
  unfold readStringUntil
  induction sent generalizing n with
  | nil => simp
  | cons c sent ih =>
    cases n with
    | zero => simp
    | succ n =>
      rw [List.take_succ_cons, List.takeWhile_cons, List.takeWhile_cons, ih]
      split_ifs <;> simp

/-- Against a constant without NUL, `String == String` is equality of the bytes. -/
theorem equalsString_iff (s t : Str) (h : NUL ∉ t) : equalsString s t ↔ s = t := by
  simp only [equalsString, cstr_eq_self h, Bool.and_eq_true, beq_iff_eq]
  constructor
  · rintro ⟨hlen, hs⟩
    have hpre : t <+: s := hs ▸ cstr_isPrefix s
    exact (hpre.eq_of_length hlen.symm).symm
  · rintro rfl
    exact ⟨rfl, cstr_eq_self h⟩

end HomeMonitor.Arduino
