import HomeMonitor.Arduino.WString
import HomeMonitor.Text.Mark
import Mathlib.Algebra.Group.Int.Defs
import Mathlib.Data.List.DropRight

/-! The other `String` operations that the web server library calls, and what they use of the
C library. A byte is the letter with its code. -/
namespace HomeMonitor.Arduino
open HomeMonitor.Text

def isspace (c : Char) : Bool := c == ' ' || ('\t' ≤ c && c ≤ '\r')

def trim (s : Str) : Str := (s.dropWhile isspace).rdropWhile isspace

/-- `String::indexOf(char, unsigned int)`: −1 when the letter is absent. -/
def indexOfChar (s : Str) (ch : Char) (fromIndex : ℕ) : ℤ :=
  if s.length ≤ fromIndex then -1
  else
    match (cstr (s.drop fromIndex)).idxOf? ch with
    | some i => (fromIndex + i : ℕ)
    | none => -1

/-- `String::startsWith`, a `strncmp`. -/
def startsWith (s pre : Str) : Bool :=
  decide (pre.length ≤ s.length) && cstr (s.take pre.length) == cstr pre

/-- `String::endsWith`, a `strcmp`. -/
def endsWith (s suf : Str) : Bool :=
  decide (suf.length ≤ s.length) && cstr (s.drop (s.length - suf.length)) == cstr suf

/-- `String::equalsIgnoreCase`: the letters up to the first NUL of the string. -/
def equalsIgnoreCase (s t : Str) : Bool :=
  s.length == t.length &&
    (cstr s).map Char.toLower == (t.take (cstr s).length).map Char.toLower

def hexDigit? (c : Char) : Option ℕ :=
  if '0' ≤ c ∧ c ≤ '9' then some (c.toNat - 48)
  else if 'a' ≤ c ∧ c ≤ 'f' then some (c.toNat - 87)
  else if 'A' ≤ c ∧ c ≤ 'F' then some (c.toNat - 55)
  else none

/-- `strtol` of `0x` and two letters, to the base 16. -/
def strtolHex (a b : Char) : ℕ :=
  match hexDigit? a, hexDigit? b with
  | some x, some y => 16 * x + y
  | some x, none => x
  | none, _ => 0

/-- `atoi`: blanks, a sign and digits, within the range of `int`. -/
def atoi (s : Str) : ℤ :=
  let s := s.dropWhile isspace
  let digits := (if s.head? = some '-' ∨ s.head? = some '+' then s.drop 1 else s).takeWhile
    Char.isDigit
  let n : ℤ := (digits.foldl (fun n c => 10 * n + (c.toNat - 48)) 0 : ℕ)
  if s.head? = some '-' then max (-n) (-2 ^ 31) else min n (2 ^ 31 - 1)

section lemmas

variable {s : Str}

theorem nul_not_mem_of_subset {t : Str} (h : NUL ∉ s) (ht : t ⊆ s) : NUL ∉ t :=
  fun hmem => h (ht hmem)

theorem indexOfChar_eq (h : NUL ∉ s) (ch : Char) (fromIndex : ℕ) :
    indexOfChar s ch fromIndex =
      if ch ∈ s.drop fromIndex then
        ((fromIndex + ((s.drop fromIndex).takeWhile (· ≠ ch)).length : ℕ) : ℤ)
      else -1 := by
  unfold indexOfChar
  rw [cstr_eq_self (nul_not_mem_of_subset h (List.drop_subset _ _)), idxOf?_eq_ite]
  by_cases hlen : s.length ≤ fromIndex
  · rw [if_pos hlen, List.drop_of_length_le hlen, if_neg List.not_mem_nil]
  · rw [if_neg hlen]
    split_ifs <;> rfl

/-- The part from an index to the next place of a letter, or to the end. -/
theorem substring_indexOfChar (h : NUL ∉ s) (ch : Char) {n : ℕ} (hn : n ≤ s.length) :
    substring s n (indexOfChar s ch n) = (s.drop n).takeWhile (· ≠ ch) := by
  rw [indexOfChar_eq h]
  unfold substring
  by_cases hmem : ch ∈ s.drop n
  · rw [if_pos hmem, toUnsigned_natCast, toUnsigned_natCast]
    dsimp only
    rw [max_eq_right (Nat.le_add_right _ _), min_eq_left (Nat.le_add_right _ _), List.drop_take,
      Nat.add_sub_cancel_left, take_length_takeWhile]
  · have hle := length_le_toUnsigned_neg s
    rw [if_neg hmem, toUnsigned_natCast]
    dsimp only
    rw [max_eq_right (hn.trans hle), min_eq_left (hn.trans hle), List.take_of_length_le hle,
      takeWhile_ne_eq_self hmem]

theorem substring_of_length_le {left right : ℤ} (hl : s.length ≤ toUnsigned s left)
    (hr : s.length ≤ toUnsigned s right) : substring s left right = [] := by
  unfold substring
  rw [List.drop_eq_nil_iff, List.length_take]
  omega

theorem startsWith_iff {pre : Str} (h : NUL ∉ pre) : startsWith s pre = true ↔ pre <+: s := by
  unfold startsWith
  rw [cstr_eq_self h, Bool.and_eq_true, decide_eq_true_eq, beq_iff_eq]
  constructor
  · rintro ⟨hlen, hcstr⟩
    have hpre := cstr_isPrefix (s.take pre.length)
    rw [hcstr] at hpre
    exact hpre.trans (List.take_prefix _ _)
  · intro hpre
    have htake : s.take pre.length = pre := List.prefix_iff_eq_take.mp hpre |>.symm
    rw [htake, cstr_eq_self h]
    exact ⟨hpre.length_le, rfl⟩

theorem trim_within (s : Str) : trim s <:+: s :=
  (List.rdropWhile_prefix _ _).isInfix.trans (List.dropWhile_suffix _).isInfix

theorem trim_line {c d : Char} (hc : isspace c = false) (hd : isspace d = false) (text : Str)
    {blanks : Str} (hblanks : ∀ b ∈ blanks, isspace b = true) :
    trim (c :: (text ++ d :: blanks)) = c :: (text ++ [d]) := by
  unfold trim
  rw [List.dropWhile_cons_of_neg (by simp [hc])]
  induction blanks using List.reverseRecOn with
  | nil =>
    have hend := List.rdropWhile_concat_neg isspace (c :: text) d (by simp [hd])
    rwa [List.cons_append] at hend
  | append_singleton blanks b ih =>
    have hdrop := List.rdropWhile_concat_pos isspace (c :: (text ++ d :: blanks)) b
      (hblanks b (by simp))
    rw [List.cons_append, List.append_assoc, List.cons_append] at hdrop
    rw [hdrop]
    exact ih fun b' hb' => hblanks b' (List.mem_append_left _ hb')

end lemmas

end HomeMonitor.Arduino
