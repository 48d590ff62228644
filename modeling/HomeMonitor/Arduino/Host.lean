import HomeMonitor.Arduino.WString
import Mathlib.Algebra.Group.Int.Defs

/-! What the sketches use of the board and of the C library: the millisecond
counter, an outgoing connection behind the report limiter, and `float` texts. -/
namespace HomeMonitor.Arduino

/-- `millis()` at a true time in milliseconds: `unsigned long` has 32 bits. -/
def millis (now : ℕ) : BitVec 32 := BitVec.ofNat 32 now

def UPDATE_TIME : BitVec 32 := 1000

/-- What a `requestHost` call meets: the true times at which it reads the counter,
first to check the window and then to record it, and the outcome of `host.connect`. -/
structure Attempt where
  check : ℕ
  record : ℕ
  connects : Bool
  deriving DecidableEq, Repr

inductive HostResult
  | suppressed
  | noConnection
  | printed (text : Str)
  deriving DecidableEq, Repr

/-- The limiter shared by the nodes: the window is consumed before the connection
is attempted. -/
def limited (previousRequest : BitVec 32) (text : Str) (a : Attempt) : BitVec 32 × HostResult :=
  if millis a.check - previousRequest > UPDATE_TIME then
    (millis a.record, if a.connects then .printed (println text) else .noConnection)
  else (previousRequest, .suppressed)

/-- The window is open: since `last`, the counter has advanced by more than a second,
whole turns of its 32 bits not counted. -/
def WindowOpen (last now : ℕ) : Prop := 1000 < ((now : ℤ) - last) % 2 ^ 32

instance (last now : ℕ) : Decidable (WindowOpen last now) := inferInstanceAs (Decidable (_ < _))

theorem window_iff (last now : ℕ) :
    millis now - BitVec.ofNat 32 last > UPDATE_TIME ↔ WindowOpen last now := by
  unfold millis UPDATE_TIME WindowOpen
  rw [gt_iff_lt, BitVec.lt_def, BitVec.toNat_sub, BitVec.toNat_ofNat, BitVec.toNat_ofNat]
  have hmod := Int.emod_nonneg ((now : ℤ) - last) (by decide : (2 : ℤ) ^ 32 ≠ 0)
  simp only [BitVec.ofNat_eq_ofNat, BitVec.toNat_ofNat]
  omega

theorem limited_eq (last : ℕ) (text : Str) (a : Attempt) :
    limited (BitVec.ofNat 32 last) text a =
      if WindowOpen last a.check then
        (millis a.record, if a.connects then .printed (println text) else .noConnection)
      else (BitVec.ofNat 32 last, .suppressed) := by
  unfold limited
  simp only [window_iff]

def HostResult.text : HostResult → Str
  | .printed text => text
  | _ => []

/-- The C library functions on `float` that the server and the temperature node
use: `strtof`, and the text that `String(float)` renders. -/
structure FloatLib (F : Type*) where
  zero : F
  strtof : Str → F
  render : F → Str
  /-- `strtof` reads the longest numeral; a bracket is part of none. -/
  strtof_bracket : ∀ (x y : Str) (b : Char), b = '[' ∨ b = ']' → strtof (x ++ b :: y) = strtof x
  /-- A rendered value is blanks, a sign, digits and a point, or `nan` or `inf`. -/
  render_chars : ∀ v : F, ∀ c ∈ render v, c.isDigit ∨ c ∈ " -.ainf".toList

theorem FloatLib.not_mem_render {F : Type*} (fl : FloatLib F) (v : F) {c : Char}
    (hd : c.isDigit = false) (hc : c ∉ " -.ainf".toList) : c ∉ fl.render v := by
  intro h
  rcases fl.render_chars v c h with h | h
  · rw [hd] at h; exact absurd h (by decide)
  · exact hc h

private def digitsValue (digits : Str) : ℕ := digits.foldl (fun n c => 10 * n + (c.toNat - 48)) 0

/-- The numeral at the front of a text, in hundredths. -/
private def readHundredths (s : Str) : ℤ :=
  let unsigned := if s.head? = some '-' then s.drop 1 else s
  let fraction :=
    match unsigned.dropWhile Char.isDigit with
    | '.' :: rest => rest.takeWhile Char.isDigit
    | _ => []
  let n := 100 * digitsValue (unsigned.takeWhile Char.isDigit) +
    digitsValue ((fraction ++ "00".toList).take 2)
  if s.head? = some '-' then -n else n

private def renderHundredths (v : ℤ) : Str :=
  (if v < 0 then ['-'] else []) ++ Nat.toDigits 10 (v.natAbs / 100) ++
    '.' :: (Nat.toDigits 10 (v.natAbs / 10 % 10) ++ Nat.toDigits 10 (v.natAbs % 10))

private theorem not_bracket_takeWhile (x y : Str) (b : Char) (hb : b = '[' ∨ b = ']') :
    (x ++ b :: y).takeWhile (fun c => c ≠ '[' && c ≠ ']') =
      x.takeWhile (fun c => c ≠ '[' && c ≠ ']') := by
  induction x with
  | nil => rcases hb with rfl | rfl <;> rfl
  | cons a x ih => simp only [List.cons_append, List.takeWhile_cons, ih]

/-- Exact values with two decimals. -/
def FloatLib.hundredths : FloatLib ℤ where
  zero := 0
  strtof s := readHundredths (s.takeWhile fun c => c ≠ '[' && c ≠ ']')
  render := renderHundredths
  strtof_bracket x y b hb := congrArg readHundredths (not_bracket_takeWhile x y b hb)
  render_chars v c hc := by
    have hdigit : ∀ n, c ∈ Nat.toDigits 10 n → c.isDigit :=
      fun n h => Nat.isDigit_of_mem_toDigits (by decide) (by decide) h
    simp only [renderHundredths, List.mem_append, List.mem_cons] at hc
    rcases hc with (h | h) | rfl | h | h
    · split_ifs at h with hv
      · exact Or.inr (by simp at h; simp [h])
      · simp at h
    · exact Or.inl (hdigit _ h)
    · exact Or.inr (by decide)
    · exact Or.inl (hdigit _ h)
    · exact Or.inl (hdigit _ h)

end HomeMonitor.Arduino
