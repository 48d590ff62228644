import HomeMonitor.Arduino.WString
import HomeMonitor.Text.Lines
import Mathlib.Data.List.DropRight

/-! What the page generator uses of the command interpreter: `for /f` over the lines of a
file, delayed expansion, and `echo`. -/
namespace HomeMonitor.Cmd
open HomeMonitor.Arduino HomeMonitor.Text

def fileLines (file : Str) : List Str :=
  (file.splitOn '\n').map fun line => if line.getLast? = some CR then line.dropLast else line

def strip (line : Str) : Str := line.dropWhile (· = ' ')

/-- `for /f "tokens=* delims= "` on a line: the text of the loop variable, if the body runs.
The spaces in front are delimiters, and `;` begins a comment. -/
def forF (line : Str) : Option Str :=
  if strip line = [] ∨ (strip line).head? = some ';' then none else some (strip line)

theorem newline_not_mem_fileLines {file line : Str} (h : line ∈ fileLines file) : '\n' ∉ line := by
  obtain ⟨part, hpart, rfl⟩ := List.mem_map.mp h
  have hmem := not_mem_of_mem_splitOn hpart
  split_ifs
  · exact fun hline => hmem (List.mem_of_mem_dropLast hline)
  · exact hmem

/-- Where the scan of a text stands: outside of a name, behind a caret, or behind the `!` and
the first letters of a name. -/
inductive Scan
  | text
  | caret
  | name (letters : Str)

def behindSign (rest : Str) : Scan := if '!' ∈ rest then .name [] else .text

variable (value : Str → Str)

/-- The scan: a caret makes the next character an ordinary one, two signs enclose the name of
a variable, of signs in a row the last one counts, and a sign without a partner is removed. -/
def scan : Scan → Str → Str
  | _, [] => []
  | .caret, c :: rest => c :: scan .text rest
  | .text, c :: rest =>
    if c = '^' then scan .caret rest
    else if c = '!' then scan (behindSign rest) rest
    else c :: scan .text rest
  | .name letters, c :: rest =>
    if c = '!' then
      if letters = [] then scan (behindSign rest) rest else value letters ++ scan .text rest
    else scan (.name (letters ++ [c])) rest

/-- Only texts with a sign are scanned. -/
def delayedExpansion (text : Str) : Str := if '!' ∈ text then scan value .text text else text

theorem delayedExpansion_eq_self {text : Str} (h : '!' ∉ text) :
    delayedExpansion value text = text := if_neg h

variable {value}

theorem count_scan_le {x : Char} (hvalue : ∀ name, x ∉ value name) (mode : Scan) (text : Str) :
    (scan value mode text).count x ≤ text.count x := by
  induction text generalizing mode with
  | nil => cases mode <;> simp [scan]
  | cons c rest ih =>
    have hrest : rest.count x ≤ (c :: rest).count x := (List.sublist_cons_self c rest).count_le x
    have hskip : ∀ mode', (scan value mode' rest).count x ≤ (c :: rest).count x :=
      fun mode' => (ih mode').trans hrest
    have hkeep : ∀ mode', (c :: scan value mode' rest).count x ≤ (c :: rest).count x := by
      intro mode'
      rw [List.count_cons, List.count_cons]
      exact Nat.add_le_add_right (ih mode') _
    cases mode with
    | caret => exact hkeep .text
    | text =>
      unfold scan
      split_ifs
      · exact hskip .caret
      · exact hskip _
      · exact hkeep .text
    | name letters =>
      unfold scan
      split_ifs
      · exact hskip _
      · rw [List.count_append, List.count_eq_zero_of_not_mem (hvalue letters), Nat.zero_add]
        exact hskip .text
      · exact hskip _

/-- If all signs are still there after the scan, a caret was removed before each of them. -/
private theorem length_scan_le (hvalue : ∀ name, '!' ∉ value name) (text : Str) :
    ((scan value .text text).count '!' = text.count '!' →
      (scan value .text text).length + text.count '!' ≤ text.length) ∧
    ((scan value .caret text).count '!' = text.count '!' →
      (scan value .caret text).length + text.count '!' ≤ text.length + 1) := by
  induction text with
  | nil => simp [scan]
  | cons c rest ih =>
    obtain ⟨ihText, ihCaret⟩ := ih
    constructor
    · unfold scan
      split_ifs with hcaret hsign
      · intro h
        rw [hcaret, List.count_cons_of_ne (by decide)] at h ⊢
        exact ihCaret h
      · intro h
        have hle := count_scan_le hvalue (behindSign rest) rest
        rw [hsign, List.count_cons_self] at h
        omega
      · intro h
        rw [List.count_cons_of_ne hsign, List.count_cons_of_ne hsign] at h
        rw [List.count_cons_of_ne hsign, List.length_cons, List.length_cons]
        have hrest := ihText h
        omega
    · unfold scan
      intro h
      by_cases hsign : c = '!'
      · rw [hsign, List.count_cons_self, List.count_cons_self] at h
        rw [hsign, List.count_cons_self, List.length_cons, List.length_cons]
        have hrest := ihText (by omega)
        omega
      · rw [List.count_cons_of_ne hsign, List.count_cons_of_ne hsign] at h
        rw [List.count_cons_of_ne hsign, List.length_cons, List.length_cons]
        have hrest := ihText h
        omega

theorem count_delayedExpansion_le {x : Char} (hvalue : ∀ name, x ∉ value name) (text : Str) :
    (delayedExpansion value text).count x ≤ text.count x := by
  unfold delayedExpansion
  split_ifs
  · exact count_scan_le hvalue .text text
  · exact le_rfl

/-- An expansion loses a sign, or else it shortens every text with signs. -/
theorem length_delayedExpansion_lt (hvalue : ∀ name, '!' ∉ value name) {text : Str}
    (hmem : '!' ∈ text)
    (hcount : (delayedExpansion value text).count '!' = text.count '!') :
    (delayedExpansion value text).length < text.length := by
  unfold delayedExpansion at hcount ⊢
  rw [if_pos hmem] at hcount ⊢
  have hle := (length_scan_le hvalue text).1 hcount
  have hpos := List.count_pos_iff.mpr hmem
  omega

/-- `echo` prints its text, but for a few texts that it takes as arguments of its own. -/
structure Echo where
  /-- `on`, `off`, `/?` and blanks. -/
  isArgument : Str → Bool
  /-- The lines written for them, which may depend on the iteration. -/
  answer : ℕ → Str → List Str
  sign_not_mem_answer : ∀ N text, ∀ line ∈ answer N text, '!' ∉ line
  newline_not_mem_answer : ∀ N text, ∀ line ∈ answer N text, '\n' ∉ line
  /-- Messages and the help text are no arguments, apart from empty lines. -/
  answer_isArgument : ∀ N text, ∀ line ∈ answer N text, isArgument line → line = []

def Echo.write (echo : Echo) (N : ℕ) (text : Str) : List Str :=
  if echo.isArgument text then echo.answer N text else [text]

def isBlank (c : Char) : Bool := c = ' ' || c = '\t'

def trim (text : Str) : Str := (text.dropWhile isBlank).rdropWhile isBlank

def echoArguments : List Str := ["".toList, "on".toList, "off".toList, "/?".toList]

def echoHelp : List Str := [
  "Displays messages, or turns command-echoing on or off.".toList,
  [],
  "  ECHO [ON | OFF]".toList,
  "  ECHO [message]".toList,
  [],
  "Type ECHO without parameters to display the current echo setting.".toList]

private theorem echoHelp_lines : ∀ line ∈ echoHelp, '!' ∉ line ∧ '\n' ∉ line ∧
    ((trim line).map Char.toLower ∈ echoArguments → line = []) := by
  unfold echoHelp echoArguments
  repeat rw [toList_literal rfl]
  decide +kernel

private theorem echoOff_line : '!' ∉ "ECHO is off.".toList ∧ '\n' ∉ "ECHO is off.".toList ∧
    (trim "ECHO is off.".toList).map Char.toLower ∉ echoArguments := by
  decide

def Echo.documented : Echo where
  isArgument text := (trim text).map Char.toLower ∈ echoArguments
  answer _ text :=
    if trim text = [] then ["ECHO is off.".toList]
    else if trim text = "/?".toList then echoHelp
    else []
  sign_not_mem_answer N text := by
    split_ifs
    · exact List.forall_mem_singleton.mpr echoOff_line.1
    · exact fun line hline => (echoHelp_lines line hline).1
    · exact fun line hline => absurd hline List.not_mem_nil
  newline_not_mem_answer N text := by
    split_ifs
    · exact List.forall_mem_singleton.mpr echoOff_line.2.1
    · exact fun line hline => (echoHelp_lines line hline).2.1
    · exact fun line hline => absurd hline List.not_mem_nil
  answer_isArgument N text := by
    simp only [decide_eq_true_eq]
    split_ifs
    · exact List.forall_mem_singleton.mpr fun harg => absurd harg echoOff_line.2.2
    · exact fun line hline => (echoHelp_lines line hline).2.2
    · exact fun line hline => absurd hline List.not_mem_nil

end HomeMonitor.Cmd
