import HomeMonitor.Sketch.WebpageIncludeCreator
import HomeMonitor.Sketch.Website
import Mathlib.Tactic.MkIffOfInductiveProp

/-! When the page generator preserves the page. -/
namespace HomeMonitor.WebpageIncludeCreator
open HomeMonitor.Arduino HomeMonitor.Text HomeMonitor.Cmd HomeMonitor.AsyncWebserver

section Literal

variable {value : ℕ → Str → Str} {echo : Echo} {file : Str}

private theorem outputFile_eq (value : ℕ → Str → Str) (echo : Echo) (file : Str) :
    outputFile value echo file = "const char WEBSITE[] = ".toList ++ rawOpening ++
      (unlines '\n' ([] :: loop value echo 0 (fileLines file)) ++
        (rawClosing ++ ";\n".toList)) := by
  have hopen : "const char WEBSITE[] = R\"rawliteral(".toList =
      "const char WEBSITE[] = ".toList ++ rawOpening := by decide
  have hclose : ")rawliteral\";".toList ++ ['\n'] = rawClosing ++ ";\n".toList := by decide
  unfold outputFile
  rw [unlines_cons, hopen, ← hclose]
  simp [unlines]

private theorem first_opening (rest : Str) :
    first? rawOpening ("const char WEBSITE[] = ".toList ++ rawOpening ++ rest) =
      some "const char WEBSITE[] = ".toList.length := by
  rfl

/-- The literal begins behind the opening and ends at the first closing. -/
theorem constant_eq (value : ℕ → Str → Str) (echo : Echo) (file : Str) :
    constant value echo file =
      (first? rawClosing (unlines '\n' ([] :: loop value echo 0 (fileLines file)) ++
        (rawClosing ++ ";\n".toList))).map fun j =>
          (unlines '\n' ([] :: loop value echo 0 (fileLines file)) ++
            (rawClosing ++ ";\n".toList)).take j := by
  unfold constant rawLiteral
  rw [outputFile_eq, first_opening]
  dsimp only
  rw [List.append_assoc, ← List.drop_drop, List.drop_left, List.drop_left]

theorem constant_prefix {text : Str} (h : constant value echo file = some text) :
    text <+: unlines '\n' ([] :: loop value echo 0 (fileLines file)) := by
  rw [constant_eq, Option.map_eq_some_iff] at h
  obtain ⟨j, hj, rfl⟩ := h
  have hmin := ((first?_eq_some_iff _ _ (by decide) j).mp hj).2
  have hle : j ≤ (unlines '\n' ([] :: loop value echo 0 (fileLines file))).length := by
    by_contra hlt
    apply hmin _ (not_le.mp hlt)
    rw [← List.append_assoc]
    exact occursAt_append _ _ _
  rw [List.take_append_of_le_length hle]
  exact List.take_prefix _ _

theorem constant_of_lines
    (h : ∀ line ∈ loop value echo 0 (fileLines file), ¬ rawClosing <:+: line) :
    constant value echo file = some (unlines '\n' ([] :: loop value echo 0 (fileLines file))) := by
  have hlines : ∀ line ∈ [] :: loop value echo 0 (fileLines file), ¬ rawClosing <:+: line := by
    rw [List.forall_mem_cons]
    exact ⟨by decide, h⟩
  have hfirst : first? rawClosing (unlines '\n' ([] :: loop value echo 0 (fileLines file)) ++
      (rawClosing ++ ";\n".toList)) =
        some (unlines '\n' ([] :: loop value echo 0 (fileLines file))).length := by
    rw [first?_eq_some_iff _ _ (by decide)]
    constructor
    · rw [← List.append_assoc]
      exact occursAt_append _ _ _
    · intro j hj
      exact not_occursAt_unlines (by decide) hlines _ hj
  rw [constant_eq, hfirst, Option.map_some, List.take_left]

end Literal

/-- The lines of the page that the constant is meant to hold. -/
def pageLines (file : Str) : List Str := ((fileLines file).map strip).filter (· ≠ [])

/-- The page: the lines of the file without leading spaces and without empty ones. -/
def page (file : Str) : Str := unlines '\n' (pageLines file)

theorem mem_pageLines {file text : Str} (h : text ∈ pageLines file) :
    text ≠ [] ∧ ∃ line ∈ fileLines file, text <:+ line := by
  unfold pageLines at h
  rw [List.mem_filter, decide_eq_true_eq, List.mem_map] at h
  obtain ⟨⟨line, hline, rfl⟩, hne⟩ := h
  exact ⟨hne, line, hline, List.dropWhile_suffix _⟩

theorem newline_not_mem_pageLines {file text : Str} (h : text ∈ pageLines file) : '\n' ∉ text := by
  obtain ⟨-, line, hline, hsuffix⟩ := mem_pageLines h
  exact fun hmem => newline_not_mem_fileLines hline (hsuffix.subset hmem)

theorem not_rawClosing_pageLines {file text : Str}
    (hraw : ∀ line ∈ fileLines file, ¬ rawClosing <:+: line) (h : text ∈ pageLines file) :
    ¬ rawClosing <:+: text := by
  obtain ⟨-, line, hline, hsuffix⟩ := mem_pageLines h
  exact fun hin => hraw line hline (hin.trans hsuffix.isInfix)

/-- No line of the page is touched: none holds a sign, none is a comment, and `echo` prints
them all. -/
@[mk_iff] structure Untouched (echo : Echo) (text : Str) : Prop where
  sign : '!' ∉ text
  comment : text.head? ≠ some ';'
  message : echo.isArgument text = false

instance (echo : Echo) (text : Str) : Decidable (Untouched echo text) :=
  decidable_of_iff _ (untouched_iff echo text).symm

section Lines

variable (value : ℕ → Str → Str) (echo : Echo)

/-- What is appended for a line of the page in an iteration. -/
def written (N : ℕ) (text : Str) : List Str :=
  if text.head? = some ';' then [] else echo.write N (delayedExpansion (value N) text)

theorem written_untouched {text : Str} (h : Untouched echo text) (N : ℕ) :
    written value echo N text = [text] := by
  unfold written Echo.write
  rw [if_neg h.comment, delayedExpansion_eq_self _ h.sign, h.message, if_neg Bool.false_ne_true]

theorem exists_loop_trace (N : ℕ) (lines : List Str) :
    ∃ s : List (Str × List Str), s.map Prod.fst = (lines.map strip).filter (· ≠ []) ∧
      s.flatMap Prod.snd = loop value echo N lines ∧
      ∀ b ∈ s, ∃ M, b.2 = written value echo M b.1 := by
  induction lines generalizing N with
  | nil => exact ⟨[], rfl, rfl, by simp⟩
  | cons line lines ih =>
    rw [List.map_cons]
    by_cases hempty : strip line = []
    · obtain ⟨s, hfst, hsnd, hs⟩ := ih N
      have hskip : forF line = none := if_pos (Or.inl hempty)
      refine ⟨s, ?_, ?_, hs⟩
      · rw [List.filter_cons_of_neg (by simpa using hempty), hfst]
      · rw [loop, hskip, hsnd]
    · by_cases hcomment : (strip line).head? = some ';'
      · obtain ⟨s, hfst, hsnd, hs⟩ := ih N
        have hskip : forF line = none := if_pos (Or.inr hcomment)
        refine ⟨(strip line, []) :: s, ?_, ?_, ?_⟩
        · rw [List.filter_cons_of_pos (by simpa using hempty), List.map_cons, hfst]
        · rw [loop, hskip, List.flatMap_cons, hsnd, List.nil_append]
        · rw [List.forall_mem_cons]
          exact ⟨⟨N, (if_pos hcomment).symm⟩, hs⟩
      · obtain ⟨s, hfst, hsnd, hs⟩ := ih (N + 1)
        have hrun : forF line = some (strip line) := if_neg (by simp [hempty, hcomment])
        refine ⟨(strip line, written value echo (N + 1) (strip line)) :: s, ?_, ?_, ?_⟩
        · rw [List.filter_cons_of_pos (by simpa using hempty), List.map_cons, hfst]
        · rw [loop, hrun, List.flatMap_cons, hsnd]
          unfold written
          rw [if_neg hcomment]
        · rw [List.forall_mem_cons]
          exact ⟨⟨N + 1, rfl⟩, hs⟩

theorem loop_untouched (N : ℕ) {lines : List Str}
    (h : ∀ text ∈ (lines.map strip).filter (· ≠ []), Untouched echo text) :
    loop value echo N lines = (lines.map strip).filter (· ≠ []) := by
  obtain ⟨s, hfst, hsnd, hs⟩ := exists_loop_trace value echo N lines
  have hsame : ∀ b ∈ s, b.2 = [b.1] := by
    intro b hb
    obtain ⟨M, hM⟩ := hs b hb
    rw [hM]
    exact written_untouched value echo (h b.1 (hfst ▸ List.mem_map_of_mem hb)) M
  rw [← hsnd, ← hfst]
  clear hfst hsnd hs
  induction s with
  | nil => rfl
  | cons b s ih =>
    rw [List.flatMap_cons, List.map_cons, hsame b List.mem_cons_self,
      ih (fun c hc => hsame c (List.mem_cons_of_mem b hc)), List.singleton_append]

end Lines

section Lost

variable {value : ℕ → Str → Str} {echo : Echo} {N : ℕ} {text : Str}

/-- The lines that `echo` would not print, empty ones not counted. -/
private def argumentWeight (echo : Echo) (line : Str) : ℕ :=
  if echo.isArgument line ∧ line ≠ [] then 1 else 0

private theorem written_cases (value : ℕ → Str → Str) (echo : Echo) (N : ℕ) (text : Str) :
    (text.head? = some ';' ∧ written value echo N text = []) ∨
    (echo.isArgument (delayedExpansion (value N) text) ∧
      written value echo N text = echo.answer N (delayedExpansion (value N) text)) ∨
    (text.head? ≠ some ';' ∧ ¬ echo.isArgument (delayedExpansion (value N) text) ∧
      written value echo N text = [delayedExpansion (value N) text]) := by
  unfold written Echo.write
  split_ifs with hcomment harg
  · exact Or.inl ⟨hcomment, rfl⟩
  · exact Or.inr (Or.inl ⟨harg, rfl⟩)
  · exact Or.inr (Or.inr ⟨hcomment, harg, rfl⟩)

private theorem sum_eq_zero {w : Str → ℕ} {lines : List Str} (h : ∀ line ∈ lines, w line = 0) :
    (lines.map w).sum = 0 := by
  apply List.sum_eq_zero
  intro n hn
  obtain ⟨line, hline, rfl⟩ := List.mem_map.mp hn
  exact h line hline

private theorem signs_answer (N : ℕ) (text : Str) :
    ((echo.answer N text).map (List.count '!')).sum = 0 :=
  sum_eq_zero fun line hline =>
    List.count_eq_zero_of_not_mem (echo.sign_not_mem_answer N text line hline)

private theorem arguments_answer (N : ℕ) (text : Str) :
    ((echo.answer N text).map (argumentWeight echo)).sum = 0 :=
  sum_eq_zero fun line hline => if_neg fun ⟨harg, hne⟩ =>
    hne (echo.answer_isArgument N text line hline harg)

/-- No line gains a sign. -/
private theorem signs_written_le (hsign : ∀ name, '!' ∉ value N name) (text : Str) :
    ((written value echo N text).map (List.count '!')).sum ≤ text.count '!' := by
  rcases written_cases value echo N text with ⟨-, h⟩ | ⟨-, h⟩ | ⟨-, -, h⟩
  · rw [h]
    exact Nat.zero_le _
  · rw [h, signs_answer]
    exact Nat.zero_le _
  · rw [h, List.map_singleton, List.sum_singleton]
    exact count_delayedExpansion_le hsign text

private theorem arguments_written (value : ℕ → Str → Str) (N : ℕ) (text : Str) :
    ((written value echo N text).map (argumentWeight echo)).sum = 0 := by
  rcases written_cases value echo N text with ⟨-, h⟩ | ⟨-, h⟩ | ⟨-, harg, h⟩
  · rw [h]
    rfl
  · rw [h, arguments_answer]
  · rw [h, List.map_singleton, List.sum_singleton]
    exact if_neg fun hboth => harg hboth.1

/-- If no sign is lost, the line is not made longer, and it is made shorter unless it is
untouched. -/
private theorem length_written (hsign : ∀ name, '!' ∉ value N name)
    (hmessage : ¬ echo.isArgument text)
    (hsigns : ((written value echo N text).map (List.count '!')).sum = text.count '!') :
    ((written value echo N text).map fun line => line.length + 1).sum ≤ text.length + 1 ∧
      (((written value echo N text).map fun line => line.length + 1).sum = text.length + 1 →
        Untouched echo text) := by
  rcases written_cases value echo N text with ⟨-, h⟩ | ⟨harg, h⟩ | ⟨hcomment, -, h⟩
  · rw [h]
    exact ⟨Nat.zero_le _, fun hlen => absurd hlen (by simp)⟩
  · -- an expansion that `echo` takes for an argument has lost all signs
    rw [h, signs_answer, eq_comm, List.count_eq_zero] at hsigns
    rw [delayedExpansion_eq_self _ hsigns] at harg
    exact absurd harg hmessage
  · rw [h, List.map_singleton, List.sum_singleton] at hsigns ⊢
    by_cases hmem : '!' ∈ text
    · have hlt := length_delayedExpansion_lt hsign hmem hsigns
      omega
    · rw [delayedExpansion_eq_self _ hmem]
      exact ⟨le_rfl, fun _ => ⟨hmem, hcomment, Bool.eq_false_iff.mpr hmessage⟩⟩

private theorem newline_not_mem_written (hnewline : ∀ name, '\n' ∉ value N name)
    (htext : '\n' ∉ text) : ∀ line ∈ written value echo N text, '\n' ∉ line := by
  rcases written_cases value echo N text with ⟨-, h⟩ | ⟨-, h⟩ | ⟨-, -, h⟩
  · simp [h]
  · rw [h]
    exact echo.newline_not_mem_answer N _
  · rw [h, List.forall_mem_singleton, ← List.count_eq_zero]
    have hle := count_delayedExpansion_le hnewline text
    rw [List.count_eq_zero_of_not_mem htext] at hle
    exact Nat.le_zero.mp hle

def PlainValues (value : ℕ → Str → Str) : Prop :=
  ∀ N name, '!' ∉ value N name ∧ '\n' ∉ value N name

/-- If the constant is the page, then the loop appends the lines of the page at first. -/
theorem pageLines_prefix_loop {file : Str} (hvalue : PlainValues value)
    (h : constant value echo file = some ('\n' :: page file)) :
    pageLines file <+: loop value echo 0 (fileLines file) := by
  obtain ⟨s, hfst, hsnd, hs⟩ := exists_loop_trace value echo 0 (fileLines file)
  rw [← List.prefix_cons_inj []]
  apply prefix_of_unlines_prefix
  · rw [List.forall_mem_cons]
    exact ⟨by simp, fun text => newline_not_mem_pageLines⟩
  · rw [List.forall_mem_cons]
    refine ⟨by simp, fun line hline => ?_⟩
    rw [← hsnd, List.mem_flatMap] at hline
    obtain ⟨b, hb, hline⟩ := hline
    obtain ⟨M, hM⟩ := hs b hb
    have htext : b.1 ∈ pageLines file := by
      unfold pageLines
      rw [← hfst]
      exact List.mem_map_of_mem hb
    rw [hM] at hline
    exact newline_not_mem_written (fun name => (hvalue M name).2)
      (newline_not_mem_pageLines htext) line hline
  · exact constant_prefix h

section Trace

-- the lines of a page, each with the lines that are appended for it
variable {s : List (Str × List Str)} (hs : ∀ b ∈ s, ∃ M, b.2 = written value echo M b.1)
  (hbegin : s.map Prod.fst <+: s.flatMap Prod.snd)

include hs hbegin

private theorem not_isArgument_of_prefix (hne : ∀ b ∈ s, b.1 ≠ []) :
    ∀ b ∈ s, ¬ echo.isArgument b.1 := by
  have harguments : ∀ b ∈ s, (b.2.map (argumentWeight echo)).sum = 0 := by
    intro b hb
    obtain ⟨M, hM⟩ := hs b hb
    rw [hM, arguments_written]
  have hweight := weight_eq_of_prefix_flatMap hbegin (argumentWeight echo)
    fun b hb => (harguments b hb).trans_le (Nat.zero_le _)
  intro b hb harg
  have hb' := hweight b hb
  rw [harguments b hb] at hb'
  unfold argumentWeight at hb'
  rw [if_pos ⟨harg, hne b hb⟩] at hb'
  exact absurd hb' (by decide)

/-- First the signs are counted, then the arguments of `echo`, and at last the characters. -/
private theorem untouched_of_prefix (hvalue : PlainValues value) (hne : ∀ b ∈ s, b.1 ≠ []) :
    ∀ b ∈ s, Untouched echo b.1 := by
  have hsigns := weight_eq_of_prefix_flatMap hbegin (List.count '!') (by
    intro b hb
    obtain ⟨M, hM⟩ := hs b hb
    rw [hM]
    exact signs_written_le (fun name => (hvalue M name).1) b.1)
  have hmessage := not_isArgument_of_prefix hs hbegin hne
  have hlength : ∀ b ∈ s,
      (b.2.map fun line => line.length + 1).sum ≤ b.1.length + 1 ∧
        ((b.2.map fun line => line.length + 1).sum = b.1.length + 1 → Untouched echo b.1) := by
    intro b hb
    obtain ⟨M, hM⟩ := hs b hb
    have hkept := hsigns b hb
    rw [hM] at hkept ⊢
    exact length_written (fun name => (hvalue M name).1) (hmessage b hb) hkept
  have hequal := weight_eq_of_prefix_flatMap hbegin (fun line => line.length + 1)
    fun b hb => (hlength b hb).1
  exact fun b hb => (hlength b hb).2 (hequal b hb)

end Trace

theorem untouched_of_constant {file : Str} (hvalue : PlainValues value)
    (h : constant value echo file = some ('\n' :: page file)) :
    ∀ text ∈ pageLines file, Untouched echo text := by
  obtain ⟨s, hfst, hsnd, hs⟩ := exists_loop_trace value echo 0 (fileLines file)
  change s.map Prod.fst = pageLines file at hfst
  have hfirst : s.map Prod.fst <+: s.flatMap Prod.snd := by
    rw [hfst, hsnd]
    exact pageLines_prefix_loop hvalue h
  have hne : ∀ b ∈ s, b.1 ≠ [] := fun b hb =>
    (mem_pageLines (hfst ▸ List.mem_map_of_mem hb)).1
  intro text hmem
  rw [← hfst] at hmem
  obtain ⟨b, hb, rfl⟩ := List.mem_map.mp hmem
  exact untouched_of_prefix hs hfirst hvalue hne b hb

end Lost

/-- The generator preserves the page exactly when no line of it is touched. Whatever the values
of the variables are, an untouched page is preserved; and a touched one is not preserved for any
values without signs and line ends. -/
theorem constant_eq_page_iff (echo : Echo) (file : Str)
    (hraw : ∀ line ∈ fileLines file, ¬ rawClosing <:+: line) :
    ((∀ value, constant value echo file = some ('\n' :: page file)) ↔
      ∀ text ∈ pageLines file, Untouched echo text) ∧
    ∀ value, PlainValues value →
      (constant value echo file = some ('\n' :: page file) ↔
        ∀ text ∈ pageLines file, Untouched echo text) := by
  have hpreserved : (∀ text ∈ pageLines file, Untouched echo text) →
      ∀ value, constant value echo file = some ('\n' :: page file) := by
    intro h value
    have hloop : loop value echo 0 (fileLines file) = pageLines file :=
      loop_untouched value echo 0 h
    rw [constant_of_lines, hloop, unlines_cons, List.nil_append]
    · rfl
    · rw [hloop]
      exact fun text => not_rawClosing_pageLines hraw
  have hplain : PlainValues fun _ _ => [] := by
    intro N name
    simp
  exact ⟨⟨fun h => untouched_of_constant hplain (h _), hpreserved⟩,
    fun value hvalue => ⟨untouched_of_constant hvalue, fun h => hpreserved h value⟩⟩

theorem constant_eq_page_iff_paragraph :
    (∀ line ∈ fileLines "<p>\n\n  On at 100%\n</p>".toList, ¬ rawClosing <:+: line) ∧
    page "<p>\n\n  On at 100%\n</p>".toList = "<p>\nOn at 100%\n</p>\n".toList ∧
    ∀ value, constant value Echo.documented "<p>\n\n  On at 100%\n</p>".toList =
      some ('\n' :: page "<p>\n\n  On at 100%\n</p>".toList) :=
  ⟨by decide, by decide,
    (constant_eq_page_iff Echo.documented _ (by decide)).1.mpr (by decide)⟩

private theorem websiteHtml_facts :
    fileLines websiteHtml = websiteHtmlLines.map String.toList ∧
    (∀ line ∈ websiteHtmlLines.map String.toList, ¬ rawClosing <:+: line) ∧
    ((websiteHtmlLines.tail.map String.toList).map strip).filter (· ≠ []) =
      websiteLines.tail.map String.toList ∧
    ∀ text ∈ websiteLines.tail.map String.toList, Untouched Echo.documented text := by
  unfold websiteHtml websiteHtmlLines websiteLines
  simp only [List.map_cons, List.map_nil, List.tail_cons, String.toList_append]
  repeat rw [toList_literal rfl]
  decide +kernel

private theorem pageLines_websiteHtml :
    pageLines websiteHtml = "<!DOCTYPE HTML>".toList :: websiteLines.tail.map String.toList := by
  obtain ⟨hlines, -, htail, -⟩ := websiteHtml_facts
  unfold pageLines
  rw [hlines, ← htail]
  rfl

/-- The header of the repository is what the script writes for the page of the repository,
whatever the values of the variables are. -/
theorem constant_websiteHtml (value : ℕ → Str → Str) :
    constant value Echo.documented websiteHtml = some WEBSITE := by
  obtain ⟨hlines, hraw, htail, huntouched⟩ := websiteHtml_facts
  have hdoctype : forF "<!DOCTYPE HTML>".toList = some "<!DOCTYPE HTML>".toList := by decide
  have hwrite : Echo.documented.write 1
      (delayedExpansion (value 1) "<!DOCTYPE HTML>".toList) = ["<DOCTYPE HTML>".toList] := rfl
  have hloop : loop value Echo.documented 0 (fileLines websiteHtml) =
      websiteLines.map String.toList := by
    rw [hlines]
    change loop value Echo.documented 0
      ("<!DOCTYPE HTML>".toList :: websiteHtmlLines.tail.map String.toList) = _
    rw [loop, hdoctype]
    dsimp only
    rw [hwrite, loop_untouched value Echo.documented 1 (by rwa [htail]), htail]
    rfl
  have hclosing : ∀ line ∈ websiteLines.map String.toList, ¬ rawClosing <:+: line := by
    change ∀ line ∈ "<DOCTYPE HTML>".toList :: websiteLines.tail.map String.toList, _
    rw [List.forall_mem_cons]
    refine ⟨by decide, fun line hline => not_rawClosing_pageLines (hlines ▸ hraw) ?_⟩
    rw [pageLines_websiteHtml]
    exact List.mem_cons_of_mem _ hline
  rw [constant_of_lines (by rwa [hloop]), hloop, unlines_cons, List.nil_append]
  unfold WEBSITE unlines
  rw [List.flatMap_map]

/-- The generator does not preserve the page of the repository: the type of its document is
no longer one. -/
theorem constant_websiteHtml_ne_page :
    (∀ line ∈ fileLines websiteHtml, ¬ rawClosing <:+: line) ∧
    ∀ value, constant value Echo.documented websiteHtml ≠ some ('\n' :: page websiteHtml) := by
  obtain ⟨hlines, hraw, -⟩ := websiteHtml_facts
  constructor
  · rwa [hlines]
  · intro value h
    have hpage : (page websiteHtml).take 2 = "<!".toList := by
      unfold page
      rw [pageLines_websiteHtml]
      rfl
    have hconstant : WEBSITE.take 3 = "\n<D".toList := by rfl
    rw [constant_websiteHtml, Option.some_inj] at h
    rw [h, List.take_succ_cons, hpage] at hconstant
    exact absurd hconstant (by decide)

end HomeMonitor.WebpageIncludeCreator
