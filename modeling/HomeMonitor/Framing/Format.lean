import HomeMonitor.Sketch.AsyncWebserver
import HomeMonitor.Sketch.Keypad
import HomeMonitor.Sketch.Sensors
import HomeMonitor.Sketch.RFID

/-! The texts of the nodes' requests, and where their fields stand. -/
namespace HomeMonitor.Framing
open HomeMonitor.Text HomeMonitor.Arduino HomeMonitor.AsyncWebserver

/-- A text that no delimiter can cut: the value of a field. -/
structure IsValueText (x : Str) : Prop where
  opener : '[' ∉ x
  closer : ']' ∉ x
  nul : NUL ∉ x
  cr : CR ∉ x

instance (x : Str) : Decidable (IsValueText x) :=
  decidable_of_iff ('[' ∉ x ∧ ']' ∉ x ∧ NUL ∉ x ∧ CR ∉ x)
    ⟨fun ⟨h, h', h'', h'''⟩ => ⟨h, h', h'', h'''⟩, fun h => ⟨h.opener, h.closer, h.nul, h.cr⟩⟩

theorem isValueText_of_delimiters {x : Str} (h : ∀ c ∈ [NUL, CR, '[', ']'], c ∉ x) :
    IsValueText x where
  opener := h _ (by simp)
  closer := h _ (by simp)
  nul := h _ (by simp)
  cr := h _ (by simp)

private theorem delimiter_not_numeral :
    ∀ c ∈ [NUL, CR, '[', ']'], c.isDigit = false ∧ c ∉ " -.ainf".toList :=
  forall_mem_of_all (by decide)

theorem isValueText_render {F : Type*} (fl : FloatLib F) (v : F) : IsValueText (fl.render v) := by
  apply isValueText_of_delimiters
  intro c hc
  obtain ⟨hdigit, hsign⟩ := delimiter_not_numeral c hc
  exact fl.not_mem_render v hdigit hsign

theorem isValueText_renderInt (v : ℤ) : IsValueText (TemperatureNode.renderInt v) := by
  apply isValueText_of_delimiters
  intro c hc
  obtain ⟨hdigit, hsign⟩ := delimiter_not_numeral c hc
  apply TemperatureNode.not_mem_renderInt v hdigit
  rintro rfl
  exact hsign (by decide)

private theorem closer_not_mem {a x : Str} (ha : ']' ∉ a) (hx : IsValueText x) : ']' ∉ a ++ x :=
  fun h => (List.mem_append.mp h).elim ha hx.closer

/-- The fixed parts of a request `c[name]c` prose `id[message]id`, free of the bytes
that delimit requests and fields. -/
structure StatusFormat where
  name : Str
  prose : Str
  id : Char
  id_ne : id ≠ 'c'
  clean : ∀ c ∈ [NUL, CR, '[', ']'], c ∉ name ++ prose ++ [id]

namespace StatusFormat

def head (f : StatusFormat) : Str := frame 'c' f.name ++ f.prose

def text (f : StatusFormat) (M : Str) : Str := f.head ++ frame f.id M ++ [' ']

theorem not_mem_name (f : StatusFormat) {c : Char} (hc : c ∈ [NUL, CR, '[', ']']) : c ∉ f.name :=
  fun h => f.clean c hc (by simp [h])

theorem not_mem_prose (f : StatusFormat) {c : Char} (hc : c ∈ [NUL, CR, '[', ']']) :
    c ∉ f.prose ∧ c ≠ f.id :=
  ⟨fun h => f.clean c hc (by simp [h]), fun h => f.clean c hc (by simp [h])⟩

theorem not_mem_text (f : StatusFormat) {M : Str} {c : Char} (hc : c ∈ [NUL, CR]) (hM : c ∉ M) :
    c ∉ f.text M := by
  have hc' : c ∈ [NUL, CR, '[', ']'] := by
    rcases List.mem_pair.mp hc with rfl | rfl <;> simp
  have hname := f.not_mem_name hc'
  obtain ⟨hprose, hid⟩ := f.not_mem_prose hc'
  have hpunct : c ∉ "c[] ".toList := by
    rcases List.mem_pair.mp hc with rfl | rfl <;> decide
  simp only [text, head, frame, List.mem_append, List.mem_cons, not_or] at hpunct ⊢
  simp_all

theorem closer_not_mem_prose (f : StatusFormat) : ']' ∉ f.prose ++ [f.id, '['] := by
  obtain ⟨hprose, hid⟩ := f.not_mem_prose (by simp : ']' ∈ _)
  simp [hprose, hid]

theorem opener_first (f : StatusFormat) : ¬ [f.id, '['] <:+: f.head ++ [f.id] := by
  have hsplit : f.head ++ [f.id] =
      [] ++ 'c' :: '[' :: (f.name ++ ']' :: 'c' :: (f.prose ++ [f.id])) := by
    simp only [head, frame, List.append_assoc, List.cons_append, List.nil_append]
  obtain ⟨hprose, hid⟩ := f.not_mem_prose (by simp : '[' ∈ _)
  have htail : '[' ∉ f.name ++ ']' :: 'c' :: (f.prose ++ [f.id]) := by
    simp [f.not_mem_name (by simp : '[' ∈ _), hprose, hid]
  rw [hsplit, pair_infix_skip_left _ (by simp) (Ne.symm f.id_ne) (by decide) (Ne.symm hid)]
  exact not_pair_infix_of_right_not_mem _ htail

theorem name_closer_first (f : StatusFormat) {M : Str} (hM : ¬ [']', 'c'] <:+: M) :
    ¬ [']', 'c'] <:+: 'c' :: (f.prose ++ frame f.id M ++ [' ']) := by
  have hsplit : 'c' :: (f.prose ++ frame f.id M ++ [' ']) =
      (['c'] ++ (f.prose ++ [f.id, '['])) ++ (M ++ [']', f.id, ' ']) := by simp [frame]
  have hfixed : ']' ∉ ['c'] ++ (f.prose ++ [f.id, '[']) :=
    fun h => (List.mem_append.mp h).elim (by simp) f.closer_not_mem_prose
  have htail : ¬ [']', 'c'] <:+: [']', f.id, ' '] := by
    simp [List.infix_cons_iff, Ne.symm f.id_ne]
  rw [hsplit, pair_infix_append _ _ (['c'] ++ _), pair_infix_append _ _ M]
  rintro (h | (h | h | ⟨-, h⟩) | ⟨h, -⟩)
  · exact hfixed (h.subset (by simp))
  · exact hM h
  · exact htail h
  · simp at h
  · exact hfixed (List.mem_of_getLast? h)

theorem widestFrame_name (f : StatusFormat) {M : Str} (hM : ¬ [']', 'c'] <:+: M) :
    WidestFrame (f.text M) 'c' f.name :=
  ⟨[], f.prose ++ frame f.id M ++ [' '], by simp [text, head], by decide, f.name_closer_first hM⟩

/-- A closer of the name inside the message is taken for the end of the name. -/
theorem widestFrame_name_of_closer (f : StatusFormat) {M : Str} (hM : [']', 'c'] <:+: M) :
    ∃ y, WidestFrame (f.text M) 'c' y ∧ ']' ∈ y := by
  obtain ⟨i, hi⟩ := Option.ne_none_iff_exists'.mp
    (fun h => (last?_eq_none_iff _ _).mp h hM : last? [']', 'c'] M ≠ none)
  obtain ⟨before, after, rfl, -, hafter⟩ := (last?_pair_eq_some_iff _ _ _ _).mp hi
  refine ⟨f.name ++ [']', 'c'] ++ f.prose ++ [f.id, '['] ++ before,
    ⟨[], after ++ [']', f.id, ' '], by simp [text, head, frame], by decide, ?_⟩, by simp⟩
  rw [← List.cons_append, pair_infix_append]
  rintro (h | h | ⟨-, h⟩)
  · exact hafter h
  · simp [List.infix_cons_iff, Ne.symm f.id_ne] at h
  · simp at h

theorem status_closer_last (f : StatusFormat) : ¬ [']', f.id] <:+: [f.id, ' '] := by
  have hid := (f.not_mem_prose (by simp : ']' ∈ _)).2
  exact not_pair_infix_of_left_not_mem _ (by simp [hid])

theorem widestFrame_status (f : StatusFormat) (M : Str) : WidestFrame (f.text M) f.id M :=
  ⟨f.head, [' '], rfl, f.opener_first, f.status_closer_last⟩

theorem getSubstring_status (f : StatusFormat) {M : Str} (hM : NUL ∉ M) :
    Framing.getSubstring (f.text M) [f.id] = M :=
  getSubstring_of_widestFrame (f.not_mem_text (by simp) hM) (f.widestFrame_status M)

/-! The two fields of a request whose message is free of delimiters. -/

theorem nameField (f : StatusFormat) {M : Str} (hM : IsValueText M) :
    FieldAt (f.text M) 'c' f.name [] (f.prose ++ frame f.id M ++ [' ']) where
  split := by simp [text, head]
  opener := by decide
  inside := by
    have hname : ']' ∉ ['c', '['] ++ f.name := by simp [f.not_mem_name (by simp : ']' ∈ _)]
    simpa using not_pair_infix_concat 'c' hname
  closer := f.name_closer_first (not_pair_infix_of_left_not_mem _ hM.closer)

theorem statusField (f : StatusFormat) {M : Str} (hM : IsValueText M) :
    FieldAt (f.text M) f.id M f.head [' '] where
  split := rfl
  opener := f.opener_first
  inside := by
    have hsplit : f.head ++ [f.id, '['] ++ M ++ [']'] =
        (['c', '['] ++ f.name) ++ ']' :: 'c' :: ((f.prose ++ [f.id, '['] ++ M) ++ [']']) := by
      simp only [head, frame, List.append_assoc, List.cons_append, List.nil_append]
    have hname : ']' ∉ ['c', '['] ++ f.name := by simp [f.not_mem_name (by simp : ']' ∈ _)]
    rw [hsplit, pair_infix_skip_right _ hname (Ne.symm f.id_ne) (by decide)]
    exact not_pair_infix_concat _ (closer_not_mem f.closer_not_mem_prose hM)
  closer := f.status_closer_last

/-- The name is recognised exactly when the message does not contain its closer. -/
theorem dispatch_text_eq (f : StatusFormat) {M : Str} (hM : NUL ∉ M) (n : Node)
    (hn : n.name = f.name) :
    dispatch (f.text M) = if [']', 'c'] <:+: M then none else some n := by
  have hnul : NUL ∉ f.text M := f.not_mem_text (by simp) hM
  split_ifs with hc
  · obtain ⟨y, hy, hmem⟩ := f.widestFrame_name_of_closer hc
    by_contra hne
    obtain ⟨m, hm⟩ := Option.ne_none_iff_exists'.mp hne
    have hname : y = m.name :=
      (getSubstring_of_widestFrame hnul hy).symm.trans ((dispatch_eq_some_iff _ _).mp hm)
    rw [hname] at hmem
    cases m <;> exact absurd hmem (by decide)
  · rw [dispatch_eq_some_iff, hn]
    exact getSubstring_of_widestFrame hnul (f.widestFrame_name hc)

end StatusFormat

def keypadFormat : StatusFormat where
  name := Keypad.nom
  prose := []
  id := 'k'
  id_ne := by decide
  clean := forall_mem_of_all (by decide)

def proximityFormat : StatusFormat where
  name := Proximity.nom
  prose := " motion ".toList
  id := 'm'
  id_ne := by decide
  clean := forall_mem_of_all (by decide)

def rfidFormat : StatusFormat where
  name := RFID.nom
  prose := ":  ".toList
  id := 'a'
  id_ne := by decide
  clean := forall_mem_of_all (by decide)

private theorem name_opener : "c[".toList = ['c', '['] := rfl
private theorem name_closer : "]c".toList = [']', 'c'] := rfl

theorem read_keypad_request {M : Str} (hM : CR ∉ M) :
    readStringUntil CR (println (Keypad.requestText M)) = keypadFormat.text M := by
  have hhead : "k[".toList = ['k', '['] := rfl
  have htail : "]k \r".toList = [']', 'k', ' ', CR] := rfl
  have hsplit : println (Keypad.requestText M) = keypadFormat.text M ++ CR :: "\r\n".toList := by
    unfold println Keypad.requestText StatusFormat.text StatusFormat.head keypadFormat frame
    rw [hhead, htail, name_opener, name_closer]
    simp only [List.append_assoc, List.cons_append, List.nil_append]
  rw [hsplit, readStringUntil_append (keypadFormat.not_mem_text (by simp) hM)]

theorem read_proximity_request {M : Str} (hM : CR ∉ M) :
    readStringUntil CR (println (Proximity.requestText M)) = proximityFormat.text M := by
  have hhead : " motion m[".toList = " motion ".toList ++ ['m', '['] := rfl
  have htail : "]m \r".toList = [']', 'm', ' ', CR] := rfl
  have hsplit : println (Proximity.requestText M) =
      proximityFormat.text M ++ CR :: "\r\n".toList := by
    unfold println Proximity.requestText StatusFormat.text StatusFormat.head proximityFormat frame
    rw [hhead, htail, name_opener, name_closer]
    simp only [List.append_assoc, List.cons_append, List.nil_append]
  rw [hsplit, readStringUntil_append (proximityFormat.not_mem_text (by simp) hM)]

theorem read_rfid_request {M : Str} (hM : CR ∉ M) :
    readStringUntil CR (println (RFID.requestText M)) = rfidFormat.text M := by
  have hhead : ":  a[".toList = ":  ".toList ++ ['a', '['] := rfl
  have htail : "]a \r".toList = [']', 'a', ' ', CR] := rfl
  have hsplit : println (RFID.requestText M) = rfidFormat.text M ++ CR :: "\r\n".toList := by
    unfold println RFID.requestText StatusFormat.text StatusFormat.head rfidFormat frame
    rw [hhead, htail, name_opener, name_closer]
    simp only [List.append_assoc, List.cons_append, List.nil_append]
  rw [hsplit, readStringUntil_append (rfidFormat.not_mem_text (by simp) hM)]

def temperatureProse : Str :=
  frame 'c' TemperatureNode.peerName ++ ": Current temperature is ".toList
def humidityProse : Str := " Current humidity is ".toList
def lightProse : Str := " Current light level is: ".toList

def reportText (T H L : Str) : Str :=
  temperatureProse ++ frame 't' T ++ humidityProse ++ frame 'h' H ++ lightProse ++ frame 'l' L ++
    [' ']

theorem not_mem_reportText {T H L : Str} {c : Char} (hc : c ∈ [NUL, CR]) (hT : c ∉ T)
    (hH : c ∉ H) (hL : c ∉ L) : c ∉ reportText T H L := by
  have hprose : c ∉ temperatureProse ∧ c ∉ humidityProse ∧ c ∉ lightProse := by
    rcases List.mem_pair.mp hc with rfl | rfl <;> decide
  have hpunct : c ∉ "t[]h[]l[] ".toList := by
    rcases List.mem_pair.mp hc with rfl | rfl <;> decide
  simp only [reportText, frame, List.mem_append, not_or] at hpunct ⊢
  simp_all

theorem read_report {T H L : Str} (hT : CR ∉ T) (hH : CR ∉ H) (hL : CR ∉ L) :
    readStringUntil CR (println (TemperatureNode.requestText T H L)) = reportText T H L := by
  have h1 : "c[".toList ++ TemperatureNode.peerName ++ "]c".toList ++
      ": Current temperature is t[".toList = temperatureProse ++ ['t', '['] := rfl
  have h2 : "]t Current humidity is h[".toList = [']', 't'] ++ humidityProse ++ ['h', '['] := rfl
  have h3 : "]h Current light level is: l[".toList = [']', 'h'] ++ lightProse ++ ['l', '['] := rfl
  have h4 : "]l \r".toList = [']', 'l', ' ', CR] := rfl
  have hsplit : println (TemperatureNode.requestText T H L) =
      reportText T H L ++ CR :: "\r\n".toList := by
    unfold println TemperatureNode.requestText reportText frame
    rw [h1, h2, h3, h4]
    simp only [List.append_assoc, List.cons_append, List.nil_append]
  rw [hsplit, readStringUntil_append (not_mem_reportText (by simp) hT hH hL)]

private theorem name_closer_prose :
    "]c: Current temperature is ".toList = ']' :: 'c' :: ": Current temperature is ".toList := rfl

section Report

variable {T H L : Str} (hT : IsValueText T) (hH : IsValueText H) (hL : IsValueText L)

include hL in
private theorem closer_after_h {id : Char} (hid : 'l' ≠ id) :
    ¬ [']', id] <:+: lightProse ++ frame 'l' L ++ [' '] := by
  have hsplit : lightProse ++ frame 'l' L ++ [' '] =
      (lightProse ++ ['l', '['] ++ L) ++ ']' :: 'l' :: [' '] := by
    simp only [frame, List.append_assoc, List.cons_append, List.nil_append]
  rw [hsplit, pair_infix_skip_right _ (closer_not_mem (by decide) hL) hid (by decide)]
  exact not_pair_infix_of_left_not_mem _ (by decide)

include hH hL in
private theorem closer_after_t {id : Char} (hid : 'h' ≠ id) (hid' : 'l' ≠ id) :
    ¬ [']', id] <:+: humidityProse ++ frame 'h' H ++ lightProse ++ frame 'l' L ++ [' '] := by
  have hsplit : humidityProse ++ frame 'h' H ++ lightProse ++ frame 'l' L ++ [' '] =
      (humidityProse ++ ['h', '['] ++ H) ++ ']' :: 'h' ::
        (lightProse ++ frame 'l' L ++ [' ']) := by
    simp only [frame, List.append_assoc, List.cons_append, List.nil_append]
  rw [hsplit, pair_infix_skip_right _ (closer_not_mem (by decide) hH) hid (by decide)]
  exact closer_after_h hL hid'

include hT hH hL

theorem reportField_c : FieldAt (reportText T H L) 'c' TemperatureNode.peerName []
    (": Current temperature is ".toList ++ frame 't' T ++ humidityProse ++ frame 'h' H ++
      lightProse ++ frame 'l' L ++ [' ']) where
  split := by simp only [reportText, temperatureProse, List.append_assoc, List.nil_append]
  opener := by decide
  inside := by decide
  closer := by
    have hsplit : 'c' :: (": Current temperature is ".toList ++ frame 't' T ++ humidityProse ++
        frame 'h' H ++ lightProse ++ frame 'l' L ++ [' ']) =
        ('c' :: ": Current temperature is ".toList ++ ['t', '['] ++ T) ++ ']' :: 't' ::
          (humidityProse ++ frame 'h' H ++ lightProse ++ frame 'l' L ++ [' ']) := by
      simp only [frame, List.append_assoc, List.cons_append, List.nil_append]
    rw [hsplit, pair_infix_skip_right _ (closer_not_mem (by decide) hT) (by decide) (by decide)]
    exact closer_after_t hH hL (by decide) (by decide)

theorem reportField_t : FieldAt (reportText T H L) 't' T temperatureProse
    (humidityProse ++ frame 'h' H ++ lightProse ++ frame 'l' L ++ [' ']) where
  split := by simp only [reportText, List.append_assoc]
  opener := by decide
  inside := by
    have hsplit : temperatureProse ++ ['t', '['] ++ T ++ [']'] =
        (['c', '['] ++ TemperatureNode.peerName) ++ ']' :: 'c' ::
          ((": Current temperature is ".toList ++ ['t', '['] ++ T) ++ [']']) := by
      simp only [temperatureProse, frame, List.append_assoc, List.cons_append, List.nil_append]
    rw [hsplit, pair_infix_skip_right _ (by decide) (by decide) (by decide)]
    exact not_pair_infix_concat _ (closer_not_mem (by decide) hT)
  closer := by
    rw [List.infix_cons_iff, not_or]
    exact ⟨by simp [List.cons_prefix_cons], closer_after_t hH hL (by decide) (by decide)⟩

theorem reportField_h : FieldAt (reportText T H L) 'h' H
    (temperatureProse ++ frame 't' T ++ humidityProse) (lightProse ++ frame 'l' L ++ [' ']) where
  split := by simp only [reportText, List.append_assoc]
  opener := by
    have hsplit : temperatureProse ++ frame 't' T ++ humidityProse ++ ['h'] =
        [] ++ 'c' :: '[' :: ((TemperatureNode.peerName ++ "]c: Current temperature is ".toList) ++
          't' :: '[' :: (T ++ (']' :: 't' :: humidityProse ++ ['h']))) := by
      simp only [temperatureProse, frame, name_closer_prose, List.append_assoc, List.cons_append,
        List.nil_append]
    have htail : '[' ∉ T ++ (']' :: 't' :: humidityProse ++ ['h']) :=
      fun h => (List.mem_append.mp h).elim hT.opener (by decide)
    rw [hsplit, pair_infix_skip_left _ (by decide) (by decide) (by decide) (by decide),
      pair_infix_skip_left _ (by decide) (by decide) (by decide) (by decide)]
    exact not_pair_infix_of_right_not_mem _ htail
  inside := by
    have hsplit : temperatureProse ++ frame 't' T ++ humidityProse ++ ['h', '['] ++ H ++ [']'] =
        (['c', '['] ++ TemperatureNode.peerName) ++ ']' :: 'c' ::
          ((": Current temperature is ".toList ++ ['t', '['] ++ T) ++ ']' :: 't' ::
            ((humidityProse ++ ['h', '['] ++ H) ++ [']'])) := by
      simp only [temperatureProse, frame, List.append_assoc, List.cons_append, List.nil_append]
    rw [hsplit, pair_infix_skip_right _ (by decide) (by decide) (by decide),
      pair_infix_skip_right _ (closer_not_mem (by decide) hT) (by decide) (by decide)]
    exact not_pair_infix_concat _ (closer_not_mem (by decide) hH)
  closer := by
    rw [List.infix_cons_iff, not_or]
    exact ⟨by simp [List.cons_prefix_cons], closer_after_h hL (by decide)⟩

theorem reportField_l : FieldAt (reportText T H L) 'l' L
    (temperatureProse ++ frame 't' T ++ humidityProse ++ frame 'h' H ++ lightProse) [' '] where
  split := by simp only [reportText]
  opener := by
    have hsplit : temperatureProse ++ frame 't' T ++ humidityProse ++ frame 'h' H ++ lightProse ++
        ['l'] =
        [] ++ 'c' :: '[' :: ((TemperatureNode.peerName ++ "]c: Current temperature is ".toList) ++
          't' :: '[' :: ((T ++ (']' :: 't' :: humidityProse)) ++
            'h' :: '[' :: (H ++ (']' :: 'h' :: lightProse ++ ['l'])))) := by
      simp only [temperatureProse, frame, name_closer_prose, List.append_assoc, List.cons_append,
        List.nil_append]
    have hmid : '[' ∉ T ++ (']' :: 't' :: humidityProse) :=
      fun h => (List.mem_append.mp h).elim hT.opener (by decide)
    have htail : '[' ∉ H ++ (']' :: 'h' :: lightProse ++ ['l']) :=
      fun h => (List.mem_append.mp h).elim hH.opener (by decide)
    rw [hsplit, pair_infix_skip_left _ (by decide) (by decide) (by decide) (by decide),
      pair_infix_skip_left _ (by decide) (by decide) (by decide) (by decide),
      pair_infix_skip_left _ hmid (by decide) (by decide) (by decide)]
    exact not_pair_infix_of_right_not_mem _ htail
  inside := by
    have hsplit : temperatureProse ++ frame 't' T ++ humidityProse ++ frame 'h' H ++ lightProse ++
        ['l', '['] ++ L ++ [']'] =
        (['c', '['] ++ TemperatureNode.peerName) ++ ']' :: 'c' ::
          ((": Current temperature is ".toList ++ ['t', '['] ++ T) ++ ']' :: 't' ::
            ((humidityProse ++ ['h', '['] ++ H) ++ ']' :: 'h' ::
              ((lightProse ++ ['l', '['] ++ L) ++ [']']))) := by
      simp only [temperatureProse, frame, List.append_assoc, List.cons_append, List.nil_append]
    rw [hsplit, pair_infix_skip_right _ (by decide) (by decide) (by decide),
      pair_infix_skip_right _ (closer_not_mem (by decide) hT) (by decide) (by decide),
      pair_infix_skip_right _ (closer_not_mem (by decide) hH) (by decide) (by decide)]
    exact not_pair_infix_concat _ (closer_not_mem (by decide) hL)
  closer := by
    rw [List.infix_cons_iff, not_or]
    exact ⟨by simp [List.cons_prefix_cons], not_pair_infix_of_left_not_mem _ (by decide)⟩

theorem report_fields :
    dispatch (reportText T H L) = some .temHumLight ∧
      getClientSubstring (reportText T H L) ['t'] = T ∧
      getClientSubstring (reportText T H L) ['h'] = H ∧
      getClientSubstring (reportText T H L) ['l'] = L := by
  have hnul : NUL ∉ reportText T H L := not_mem_reportText (by simp) hT.nul hH.nul hL.nul
  refine ⟨(dispatch_eq_some_iff _ _).mpr ?_, ?_, ?_, ?_⟩
  · exact (reportField_c hT hH hL).getSubstring hnul
  · exact (reportField_t hT hH hL).getSubstring hnul
  · exact (reportField_h hT hH hL).getSubstring hnul
  · exact (reportField_l hT hH hL).getSubstring hnul

end Report

end HomeMonitor.Framing
