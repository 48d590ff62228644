import HomeMonitor.Arduino.WString

/-! Extraction of the text wrapped inside an identifier, `id[text]id`. The sketches
share one function; it searches the two markers separately and does not test
whether they were found. -/
namespace HomeMonitor.Framing
open HomeMonitor.Text HomeMonitor.Arduino

/-- `getClientSubstring` of the server and `getSubstring` of the Keypad and RFID nodes. -/
def getSubstring (request identifier : Str) : Str :=
  substring request (indexOf request (identifier ++ "[".toList) + 2)
    (lastIndexOf request ("]".toList ++ identifier))

/-- The text `x` wrapped inside the one-letter identifier `id`. -/
def frame (id : Char) (x : Str) : Str := [id, '['] ++ x ++ [']', id]

theorem getSubstring_within (request identifier : Str) :
    getSubstring request identifier <:+: request :=
  substring_within _ _ _

/-- All outcomes of an extraction, by which of the two markers is present. -/
theorem getSubstring_eq {s : Str} (h : NUL ∉ s) (id : Char) :
    getSubstring s [id] =
      match first? [id, '['] s, last? [']', id] s with
      | none, none => s.drop 1
      | none, some j => if j = 0 then s.take 1 else (s.take j).drop 1
      | some i, none => s.drop (i + 2)
      | some i, some j =>
        if i + 2 ≤ j then (s.take j).drop (i + 2) else (s.take (i + 2)).drop j := by
  have hopen : [id] ++ "[".toList = [id, '['] := rfl
  have hclose : "]".toList ++ [id] = [']', id] := rfl
  have hmax := length_le_toUnsigned_neg s
  unfold getSubstring substring
  rw [hopen, hclose, indexOf_eq h _ (by simp), lastIndexOf_eq h _ (by simp)]
  cases hi : first? [id, '['] s with
  | none =>
    have hone : toUnsigned s (-1 + 2) = 1 := rfl
    cases hj : last? [']', id] s with
    | none =>
      simp only [hone]
      rcases s with _ | ⟨a, s⟩
      · simp
      · simp only [List.length_cons] at hmax
        rw [max_eq_right (by omega), min_eq_left (by omega),
          List.take_of_length_le (by simpa using hmax)]
    | some j =>
      simp only [hone, toUnsigned_natCast]
      split_ifs with h0
      · subst h0; rfl
      · rw [max_eq_right (by omega), min_eq_left (by omega)]
  | some i =>
    have htwo : toUnsigned s ((i : ℤ) + 2) = i + 2 := by
      exact_mod_cast toUnsigned_natCast s (i + 2)
    have hbound := (((first?_eq_some_iff _ _ (by simp) _).mp hi).1.split (by simp)).2
    simp only [List.length_cons, List.length_nil] at hbound
    cases hj : last? [']', id] s with
    | none =>
      simp only [htwo]
      rw [max_eq_right (by omega), min_eq_left (by omega), List.take_of_length_le hmax]
    | some j =>
      simp only [htwo, toUnsigned_natCast]
      split_ifs with hij
      · rw [max_eq_right hij, min_eq_left hij]
      · rw [max_eq_left (by omega), min_eq_right (by omega)]

/-- `x` stands between the first opener and the last closer of `id`. -/
def WidestFrame (s : Str) (id : Char) (x : Str) : Prop :=
  ∃ pre post, s = pre ++ frame id x ++ post ∧
    ¬ [id, '['] <:+: pre ++ [id] ∧ ¬ [']', id] <:+: id :: post

/-- `x` is read although it is not framed: after one skipped byte where both markers
are absent, from the second byte to the last closer where the opener is absent, or
from the first opener to the end where the closer is absent. -/
def Unframed (s : Str) (id : Char) (x : Str) : Prop :=
  (¬ [id, '['] <:+: s ∧ ¬ [']', id] <:+: s ∧ ∃ a, s = a :: x) ∨
  (¬ [id, '['] <:+: s ∧ ∃ a post, s = a :: x ++ ']' :: id :: post ∧ ¬ [']', id] <:+: id :: post) ∨
  (¬ [']', id] <:+: s ∧ ∃ pre, s = pre ++ id :: '[' :: x ∧ ¬ [id, '['] <:+: pre ++ [id])

theorem frame_infix_of_widestFrame {s : Str} {id : Char} {x : Str} (h : WidestFrame s id x) :
    frame id x <:+: s := by
  obtain ⟨pre, post, rfl, -, -⟩ := h
  exact ⟨pre, post, rfl⟩

theorem opener_infix_frame (id : Char) (x : Str) : [id, '['] <:+: frame id x :=
  ⟨[], x ++ [']', id], by simp [frame]⟩

theorem closer_infix_frame (id : Char) (x : Str) : [']', id] <:+: frame id x :=
  ⟨[id, '['] ++ x, [], by simp [frame]⟩

theorem not_frame_infix_of_unframed {s : Str} {id : Char} {x : Str} (h : Unframed s id x)
    (y : Str) : ¬ frame id y <:+: s := by
  intro hin
  rcases h with ⟨h, -, -⟩ | ⟨h, -⟩ | ⟨h, -⟩
  · exact h ((opener_infix_frame id y).trans hin)
  · exact h ((opener_infix_frame id y).trans hin)
  · exact h ((closer_infix_frame id y).trans hin)

theorem first?_opener {s pre x post : Str} {id : Char} (hs : s = pre ++ frame id x ++ post)
    (hpre : ¬ [id, '['] <:+: pre ++ [id]) : first? [id, '['] s = some pre.length := by
  rw [first?_pair_eq_some_iff]
  exact ⟨pre, x ++ ']' :: id :: post, by simp [hs, frame], rfl, hpre⟩

theorem last?_closer {s pre x post : Str} {id : Char} (hs : s = pre ++ frame id x ++ post)
    (hpost : ¬ [']', id] <:+: id :: post) :
    last? [']', id] s = some (pre ++ [id, '['] ++ x).length := by
  rw [last?_pair_eq_some_iff]
  exact ⟨pre ++ [id, '['] ++ x, post, by simp [hs, frame], rfl, hpost⟩

theorem getSubstring_of_widestFrame {s : Str} (hs : NUL ∉ s) {id : Char} {x : Str}
    (h : WidestFrame s id x) : getSubstring s [id] = x := by
  obtain ⟨pre, post, hframed, hpre, hpost⟩ := h
  have hsplit : s = (pre ++ [id, '[']) ++ x ++ (']' :: id :: post) := by
    simp [hframed, frame]
  have horder : pre.length + 2 ≤ (pre ++ [id, '['] ++ x).length := by
    simp only [List.length_append, List.length_cons, List.length_nil]
    omega
  rw [getSubstring_eq hs, first?_opener hframed hpre, last?_closer hframed hpost]
  dsimp only
  rw [if_pos horder, hsplit, List.take_left, List.drop_left' (by simp)]

theorem getSubstring_of_unframed {s : Str} (hs : NUL ∉ s) {id : Char} {x : Str}
    (h : Unframed s id x) : getSubstring s [id] = x := by
  rw [getSubstring_eq hs]
  rcases h with ⟨ho, hc, a, rfl⟩ | ⟨ho, a, post, rfl, hpost⟩ | ⟨hc, pre, rfl, hpre⟩
  · rw [(first?_eq_none_iff _ _).mpr ho, (last?_eq_none_iff _ _).mpr hc]
    rfl
  · have hclose : last? [']', id] (a :: x ++ ']' :: id :: post) = some (a :: x).length :=
      (last?_pair_eq_some_iff _ _ _ _).mpr ⟨a :: x, post, rfl, rfl, hpost⟩
    rw [(first?_eq_none_iff _ _).mpr ho, hclose]
    dsimp only
    rw [if_neg (by simp), List.take_left' rfl, List.drop_one, List.tail_cons]
  · have hopen : first? [id, '['] (pre ++ id :: '[' :: x) = some pre.length :=
      (first?_pair_eq_some_iff _ _ _ _).mpr ⟨pre, x, rfl, rfl, hpre⟩
    have hsplit : pre ++ id :: '[' :: x = (pre ++ [id, '[']) ++ x := by simp
    rw [hopen, (last?_eq_none_iff _ _).mpr hc]
    dsimp only
    rw [hsplit, List.drop_left' (by simp)]

theorem framed_of_positions {s pre mid pre' post : Str} {id : Char}
    (h : s = pre ++ id :: '[' :: mid) (h' : s = pre' ++ ']' :: id :: post)
    (hle : pre.length + 2 ≤ pre'.length) :
    ∃ x, pre' = pre ++ id :: '[' :: x ∧ s = pre ++ frame id x ++ post := by
  have hp : pre ++ [id, '['] <+: s := ⟨mid, by simp [h]⟩
  have hp' : pre' <+: s := ⟨']' :: id :: post, h'.symm⟩
  obtain ⟨x, hx⟩ := List.prefix_of_prefix_length_le hp hp' (by simpa using hle)
  refine ⟨x, by simp [← hx], ?_⟩
  rw [h', ← hx]
  simp [frame]

/-- A nonempty text that does not begin with `]` is extracted exactly when it stands
in the widest frame or is read without a frame. -/
theorem getSubstring_eq_iff {s : Str} (hs : NUL ∉ s) (id : Char) {x : Str} (hx : x ≠ [])
    (hhead : x.head? ≠ some ']') :
    getSubstring s [id] = x ↔ WidestFrame s id x ∨ Unframed s id x := by
  refine ⟨fun h => ?_, fun h => h.elim (getSubstring_of_widestFrame hs)
    (getSubstring_of_unframed hs)⟩
  rw [getSubstring_eq hs] at h
  cases hi : first? [id, '['] s with
  | none =>
    have ho := (first?_eq_none_iff _ _).mp hi
    cases hj : last? [']', id] s with
    | none =>
      rw [hi, hj] at h
      have hc := (last?_eq_none_iff _ _).mp hj
      rcases s with _ | ⟨a, s⟩
      · exact absurd h.symm hx
      · exact Or.inr (Or.inl ⟨ho, hc, a, by rw [← h]; rfl⟩)
    | some j =>
      obtain ⟨pre, post, hsplit, rfl, hpost⟩ := (last?_pair_eq_some_iff _ _ _ _).mp hj
      rw [hi, hj] at h
      rcases pre with _ | ⟨a, pre⟩
      · -- the bounds are swapped and the text begins with the closer
        rw [hsplit] at h
        exact absurd (by rw [← h]; rfl) hhead
      · have hpre : pre = x := by
          rw [hsplit] at h
          simpa using h
        exact Or.inr (Or.inr (Or.inl ⟨ho, a, post, by rw [hsplit, hpre], hpost⟩))
  | some i =>
    obtain ⟨pre, mid, hsplit, rfl, hpre⟩ := (first?_pair_eq_some_iff _ _ _ _).mp hi
    cases hj : last? [']', id] s with
    | none =>
      rw [hi, hj] at h
      have hmid : mid = x := by
        rw [hsplit, show pre ++ id :: '[' :: mid = (pre ++ [id, '[']) ++ mid by simp] at h
        simpa using h
      have hc := (last?_eq_none_iff _ _).mp hj
      exact Or.inr (Or.inr (Or.inr ⟨hc, pre, by rw [hsplit, hmid], hpre⟩))
    | some j =>
      obtain ⟨pre', post, hsplit', rfl, hpost⟩ := (last?_pair_eq_some_iff _ _ _ _).mp hj
      rw [hi, hj] at h
      dsimp only at h
      split_ifs at h with hle
      · obtain ⟨y, hy, hframe⟩ := framed_of_positions hsplit hsplit' hle
        have hxy : y = x := by
          rw [hsplit', List.take_left' rfl, hy,
            show pre ++ id :: '[' :: y = (pre ++ [id, '[']) ++ y by simp] at h
          simpa using h
        exact Or.inl ⟨pre, post, by rw [hframe, hxy], hpre, hpost⟩
      · -- the bounds are swapped and the text begins with the closer
        have hfirst : s[pre'.length]? = some ']' := by rw [hsplit']; simp
        have hcut : x.head? = some ']' := by
          rw [← h, List.head?_drop, List.getElem?_take_of_lt (by omega), hfirst]
        exact absurd hcut hhead

/-- `x` is the field `id` of `s`: its opener is the first of its kind and its closer the
only one. -/
structure FieldAt (s : Str) (id : Char) (x pre post : Str) : Prop where
  split : s = pre ++ frame id x ++ post
  opener : ¬ [id, '['] <:+: pre ++ [id]
  inside : ¬ [']', id] <:+: pre ++ [id, '['] ++ x ++ [']']
  closer : ¬ [']', id] <:+: id :: post

theorem FieldAt.widestFrame {s : Str} {id : Char} {x pre post : Str} (h : FieldAt s id x pre post) :
    WidestFrame s id x := ⟨pre, post, h.split, h.opener, h.closer⟩

theorem FieldAt.getSubstring {s : Str} (hs : NUL ∉ s) {id : Char} {x pre post : Str}
    (h : FieldAt s id x pre post) : getSubstring s [id] = x :=
  getSubstring_of_widestFrame hs h.widestFrame

/-- What is extracted for a field once only `n` bytes of the request have arrived:
everything after the first byte until the opener is complete, then what there is of the
text and of its closing bracket, and the text once the closer is complete. -/
theorem FieldAt.getSubstring_take {s : Str} (hs : NUL ∉ s) {id : Char} {x pre post : Str}
    (h : FieldAt s id x pre post) (n : ℕ) :
    Framing.getSubstring (s.take n) [id] =
      if n < pre.length + 2 then (s.take n).drop 1
      else if n < pre.length + x.length + 4 then (x ++ [']']).take (n - (pre.length + 2))
      else x := by
  have hnul : NUL ∉ s.take n := fun hn => hs (List.mem_of_mem_take hn)
  have hopen : s = pre ++ [id] ++ '[' :: (x ++ [']', id] ++ post) := by simp [h.split, frame]
  have hclose : s = (pre ++ [id, '['] ++ x ++ [']']) ++ id :: post := by simp [h.split, frame]
  have hall : s = (pre ++ frame id x) ++ post := h.split
  split_ifs with h1 h2
  · have hpre : s.take n <+: pre ++ [id] := by
      rw [hopen, List.take_append_of_le_length (by simp; omega)]
      exact List.take_prefix _ _
    have hin : s.take n <+: pre ++ [id, '['] ++ x ++ [']'] :=
      hpre.trans ⟨'[' :: x ++ [']'], by simp⟩
    rw [getSubstring_eq hnul,
      (first?_eq_none_iff _ _).mpr fun hi => h.opener (hi.trans hpre.isInfix),
      (last?_eq_none_iff _ _).mpr fun hi => h.inside (hi.trans hin.isInfix)]
  · have hin : s.take n <+: pre ++ [id, '['] ++ x ++ [']'] := by
      rw [hclose, List.take_append_of_le_length (by simp; omega)]
      exact List.take_prefix _ _
    refine getSubstring_of_unframed hnul (Or.inr (Or.inr
      ⟨fun hi => h.inside (hi.trans hin.isInfix), pre, ?_, h.opener⟩))
    rw [hclose, List.take_append_of_le_length (by simp; omega), List.append_assoc,
      List.take_append, List.take_of_length_le (by simp; omega)]
    simp
  · refine getSubstring_of_widestFrame hnul ⟨pre, post.take (n - (pre ++ frame id x).length), ?_,
      h.opener, fun hi => h.closer (hi.trans ?_)⟩
    · rw [hall, List.take_append, List.take_of_length_le (by simp [frame]; omega)]
    · exact (List.cons_prefix_cons.mpr ⟨rfl, List.take_prefix _ _⟩).isInfix

end HomeMonitor.Framing
