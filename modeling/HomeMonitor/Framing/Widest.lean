import HomeMonitor.Sketch.AsyncWebserver
import HomeMonitor.Sketch.Keypad
import HomeMonitor.Sketch.RFID

/-! The extraction on requests that hold a frame: it returns what the widest one wraps, for
every identifier, also where markers and texts overlap. -/
namespace HomeMonitor.Framing
open HomeMonitor.Text HomeMonitor.Arduino

/-- `x` is framed in the request, and every framed text lies inside it where it stands. -/
structure WidestPayload (request : Str) (id : Char) (x : Str) : Prop where
  framed : frame id x <:+: request
  longest : ∀ y, frame id y <:+: request → y.length ≤ x.length
  unique : ∀ y, frame id y <:+: request → y.length = x.length → y = x
  inside : ∃ pre post, request = pre ++ frame id x ++ post ∧
    ∀ pre' y post', request = pre' ++ frame id y ++ post' →
      ∃ u v, x = u ++ y ++ v ∧ pre' ++ [id, '['] = pre ++ [id, '['] ++ u ∧
        [']', id] ++ post' = v ++ ([']', id] ++ post)
  /-- A frame without a rival is the one that is read. -/
  only : ∀ y, frame id y <:+: request → (∀ z, frame id z <:+: request → z = y) → x = y

private theorem frame_split (id : Char) (pre x post : Str) :
    pre ++ frame id x ++ post = (pre ++ [id, '[']) ++ x ++ ([']', id] ++ post) := by
  unfold frame
  simp only [List.append_assoc]

theorem occursAt_of_frame {s pre y post : Str} {id : Char} (hs : s = pre ++ frame id y ++ post) :
    OccursAt [id, '['] s pre.length ∧ OccursAt [']', id] s (pre ++ [id, '['] ++ y).length := by
  rw [frame_split] at hs
  constructor
  · rw [hs, List.append_assoc (pre ++ [id, '['])]
    exact occursAt_append _ _ _
  · rw [hs, ← List.append_assoc]
    exact occursAt_append _ _ _

/-- Where a frame stands in the request there is a widest one. -/
theorem exists_widestFrame {s : Str} {id : Char} {y : Str} (h : frame id y <:+: s) :
    ∃ x, WidestFrame s id x := by
  have hopen : first? [id, '['] s ≠ none := fun hnone =>
    (first?_eq_none_iff _ _).mp hnone ((opener_infix_frame id y).trans h)
  have hclose : last? [']', id] s ≠ none := fun hnone =>
    (last?_eq_none_iff _ _).mp hnone ((closer_infix_frame id y).trans h)
  obtain ⟨i, hi⟩ := Option.ne_none_iff_exists'.mp hopen
  obtain ⟨j, hj⟩ := Option.ne_none_iff_exists'.mp hclose
  obtain ⟨pre', post', hs⟩ := h
  obtain ⟨hopenAt, hcloseAt⟩ := occursAt_of_frame hs.symm
  have hle : i ≤ pre'.length := by
    by_contra hlt
    exact ((first?_eq_some_iff _ _ (by simp) i).mp hi).2 _ (by omega) hopenAt
  have hge : (pre' ++ [id, '['] ++ y).length ≤ j := by
    by_contra hlt
    exact ((last?_eq_some_iff _ _ (by simp) j).mp hj).2 _ (by omega) hcloseAt
  simp only [List.length_append, List.length_cons, List.length_nil] at hge
  obtain ⟨pre, mid, hsplit, hpreLen, hpre⟩ := (first?_pair_eq_some_iff _ _ _ _).mp hi
  obtain ⟨front, post, hsplit', hfrontLen, hpost⟩ := (last?_pair_eq_some_iff _ _ _ _).mp hj
  obtain ⟨x, -, hframed⟩ := framed_of_positions hsplit hsplit' (by omega)
  exact ⟨x, pre, post, hframed, hpre, hpost⟩

theorem widest_bounds {s pre x post : Str} {id : Char} (hs : s = pre ++ frame id x ++ post)
    (hpre : ¬ [id, '['] <:+: pre ++ [id]) (hpost : ¬ [']', id] <:+: id :: post)
    {pre' y post' : Str} (hs' : s = pre' ++ frame id y ++ post') :
    pre.length ≤ pre'.length ∧
      (pre' ++ [id, '['] ++ y).length ≤ (pre ++ [id, '['] ++ x).length := by
  have hi := first?_opener hs hpre
  have hj := last?_closer hs hpost
  obtain ⟨hopenAt, hcloseAt⟩ := occursAt_of_frame hs'
  constructor
  · by_contra hlt
    exact ((first?_eq_some_iff _ _ (by simp) _).mp hi).2 _ (by omega) hopenAt
  · by_contra hlt
    exact ((last?_eq_some_iff _ _ (by simp) _).mp hj).2 _ (by omega) hcloseAt

/-- Every framed text lies inside the widest one. -/
theorem inside_widest {s pre x post : Str} {id : Char} (hs : s = pre ++ frame id x ++ post)
    (hpre : ¬ [id, '['] <:+: pre ++ [id]) (hpost : ¬ [']', id] <:+: id :: post)
    {pre' y post' : Str} (hs' : s = pre' ++ frame id y ++ post') :
    ∃ u v, x = u ++ y ++ v ∧ pre' ++ [id, '['] = pre ++ [id, '['] ++ u ∧
      [']', id] ++ post' = v ++ ([']', id] ++ post) := by
  obtain ⟨hbegin, hend⟩ := widest_bounds hs hpre hpost hs'
  rw [frame_split] at hs hs'
  have hlen := congrArg List.length (hs.symm.trans hs')
  simp only [List.length_append, List.length_cons, List.length_nil] at hend hlen
  have hfront : ∀ {p z t : Str}, s = p ++ [id, '['] ++ z ++ t → p ++ [id, '['] <+: s := by
    rintro p z t rfl
    exact (List.prefix_append _ z).trans (List.prefix_append _ t)
  have hback : ∀ {p t : Str}, s = p ++ ([']', id] ++ t) → [']', id] ++ t <:+ s := by
    rintro p t rfl
    exact List.suffix_append p _
  obtain ⟨u, hu⟩ := List.prefix_of_prefix_length_le (hfront hs) (hfront hs') (by simpa using hbegin)
  obtain ⟨v, hv⟩ := List.suffix_of_suffix_length_le (hback hs) (hback hs') (by
    simp only [List.length_append, List.length_cons, List.length_nil]
    omega)
  refine ⟨u, v, ?_, hu.symm, hv.symm⟩
  rw [hs, ← hu, ← hv] at hs'
  simp only [List.append_assoc, List.append_cancel_left_eq] at hs'
  simpa [← List.append_assoc] using hs'

theorem widestPayload_of_widestFrame {s x : Str} {id : Char} (h : WidestFrame s id x) :
    WidestPayload s id x := by
  have hframed := frame_infix_of_widestFrame h
  obtain ⟨pre, post, hs, hpre, hpost⟩ := h
  have hinside : ∀ y, frame id y <:+: s → ∃ u v, x = u ++ y ++ v := by
    rintro y ⟨pre', post', hs'⟩
    obtain ⟨u, v, hx, -⟩ := inside_widest hs hpre hpost hs'.symm
    exact ⟨u, v, hx⟩
  constructor
  · exact hframed
  · intro y hy
    obtain ⟨u, v, rfl⟩ := hinside y hy
    simp only [List.length_append]
    omega
  · intro y hy hlen
    obtain ⟨u, v, hx⟩ := hinside y hy
    rw [hx] at hlen
    simp only [List.length_append] at hlen
    have hu : u = [] := List.length_eq_zero_iff.mp (by omega)
    have hv : v = [] := List.length_eq_zero_iff.mp (by omega)
    rw [hx, hu, hv, List.nil_append, List.append_nil]
  · exact ⟨pre, post, hs, fun pre' y post' => inside_widest hs hpre hpost⟩
  · intro y _ honly
    exact honly x hframed

/-- From a request with a frame, each of the three sketches extracts what the widest frame
wraps. -/
theorem getSubstring_widest (request : Str) (id : Char) (h : NUL ∉ request)
    (hframe : ∃ y, frame id y <:+: request) :
    WidestPayload request id (AsyncWebserver.getClientSubstring request [id]) ∧
    WidestPayload request id (Keypad.getSubstring request [id]) ∧
    WidestPayload request id (RFID.getSubstring request [id]) := by
  obtain ⟨y, hy⟩ := hframe
  obtain ⟨x, hx⟩ := exists_widestFrame hy
  have hread : getSubstring request [id] = x := getSubstring_of_widestFrame h hx
  have hwidest : WidestPayload request id (getSubstring request [id]) := by
    rw [hread]
    exact widestPayload_of_widestFrame hx
  exact ⟨hwidest, hwidest, hwidest⟩

/-- Frames of a bracket, of which the wider one holds the other, and a single frame. -/
theorem getSubstring_widest_brackets :
    WidestPayload "[[a][[[b][".toList '[' (AsyncWebserver.getClientSubstring
      "[[a][[[b][".toList ['[']) ∧
    WidestPayload "r[Access OK]r".toList 'r' (RFID.getSubstring "r[Access OK]r".toList ['r']) :=
  ⟨(getSubstring_widest "[[a][[[b][".toList '[' (by decide) ⟨['a'], [], "[[b][".toList, rfl⟩).1,
    (getSubstring_widest "r[Access OK]r".toList 'r' (by decide)
      ⟨"Access OK".toList, [], [], rfl⟩).2.2⟩

end HomeMonitor.Framing
