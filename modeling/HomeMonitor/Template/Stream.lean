import HomeMonitor.Template.Engine
import HomeMonitor.Text.Mark

/-! The engine as a transformation of the bytes that are still to be sent: those in the
send buffer from the current position on, then the cache, then the content. -/
namespace HomeMonitor.Template
open HomeMonitor.Text HomeMonitor.Arduino

section Memory

variable {data bytes : Str} {dst m : ℕ}

theorem length_memcpy (h : dst + bytes.length ≤ data.length) :
    (memcpy data dst bytes).length = data.length := by
  unfold memcpy
  simp only [List.length_append, List.length_take, List.length_drop]
  omega

theorem take_memcpy (hm : dst + bytes.length ≤ m) (h : dst ≤ data.length) :
    (memcpy data dst bytes).take m = data.take dst ++ bytes ++
      (data.take m).drop (dst + bytes.length) := by
  have hlen : (data.take dst ++ bytes).length = dst + bytes.length := by simp; omega
  unfold memcpy
  rw [List.take_append, hlen, List.take_of_length_le (by omega), List.drop_take]

end Memory

def Response.remaining (r : Response) : Str := r.cache ++ r.content

@[simp] theorem Response.remaining_cache (r : Response) (x : Str) :
    Response.remaining { r with cache := x ++ r.cache } = x ++ r.remaining :=
  List.append_assoc _ _ _

theorem Response.read_eq (r : Response) (n : ℕ) :
    (r.readDataFromCacheOrContent n).1 = r.remaining.take n ∧
      (r.readDataFromCacheOrContent n).2.remaining = r.remaining.drop n := by
  unfold readDataFromCacheOrContent remaining
  dsimp only
  rw [List.take_append, List.drop_append]
  rcases Nat.le_total n r.cache.length with h | h
  · rw [Nat.min_eq_left h, Nat.sub_self, Nat.sub_eq_zero_of_le h]
    simp
  · rw [Nat.min_eq_right h, List.take_of_length_le h, List.drop_of_length_le h]
    simp

namespace Buffer

/-- The bytes before the current position: they are not looked at again. -/
def sent (b : Buffer) : Str := b.data.take b.start

def window (b : Buffer) : Str := (b.data.take b.len).drop b.start

def stream (b : Buffer) : Str := b.window ++ b.response.remaining

end Buffer

/-- A buffer of the given length is full unless the response is at its end. -/
structure Sound (originalLen : ℕ) (b : Buffer) : Prop where
  size : b.data.length = originalLen
  len_le : b.len ≤ originalLen
  start_le : b.start ≤ b.len
  full : b.len = originalLen ∨ b.response.remaining = []

theorem Sound.sent_length {L : ℕ} {b : Buffer} (h : Sound L b) : b.sent.length = b.start := by
  have hsize := h.size
  have hlen := h.len_le
  have hstart := h.start_le
  unfold Buffer.sent
  rw [List.length_take]
  omega

theorem Sound.window_length {L : ℕ} {b : Buffer} (h : Sound L b) :
    b.window.length = b.len - b.start := by
  have hsize := h.size
  have hlen := h.len_le
  unfold Buffer.window
  rw [List.length_drop, List.length_take]
  omega

theorem Sound.window_eq {L : ℕ} {b : Buffer} (h : Sound L b) :
    b.window = b.stream.take (L - b.start) := by
  have hwindow := h.window_length
  have hlen := h.len_le
  unfold Buffer.stream
  rcases h.full with hfull | hempty
  · rw [List.take_append_of_le_length (by omega), List.take_of_length_le (by omega)]
  · rw [hempty, List.append_nil, List.take_of_length_le (by omega)]

theorem sound_of_take {L : ℕ} {b : Buffer} {A W : Str} (hsize : b.data.length = L)
    (hlen : b.len ≤ L) (hA : A.length = b.start) (h : b.data.take b.len = A ++ W)
    (hfull : b.len = L ∨ b.response.remaining = []) :
    Sound L b ∧ b.sent = A ∧ b.window = W := by
  have hle : b.start ≤ b.len := by
    have hl := congrArg List.length h
    rw [List.length_take, List.length_append] at hl
    omega
  refine ⟨⟨hsize, hlen, hle, hfull⟩, ?_, ?_⟩
  · unfold Buffer.sent
    rw [← Nat.min_eq_left hle, ← List.take_take, h, List.take_left' hA]
  · unfold Buffer.window
    rw [h, List.drop_left' hA]

section Replace

variable {L : ℕ} {b : Buffer} {tend stop : ℕ}

def Buffer.behind (b : Buffer) (tend : ℕ) : Str := (b.data.take b.len).drop (tend + 1)

/-- What does not fit behind `stop` of the data behind the placeholder stands first in the
response, and the buffer is full; the rest stands at `stop`. -/
structure RoomMade (L : ℕ) (b : Buffer) (tend stop : ℕ) (m : Buffer) : Prop where
  start_eq : m.start = b.start
  size : m.data.length = L
  kept : m.data.take (stop + ((b.behind tend).take (L - stop)).length) =
    b.data.take stop ++ (b.behind tend).take (L - stop)
  remaining_eq : m.response.remaining = (b.behind tend).drop (L - stop) ++ b.response.remaining
  len_eq : m.len = if L < stop + (b.behind tend).length then L else b.len

private theorem length_behind (hb : Sound L b) (tend : ℕ) :
    (b.behind tend).length = b.len - tend - 1 := by
  have hsize := hb.size
  have hlen := hb.len_le
  unfold Buffer.behind
  simp only [List.length_take, List.length_drop]
  omega

private theorem drop_take_behind (b : Buffer) (tend : ℕ) {k : ℕ} (hk : k ≤ b.len - tend - 1) :
    (b.data.drop (tend + 1)).take k = (b.behind tend).take k := by
  unfold Buffer.behind
  rw [List.drop_take, List.take_take, Nat.min_eq_left (by omega)]

private theorem makeRoom_overflow (hb : Sound L b) (hstop : stop ≤ L) (hlong : tend + 1 < stop)
    (hover : L - (stop - tend - 1) < b.len) : RoomMade L b tend stop (makeRoom L b tend stop) := by
  have hsize := hb.size
  have hlen := hb.len_le
  have hbehind := length_behind hb tend
  have hkept : ((b.behind tend).take (L - stop)).length = L - stop := by
    rw [List.length_take]
    omega
  unfold makeRoom memmove
  rw [if_pos ⟨hlong, hover⟩, drop_take_behind b tend (by omega)]
  constructor
  · rfl
  · exact (length_memcpy (by omega)).trans hsize
  · rw [take_memcpy le_rfl (by omega), List.drop_of_length_le (by simp), List.append_nil]
  · have hcache : (b.data.take b.len).drop (L - (stop - tend - 1)) =
        (b.behind tend).drop (L - stop) := by
      unfold Buffer.behind
      rw [List.drop_drop]
      congr 1
      omega
    unfold Response.remaining
    dsimp only
    rw [hcache, List.append_assoc]
  · rw [if_pos (by omega)]

private theorem makeRoom_fits (hb : Sound L b) (ht : tend < b.len)
    (hfits : ¬ (tend + 1 < stop ∧ L - (stop - tend - 1) < b.len)) :
    RoomMade L b tend stop (makeRoom L b tend stop) := by
  have hsize := hb.size
  have hlen := hb.len_le
  have hbehind := length_behind hb tend
  have hkept : (b.behind tend).take (L - stop) = b.behind tend :=
    List.take_of_length_le (by omega)
  have hseg := drop_take_behind b tend le_rfl
  rw [List.take_of_length_le hbehind.le] at hseg
  unfold makeRoom memmove
  rw [if_neg hfits, hseg]
  have hlast : (b.behind tend).drop (L - stop) = [] := List.drop_of_length_le (by omega)
  split_ifs with heq
  · constructor
    · rfl
    · exact (length_memcpy (by omega)).trans hsize
    · rw [hkept, take_memcpy le_rfl (by omega), List.drop_of_length_le (by simp), List.append_nil]
    · rw [hlast, List.nil_append]
    · rw [if_neg (by omega)]
  · have hat : stop = tend + 1 := by omega
    constructor
    · rfl
    · exact hsize
    · rw [hkept, List.take_add, hat, hbehind, hseg]
    · rw [hlast, List.nil_append]
    · rw [if_neg (by omega)]

private theorem makeRoom_spec (hb : Sound L b) (ht : tend < b.len) (stop : ℕ) (hstop : stop ≤ L) :
    RoomMade L b tend stop (makeRoom L b tend stop) := by
  by_cases hover : tend + 1 < stop ∧ L - (stop - tend - 1) < b.len
  · exact makeRoom_overflow hb hstop hover.1 hover.2
  · exact makeRoom_fits hb ht hover

theorem replaceParam_nil (callback : Str → Str) (b : Buffer) (tend : ℕ) :
    replaceParam callback L b tend [] = b := by
  unfold replaceParam
  exact if_pos rfl

/-- The placeholder that ends at `tend` has given way to the value, and nothing else has
changed in the stream. -/
structure Replaced (L : ℕ) (b : Buffer) (tend : ℕ) (value : Str) (b' : Buffer) : Prop where
  sound : Sound L b'
  sent_eq : b'.sent = b.sent
  stream_eq : b'.stream = value ++ (b.behind tend ++ b.response.remaining)

private theorem replaced_of_take {b' : Buffer} {W v : Str} (hb : Sound L b)
    (hstart : b'.start = b.start) (hsize : b'.data.length = L) (hlen : b'.len ≤ L)
    (htake : b'.data.take b'.len = b.sent ++ W) (hfull : b'.len = L ∨ b'.response.remaining = [])
    (hstream : W ++ b'.response.remaining = v ++ (b.behind tend ++ b.response.remaining)) :
    Replaced L b tend v b' := by
  obtain ⟨hsound, hsent, hwindow⟩ :=
    sound_of_take hsize hlen (hb.sent_length.trans hstart.symm) htake hfull
  refine ⟨hsound, hsent, ?_⟩
  unfold Buffer.stream
  rw [hwindow, hstream]

/-- The buffer when the beginning of a value is copied into the room made for it. -/
private theorem RoomMade.take_copied {m : Buffer} {v : Str} {n : ℕ} (hb : Sound L b)
    (hn : v.length = n) (hstop : b.start + n ≤ L) (h : RoomMade L b tend (b.start + n) m) :
    (memcpy m.data b.start v).length = L ∧
    (memcpy m.data b.start v).take
        (b.start + n + ((b.behind tend).take (L - (b.start + n))).length) =
      b.sent ++ (v ++ (b.behind tend).take (L - (b.start + n))) := by
  have hsize := hb.size
  have hmsize := h.size
  have hhead : m.data.take b.start = b.sent := by
    have hkept := congrArg (List.take b.start) h.kept
    rw [List.take_take, List.take_append_of_le_length (by simp; omega), List.take_take,
      Nat.min_eq_left (by omega), Nat.min_eq_left (by omega)] at hkept
    exact hkept
  refine ⟨(length_memcpy (by omega)).trans hmsize, ?_⟩
  rw [take_memcpy (by omega) (by omega), hn, h.kept, hhead, List.drop_left' (by simp; omega),
    List.append_assoc]

section Copied

variable {m : Buffer} {v : Str} {n : ℕ} (hb : Sound L b) (ht : tend < b.len)
  (hn : n = min v.length (L - b.start)) (hroom : RoomMade L b tend (b.start + n) m)
include hb ht hn hroom

/-- A value that fills the buffer: its rest stands before what was behind the placeholder. -/
private theorem replaced_cut (hstart : b.start ≤ tend)
    (hnext : b.behind tend ++ b.response.remaining ≠ []) (hcut : n < v.length) :
    Replaced L b tend v
      { m with
        data := memcpy m.data b.start (v.take n)
        response.cache := v.drop n ++ m.response.cache } := by
  have hlen := hb.len_le
  have hbehind := length_behind hb tend
  have hmlen := hroom.len_eq
  obtain ⟨hsize, hcopied⟩ := hroom.take_copied (v := v.take n) hb
    (by rw [List.length_take]; omega) (by omega)
  have hnone : L - (b.start + n) = 0 := by omega
  rw [hnone, List.take_zero, List.append_nil, List.length_nil, Nat.add_zero] at hcopied
  have hfull : m.len = L := by
    rw [hmlen]
    split_ifs with hlong
    · rfl
    · apply hb.full.resolve_right
      intro hempty
      have hnil : b.behind tend = [] := by
        rw [← List.length_eq_zero_iff]
        omega
      rw [hnil, hempty] at hnext
      exact hnext rfl
  have hend : m.len = b.start + n := by omega
  refine replaced_of_take hb hroom.start_eq hsize hfull.le
    ((congrArg (List.take · _) hend).trans hcopied) (Or.inl hfull) ?_
  rw [Response.remaining_cache, hroom.remaining_eq, hnone, List.drop_zero, ← List.append_assoc,
    List.take_append_drop]

/-- A value shorter than the placeholder: the room that it leaves is filled from the response. -/
private theorem replaced_short (hwhole : ¬ n < v.length) (hshort : b.start + n < tend + 1) :
    let read := m.response.readDataFromCacheOrContent (L - m.len + (tend + 1 - (b.start + n)))
    Replaced L b tend v
      { m with
        data := memcpy (memcpy m.data b.start (v.take n)) (m.len - (tend + 1 - (b.start + n)))
          read.1
        len := m.len + read.1.length - (tend + 1 - (b.start + n))
        response := read.2 } := by
  have hlen := hb.len_le
  have hbehind := length_behind hb tend
  have hmlen := hroom.len_eq
  obtain ⟨hsize, hcopied⟩ := hroom.take_copied (v := v.take n) hb
    (by rw [List.length_take]; omega) (by omega)
  rw [List.take_of_length_le (by omega : (b.behind tend).length ≤ L - (b.start + n)),
    List.take_of_length_le (by omega : v.length ≤ n)] at hcopied
  have hrem := hroom.remaining_eq
  rw [List.drop_of_length_le (by omega), List.nil_append] at hrem
  rw [if_neg (by omega)] at hmlen
  obtain ⟨hread, hleft⟩ := m.response.read_eq (L - m.len + (tend + 1 - (b.start + n)))
  generalize m.response.readDataFromCacheOrContent _ = read at hread hleft ⊢
  obtain ⟨bytes, response⟩ := read
  dsimp only at hread hleft ⊢
  have hbytes := congrArg List.length hread
  rw [List.length_take] at hbytes
  have hat : m.len - (tend + 1 - (b.start + n)) = b.start + n + (b.behind tend).length := by
    omega
  have hend : m.len + bytes.length - (tend + 1 - (b.start + n)) =
      b.start + n + (b.behind tend).length + bytes.length := by
    omega
  rw [hat, hend]
  rw [List.take_of_length_le (by omega : v.length ≤ n)] at hsize ⊢
  refine replaced_of_take (W := v ++ b.behind tend ++ bytes) hb hroom.start_eq
    ((length_memcpy (by omega)).trans hsize) ?_ ?_ ?_ ?_
  · change b.start + n + (b.behind tend).length + bytes.length ≤ L
    omega
  · rw [take_memcpy le_rfl (by omega), hcopied, List.drop_of_length_le (by simp)]
    simp only [List.append_assoc, List.append_nil]
  · change b.start + n + (b.behind tend).length + bytes.length = L ∨ response.remaining = []
    rw [hleft, List.drop_eq_nil_iff]
    omega
  · change v ++ b.behind tend ++ bytes ++ response.remaining = _
    rw [hread, hleft, List.append_assoc, List.take_append_drop, hrem, List.append_assoc]

private theorem replaced_long (hwhole : ¬ n < v.length) (hlong : ¬ b.start + n < tend + 1) :
    Replaced L b tend v
      { m with
        data := memcpy m.data b.start (v.take n)
        len := min (m.len + (b.start + n - tend - 1)) L } := by
  have hlen := hb.len_le
  have hle := hb.start_le
  have hbehind := length_behind hb tend
  have hmlen := hroom.len_eq
  obtain ⟨hsize, hcopied⟩ := hroom.take_copied (v := v.take n) hb
    (by rw [List.length_take]; omega) (by omega)
  have hend : min (m.len + (b.start + n - tend - 1)) L =
      b.start + n + ((b.behind tend).take (L - (b.start + n))).length := by
    rw [hmlen, List.length_take, hbehind]
    split_ifs <;> omega
  refine replaced_of_take hb hroom.start_eq hsize (Nat.min_le_right _ _)
    ((congrArg (List.take · _) hend).trans hcopied) ?_ ?_
  · change min (m.len + (b.start + n - tend - 1)) L = L ∨ m.response.remaining = []
    by_cases hover : L < b.start + n + (b.behind tend).length
    · rw [if_pos hover] at hmlen
      left
      omega
    · rw [if_neg hover] at hmlen
      apply hb.full.imp
      · intro hfull
        omega
      · intro hempty
        rw [hroom.remaining_eq, hempty, List.append_nil]
        exact List.drop_of_length_le (by omega)
  · rw [hroom.remaining_eq, List.take_of_length_le (by omega : v.length ≤ n), List.append_assoc,
      ← List.append_assoc (List.take _ _), List.take_append_drop]

end Copied

/-- A placeholder is replaced by its value, and the buffer stays full. Behind the
placeholder there must be something, for the engine drops what does not fit when the
stream ends in the buffer's last placeholder. -/
theorem replaceParam_spec (callback : Str → Str) (hb : Sound L b) (hstart : b.start ≤ tend)
    (ht : tend < b.len) {name : Str} (hname : name ≠ [])
    (hnext : b.behind tend ++ b.response.remaining ≠ []) :
    Replaced L b tend (callback name) (replaceParam callback L b tend name) := by
  have hlen := hb.len_le
  unfold replaceParam
  rw [if_neg (by simpa using hname)]
  dsimp only
  generalize callback name = v
  obtain ⟨n, hn⟩ : ∃ n, n = min v.length (L - b.start) := ⟨_, rfl⟩
  rw [← hn]
  have hroom := makeRoom_spec hb ht (b.start + n) (by omega)
  generalize makeRoom L b tend (b.start + n) = m at *
  split_ifs with hcut hshort
  · exact replaced_cut hb ht hn hroom hstart hnext hcut
  · exact replaced_short hb ht hn hroom hcut hshort
  · exact replaced_long hb ht hn hroom hcut hshort

end Replace

/-- What an iteration does to a stream of which `room` bytes lie in the buffer: the bytes
that it passes, and the stream behind them. The closing sign is looked for in the buffer,
and in 33 bytes where the buffer ends before. -/
inductive Advance (callback : Str → Str) (room : ℕ) : Str → Str → Str → Prop
  /-- No closing sign is in reach: the sign is passed as it is. -/
  | literal {x T : Str} (hx : '%' ∉ x) (hroom : x.length < room)
    (hfar : '%' ∉ T.take (max (room - x.length - 1) 33)) :
    Advance callback room (x ++ '%' :: T) (x ++ ['%']) T
  /-- A placeholder is replaced by its value, at which the next iteration starts. -/
  | value {x n T : Str} (hx : '%' ∉ x) (hroom : x.length < room) (hn : '%' ∉ n)
    (hnear : n.length < max (room - x.length - 1) 33) (hname : cstr (n.take 32) ≠ []) :
    Advance callback room (x ++ '%' :: (n ++ '%' :: T)) x (callback (cstr (n.take 32)) ++ T)
  /-- Of two adjacent signs in the buffer, the second is dropped. -/
  | escape {x T : Str} (hx : '%' ∉ x) (hroom : x.length + 1 < room) :
    Advance callback room (x ++ '%' :: '%' :: T) (x ++ ['%']) T
  /-- An empty name behind the buffer is dropped with its closing sign. -/
  | dropped {x w n T : Str} (hx : '%' ∉ x) (hroom : x.length + 1 + w.length = room)
    (hn : '%' ∉ w ++ n) (hnear : (w ++ n).length < 33) (hname : cstr (w ++ n) = []) :
    Advance callback room (x ++ '%' :: (w ++ (n ++ '%' :: T))) x ('%' :: (w ++ T))
  /-- An empty name in the buffer is left there. -/
  | stuck {x n T : Str} (hx : '%' ∉ x) (hroom : x.length + 1 + n.length < room) (hn : '%' ∉ n)
    (hne : n ≠ []) (hname : cstr (n.take 32) = []) :
    Advance callback room (x ++ '%' :: (n ++ '%' :: T)) x ('%' :: (n ++ '%' :: T))

section Iterate

variable {L : ℕ} {b : Buffer} {x w : Str}

private theorem drop_take_window (b : Buffer) (k : ℕ) :
    (b.data.drop (b.start + k)).take (b.len - b.start - k) = b.window.drop k := by
  unfold Buffer.window
  rw [List.drop_drop, List.drop_take, Nat.sub_sub]

theorem Sound.seek (hb : Sound L b) (hw : b.window = x ++ w) (r : Response)
    (hr : b.len = L ∨ r.remaining = []) :
    Sound L { b with start := b.start + x.length, response := r } ∧
    Buffer.sent { b with start := b.start + x.length, response := r } = b.sent ++ x ∧
    Buffer.window { b with start := b.start + x.length, response := r } = w := by
  have hsent := hb.sent_length
  have htake : b.data.take b.len = b.sent ++ x ++ w := by
    have hcut := List.take_append_drop b.start (b.data.take b.len)
    rw [List.take_take, Nat.min_eq_left hb.start_le] at hcut
    rw [List.append_assoc, ← hw]
    exact hcut.symm
  exact sound_of_take (b := { b with start := b.start + x.length, response := r }) hb.size
    hb.len_le (by rw [List.length_append, hsent]) htake hr

private theorem memchr_window (b : Buffer) (k : ℕ) :
    memchr b.data (b.start + k) (b.len - b.start - k) =
      ((b.window.drop k).idxOf? '%').map (b.start + k + ·) := by
  unfold memchr TEMPLATE_PLACEHOLDER
  rw [drop_take_window]

private theorem memchr_start (b : Buffer) :
    memchr b.data b.start (b.len - b.start) = (b.window.idxOf? '%').map (b.start + ·) :=
  memchr_window b 0

theorem iterate_of_not_mem (callback : Str → Str) (h : '%' ∉ b.window) :
    iterate callback L b = none := by
  unfold iterate
  rw [memchr_start, List.idxOf?_eq_none_iff.mpr h]
  split_ifs <;> rfl

section Sign

variable (callback : Str → Str) (hb : Sound L b) (hx : '%' ∉ x) (hw : b.window = x ++ '%' :: w)
include hb hx hw

private theorem sign_facts : b.start < b.len ∧
    memchr b.data b.start (b.len - b.start) = some (b.start + x.length) ∧
    b.len = b.start + x.length + 1 + w.length ∧
    memchr b.data (b.start + x.length + 1) (b.len - 1 - (b.start + x.length)) =
      (w.idxOf? '%').map (b.start + x.length + 1 + ·) ∧
    (b.data.drop (b.start + x.length + 1)).take (b.len - 1 - (b.start + x.length)) = w := by
  have hlen := hb.window_length
  rw [hw, List.length_append, List.length_cons] at hlen
  have hfirst : b.window.idxOf? '%' = some x.length := by
    rw [idxOf?_eq_some_split]
    exact ⟨x, w, hw, hx, rfl⟩
  have hbehind : b.window.drop (x.length + 1) = w := by
    rw [hw, ← List.drop_drop, List.drop_left' rfl, List.drop_one, List.tail_cons]
  have hcount : b.len - 1 - (b.start + x.length) = b.len - b.start - (x.length + 1) := by omega
  refine ⟨by omega, by rw [memchr_start, hfirst]; rfl, by omega, ?_, ?_⟩
  · rw [hcount, Nat.add_assoc, memchr_window, hbehind]
  · rw [hcount, Nat.add_assoc, drop_take_window, hbehind]

theorem iterate_of_close {n v : Str} (hn : '%' ∉ n) (hsplit : w = n ++ '%' :: v) :
    iterate callback L b =
      if n ≠ [] then
        some (replaceParam callback L { b with start := b.start + x.length }
          (b.start + x.length + 1 + n.length) (cstr (n.take 32)))
      else
        let tend := b.start + x.length + 1
        let data := memmove b.data tend (tend + 1) (b.len - tend - 1)
        let (bytes, response) := b.response.readDataFromCacheOrContent 1
        some
          { data := memcpy data (b.len - 1) bytes
            len := b.len + bytes.length - 1
            start := b.start + x.length + 1
            response := response } := by
  obtain ⟨hstart, hfirst, hlen, hsecond, hheld⟩ := sign_facts hb hx hw
  have hclose : w.idxOf? '%' = some n.length := by
    rw [idxOf?_eq_some_split]
    exact ⟨n, v, hsplit, hn, rfl⟩
  have hwlen := congrArg List.length hsplit
  rw [List.length_append, List.length_cons] at hwlen
  have hname : (b.data.drop (b.start + x.length + 1)).take (min 32 n.length) = n.take 32 := by
    have hcut := congrArg (List.take (min 32 n.length)) hheld
    rw [hsplit, List.take_take, Nat.min_eq_left (by omega),
      List.take_append_of_le_length (by omega)] at hcut
    rw [hcut, ← List.take_take, List.take_length]
  unfold iterate
  rw [if_pos hstart, hfirst]
  dsimp only
  rw [if_pos (by omega), hsecond, hclose]
  dsimp only [Option.map_some]
  have hwidth : b.start + x.length + 1 + n.length - (b.start + x.length) - 1 = n.length := by omega
  unfold TEMPLATE_PARAM_NAME_LENGTH
  rw [hwidth, hname]
  by_cases hne : n = []
  · rw [if_neg (by simp [hne]), if_neg (by simp [hne]), hne]
    rfl
  · have hpos := List.length_pos_of_ne_nil hne
    rw [if_pos (by omega), if_pos hne]

theorem iterate_of_open (hopen : '%' ∉ w) :
    iterate callback L b =
      if w.length < 33 then
        let (ahead, response) := b.response.readDataFromCacheOrContent (33 - w.length)
        if ahead.length ≠ 0 then
          match ahead.idxOf? '%' with
          | some i =>
            some (replaceParam callback L
              { b with
                start := b.start + x.length
                response := { response with cache := ahead.drop (i + 1) ++ response.cache } }
              (b.len - 1) (cstr (w ++ ahead.take i)))
          | none =>
            some
              { b with
                start := b.start + x.length + 1
                response := { response with cache := ahead ++ response.cache } }
        else some { b with start := b.start + x.length + 1, response := response }
      else some { b with start := b.start + x.length + 1 } := by
  obtain ⟨hstart, hfirst, hlen, hsecond, hheld⟩ := sign_facts hb hx hw
  have hnone : (if b.start + x.length < b.len - 1 then
      memchr b.data (b.start + x.length + 1) (b.len - 1 - (b.start + x.length))
      else none) = none := by
    rw [hsecond, List.idxOf?_eq_none_iff.mpr hopen]
    split_ifs <;> rfl
  unfold iterate
  rw [if_pos hstart, hfirst]
  dsimp only
  rw [hnone, hheld]
  have hroom : b.len - (b.start + x.length) = w.length + 1 := by omega
  unfold TEMPLATE_PARAM_NAME_LENGTH TEMPLATE_PLACEHOLDER
  rw [hroom]
  have hahead : 32 + 2 - (w.length + 1) = 33 - w.length := by omega
  rw [hahead]
  by_cases hshort : w.length < 33
  · rw [if_pos hshort]
    exact if_pos (by omega)
  · rw [if_neg hshort]
    exact if_neg (by omega)

def Advances (callback : Str → Str) (L : ℕ) (b b' : Buffer) : Prop :=
  ∃ passed, Sound L b' ∧ b'.sent = b.sent ++ passed ∧
    Advance callback (L - b.start) b.stream passed b'.stream

omit hx in
private theorem room_facts : x.length + 1 + w.length ≤ L - b.start ∧
    (b.len = L → x.length + 1 + w.length = L - b.start) := by
  have hwindow := hb.window_length
  have hlen := hb.len_le
  rw [hw, List.length_append, List.length_cons] at hwindow
  exact ⟨by omega, fun h => by omega⟩

omit hb hx in
private theorem stream_eq : b.stream = x ++ '%' :: (w ++ b.response.remaining) := by
  unfold Buffer.stream
  rw [hw, List.append_assoc, List.cons_append]

private theorem advances_literal {r : Response} (hr : r.remaining = b.response.remaining)
    (hfar : '%' ∉ (w ++ b.response.remaining).take (max (L - b.start - x.length - 1) 33)) :
    Advances callback L b { b with start := b.start + x.length + 1, response := r } := by
  have hroom := (room_facts hb hw).1
  have hwindow : b.window = (x ++ ['%']) ++ w := by rw [hw, List.append_assoc]; rfl
  obtain ⟨hsound, hsent, hrest⟩ := hb.seek hwindow r (hr ▸ hb.full)
  rw [List.length_append, ← Nat.add_assoc] at hsound hsent hrest
  have hstream : Buffer.stream { b with start := b.start + x.length + 1, response := r } =
      w ++ b.response.remaining := congrArg₂ (· ++ ·) hrest hr
  refine ⟨x ++ ['%'], hsound, hsent, ?_⟩
  rw [stream_eq hw, hstream]
  exact .literal hx (by omega) hfar

/-- An iteration that finds a name. `v` is what the buffer holds behind the closing sign. -/
private theorem advances_value {r : Response} {n v T : Str} {tend : ℕ} (hn : '%' ∉ n)
    (hnear : n.length < max (L - b.start - x.length - 1) 33) (hname : cstr (n.take 32) ≠ [])
    (hstream : b.stream = x ++ '%' :: (n ++ '%' :: T)) (hT : T ≠ [])
    (hr : b.len = L ∨ r.remaining = []) (htend : b.start + x.length ≤ tend) (hlt : tend < b.len)
    (hbehind : b.behind tend = v) (hrest : v ++ r.remaining = T) :
    Advances callback L b (replaceParam callback L
      { b with start := b.start + x.length, response := r } tend (cstr (n.take 32))) := by
  have hroom := (room_facts hb hw).1
  obtain ⟨hsound, hsent, -⟩ := hb.seek hw r hr
  obtain ⟨hsound', hsent', hstream'⟩ := replaceParam_spec callback hsound htend hlt hname
    (by rw [← hrest, ← hbehind] at hT; exact hT)
  refine ⟨x, hsound', hsent'.trans hsent, ?_⟩
  have hafter : Buffer.behind { b with start := b.start + x.length, response := r } tend ++
      r.remaining = T := by
    rw [← hrest, ← hbehind]
    rfl
  rw [hstream', hstream, hafter]
  exact .value hx (by omega) hn hnear hname

private theorem advances_escape {v : Str} (hsplit : w = '%' :: v) :
    ∃ b', iterate callback L b = some b' ∧ Advances callback L b b' := by
  have hroom := (room_facts hb hw).1
  obtain ⟨-, -, hlen, -, hheld⟩ := sign_facts hb hx hw
  have hsize := hb.size
  have hle := hb.len_le
  have hwlen := congrArg List.length hsplit
  rw [List.length_cons] at hwlen
  rw [iterate_of_close callback hb hx hw (n := []) (v := v) (by simp) hsplit, if_neg (by simp)]
  obtain ⟨hread, hleft⟩ := b.response.read_eq 1
  generalize b.response.readDataFromCacheOrContent 1 = read at hread hleft ⊢
  obtain ⟨bytes, response⟩ := read
  dsimp only at hread hleft ⊢
  have hbytes : bytes.length = min 1 b.response.remaining.length := by rw [hread, List.length_take]
  have hmoved : (memmove b.data (b.start + x.length + 1) (b.start + x.length + 1 + 1)
      (b.len - (b.start + x.length + 1) - 1)).take (b.len - 1) =
      b.sent ++ (x ++ ['%']) ++ v := by
    have hsent : b.data.take (b.start + x.length + 1) = b.sent ++ (x ++ ['%']) := by
      have hseek := (hb.seek (x := x ++ ['%']) (w := w) (by rw [hw, List.append_assoc]; rfl)
        b.response hb.full).2.1
      rw [List.length_append] at hseek
      exact hseek
    have hseg : (b.data.drop (b.start + x.length + 1 + 1)).take
        (b.len - (b.start + x.length + 1) - 1) = v := by
      have hcut := congrArg (List.drop 1) hheld
      rw [List.drop_take, List.drop_drop, hsplit, List.drop_one, List.tail_cons] at hcut
      rw [← hcut]
      congr 1
      omega
    unfold memmove
    rw [hseg, take_memcpy (by omega) (by omega), List.drop_of_length_le (by simp; omega),
      List.append_nil, hsent]
  have hmovedsize : (memmove b.data (b.start + x.length + 1) (b.start + x.length + 1 + 1)
      (b.len - (b.start + x.length + 1) - 1)).length = L := by
    unfold memmove
    refine (length_memcpy ?_).trans hsize
    simp only [List.length_take, List.length_drop]
    omega
  have hend : b.len + bytes.length - 1 = b.len - 1 + bytes.length := by omega
  have hsent := hb.sent_length
  have hnew := sound_of_take (L := L) (A := b.sent ++ (x ++ ['%'])) (W := v ++ bytes)
    (b := ⟨memcpy (memmove b.data (b.start + x.length + 1) (b.start + x.length + 1 + 1)
      (b.len - (b.start + x.length + 1) - 1)) (b.len - 1) bytes, b.len + bytes.length - 1,
      b.start + x.length + 1, response⟩)
    ((length_memcpy (by omega)).trans hmovedsize) (by dsimp only; omega)
    (by simp only [List.length_append, List.length_cons, List.length_nil]; omega)
    (by
      dsimp only
      rw [hend, take_memcpy le_rfl (by omega), hmoved, List.drop_of_length_le (by simp),
        List.append_nil, List.append_assoc])
    (by
      rw [hleft, List.drop_eq_nil_iff]
      have hfull := hb.full
      rw [← List.length_eq_zero_iff] at hfull
      dsimp only
      omega)
  obtain ⟨hsound, hsent', hwindow⟩ := hnew
  refine ⟨_, rfl, x ++ ['%'], hsound, hsent', ?_⟩
  have hstream : v ++ bytes ++ response.remaining = v ++ b.response.remaining := by
    rw [hread, hleft, List.append_assoc, List.take_append_drop]
  rw [stream_eq hw, hsplit]
  unfold Buffer.stream
  rw [hwindow]
  dsimp only
  rw [hstream]
  exact .escape hx (by omega)

private theorem advances_close {n v : Str} (hn : '%' ∉ n) (hsplit : w = n ++ '%' :: v)
    (hlast : b.stream.getLast? ≠ some '%') :
    ∃ b', iterate callback L b = some b' ∧ Advances callback L b b' := by
  have hroom := (room_facts hb hw).1
  obtain ⟨-, -, hlen, -, -⟩ := sign_facts hb hx hw
  have hwlen := congrArg List.length hsplit
  rw [List.length_append, List.length_cons] at hwlen
  have hstream : b.stream = x ++ '%' :: (n ++ '%' :: (v ++ b.response.remaining)) := by
    rw [stream_eq hw, hsplit, List.append_assoc, List.cons_append]
  by_cases hne : n = []
  · subst hne
    exact advances_escape callback hb hx hw hsplit
  rw [iterate_of_close callback hb hx hw hn hsplit, if_pos hne]
  refine ⟨_, rfl, ?_⟩
  by_cases hname : cstr (n.take 32) = []
  · obtain ⟨hsound, hsent, hwindow⟩ := hb.seek hw b.response hb.full
    rw [hname, replaceParam_nil]
    have hsame : Buffer.stream { b with start := b.start + x.length } =
        '%' :: (n ++ '%' :: (v ++ b.response.remaining)) := by
      unfold Buffer.stream
      rw [hwindow, hsplit]
      simp only [List.append_assoc, List.cons_append]
    refine ⟨x, hsound, hsent, ?_⟩
    rw [hstream, hsame]
    exact .stuck hx (by omega) hn hne hname
  · have hT : v ++ b.response.remaining ≠ [] := by
      intro hnil
      apply hlast
      rw [hstream, hnil, ← List.cons_append, ← List.append_assoc, List.getLast?_concat]
    refine advances_value callback hb hx hw hn (by omega) hname hstream hT hb.full (by omega)
      (by omega) ?_ rfl
    have hdrop : b.behind (b.start + x.length + 1 + n.length) =
        b.window.drop (x.length + 1 + n.length + 1) := by
      unfold Buffer.behind Buffer.window
      rw [List.drop_drop]
      congr 1
      omega
    have hparts : x ++ '%' :: (n ++ '%' :: v) = (x ++ '%' :: n ++ ['%']) ++ v := by
      simp only [List.append_assoc, List.cons_append, List.nil_append]
    rw [hdrop, hw, hsplit, hparts, List.drop_left' (by simp; omega)]

omit hx in
private theorem far_of_open (hopen : '%' ∉ w)
    (hahead : '%' ∉ b.response.remaining.take (33 - w.length)) :
    '%' ∉ (w ++ b.response.remaining).take (max (L - b.start - x.length - 1) 33) := by
  obtain ⟨-, hroom⟩ := room_facts hb hw
  rw [List.take_append, List.mem_append, not_or]
  refine ⟨fun h => hopen (List.mem_of_mem_take h), fun h => ?_⟩
  rcases hb.full with hfull | hempty
  · have hcount : max (L - b.start - x.length - 1) 33 - w.length = 33 - w.length := by
      have hw := hroom hfull
      omega
    rw [hcount] at h
    exact hahead h
  · rw [hempty] at h
    simp at h

private theorem advances_ahead {response : Response} {n a : Str} (hopen : '%' ∉ w) (hn : '%' ∉ n)
    (hlen : w.length + n.length < 33)
    (hrem : n ++ '%' :: a ++ response.remaining = b.response.remaining)
    (hlast : b.stream.getLast? ≠ some '%') :
    Advances callback L b (replaceParam callback L
      { b with
        start := b.start + x.length
        response := { response with cache := a ++ response.cache } }
      (b.len - 1) (cstr (w ++ n))) := by
  obtain ⟨-, hroom⟩ := room_facts hb hw
  obtain ⟨-, -, hend, -, -⟩ := sign_facts hb hx hw
  have hfull : b.len = L := by
    apply hb.full.resolve_right
    intro hempty
    rw [hempty] at hrem
    simp at hrem
  have hroom := hroom hfull
  have hmem : '%' ∉ w ++ n := fun h => (List.mem_append.mp h).elim hopen hn
  have hstream : b.stream = x ++ '%' :: (w ++ (n ++ '%' :: (a ++ response.remaining))) := by
    rw [stream_eq hw, ← hrem]
    simp only [List.append_assoc, List.cons_append]
  have hcached : Response.remaining { response with cache := a ++ response.cache } =
      a ++ response.remaining := response.remaining_cache a
  by_cases hname : cstr (w ++ n) = []
  · obtain ⟨hsound, hsent, hwindow⟩ := hb.seek hw { response with cache := a ++ response.cache }
      (Or.inl hfull)
    rw [hname, replaceParam_nil]
    refine ⟨x, hsound, hsent, ?_⟩
    have hsame : Buffer.stream
        { b with
          start := b.start + x.length
          response := { response with cache := a ++ response.cache } } =
        '%' :: (w ++ (a ++ response.remaining)) :=
      congrArg₂ (· ++ ·) hwindow hcached
    rw [hstream, hsame]
    exact .dropped hx hroom hmem (by rw [List.length_append]; exact hlen) hname
  · have hwhole : (w ++ n).take 32 = w ++ n := List.take_of_length_le (by simp; omega)
    have hT : a ++ response.remaining ≠ [] := by
      intro hnil
      apply hlast
      rw [hstream, hnil, ← List.append_assoc, ← List.cons_append, ← List.append_assoc,
        List.getLast?_concat]
    rw [← hwhole] at hname ⊢
    refine advances_value callback hb hx hw (v := []) hmem (by simp; omega) hname
      (by rw [hstream, List.append_assoc]) hT (Or.inl hfull) (by omega) (by omega) ?_
      (by rw [hcached, List.nil_append])
    unfold Buffer.behind
    exact List.drop_of_length_le (by simp; omega)

private theorem advances_open (hopen : '%' ∉ w) (hlast : b.stream.getLast? ≠ some '%') :
    ∃ b', iterate callback L b = some b' ∧ Advances callback L b b' := by
  rw [iterate_of_open callback hb hx hw hopen]
  split_ifs with hshort
  · obtain ⟨hread, hleft⟩ := b.response.read_eq (33 - w.length)
    generalize b.response.readDataFromCacheOrContent (33 - w.length) = read at hread hleft ⊢
    obtain ⟨ahead, response⟩ := read
    dsimp only at hread hleft ⊢
    have hrem : ahead ++ response.remaining = b.response.remaining := by
      rw [hread, hleft, List.take_append_drop]
    have hcount : ahead.length ≤ 33 - w.length := by
      rw [hread, List.length_take]
      exact Nat.min_le_left _ _
    split_ifs with hsome
    · cases hi : ahead.idxOf? '%' with
      | none =>
        have hfar := far_of_open hb hw hopen
          (hread ▸ List.idxOf?_eq_none_iff.mp hi : '%' ∉ b.response.remaining.take (33 - w.length))
        exact ⟨_, rfl, advances_literal callback hb hx hw
          ((response.remaining_cache ahead).trans hrem) hfar⟩
      | some i =>
        obtain ⟨n, a, rfl, hn, rfl⟩ := idxOf?_eq_some_split.mp hi
        rw [List.length_append, List.length_cons] at hcount
        refine ⟨_, rfl, ?_⟩
        have hparts : n ++ '%' :: a = n ++ ['%'] ++ a := by simp
        have hdrop : (n ++ '%' :: a).drop (n.length + 1) = a := by
          rw [hparts, List.drop_left' (by simp)]
        rw [hdrop, List.take_left' rfl]
        exact advances_ahead callback hb hx hw hopen hn (by omega) hrem hlast
    · have hempty : b.response.remaining = [] := by
        rw [← List.length_eq_zero_iff]
        rw [hread, List.length_take] at hsome
        omega
      have hnone : response.remaining = b.response.remaining := by
        rw [hleft, hempty, List.drop_nil]
      exact ⟨_, rfl, advances_literal callback hb hx hw hnone
        (far_of_open hb hw hopen (by rw [hempty]; simp))⟩
  · have hnone : 33 - w.length = 0 := by omega
    exact ⟨_, rfl, advances_literal callback hb hx hw rfl
      (far_of_open hb hw hopen (by rw [hnone]; simp))⟩

end Sign

/-- One iteration: the loop ends when the buffer has no sign left, and otherwise the stream
advances. The stream may not end in a sign. -/
theorem iterate_spec (callback : Str → Str) (hb : Sound L b)
    (hlast : b.stream.getLast? ≠ some '%') :
    ('%' ∉ b.window ∧ iterate callback L b = none) ∨
      ('%' ∈ b.window ∧ ∃ b', iterate callback L b = some b' ∧ Advances callback L b b') := by
  by_cases h : '%' ∈ b.window
  · right
    refine ⟨h, ?_⟩
    obtain ⟨x, w, hw, hx⟩ := List.eq_append_cons_of_mem h
    by_cases hclose : '%' ∈ w
    · obtain ⟨n, v, hsplit, hn⟩ := List.eq_append_cons_of_mem hclose
      exact advances_close callback hb hx hw hn hsplit hlast
    · exact advances_open callback hb hx hw hclose hlast
  · exact Or.inl ⟨h, iterate_of_not_mem callback h⟩

end Iterate

theorem readBuffer_sound (L : ℕ) (r : Response) :
    Sound L (readBuffer L r) ∧ (readBuffer L r).start = 0 ∧
      (readBuffer L r).stream = r.remaining := by
  obtain ⟨hread, hleft⟩ := r.read_eq L
  unfold readBuffer
  generalize r.readDataFromCacheOrContent L = read at hread hleft ⊢
  obtain ⟨bytes, response⟩ := read
  dsimp only at hread hleft ⊢
  have hlen : bytes.length = min L r.remaining.length := by rw [hread, List.length_take]
  have hbytes := sound_of_take (L := L) (A := []) (W := bytes)
    (b := ⟨memcpy (List.replicate L NUL) 0 bytes, bytes.length, 0, response⟩)
    ((length_memcpy (by simp; omega)).trans List.length_replicate) (by dsimp only; omega) rfl
    (by
      dsimp only
      rw [take_memcpy (by omega) (by omega), List.drop_of_length_le (by simp)]
      simp)
    (by
      rw [hleft, List.drop_eq_nil_iff]
      dsimp only
      omega)
  refine ⟨hbytes.1, rfl, ?_⟩
  unfold Buffer.stream
  rw [hbytes.2.2]
  dsimp only
  rw [hread, hleft, List.take_append_drop]

/-- What is sent of a buffer when the loop ends: as much of the stream as there is room. -/
theorem Sound.data_eq {L : ℕ} {b : Buffer} (hb : Sound L b) :
    b.data.take b.len = b.sent ++ b.stream.take (L - b.start) := by
  rw [← hb.window_eq]
  unfold Buffer.sent Buffer.window
  have hcut := List.take_append_drop b.start (b.data.take b.len)
  rw [List.take_take, Nat.min_eq_left hb.start_le] at hcut
  exact hcut.symm

theorem Sound.remaining_eq {L : ℕ} {b : Buffer} (hb : Sound L b) :
    b.response.remaining = b.stream.drop (L - b.start) := by
  have hcut := List.take_append_drop (L - b.start) b.stream
  rw [← hb.window_eq] at hcut
  exact (List.append_cancel_left hcut).symm

theorem Advance.getLast_ne {callback : Str → Str} {room : ℕ} {S passed S' : Str}
    (h : Advance callback room S passed S') (hlast : S.getLast? ≠ some '%') :
    S'.getLast? ≠ some '%' := by
  have hend : ∀ {y T : Str}, (y ++ '%' :: T).getLast? ≠ some '%' → T ≠ [] := by
    rintro y _ hy rfl
    exact hy List.getLast?_concat
  have hsame : ∀ {y z T : Str}, (y ++ '%' :: T).getLast? ≠ some '%' →
      (z ++ T).getLast? ≠ some '%' := by
    intro y z T hy
    have hT := hend hy
    rw [List.getLast?_append_of_ne_nil _ hT]
    rw [List.getLast?_append_of_ne_nil _ (by simp), List.getLast?_cons_of_ne_nil hT] at hy
    exact hy
  cases h with
  | literal => exact hsame (z := []) hlast
  | @value _ n T _ _ _ _ _ =>
    apply hsame (y := passed ++ '%' :: n)
    rwa [List.append_assoc, List.cons_append]
  | @escape x T _ _ =>
    apply hsame (z := []) (y := x ++ ['%'])
    rwa [List.append_assoc, List.singleton_append]
  | @dropped _ w n T _ _ _ _ _ =>
    have h := hsame (y := passed ++ '%' :: (w ++ n)) (z := '%' :: w) (T := T)
    simp only [List.append_assoc, List.cons_append] at h hlast ⊢
    exact h hlast
  | stuck =>
    rw [List.getLast?_append_of_ne_nil _ (by simp)] at hlast
    exact hlast

end HomeMonitor.Template
