import HomeMonitor.Text.Mark
import HomeMonitor.RFID.Reply

/-! The replies on one connection as the node reads them, in chunks that follow the
clock and not the lines. -/
namespace HomeMonitor.RFID
open HomeMonitor.Text HomeMonitor.Arduino HomeMonitor.Framing

/-- The bytes of a sequence of replies. -/
def stream (replies : List Reply) : Str := replies.flatMap fun r => println r.line

/-- The commands on which the node acts, one for each chunk. -/
def commands (chunks : List Str) : List Str := chunks.map fun c => RFID.getSubstring c "r".toList

theorem flatMap_getHostMessage {chunks : List Str} (h : ∀ c ∈ chunks, c ≠ []) :
    chunks.flatMap getHostMessage = (commands chunks).flatMap handleHostSubstring := by
  unfold commands
  rw [List.flatMap_map]
  apply List.flatMap_congr
  intro c hc
  unfold getHostMessage
  rw [if_neg (h c hc)]

/-- What stands between a command and the command of the next reply, less the bracket that
opens the latter. -/
def gap (r : Reply) : Str := "]r\r\n".toList ++ r.header ++ "r".toList

/-- The stream after a command, when the given replies follow. -/
def rest : List Reply → Str
  | [] => "]r\r\n".toList
  | r :: replies => gap r ++ '[' :: (r.payload ++ rest replies)

theorem println_line (r : Reply) :
    println r.line = r.header ++ "r[".toList ++ r.payload ++ "]r\r\n".toList := by
  have hopen : "r[".toList = ['r', '['] := rfl
  have hclose : "]r\r\n".toList = [']', 'r'] ++ "\r\n".toList := rfl
  unfold println Reply.line frame
  rw [hopen, hclose]
  simp only [List.append_assoc]

theorem stream_cons (r : Reply) (replies : List Reply) :
    stream (r :: replies) = r.header ++ "r[".toList ++ r.payload ++ rest replies := by
  induction replies generalizing r with
  | nil => simp [stream, rest, println_line]
  | cons r' replies ih =>
    have hcons : stream (r :: r' :: replies) = println r.line ++ stream (r' :: replies) := rfl
    have hrest : rest (r' :: replies) = gap r' ++ '[' :: (r'.payload ++ rest replies) := rfl
    have hopen : "r[".toList = "r".toList ++ ['['] := rfl
    rw [hcons, ih, println_line, hrest]
    unfold gap
    rw [hopen]
    simp only [List.append_assoc, List.cons_append, List.nil_append]

theorem Reply.opener_not_mem_payload (r : Reply) : '[' ∉ r.payload := by cases r <;> decide

theorem Reply.closer_not_mem_payload (r : Reply) : ']' ∉ r.payload := by cases r <;> decide

section Chunk

variable {t trail : Str} (r : Reply)

private theorem opener_not_infix_end {q : Reply} (ht : t <:+ gap q) : ¬ ['r', '['] <:+: t := by
  intro h
  exact absurd (h.trans ht.isInfix) (by cases q <;> decide)

private theorem end_cases {q : Reply} (ht : t <:+ gap q) : t = [] ∨ ∃ t', t = t' ++ ['r'] := by
  rcases List.suffix_concat_iff.mp ht with h | ⟨t', h, -⟩
  · exact Or.inl h
  · exact Or.inr ⟨t', h⟩

private theorem end_closer {q : Reply} (ht : t <:+ gap q) (hc : [']', 'r'] <:+: t) :
    ∃ m, t = ']' :: 'r' :: m ∧ ¬ [']', 'r'] <:+: 'r' :: m := by
  have hall : ∀ t ∈ (gap q).tails, [']', 'r'] <:+: t →
      t.take 2 = [']', 'r'] ∧ ¬ [']', 'r'] <:+: 'r' :: t.drop 2 := by
    cases q <;> decide
  obtain ⟨htake, hrest⟩ := hall t ((List.mem_tails _ _).mpr ht) hc
  refine ⟨t.drop 2, ?_, hrest⟩
  have hsplit := List.take_append_drop 2 t
  rw [htake] at hsplit
  exact hsplit.symm

/-- The beginning of a gap has the closer in full, only its bracket, or none of it. -/
private theorem beginning_cases {q : Reply} (ht : trail <+: gap q) :
    trail = [] ∨ trail = [']'] ∨ ∃ m, trail = ']' :: 'r' :: m ∧ ¬ [']', 'r'] <:+: 'r' :: m := by
  have hgap : gap q = ']' :: 'r' :: ("\r\n".toList ++ q.header ++ "r".toList) := rfl
  rw [hgap] at ht
  rcases List.prefix_cons_iff.mp ht with rfl | ⟨m, rfl, hm⟩
  · exact Or.inl rfl
  rcases List.prefix_cons_iff.mp hm with rfl | ⟨m, rfl, -⟩
  · exact Or.inr (Or.inl rfl)
  · exact Or.inr (Or.inr ⟨m, rfl, fun h => absurd (h.trans hm.isInfix) (by cases q <;> decide)⟩)

variable {q q' : Reply} (ht : t <:+ gap q) (htrail : trail <+: gap q')
include ht htrail

private theorem nul_not_mem_chunk : NUL ∉ t ++ '[' :: (r.payload ++ trail) := by
  have hgap : ∀ q, NUL ∉ gap q := by intro q; cases q <;> decide
  have hpayload : NUL ∉ r.payload := by cases r <;> decide
  have h1 : NUL ∉ t := fun h => hgap q (ht.subset h)
  have h2 : NUL ∉ trail := fun h => hgap q' (htrail.subset h)
  simp only [List.mem_append, List.mem_cons, not_or]
  exact ⟨h1, by decide, hpayload, h2⟩

omit ht in
private theorem opener_not_infix_body : ¬ ['r', '['] <:+: '[' :: (r.payload ++ trail) := by
  have hcommand : ¬ ['r', '['] <:+: '[' :: r.payload := by
    rw [List.infix_cons_iff, not_or]
    exact ⟨by simp [List.cons_prefix_cons],
      not_pair_infix_of_right_not_mem _ r.opener_not_mem_payload⟩
  have hbehind : ¬ ['r', '['] <:+: trail := by
    intro h
    exact absurd (h.trans htrail.isInfix) (by cases q' <;> decide)
  rw [← List.cons_append, pair_infix_append]
  rintro (h | h | ⟨-, h⟩)
  · exact hcommand h
  · exact hbehind h
  · rcases beginning_cases htrail with rfl | rfl | ⟨m, rfl, -⟩ <;> simp at h

omit ht htrail in
private theorem closer_not_infix_body (hopen : trail = [] ∨ trail = [']']) :
    ¬ [']', 'r'] <:+: '[' :: (r.payload ++ trail) := by
  have hmem : ']' ∉ '[' :: r.payload :=
    List.not_mem_cons_of_ne_of_not_mem (by decide) r.closer_not_mem_payload
  rw [← List.cons_append]
  rcases hopen with rfl | rfl
  · rw [List.append_nil]
    exact not_pair_infix_of_left_not_mem _ hmem
  · exact not_pair_infix_concat _ hmem

/-- A chunk that holds the closer of its command is decoded to the command. -/
theorem getSubstring_closed {m : Str} (hm : trail = ']' :: 'r' :: m)
    (hlast : ¬ [']', 'r'] <:+: 'r' :: m) :
    Framing.getSubstring (t ++ '[' :: (r.payload ++ trail)) ['r'] = r.payload := by
  have hnul := nul_not_mem_chunk r ht htrail
  rcases end_cases ht with rfl | ⟨t', rfl⟩
  · apply getSubstring_of_unframed hnul
    exact Or.inr (Or.inl ⟨opener_not_infix_body r htrail, '[', m, by rw [hm]; rfl, hlast⟩)
  · apply getSubstring_of_widestFrame hnul
    exact ⟨t', m, by rw [hm]; simp [frame], opener_not_infix_end ht, hlast⟩

/-- A chunk without a closer is decoded to everything behind the opening bracket. -/
theorem getSubstring_open (hopen : trail = [] ∨ trail = [']']) (hc : ¬ [']', 'r'] <:+: t) :
    Framing.getSubstring (t ++ '[' :: (r.payload ++ trail)) ['r'] = r.payload ++ trail := by
  have hnul := nul_not_mem_chunk r ht htrail
  have hcloser : ¬ [']', 'r'] <:+: t ++ '[' :: (r.payload ++ trail) := by
    rw [pair_infix_append]
    rintro (h | h | ⟨-, h⟩)
    · exact hc h
    · exact closer_not_infix_body r hopen h
    · simp at h
  apply getSubstring_of_unframed hnul
  rcases end_cases ht with rfl | ⟨t', rfl⟩
  · exact Or.inl ⟨opener_not_infix_body r htrail, hcloser, '[', rfl⟩
  · exact Or.inr (Or.inr ⟨hcloser, t', by simp, opener_not_infix_end ht⟩)

/-- A closer left over from the command before it, and none of its own: the bounds are
swapped. -/
theorem getSubstring_leftover (hopen : trail = [] ∨ trail = [']']) (hc : [']', 'r'] <:+: t) :
    (Framing.getSubstring (t ++ '[' :: (r.payload ++ trail)) ['r']).head? = some ']' := by
  have hnul := nul_not_mem_chunk r ht htrail
  obtain ⟨m, rfl, hm⟩ := end_closer ht hc
  have hlast : last? [']', 'r'] (']' :: 'r' :: m ++ '[' :: (r.payload ++ trail)) = some 0 := by
    rw [last?_pair_eq_some_iff]
    refine ⟨[], m ++ '[' :: (r.payload ++ trail), rfl, rfl, ?_⟩
    rw [← List.cons_append, pair_infix_append]
    rintro (h | h | ⟨-, h⟩)
    · exact hm h
    · exact closer_not_infix_body r hopen h
    · simp at h
  have hfirst : first? ['r', '['] (']' :: 'r' :: m ++ '[' :: (r.payload ++ trail)) ≠ none := by
    rw [ne_eq, first?_eq_none_iff, not_not]
    rcases end_cases ht with h | ⟨t', h⟩
    · cases h
    · rw [h]
      exact ⟨t', r.payload ++ trail, by simp⟩
  obtain ⟨i, hi⟩ := Option.ne_none_iff_exists'.mp hfirst
  rw [getSubstring_eq hnul, hi, hlast]
  simp

end Chunk

/-- The closer of the command is complete, or it is not begun and none is left over from
the command before. -/
def Ends (lead trail : Str) : Prop :=
  [']', 'r'] <+: trail ∨ (trail = [] ∧ ¬ [']', 'r'] <:+: lead)

/-- A chunk that runs from the end of one gap to the beginning of the next is decoded to
the command between them exactly when it ends well. -/
theorem getSubstring_chunk_iff {lead trail : Str} (r : Reply) {q q' : Reply}
    (hlead : lead <:+ gap q) (htrail : trail <+: gap q') :
    Framing.getSubstring (lead ++ '[' :: (r.payload ++ trail)) ['r'] = r.payload ↔
      Ends lead trail := by
  have hne : ∀ x, (Framing.getSubstring (lead ++ '[' :: (r.payload ++ x)) ['r']).head? = some ']' →
      Framing.getSubstring (lead ++ '[' :: (r.payload ++ x)) ['r'] ≠ r.payload := by
    intro x hhead heq
    rw [heq] at hhead
    exact r.closer_not_mem_payload (List.mem_of_head? hhead)
  unfold Ends
  rcases beginning_cases htrail with rfl | rfl | ⟨m, rfl, hm⟩
  · by_cases hc : [']', 'r'] <:+: lead
    · apply iff_of_false (hne _ (getSubstring_leftover r hlead htrail (Or.inl rfl) hc))
      simp [hc]
    · apply iff_of_true _ (Or.inr ⟨rfl, hc⟩)
      rw [getSubstring_open r hlead htrail (Or.inl rfl) hc, List.append_nil]
  · apply iff_of_false _ (by simp [List.cons_prefix_cons])
    by_cases hc : [']', 'r'] <:+: lead
    · exact hne _ (getSubstring_leftover r hlead htrail (Or.inr rfl) hc)
    · rw [getSubstring_open r hlead htrail (Or.inr rfl) hc]
      simp
  · exact iff_of_true (getSubstring_closed r hlead htrail rfl hm) (Or.inl ⟨m, rfl⟩)

/-- Each chunk holds one command and the bracket before it, and ends well. `lead` is what
the first chunk holds before that bracket. -/
inductive OneEach : Str → List Reply → List Str → Prop
  | last {lead : Str} {r : Reply} :
    OneEach lead [r] [lead ++ '[' :: (r.payload ++ "]r\r\n".toList)]
  | next {lead trail lead' : Str} {r r' : Reply} {replies : List Reply} {chunks : List Str}
    (cut : trail ++ lead' = gap r') (ends : Ends lead trail)
    (following : OneEach lead' (r' :: replies) chunks) :
    OneEach lead (r :: r' :: replies) ((lead ++ '[' :: (r.payload ++ trail)) :: chunks)

private theorem line_end_prefix : "]r\r\n".toList <+: gap .accessOK := ⟨"r".toList, rfl⟩

theorem commands_of_oneEach {lead : Str} {replies : List Reply} {chunks : List Str}
    (h : OneEach lead replies chunks) {q : Reply} (hlead : lead <:+ gap q) :
    commands chunks = replies.map Reply.payload := by
  have hid : "r".toList = ['r'] := rfl
  induction h generalizing q with
  | @last lead r =>
    have hdecoded := (getSubstring_chunk_iff r hlead line_end_prefix).mpr
      (Or.inl ⟨"\r\n".toList, rfl⟩)
    simp only [commands, List.map_cons, List.map_nil, RFID.getSubstring, hid, hdecoded]
  | @next lead trail lead' r r' replies chunks cut ends _ ih =>
    have hdecoded := (getSubstring_chunk_iff r hlead ⟨lead', cut⟩).mpr ends
    have hrest := ih (q := r') ⟨trail, cut⟩
    unfold commands at hrest ⊢
    rw [List.map_cons, List.map_cons, hrest, hid]
    exact congrArg (· :: _) hdecoded

/-! Each command has one of four letters, and no gap has any. -/

private def mark (c : Char) : Bool := c ∈ "MKNp".toList

private theorem payload_mark (r : Reply) : ∃ x z y, r.payload = x ++ z :: y ∧
    x.countP mark = 0 ∧ mark z ∧ y.countP mark = 0 := by
  cases r with
  | accessMartin => exact ⟨"Access ".toList, 'M', "artin".toList, rfl, by decide⟩
  | accessMagnus => exact ⟨"Access ".toList, 'M', "agnus".toList, rfl, by decide⟩
  | accessOK => exact ⟨"Access O".toList, 'K', [], rfl, by decide⟩
  | accessNO => exact ⟨"Access ".toList, 'N', "O".toList, rfl, by decide⟩
  | serverOpen => exact ⟨"O".toList, 'p', "en".toList, rfl, by decide⟩

private theorem countP_payload (r : Reply) : r.payload.countP mark = 1 := by cases r <;> decide

private theorem countP_gap (r : Reply) : (gap r).countP mark = 0 := by cases r <;> decide

private theorem countP_rest (replies : List Reply) :
    (rest replies).countP mark = replies.length := by
  induction replies with
  | nil => decide
  | cons r replies ih =>
    have hbracket : mark '[' = false := by decide
    unfold rest
    simp only [List.countP_append, List.countP_cons, countP_gap, countP_payload, ih, hbracket,
      List.length_cons, Bool.false_eq_true, if_false]
    omega

private theorem nul_not_mem_rest (replies : List Reply) : NUL ∉ rest replies := by
  induction replies with
  | nil => decide
  | cons r replies ih =>
    have hgap : NUL ∉ gap r := by cases r <;> decide
    have hpayload : NUL ∉ r.payload := by cases r <;> decide
    unfold rest
    simp only [List.mem_append, List.mem_cons, not_or]
    exact ⟨hgap, by decide, hpayload, ih⟩

private theorem decoded_split {c : Str} (hc : NUL ∉ c) {r : Reply}
    (h : RFID.getSubstring c "r".toList = r.payload) :
    ∃ u b v, c = u ++ b :: (r.payload ++ v) := by
  have hne : r.payload ≠ [] := by cases r <;> decide
  have hhead : r.payload.head? ≠ some ']' := fun h =>
    r.closer_not_mem_payload (List.mem_of_head? h)
  rcases (getSubstring_eq_iff hc 'r' hne hhead).mp h with
    ⟨pre, post, rfl, -, -⟩ | ⟨-, -, a, rfl⟩ | ⟨-, a, post, rfl, -⟩ | ⟨-, pre, rfl, -⟩
  · exact ⟨pre ++ ['r'], '[', ']' :: 'r' :: post, by simp [frame]⟩
  · exact ⟨[], a, [], by simp⟩
  · exact ⟨[], a, ']' :: 'r' :: post, by simp⟩
  · exact ⟨pre ++ ['r'], '[', [], by simp⟩

private theorem length_le_countP {replies : List Reply} {chunks : List Str}
    (hnul : NUL ∉ chunks.flatten) (h : commands chunks = replies.map Reply.payload) :
    replies.length ≤ chunks.flatten.countP mark := by
  induction replies generalizing chunks with
  | nil => exact Nat.zero_le _
  | cons r replies ih =>
    rcases chunks with _ | ⟨c, chunks⟩
    · cases h
    obtain ⟨hc, hcs⟩ := List.cons_eq_cons.mp h
    rw [List.flatten_cons, List.mem_append, not_or] at hnul
    obtain ⟨u, b, v, rfl⟩ := decoded_split hnul.1 hc
    have hrest := ih hnul.2 hcs
    simp only [List.flatten_cons, List.countP_append, List.countP_cons, countP_payload,
      List.length_cons]
    omega

/-- The first of the chunks that are decoded to the commands, for a stream cut somewhere
before the marked letter of its first command: every chunk has one marked letter, so the
letters of the first command coincide. -/
private theorem first_chunk {replies : List Reply} {r : Reply} {c : Str} {chunks : List Str}
    {w x y : Str} {z : Char} (hpayload : r.payload = x ++ z :: y) (hx : x.countP mark = 0)
    (hz : mark z) (hw : w <:+ gap r ++ '[' :: x)
    (hstream : c ++ chunks.flatten = w ++ z :: (y ++ rest replies))
    (hc : RFID.getSubstring c "r".toList = r.payload)
    (hcs : commands chunks = replies.map Reply.payload) :
    ∃ lead trail, c = lead ++ '[' :: (r.payload ++ trail) ∧ w = lead ++ '[' :: x ∧
      lead <:+ gap r ∧ trail.countP mark = 0 ∧ trail ++ chunks.flatten = rest replies := by
  have hw0 : w.countP mark = 0 := by
    apply Nat.eq_zero_of_le_zero
    apply hw.sublist.countP_le.trans
    simp only [List.countP_append, List.countP_cons, countP_gap, hx,
      (by decide : mark '[' = false), Bool.false_eq_true, if_false]
    exact le_rfl
  have hnul : NUL ∉ c ++ chunks.flatten := by
    have hgap : NUL ∉ gap r := by cases r <;> decide
    have hbytes : NUL ∉ r.payload := by cases r <;> decide
    rw [hpayload, List.mem_append, List.mem_cons, not_or, not_or] at hbytes
    have hlead : NUL ∉ gap r ++ '[' :: x := by
      simp only [List.mem_append, List.mem_cons, not_or]
      exact ⟨hgap, by decide, hbytes.1⟩
    rw [hstream]
    simp only [List.mem_append, List.mem_cons, not_or]
    exact ⟨fun h => hlead (hw.subset h), hbytes.2.1, hbytes.2.2, nul_not_mem_rest replies⟩
  rw [List.mem_append, not_or] at hnul
  obtain ⟨u, b, v, rfl⟩ := decoded_split hnul.1 hc
  have hothers := length_le_countP hnul.2 hcs
  have hcount := congrArg (List.countP mark) hstream
  have hmark := countP_payload r
  rw [hpayload] at hmark hstream hcount
  simp only [List.countP_append, List.countP_cons, hz, hw0, countP_rest, if_true] at hmark hcount
  have hu0 : (u ++ b :: x).countP mark = 0 := by
    simp only [List.countP_append, List.countP_cons]
    omega
  have hsplit : (u ++ b :: x) ++ z :: (y ++ v ++ chunks.flatten) =
      w ++ z :: (y ++ rest replies) := by
    rw [← hstream]
    simp only [List.append_assoc, List.cons_append]
  obtain ⟨rfl, htail⟩ := append_mark_inj hu0 hw0 hz hz hsplit
  have hlead : u ++ [b] <:+ gap r ++ ['['] := by
    obtain ⟨t, ht⟩ := hw
    refine ⟨t, (List.append_left_inj x).mp ?_⟩
    simpa using ht
  obtain ⟨rfl, hsuffix⟩ : b = '[' ∧ u <:+ gap r := by
    rcases List.suffix_concat_iff.mp hlead with h | ⟨t, h, ht⟩
    · simp at h
    · obtain ⟨rfl, hb⟩ := List.append_inj' h rfl
      exact ⟨by simpa using hb, ht⟩
  have hbehind : v ++ chunks.flatten = rest replies := by
    simpa [List.append_assoc] using htail
  exact ⟨u, v, rfl, rfl, hsuffix, by omega, hbehind⟩

private theorem oneEach_of_commands {replies : List Reply} {r : Reply} {chunks : List Str}
    {w x y : Str} {z : Char} (hpayload : r.payload = x ++ z :: y) (hx : x.countP mark = 0)
    (hz : mark z) (hw : w <:+ gap r ++ '[' :: x)
    (hstream : chunks.flatten = w ++ z :: (y ++ rest replies))
    (h : commands chunks = (r :: replies).map Reply.payload) :
    ∃ lead, w = lead ++ '[' :: x ∧ OneEach lead (r :: replies) chunks := by
  induction replies generalizing r chunks w x y z with
  | nil =>
    rcases chunks with _ | ⟨c, chunks⟩
    · cases h
    obtain ⟨hc, hcs⟩ := List.cons_eq_cons.mp h
    obtain ⟨lead, trail, rfl, hw', -, -, hrest⟩ := first_chunk hpayload hx hz hw hstream hc hcs
    have hnil : chunks = [] := List.map_eq_nil_iff.mp hcs
    rw [hnil, List.flatten_nil, List.append_nil] at hrest
    rw [hnil, hrest]
    exact ⟨lead, hw', .last⟩
  | cons r' replies ih =>
    rcases chunks with _ | ⟨c, chunks⟩
    · cases h
    obtain ⟨hc, hcs⟩ := List.cons_eq_cons.mp h
    obtain ⟨lead, trail, rfl, hw', hlead, htrail, hrest⟩ :=
      first_chunk hpayload hx hz hw hstream hc hcs
    obtain ⟨x', z', y', hpayload', hx', hz', -⟩ := payload_mark r'
    have hnext : trail ++ chunks.flatten = (gap r' ++ '[' :: x') ++ z' :: (y' ++ rest replies) := by
      have hcons : rest (r' :: replies) = gap r' ++ '[' :: (r'.payload ++ rest replies) := rfl
      rw [hrest, hcons, hpayload']
      simp only [List.append_assoc, List.cons_append]
    obtain ⟨w', hgap, hflatten⟩ := append_of_unmarked htrail hz' hnext
    obtain ⟨lead', rfl, hfollowing⟩ :=
      ih hpayload' hx' hz' ⟨trail, hgap.symm⟩ hflatten hcs
    have hcut : trail ++ lead' = gap r' := by
      apply (List.append_left_inj ('[' :: x')).mp
      rw [List.append_assoc]
      exact hgap.symm
    have hends := (getSubstring_chunk_iff r hlead ⟨lead', hcut⟩).mp hc
    exact ⟨lead, hw', .next hcut hends hfollowing⟩

/-- The condition on a sequence of chunks, from the start of the connection. -/
def ReadOneByOne : List Reply → List Str → Prop
  | [], chunks => chunks = []
  | r :: replies, chunks => OneEach (r.header ++ "r".toList) (r :: replies) chunks

/-- However the stream is split, the node acts on the commands of the replies, in order
and once each, exactly when each chunk holds one command and ends well. -/
theorem commands_eq_iff (replies : List Reply) (chunks : List Str) (hne : ∀ c ∈ chunks, c ≠ [])
    (hsplit : chunks.flatten = stream replies) :
    chunks.flatMap getHostMessage = (commands chunks).flatMap handleHostSubstring ∧
    (commands chunks = replies.map Reply.payload ↔ ReadOneByOne replies chunks) := by
  refine ⟨flatMap_getHostMessage hne, ?_⟩
  cases replies with
  | nil =>
    unfold ReadOneByOne commands
    rw [List.map_nil, List.map_eq_nil_iff]
  | cons r replies =>
    have hlead : r.header ++ "r".toList <:+ gap r := ⟨"]r\r\n".toList, by
      unfold gap
      rw [List.append_assoc]⟩
    constructor
    · intro h
      obtain ⟨x, z, y, hpayload, hx, hz, -⟩ := payload_mark r
      have hstream : chunks.flatten =
          (r.header ++ "r".toList ++ '[' :: x) ++ z :: (y ++ rest replies) := by
        have hopen : "r[".toList = "r".toList ++ ['['] := rfl
        rw [hsplit, stream_cons, hpayload, hopen]
        simp only [List.append_assoc, List.cons_append, List.nil_append]
      have hsuffix : r.header ++ "r".toList ++ '[' :: x <:+ gap r ++ '[' :: x := by
        obtain ⟨t, ht⟩ := hlead
        exact ⟨t, by rw [← List.append_assoc, ht]⟩
      obtain ⟨lead, hw, honce⟩ := oneEach_of_commands hpayload hx hz hsuffix hstream h
      change OneEach (r.header ++ "r".toList) _ _
      rw [List.append_cancel_right hw]
      exact honce
    · intro h
      exact commands_of_oneEach h hlead

/-- Three replies, cut behind the first line, and in front of the closer of the second
and of the opening bracket of the third. -/
def threeChunks : List Str :=
  ["r[Access Martin]r\r\n".toList, "c[Server]c: r[Open".toList, "]r\r\nr[Access NO]r\r\n".toList]

theorem commands_eq_iff_example :
    threeChunks.flatMap getHostMessage = (commands threeChunks).flatMap handleHostSubstring ∧
    (commands threeChunks = [Reply.accessMartin, .serverOpen, .accessNO].map Reply.payload ↔
      ReadOneByOne [.accessMartin, .serverOpen, .accessNO] threeChunks) :=
  commands_eq_iff [.accessMartin, .serverOpen, .accessNO] threeChunks (by decide) (by decide)

/-- Two replies in one chunk are read as one text that is no command, and a chunk that
ends inside a closer is not decoded: the door stays shut and the error tone sounds. -/
theorem commands_counterexample :
    (["r[Access OK]r\r\nr[Access NO]r\r\n".toList].flatten = stream [.accessOK, .accessNO] ∧
      commands ["r[Access OK]r\r\nr[Access NO]r\r\n".toList] ≠
        [Reply.accessOK, .accessNO].map Reply.payload ∧
      getHostMessage "r[Access OK]r\r\nr[Access NO]r\r\n".toList = [.playError]) ∧
    (["r[Access OK]".toList, "r\r\n".toList].flatten = stream [.accessOK] ∧
      commands ["r[Access OK]".toList, "r\r\n".toList] ≠ [Reply.accessOK].map Reply.payload ∧
      ["r[Access OK]".toList, "r\r\n".toList].flatMap getHostMessage =
        [.playError, .playError]) := by
  decide

end HomeMonitor.RFID
