import HomeMonitor.Template.Stream

/-! The loop on one send buffer, from the bytes read into it to the bytes sent of it. -/
namespace HomeMonitor.Template
open HomeMonitor.Text HomeMonitor.Arduino HomeMonitor.Machine

section Advance

variable {callback : Str → Str} {room : ℕ} {x n T passed S' : Str}

theorem Advance.of_name (h : Advance callback room (x ++ '%' :: (n ++ '%' :: T)) passed S')
    (hx : '%' ∉ x) (hn : '%' ∉ n) (hnear : n.length < max (room - x.length - 1) 33)
    (hname : cstr (n.take 32) ≠ []) : passed = x ∧ S' = callback (cstr (n.take 32)) ++ T := by
  obtain ⟨S, hS⟩ : ∃ S, S = x ++ '%' :: (n ++ '%' :: T) := ⟨_, rfl⟩
  rw [← hS] at h
  cases h with
  | literal hx' hroom hfar =>
    obtain ⟨rfl, rfl⟩ := append_letter_inj hx' hx hS
    exact absurd (mem_take_of_length_lt hnear T) hfar
  | value hx' hroom hn' hnear' hname' =>
    obtain ⟨rfl, htail⟩ := append_letter_inj hx' hx hS
    obtain ⟨rfl, rfl⟩ := append_letter_inj hn' hn htail
    exact ⟨rfl, rfl⟩
  | escape hx' hroom =>
    obtain ⟨rfl, htail⟩ := append_letter_inj hx' hx hS
    obtain ⟨rfl, rfl⟩ := append_letter_inj (x := []) (by simp) hn htail
    exact absurd rfl hname
  | dropped hx' hroom hn' hnear' hname' =>
    obtain ⟨rfl, htail⟩ := append_letter_inj hx' hx hS
    rw [← List.append_assoc] at htail
    obtain ⟨rfl, rfl⟩ := append_letter_inj hn' hn htail
    rw [List.take_of_length_le (by omega)] at hname
    exact absurd hname' hname
  | stuck hx' hroom hn' hne hname' =>
    obtain ⟨rfl, htail⟩ := append_letter_inj hx' hx hS
    obtain ⟨rfl, rfl⟩ := append_letter_inj hn' hn htail
    exact absurd hname' hname

theorem Advance.of_far (h : Advance callback room (x ++ '%' :: T) passed S') (hx : '%' ∉ x)
    (hfar : '%' ∉ T.take (max (room - x.length - 1) 33)) : passed = x ++ ['%'] ∧ S' = T := by
  obtain ⟨S, hS⟩ : ∃ S, S = x ++ '%' :: T := ⟨_, rfl⟩
  rw [← hS] at h
  cases h with
  | literal hx' hroom hfar' =>
    obtain ⟨rfl, rfl⟩ := append_letter_inj hx' hx hS
    exact ⟨rfl, rfl⟩
  | value hx' hroom hn' hnear' hname' =>
    obtain ⟨rfl, rfl⟩ := append_letter_inj hx' hx hS
    exact absurd (mem_take_of_length_lt hnear' _) hfar
  | escape hx' hroom =>
    obtain ⟨rfl, rfl⟩ := append_letter_inj hx' hx hS
    exact absurd (mem_take_of_length_lt (x := []) (by simp) _) hfar
  | dropped hx' hroom hn' hnear' hname' =>
    obtain ⟨rfl, rfl⟩ := append_letter_inj hx' hx hS
    rw [← List.append_assoc] at hfar
    exact absurd (mem_take_of_length_lt (by omega) _) hfar
  | stuck hx' hroom hn' hne hname' =>
    obtain ⟨rfl, rfl⟩ := append_letter_inj hx' hx hS
    exact absurd (mem_take_of_length_lt (by omega) _) hfar

theorem Advance.takeWhile_prefix {S : Str} (h : Advance callback room S passed S') :
    S.takeWhile (· ≠ '%') <+: passed := by
  have hfirst : ∀ {y t : Str}, '%' ∉ y → (y ++ '%' :: t).takeWhile (· ≠ '%') = y := by
    intro y t hy
    exact readStringUntil_append hy t
  cases h with
  | literal hx' => rw [hfirst hx']; exact List.prefix_append _ _
  | value hx' => rw [hfirst hx']
  | escape hx' => rw [hfirst hx']; exact List.prefix_append _ _
  | dropped hx' => rw [hfirst hx']
  | stuck hx' => rw [hfirst hx']

end Advance

/-- The loop on a buffer of `L` bytes stands behind the bytes `A`, before the stream `S`. -/
structure At (L : ℕ) (A S : Str) (b : Buffer) : Prop where
  sound : Sound L b
  sent : b.sent = A
  stream : b.stream = S
  last : S.getLast? ≠ some '%'

namespace At

variable {callback : Str → Str} {L : ℕ} {A S : Str} {b : Buffer}

theorem start_eq (h : At L A S b) : b.start = A.length := by
  rw [← h.sent, h.sound.sent_length]

theorem length_le (h : At L A S b) : A.length ≤ L := by
  rw [← h.start_eq]
  exact h.sound.start_le.trans h.sound.len_le

theorem window_eq (h : At L A S b) : b.window = S.take (L - A.length) := by
  rw [h.sound.window_eq, h.stream, h.start_eq]

theorem of_read {r : Response} (hlast : r.remaining.getLast? ≠ some '%') :
    At L [] r.remaining (readBuffer L r) := by
  obtain ⟨hsound, hstart, hstream⟩ := readBuffer_sound L r
  refine ⟨hsound, ?_, hstream, hlast⟩
  rw [← List.length_eq_zero_iff, hsound.sent_length, hstart]

theorem exit_iff (h : At L A S b) : iterate callback L b = none ↔ '%' ∉ S.take (L - A.length) := by
  have hlast := h.last
  rw [← h.stream] at hlast
  rcases iterate_spec callback h.sound hlast with ⟨hnot, hexit⟩ | ⟨hmem, b', hstep, -⟩
  · rw [← h.window_eq]
    simp only [hexit, hnot, not_false_eq_true]
  · rw [← h.window_eq, hstep]
    simp only [hmem, reduceCtorEq, not_true_eq_false]

theorem step (h : At L A S b) {b' : Buffer} (hstep : iterate callback L b = some b') :
    ∃ passed S', Advance callback (L - A.length) S passed S' ∧ At L (A ++ passed) S' b' := by
  have hlast := h.last
  rw [← h.stream] at hlast
  rcases iterate_spec callback h.sound hlast with
    ⟨-, hexit⟩ | ⟨-, b₁, hstep₁, passed, hsound, hsent, hadv⟩
  · rw [hexit] at hstep
    cases hstep
  · rw [hstep₁] at hstep
    cases hstep
    rw [h.start_eq, h.stream] at hadv
    refine ⟨passed, b'.stream, hadv, hsound, ?_, rfl, hadv.getLast_ne h.last⟩
    rw [hsent, h.sent]

theorem advances (callback : Str → Str) (h : At L A S b) (hmem : '%' ∈ S.take (L - A.length)) :
    ∃ b' passed S', iterate callback L b = some b' ∧
      Advance callback (L - A.length) S passed S' ∧ At L (A ++ passed) S' b' := by
  cases hstep : iterate callback L b with
  | none => exact absurd hmem (h.exit_iff.mp hstep)
  | some b' =>
    obtain ⟨passed, S', hadv, hnext⟩ := h.step hstep
    exact ⟨b', passed, S', rfl, hadv, hnext⟩

theorem data_eq (h : At L A S b) : b.data.take b.len = (A ++ S).take L := by
  rw [h.sound.data_eq, h.sent, h.stream, h.start_eq, List.take_append,
    List.take_of_length_le h.length_le]

theorem remaining_eq (h : At L A S b) : b.response.remaining = S.drop (L - A.length) := by
  rw [h.sound.remaining_eq, h.stream, h.start_eq]

theorem remaining_last (h : At L A S b) : b.response.remaining.getLast? ≠ some '%' := by
  rw [h.remaining_eq, List.getLast?_drop]
  split_ifs
  · simp
  · exact h.last

theorem starts_sent (h : At L A S b) {e : Buffer} (hloop : Loop (iterate callback L) b e)
    {y : Str} (hy : y <+: A ++ S.takeWhile (· ≠ '%')) (hfit : y.length ≤ L) :
    y <+: e.data.take e.len := by
  obtain ⟨⟨A', S', he, hpre⟩, -⟩ := hloop.invariant
    (I := fun b => ∃ A' S', At L A' S' b ∧ y <+: A' ++ S'.takeWhile (· ≠ '%'))
    (by
      rintro b₁ b₂ ⟨A', S', hb₁, hpre⟩ hstep
      obtain ⟨passed, S₂, hadv, hb₂⟩ := hb₁.step hstep
      refine ⟨A' ++ passed, S₂, hb₂, hpre.trans ?_⟩
      rw [List.append_assoc, List.prefix_append_right_inj]
      exact hadv.takeWhile_prefix.trans (List.prefix_append _ _))
    ⟨A, S, h, hy⟩
  rw [he.data_eq, List.prefix_take_iff]
  constructor
  · refine hpre.trans ?_
    rw [List.prefix_append_right_inj]
    exact List.takeWhile_prefix _
  · exact hfit

end At

variable {callback : Str → Str} {L : ℕ} {A S : Str} {b : Buffer} {r : Response}

theorem Fills.of_reaches (hreach : Reaches (iterate callback L) (readBuffer L r) b)
    (hb : At L A S b) (hexit : '%' ∉ S.take (L - A.length)) :
    Fills callback L r ((A ++ S).take L) b.response :=
  ⟨b, (Loop.iff_of_reaches hreach).mpr (.exit (hb.exit_iff.mpr hexit)), hb.data_eq.symm, rfl⟩

theorem Fills.length_le {out : Str} {r' : Response} (h : Fills callback L r out r')
    (hlast : r.remaining.getLast? ≠ some '%') :
    out.length ≤ L ∧ r'.remaining.getLast? ≠ some '%' := by
  obtain ⟨b, hloop, rfl, rfl⟩ := h
  have hkeeps : ∀ b b', (∃ A S, At L A S b) → iterate callback L b = some b' →
      ∃ A S, At L A S b' := by
    intro b b' hb hstep
    obtain ⟨A, S, hb⟩ := hb
    obtain ⟨passed, S', -, hb'⟩ := hb.step hstep
    exact ⟨_, _, hb'⟩
  obtain ⟨⟨A, S, hb⟩, -⟩ := hloop.invariant hkeeps ⟨_, _, At.of_read hlast⟩
  rw [hb.data_eq]
  exact ⟨List.length_take_le _ _, hb.remaining_last⟩

theorem Fills.unique {out out' : Str} {r₁ r₂ : Response} (h : Fills callback L r out r₁)
    (h' : Fills callback L r out' r₂) : out = out' ∧ r₁ = r₂ := by
  obtain ⟨b, hloop, hout, hresp⟩ := h
  obtain ⟨b', hloop', hout', hresp'⟩ := h'
  obtain rfl := hloop.unique hloop'
  exact ⟨hout.trans hout'.symm, hresp.trans hresp'.symm⟩

end HomeMonitor.Template
