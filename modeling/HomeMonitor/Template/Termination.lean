import HomeMonitor.Template.Fill
import Mathlib.Data.List.Count

/-! Termination of the engine. A value is read again from its start, so the signs that values
bring into the stream are weighed against the signs of the page that are used up for them. -/
namespace HomeMonitor.Template
open HomeMonitor.Text HomeMonitor.Arduino HomeMonitor.Machine

/-- Two adjacent signs of the text enclose the name. -/
def Encloses (text name : Str) : Prop :=
  ∃ u v, text = u ++ '%' :: (name ++ '%' :: v) ∧ '%' ∉ name

/-- A text that brings no further signs: the placeholders in it have values without signs,
and none of its signs begins a placeholder whose name is cut to nothing by a NUL. -/
structure Settled (callback : Str → Str) (text : Str) : Prop where
  signless : ∀ name, Encloses text name → '%' ∉ callback (cstr (name.take 32))
  named : ¬ ['%', NUL] <:+: text

section Settled

variable {callback : Str → Str} {text u v : Str}

theorem Settled.of_suffix (h : Settled callback text) (hv : v <:+ text) : Settled callback v := by
  obtain ⟨u, rfl⟩ := hv
  constructor
  · rintro name ⟨u', v', rfl, hname⟩
    exact h.signless name ⟨u ++ u', v', by rw [List.append_assoc], hname⟩
  · exact fun hin => h.named (hin.trans (List.suffix_append u v).isInfix)

theorem Settled.append (h : Settled callback text) (hu : '%' ∉ u) :
    Settled callback (u ++ text) := by
  constructor
  · rintro name ⟨u', v', heq, hname⟩
    rcases List.append_eq_append_iff.mp heq with ⟨y, rfl, htext⟩ | ⟨y, rfl, htext⟩
    · exact h.signless name ⟨y, v', htext, hname⟩
    · cases y with
      | nil => exact h.signless name ⟨[], v', htext.symm, hname⟩
      | cons c y =>
        obtain ⟨rfl, -⟩ := List.cons_eq_cons.mp htext
        exact absurd (by simp) hu
  · rintro ⟨u', v', heq⟩
    rw [List.append_assoc] at heq
    rcases List.append_eq_append_iff.mp heq with ⟨y, rfl, htext⟩ | ⟨y, rfl, htext⟩
    · cases y with
      | nil => exact h.named ⟨[], v', htext⟩
      | cons c y =>
        obtain ⟨rfl, -⟩ := List.cons_eq_cons.mp htext
        exact absurd (by simp) hu
    · exact h.named ⟨y, v', by rw [htext, List.append_assoc]⟩

theorem Settled.of_signless (hv : '%' ∉ v) : Settled callback v := by
  constructor
  · rintro name ⟨u, w, rfl, -⟩
    exact absurd (by simp) hv
  · rintro ⟨u, w, rfl⟩
    exact absurd (by simp) hv

end Settled

private theorem cstr_eq_nil {text : Str} (h : cstr text = []) (hne : text ≠ []) :
    ∃ v, text = NUL :: v := by
  cases text with
  | nil => exact absurd rfl hne
  | cons c v =>
    by_cases hc : c = NUL
    · exact ⟨v, by rw [hc]⟩
    · unfold cstr at h
      rw [List.takeWhile_cons_of_pos (by simpa using hc)] at h
      cases h

section Weight

/-- A callback whose values hold at most `bound` signs each and bring no further ones. -/
structure Tame (callback : Str → Str) (bound : ℕ) : Prop where
  settled : ∀ name, Settled callback (callback name)
  count_le : ∀ name, (callback name).count '%' ≤ bound

variable (callback : Str → Str) (page : Str) (bound : ℕ)

/-- The stream is the rest of a value and the rest of the page, and its weight is at most `g`:
a sign of the page pays for itself and for the signs of the value it brings. -/
def Weighs (g : ℕ) (S : Str) : Prop :=
  ∃ text rest, S = text ++ rest ∧ rest <:+ page ∧ Settled callback text ∧
    text.count '%' + (bound + 1) * rest.count '%' ≤ g

variable {callback page bound} {g room : ℕ} {S passed S' x n T : Str}

theorem Weighs.drop (h : Weighs callback page bound g S) (k : ℕ) :
    Weighs callback page bound g (S.drop k) := by
  obtain ⟨text, rest, rfl, hrest, htext, hg⟩ := h
  refine ⟨text.drop k, rest.drop (k - text.length), List.drop_append,
    (List.drop_suffix _ _).trans hrest, htext.of_suffix (List.drop_suffix _ _), ?_⟩
  have htextCount := (List.drop_sublist k text).count_le '%'
  have hrestCount := (List.drop_sublist (k - text.length) rest).count_le '%'
  have hmul := Nat.mul_le_mul_left (bound + 1) hrestCount
  omega

private theorem count_split (hx : '%' ∉ x) : (x ++ '%' :: T).count '%' = T.count '%' + 1 := by
  rw [List.count_append, List.count_eq_zero_of_not_mem hx, List.count_cons_self, Nat.zero_add]

theorem Weighs.pass (h : Weighs callback page bound g (x ++ '%' :: T)) (hx : '%' ∉ x) :
    ∃ g' < g, Weighs callback page bound g' T := by
  obtain ⟨text, rest, hS, hrest, htext, hg⟩ := h
  rcases append_eq_append_letter hx hS.symm with ⟨text', rfl, rfl⟩ | ⟨-, y, hy, -, rfl⟩
  · rw [count_split hx] at hg
    refine ⟨_, ?_, text', rest, rfl, hrest, ?_, le_rfl⟩
    · omega
    · exact htext.of_suffix (suffix_behind x '%' text')
  · rw [count_split hy, Nat.mul_succ] at hg
    refine ⟨_, ?_, [], T, rfl, ?_, .of_signless (by simp), le_rfl⟩
    · rw [List.count_nil]
      omega
    · exact (suffix_behind y '%' T).trans hrest

/-- A placeholder that is replaced lowers the weight: in a value, because the value that it
brings has no sign, and in the page, because it is paid for. -/
theorem Weighs.replace (htame : Tame callback bound)
    (h : Weighs callback page bound g (x ++ '%' :: (n ++ '%' :: T))) (hx : '%' ∉ x) (hn : '%' ∉ n) :
    ∃ g' < g, Weighs callback page bound g' (callback (cstr (n.take 32)) ++ T) := by
  have hsettled := htame.settled (cstr (n.take 32))
  have hbound := htame.count_le (cstr (n.take 32))
  obtain ⟨text, rest, hS, hrest, htext, hg⟩ := h
  rcases append_eq_append_letter hx hS.symm with ⟨text', rfl, htail⟩ | ⟨-, y, hy, -, rfl⟩
  · rw [count_split hx] at hg
    rcases append_eq_append_letter hn htail.symm with ⟨text, rfl, rfl⟩ | ⟨hnot, y, hy, -, rfl⟩
    · have hsignless := htext.signless n ⟨x, text, rfl, hn⟩
      rw [count_split hn] at hg
      refine ⟨_, ?_, callback (cstr (n.take 32)) ++ text, rest, by rw [List.append_assoc], hrest,
        (htext.of_suffix ?_).append hsignless, le_rfl⟩
      · rw [List.count_append, List.count_eq_zero_of_not_mem hsignless]
        omega
      · exact (suffix_behind n '%' text).trans (suffix_behind x '%' _)
    · rw [count_split hy, Nat.mul_succ] at hg
      refine ⟨_, ?_, callback (cstr (n.take 32)), T, rfl, (suffix_behind y '%' T).trans hrest,
        hsettled, le_rfl⟩
      omega
  · rw [count_split hy, count_split hn, Nat.mul_succ, Nat.mul_succ] at hg
    refine ⟨_, ?_, callback (cstr (n.take 32)), T, rfl,
      ((suffix_behind n '%' T).trans (suffix_behind y '%' _)).trans hrest, hsettled, le_rfl⟩
    omega

theorem Weighs.named (hpage : NUL ∉ page) (h : Weighs callback page bound g (x ++ '%' :: NUL :: T))
    (hx : '%' ∉ x) : False := by
  obtain ⟨text, rest, hS, hrest, htext, -⟩ := h
  have hnul : NUL ∉ rest := fun hmem => hpage (hrest.subset hmem)
  rcases append_eq_append_letter hx hS.symm with ⟨text', rfl, htail⟩ | ⟨-, y, -, -, rfl⟩
  · cases text' with
    | nil =>
      rw [List.nil_append] at htail
      exact hnul (htail ▸ List.mem_cons_self)
    | cons c text' =>
      obtain ⟨rfl, -⟩ := List.cons_eq_cons.mp htail
      exact htext.named ⟨x, text', by simp⟩
  · exact hnul (by simp)

theorem Weighs.advance (htame : Tame callback bound) (hpage : NUL ∉ page)
    (h : Weighs callback page bound g S) (hadv : Advance callback room S passed S') :
    ∃ g' < g, Weighs callback page bound g' S' := by
  cases hadv with
  | literal hx => exact h.pass hx
  | value hx _ hn => exact h.replace htame hx hn
  | escape hx =>
    obtain ⟨g₁, hlt₁, h₁⟩ := h.pass hx
    obtain ⟨g₂, hlt₂, h₂⟩ := h₁.pass (x := []) (by simp)
    exact ⟨g₂, hlt₂.trans hlt₁, h₂⟩
  | @dropped x w n T hx _ _ _ hname =>
    by_cases hne : w ++ n = []
    · obtain ⟨rfl, rfl⟩ := List.append_eq_nil_iff.mp hne
      exact h.pass hx
    · obtain ⟨v, hv⟩ := cstr_eq_nil hname hne
      rw [← List.append_assoc, hv, List.cons_append] at h
      exact absurd hx (fun hx => h.named hpage hx)
  | @stuck x n T hx _ _ hne hname =>
    obtain ⟨v, hv⟩ := cstr_eq_nil hname (by simpa using hne)
    have hhead : n = NUL :: n.tail := by
      cases n with
      | nil => exact absurd rfl hne
      | cons c n =>
        rw [List.take_succ_cons] at hv
        rw [(List.cons_eq_cons.mp hv).1, List.tail_cons]
    rw [hhead, List.cons_append] at h
    exact absurd hx (fun hx => h.named hpage hx)

/-- Every buffer is filled. If nothing was replaced or passed in it, it is sent as it was read. -/
theorem Weighs.fills (htame : Tame callback bound) (hpage : NUL ∉ page) {r : Response}
    (h : Weighs callback page bound g r.remaining) (hlast : r.remaining.getLast? ≠ some '%')
    (L : ℕ) :
    ∃ out r', Fills callback L r out r' ∧ r'.remaining.getLast? ≠ some '%' ∧
      ((∃ g' < g, Weighs callback page bound g' r'.remaining) ∨
        (out = r.remaining.take L ∧ r'.remaining = r.remaining.drop L)) := by
  have hstart := At.of_read (L := L) hlast
  have hends : ∃ e, Loop (iterate callback L) (readBuffer L r) e := Loop.exists_of_rank
    (I := fun g b => ∃ A S, At L A S b ∧ Weighs callback page bound g S)
    (by
      rintro g b b' ⟨A, S, hb, hS⟩ hstep
      obtain ⟨passed, S', hadv, hb'⟩ := hb.step hstep
      obtain ⟨g', hlt, hS'⟩ := hS.advance htame hpage hadv
      exact ⟨g', hlt, _, _, hb', hS'⟩)
    ⟨_, _, hstart, h⟩
  obtain ⟨e, hloop⟩ := hends
  have hkeep := hloop.invariant
    (I := fun b => ∃ A S, At L A S b ∧
      ((∃ g' < g, Weighs callback page bound g' S) ∨ (A = [] ∧ S = r.remaining)))
    (by
      rintro b b' ⟨A, S, hb, hS⟩ hstep
      obtain ⟨passed, S', hadv, hb'⟩ := hb.step hstep
      refine ⟨_, _, hb', Or.inl ?_⟩
      rcases hS with ⟨g₁, hlt₁, hS⟩ | ⟨-, rfl⟩
      · obtain ⟨g₂, hlt₂, hS'⟩ := hS.advance htame hpage hadv
        exact ⟨g₂, hlt₂.trans hlt₁, hS'⟩
      · exact h.advance htame hpage hadv)
    ⟨_, _, hstart, Or.inr ⟨rfl, rfl⟩⟩
  obtain ⟨⟨A, S, he, hS⟩, -⟩ := hkeep
  refine ⟨_, _, ⟨e, hloop, rfl, rfl⟩, he.remaining_last, ?_⟩
  rw [he.data_eq, he.remaining_eq]
  rcases hS with ⟨g', hlt, hS⟩ | ⟨rfl, rfl⟩
  · exact Or.inl ⟨g', hlt, hS.drop _⟩
  · exact Or.inr ⟨rfl, rfl⟩

/-- The body of a response is finished after finitely many buffers: each of them lowers the
weight, or else it shortens the stream. -/
theorem Weighs.produces (htame : Tame callback bound) (hpage : NUL ∉ page) {r : Response}
    (h : Weighs callback page bound g r.remaining) (hlast : r.remaining.getLast? ≠ some '%')
    {lens : ℕ → ℕ} (hpos : ∀ i, 0 < lens i) : ∃ body, Produces callback lens r body := by
  induction g using Nat.strong_induction_on generalizing r lens with
  | h g ihg =>
    induction hn : r.remaining.length using Nat.strong_induction_on generalizing r lens with
    | h n ihn =>
      obtain ⟨out, r', hfill, hlast', hnext⟩ := h.fills htame hpage hlast (lens 0)
      by_cases hout : out = []
      · rw [hout] at hfill
        exact ⟨[], .finish hfill⟩
      · have hrest : ∃ body, Produces callback (fun i => lens (i + 1)) r' body := by
          rcases hnext with ⟨g', hlt, h'⟩ | ⟨hread, hleft⟩
          · exact ihg g' hlt h' hlast' (fun i => hpos (i + 1))
          · have h0 := hpos 0
            have hlen := List.length_pos_of_ne_nil hout
            rw [hread, List.length_take] at hlen
            refine ihn _ ?_ (hleft ▸ h.drop (lens 0)) hlast' (fun i => hpos (i + 1)) rfl
            rw [hleft, List.length_drop]
            omega
        obtain ⟨body, hbody⟩ := hrest
        exact ⟨out ++ body, .send hfill hout hbody⟩

end Weight

end HomeMonitor.Template
