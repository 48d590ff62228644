import HomeMonitor.Template.Fill
import Mathlib.Algebra.BigOperators.Intervals

/-! Pages of placeholders: what the engine makes of them, and of a sign between two
placeholders that is meant to stand for itself. -/
namespace HomeMonitor.Template
open HomeMonitor.Text HomeMonitor.Arduino HomeMonitor.Machine

structure Hole where
  name : Str
  text : Str
  name_ne : name ≠ []
  name_le : name.length ≤ TEMPLATE_PARAM_NAME_LENGTH
  sign_not_mem_name : '%' ∉ name
  nul_not_mem_name : NUL ∉ name
  sign_not_mem_text : '%' ∉ text

/-- A part of a page as it is written. -/
def source (hs : List Hole) : Str := hs.flatMap fun h => '%' :: (h.name ++ '%' :: h.text)

/-- The part with every placeholder replaced by the value of its name. -/
def rendered (value : Str → Str) (hs : List Hole) : Str :=
  hs.flatMap fun h => value h.name ++ h.text

theorem source_cons (h : Hole) (hs : List Hole) (R : Str) :
    source (h :: hs) ++ R = '%' :: (h.name ++ '%' :: (h.text ++ (source hs ++ R))) := by
  unfold source
  simp only [List.flatMap_cons, List.cons_append, List.append_assoc]

theorem rendered_cons (value : Str → Str) (h : Hole) (hs : List Hole) :
    rendered value (h :: hs) = value h.name ++ h.text ++ rendered value hs := rfl

private theorem take_drop_text {x y : Str} {k : ℕ} (h : k ≤ x.length ∨ y = []) :
    (x ++ y).take k = x.take k ∧ (x ++ y).drop k = x.drop k ++ y := by
  rcases h with h | rfl
  · exact ⟨List.take_append_of_le_length h, List.drop_append_of_le_length h⟩
  · simp only [List.append_nil, and_self]

section Holes

variable {callback : Str → Str} {L : ℕ} {A x R : Str} {b : Buffer} {r : Response}

/-- The values of the placeholders are free of signs. -/
def Plain (callback : Str → Str) (hs : List Hole) : Prop := ∀ h ∈ hs, '%' ∉ callback h.name

private theorem advance_hole {h : Hole} {room : ℕ} {T passed S' : Str}
    (hadv : Advance callback room (x ++ '%' :: (h.name ++ '%' :: T)) passed S') (hx : '%' ∉ x) :
    passed = x ∧ S' = callback h.name ++ T := by
  have hle := h.name_le
  unfold TEMPLATE_PARAM_NAME_LENGTH at hle
  have hname : cstr (h.name.take 32) = h.name := by
    rw [List.take_of_length_le hle, cstr_eq_self h.nul_not_mem_name]
  have hvalue := hadv.of_name hx h.sign_not_mem_name (by omega) (by rw [hname]; exact h.name_ne)
  rwa [hname] at hvalue

/-- The loop replaces placeholders until the buffer is full or none is left. -/
private theorem reach_holes {hs : List Hole} (hplain : Plain callback hs)
    (hb : At L A (x ++ (source hs ++ R)) b) (hx : '%' ∉ x) :
    ∃ b' A' x' hs', Reaches (iterate callback L) b b' ∧ At L A' (x' ++ (source hs' ++ R)) b' ∧
      '%' ∉ x' ∧ hs' <:+ hs ∧
      A' ++ (x' ++ rendered callback hs') = A ++ (x ++ rendered callback hs) ∧
      (hs' = [] ∨ L ≤ A'.length + x'.length) := by
  induction hs generalizing A x b with
  | nil => exact ⟨b, A, x, [], .refl, hb, hx, List.suffix_rfl, rfl, Or.inl rfl⟩
  | cons h hs ih =>
    by_cases hroom : L ≤ A.length + x.length
    · exact ⟨b, A, x, h :: hs, .refl, hb, hx, List.suffix_rfl, rfl, Or.inr hroom⟩
    · rw [source_cons] at hb
      obtain ⟨b₁, passed, S', hstep, hadv, hb₁⟩ :=
        hb.advances callback (mem_take_of_length_lt (by omega) _)
      obtain ⟨rfl, rfl⟩ := advance_hole hadv hx
      rw [← List.append_assoc] at hb₁
      have hx₁ : '%' ∉ callback h.name ++ h.text := by
        rw [List.mem_append, not_or]
        exact ⟨hplain h List.mem_cons_self, h.sign_not_mem_text⟩
      obtain ⟨b', A', x', hs', hreach, hb', hx', hsuffix, hrendered, hend⟩ :=
        ih (fun g hg => hplain g (List.mem_cons_of_mem h hg)) hb₁ hx₁
      refine ⟨b', A', x', hs', .head hstep hreach, hb', hx', hsuffix.trans (List.suffix_cons h hs),
        ?_, hend⟩
      rw [hrendered, rendered_cons, List.append_assoc]

/-- A buffer that ends before the placeholders do, or a page of placeholders only. -/
theorem fills_holes {hs : List Hole} (hplain : Plain callback hs)
    (hrem : r.remaining = x ++ (source hs ++ R)) (hlast : r.remaining.getLast? ≠ some '%')
    (hx : '%' ∉ x) (hfit : L ≤ (x ++ rendered callback hs).length ∨ R = []) :
    ∃ r' x' hs', Fills callback L r ((x ++ rendered callback hs).take L) r' ∧
      r'.remaining = x' ++ (source hs' ++ R) ∧ r'.remaining.getLast? ≠ some '%' ∧ '%' ∉ x' ∧
      hs' <:+ hs ∧ x' ++ rendered callback hs' = (x ++ rendered callback hs).drop L := by
  have hstart := At.of_read (L := L) hlast
  rw [hrem] at hstart
  obtain ⟨b, A, x', hs', hreach, hb, hx', hsuffix, hrendered, hend⟩ := reach_holes hplain hstart hx
  rw [List.nil_append] at hrendered
  have hA := hb.length_le
  have htail : L - A.length ≤ x'.length ∨ (source hs' ++ R = [] ∧ rendered callback hs' = []) := by
    rcases hend with rfl | hfull
    · rcases hfit with hfit | rfl
      · left
        rw [← hrendered, List.length_append, List.length_append] at hfit
        change L ≤ A.length + (x'.length + 0) at hfit
        omega
      · exact Or.inr ⟨rfl, rfl⟩
    · left
      omega
  obtain ⟨hwindow, hrest⟩ := take_drop_text (htail.imp_right And.left)
  obtain ⟨hout, hafter⟩ := take_drop_text (htail.imp_right And.right)
  have hfill := Fills.of_reaches hreach hb (by
    rw [hwindow]
    exact fun h => hx' (List.mem_of_mem_take h))
  refine ⟨b.response, x'.drop (L - A.length), hs', ?_, ?_, ?_, ?_, hsuffix, ?_⟩
  · rw [← hrendered]
    rwa [List.take_append, hwindow, ← hout, ← List.take_append] at hfill
  · rw [hb.remaining_eq, hrest]
  · exact hb.remaining_last
  · exact fun h => hx' (List.mem_of_mem_drop h)
  · rw [← hrendered, List.drop_append, List.drop_of_length_le hA, List.nil_append, hafter]

/-- A page of placeholders only comes out rendered, wherever the buffers end. -/
theorem produces_holes {hs : List Hole} {lens : ℕ → ℕ} (hplain : Plain callback hs)
    (hrem : r.remaining = x ++ source hs) (hlast : r.remaining.getLast? ≠ some '%')
    (hx : '%' ∉ x) (hpos : ∀ i, 0 < lens i) :
    Produces callback lens r (x ++ rendered callback hs) := by
  obtain ⟨E, hE⟩ : ∃ E, E = x ++ rendered callback hs := ⟨_, rfl⟩
  rw [← hE]
  induction hn : E.length using Nat.strong_induction_on generalizing E hs lens x r with
  | h n ih =>
    have hrem' : r.remaining = x ++ (source hs ++ []) := by rw [hrem, List.append_nil]
    obtain ⟨r', x', hs', hfill, hrem', hlast', hx', hsuffix, hrest⟩ :=
      fills_holes (L := lens 0) hplain hrem' hlast hx (Or.inr rfl)
    rw [← hE] at hfill hrest
    rw [List.append_nil] at hrem'
    by_cases hempty : E = []
    · rw [hempty] at hfill ⊢
      rw [List.take_nil] at hfill
      exact .finish hfill
    · have hlen := List.length_pos_of_ne_nil hempty
      have h0 := hpos 0
      have hsend : Produces callback (fun i => lens (i + 1)) r' (E.drop (lens 0)) :=
        ih (E.drop (lens 0)).length (by rw [List.length_drop]; omega)
          (fun h hh => hplain h (hsuffix.subset hh)) hrem' hlast' hx' (fun i => hpos (i + 1)) _
          hrest.symm rfl
      have hout : E.take (lens 0) ≠ [] := by
        rw [← List.length_pos_iff, List.length_take]
        omega
      have hpage := Produces.send hfill hout hsend
      rwa [List.take_append_drop] at hpage

/-- A placeholder whose value is this placeholder keeps the loop busy for ever. -/
theorem not_fills_self {h : Hole} {hs : List Hole}
    (hself : callback h.name = '%' :: (h.name ++ ['%']))
    (hrem : r.remaining = x ++ source (h :: hs)) (hlast : r.remaining.getLast? ≠ some '%')
    (hx : '%' ∉ x) (hin : x.length < L) {out : Str} {r' : Response} :
    ¬ Fills callback L r out r' := by
  have hsource : source (h :: hs) = '%' :: (h.name ++ '%' :: (h.text ++ source hs)) := by
    have hcons := source_cons h hs []
    rwa [List.append_nil, List.append_nil] at hcons
  have hstart := At.of_read (L := L) hlast
  rw [hrem] at hstart
  rintro ⟨e, hloop, -⟩
  refine Loop.not_of_invariant
    (I := fun b => ∃ A x, At L A (x ++ source (h :: hs)) b ∧ '%' ∉ x ∧ A.length + x.length < L)
    ?_ ⟨[], x, hstart, hx, by simpa using hin⟩ hloop
  rintro b ⟨A, x, hb, hx, hroom⟩
  rw [hsource] at hb
  obtain ⟨b', passed, S', hstep, hadv, hb'⟩ :=
    hb.advances callback (mem_take_of_length_lt (by omega) _)
  obtain ⟨rfl, rfl⟩ := advance_hole hadv hx
  refine ⟨b', hstep, A ++ passed, [], ?_, by simp, by simpa using hroom⟩
  rw [hself] at hb'
  rw [hsource]
  simpa only [List.nil_append, List.cons_append, List.append_assoc, List.singleton_append] using hb'

end Holes

section Sign

variable {callback : Str → Str} {L : ℕ} {x t T : Str} {before after : List Hole} {r : Response}

/-- The loop reaches a sign behind the placeholders when it comes out in the buffer. -/
private theorem reach_sign (hplain : Plain callback before)
    (hrem : r.remaining = x ++ (source before ++ '%' :: T))
    (hlast : r.remaining.getLast? ≠ some '%') (hx : '%' ∉ x)
    (hin : (x ++ rendered callback before).length < L) :
    ∃ b A x', Reaches (iterate callback L) (readBuffer L r) b ∧ At L A (x' ++ '%' :: T) b ∧
      '%' ∉ x' ∧ A ++ x' = x ++ rendered callback before ∧ A.length + x'.length < L := by
  have hstart := At.of_read (L := L) hlast
  rw [hrem] at hstart
  obtain ⟨b, A, x', hs', hreach, hb, hx', -, hrendered, hend⟩ := reach_holes hplain hstart hx
  rw [List.nil_append] at hrendered
  have hlen := congrArg List.length hrendered
  simp only [List.length_append] at hlen hin
  have hnil : hs' = [] := hend.resolve_right (by omega)
  rw [hnil] at hb hrendered
  refine ⟨b, A, x', hreach, hb, hx', ?_, by omega⟩
  rw [← hrendered]
  exact congrArg (A ++ ·) (List.append_nil x').symm

/-- A buffer that ends in the text behind the sign: the sign is sent as it is. -/
theorem fills_sign (hplain : Plain callback before)
    (hrem : r.remaining = x ++ (source before ++ '%' :: (t ++ T)))
    (hlast : r.remaining.getLast? ≠ some '%') (hx : '%' ∉ x) (ht : '%' ∉ t) (hlong : 33 ≤ t.length)
    (hin : (x ++ rendered callback before).length < L)
    (hend : L ≤ (x ++ rendered callback before).length + 1 + t.length) :
    ∃ r', Fills callback L r ((x ++ rendered callback before ++ '%' :: t).take L) r' ∧
      r'.remaining = t.drop (L - (x ++ rendered callback before).length - 1) ++ T ∧
      r'.remaining.getLast? ≠ some '%' := by
  obtain ⟨b, A, x', hreach, hb, hx', hsplit, hroom⟩ := reach_sign hplain hrem hlast hx hin
  rw [← hsplit, List.length_append] at hend ⊢
  have hfar : '%' ∉ (t ++ T).take (max (L - A.length - x'.length - 1) 33) := by
    rw [List.take_append_of_le_length (by omega)]
    exact fun h => ht (List.mem_of_mem_take h)
  obtain ⟨b', passed, S', hstep, hadv, hb'⟩ :=
    hb.advances callback (mem_take_of_length_lt (by omega) _)
  obtain ⟨rfl, rfl⟩ := hadv.of_far hx' hfar
  have hlen : (A ++ (x' ++ ['%'])).length = A.length + x'.length + 1 := by
    simp only [List.length_append, List.length_singleton]
    omega
  have hwindow : L - (A ++ (x' ++ ['%'])).length ≤ t.length := by
    rw [hlen]
    omega
  have hfill := Fills.of_reaches (hreach.tail hstep) hb' (by
    rw [List.take_append_of_le_length hwindow]
    exact fun h => ht (List.mem_of_mem_take h))
  have hparts : A ++ (x' ++ ['%']) ++ t = A ++ x' ++ '%' :: t := by
    simp only [List.append_assoc, List.singleton_append]
  refine ⟨b'.response, ?_, ?_, hb'.remaining_last⟩
  · rw [← List.append_assoc, List.take_append_of_le_length (by
      rw [List.length_append]
      omega), hparts] at hfill
    exact hfill
  · rw [hb'.remaining_eq, List.drop_append_of_le_length hwindow, hlen]
    congr 2

/-- A buffer that ends behind the closing sign the engine finds: the sign and the text are
taken for a name without a value. -/
theorem fills_lost {m : Char} (hplain : Plain callback before)
    (hrem : r.remaining = x ++ (source before ++ '%' :: (t ++ '%' :: m :: T)))
    (hlast : r.remaining.getLast? ≠ some '%') (hx : '%' ∉ x) (ht : '%' ∉ t) (hm : m ≠ '%')
    (hname : cstr (t.take 32) ≠ []) (hvalue : callback (cstr (t.take 32)) = [])
    (hlong : (x ++ rendered callback before).length + 1 + t.length < L) {out : Str} {r' : Response}
    (h : Fills callback L r out r') : x ++ rendered callback before ++ [m] <+: out := by
  obtain ⟨b, A, x', hreach, hb, hx', hsplit, hroom⟩ :=
    reach_sign (L := L) hplain hrem hlast hx (by omega)
  rw [← hsplit, List.length_append] at hlong
  rw [← hsplit]
  obtain ⟨b', passed, S', hstep, hadv, hb'⟩ :=
    hb.advances callback (mem_take_of_length_lt (by omega) _)
  obtain ⟨rfl, rfl⟩ := hadv.of_name hx' ht (by omega) hname
  rw [hvalue, List.nil_append] at hb'
  obtain ⟨e, hloop, rfl, -⟩ := h
  apply hb'.starts_sent ((Loop.iff_of_reaches (hreach.tail hstep)).mp hloop)
  · rw [List.prefix_append_right_inj, List.takeWhile_cons_of_pos (by simpa using hm)]
    exact ⟨_, rfl⟩
  · simp only [List.length_append, List.length_singleton]
    omega

/-- The page is rendered when a buffer ends between the sign and the sign behind it. -/
theorem produces_sign {lens : ℕ → ℕ} (hbefore : Plain callback before)
    (hafter : Plain callback after)
    (hrem : r.remaining = x ++ (source before ++ '%' :: (t ++ source after)))
    (hlast : r.remaining.getLast? ≠ some '%') (hx : '%' ∉ x) (ht : '%' ∉ t) (hlong : 33 ≤ t.length)
    (hpos : ∀ i, 0 < lens i) {k : ℕ}
    (hin : (x ++ rendered callback before).length < ∑ i ∈ Finset.range k, lens i)
    (hend : ∑ i ∈ Finset.range k, lens i ≤ (x ++ rendered callback before).length + 1 + t.length) :
    Produces callback lens r
      (x ++ rendered callback before ++ '%' :: (t ++ rendered callback after)) := by
  induction k generalizing lens x before r with
  | zero =>
    rw [Finset.range_zero, Finset.sum_empty] at hin
    omega
  | succ k ih =>
    rw [Finset.sum_range_succ'] at hin hend
    have h0 := hpos 0
    by_cases hfit : lens 0 ≤ (x ++ rendered callback before).length
    · obtain ⟨r', x', hs', hfill, hrem', hlast', hx', hsuffix, hrest⟩ :=
        fills_holes (L := lens 0) hbefore hrem hlast hx (Or.inl hfit)
      have hlen := congrArg List.length hrest
      rw [List.length_drop] at hlen
      have hsend : Produces callback (fun i => lens (i + 1)) r'
          (x' ++ rendered callback hs' ++ '%' :: (t ++ rendered callback after)) :=
        ih (fun h hh => hbefore h (hsuffix.subset hh)) hrem' hlast' hx' (fun i => hpos (i + 1))
          (by rw [hlen]; omega) (by rw [hlen]; omega)
      have hout : (x ++ rendered callback before).take (lens 0) ≠ [] := by
        rw [← List.length_pos_iff, List.length_take]
        omega
      have hpage := Produces.send hfill hout hsend
      rwa [hrest, ← List.append_assoc, List.take_append_drop] at hpage
    · obtain ⟨r', hfill, hrem', hlast'⟩ :=
        fills_sign (L := lens 0) hbefore hrem hlast hx ht hlong (by omega) (by omega)
      have hsend : Produces callback (fun i => lens (i + 1)) r'
          (t.drop (lens 0 - (x ++ rendered callback before).length - 1) ++
            rendered callback after) :=
        produces_holes hafter hrem' hlast' (fun h => ht (List.mem_of_mem_drop h))
          (fun i => hpos (i + 1))
      have hout : (x ++ rendered callback before ++ '%' :: t).take (lens 0) ≠ [] := by
        rw [← List.length_pos_iff, List.length_take, List.length_append, List.length_cons]
        omega
      have hcut : (x ++ rendered callback before ++ '%' :: t).drop (lens 0) =
          t.drop (lens 0 - (x ++ rendered callback before).length - 1) := by
        have hsplit : lens 0 - (x ++ rendered callback before).length =
            lens 0 - (x ++ rendered callback before).length - 1 + 1 := by omega
        rw [List.drop_append, List.drop_of_length_le (by omega), List.nil_append, hsplit,
          List.drop_succ_cons, ← hsplit]
      have hpage := Produces.send hfill hout hsend
      rwa [← hcut, ← List.append_assoc, List.take_append_drop, List.append_assoc,
        List.cons_append] at hpage

theorem not_produces_sign {lens : ℕ → ℕ} {m : Char} {page rest : Str}
    (hbefore : Plain callback before)
    (hrem : r.remaining = x ++ (source before ++ '%' :: (t ++ '%' :: m :: T)))
    (hlast : r.remaining.getLast? ≠ some '%') (hx : '%' ∉ x) (ht : '%' ∉ t) (hm : m ≠ '%')
    (hname : cstr (t.take 32) ≠ []) (hvalue : callback (cstr (t.take 32)) = [])
    (hpos : ∀ i, 0 < lens i)
    (hnone : ∀ k, (x ++ rendered callback before).length < ∑ i ∈ Finset.range k, lens i →
      (x ++ rendered callback before).length + 1 + t.length < ∑ i ∈ Finset.range k, lens i)
    (h : Produces callback lens r page) :
    page ≠ x ++ rendered callback before ++ '%' :: rest := by
  induction h generalizing x before with
  | @finish lens r r' hfill =>
    have h0 := hpos 0
    have h1 := hnone 1
    rw [Finset.sum_range_one] at h1
    by_cases hfit : lens 0 ≤ (x ++ rendered callback before).length
    · obtain ⟨r₁, x', hs', hfill', -⟩ :=
        fills_holes (L := lens 0) hbefore hrem hlast hx (Or.inl hfit)
      have hlen := congrArg List.length (hfill.unique hfill').1
      rw [List.length_take, List.length_nil] at hlen
      omega
    · have hpre := fills_lost hbefore hrem hlast hx ht hm hname hvalue (h1 (by omega)) hfill
      have hlen := hpre.length_le
      rw [List.length_append, List.length_singleton, List.length_nil] at hlen
      omega
  | @send lens r r' out tail hfill hout hrest ih =>
    have h0 := hpos 0
    have h1 := hnone 1
    rw [Finset.sum_range_one] at h1
    by_cases hfit : lens 0 ≤ (x ++ rendered callback before).length
    · obtain ⟨r₁, x', hs', hfill', hrem', hlast', hx', hsuffix, hdrop⟩ :=
        fills_holes (L := lens 0) hbefore hrem hlast hx (Or.inl hfit)
      obtain ⟨rfl, rfl⟩ := hfill.unique hfill'
      have hlen := congrArg List.length hdrop
      rw [List.length_drop] at hlen
      have hne : tail ≠ x' ++ rendered callback hs' ++ '%' :: rest :=
        ih (fun h hh => hbefore h (hsuffix.subset hh)) hrem' hlast' hx' (fun i => hpos (i + 1)) (by
          intro k hk
          have h := hnone (k + 1)
          rw [Finset.sum_range_succ'] at h
          rw [hlen] at hk ⊢
          dsimp only at hk ⊢
          have h := h (by omega)
          omega)
      intro heq
      apply hne
      rw [hdrop]
      conv at heq =>
        rhs
        rw [← List.take_append_drop (lens 0) (x ++ rendered callback before), List.append_assoc]
      exact List.append_cancel_left heq
    · have hpre := fills_lost hbefore hrem hlast hx ht hm hname hvalue (h1 (by omega)) hfill
      intro heq
      have hpage := hpre.trans (List.prefix_append out tail)
      rw [heq, List.prefix_append_right_inj, List.cons_prefix_cons] at hpage
      exact hm hpage.1

end Sign

end HomeMonitor.Template
