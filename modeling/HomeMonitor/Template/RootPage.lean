import HomeMonitor.Sketch.Website
import HomeMonitor.Template.Page
import Mathlib.Tactic.MkIffOfInductiveProp

/-! The root page through the template engine: it comes out with every value in its place
exactly when a send buffer ends between the sign of the humidity unit and the next one. -/
namespace HomeMonitor.AsyncWebserver
open HomeMonitor.Arduino HomeMonitor.Template

variable {F Conn : Type*}

def part (page : Str) (start stop : ℕ) : Str := (page.take stop).drop start

/-- The root page with the given texts in its six places; every other byte is the page's own,
also the sign of the humidity unit. -/
def layout (page temperature humidity motion light rfid keypad : Str) : Str :=
  part page 0 752 ++ temperature ++ part page 765 926 ++ humidity ++ part page 936 963 ++
    '%' :: (part page 964 1081 ++ motion ++ part page 1089 1197 ++ light ++
      part page 1204 1308 ++ rfid ++ part page 1321 1430 ++ keypad ++ part page 1445 3469)

def placeholder (name : Str) : Str := '%' :: (name ++ ['%'])

/-- Where the texts between the signs lie. -/
def textRanges : List (ℕ × ℕ) :=
  [(0, 752), (765, 926), (936, 963), (964, 1081), (1089, 1197), (1204, 1308), (1321, 1430),
    (1445, 3469)]

/-- What the proofs use of the bytes of the page. -/
@[mk_iff] structure PageFacts (page : Str) : Prop where
  layout_eq : page = layout page (placeholder "TEMPERATURE".toList)
    (placeholder "HUMIDITY".toList) (placeholder "MOTION".toList) (placeholder "LIGHT".toList)
    (placeholder "RFID Status".toList) (placeholder "Keypad Status".toList)
  signless : ∀ range ∈ textRanges, '%' ∉ part page range.1 range.2
  length_eq : page.length = 3469
  last : page.getLast? ≠ some '%'
  nul : NUL ∉ page
  unitName : cstr ((part page 964 1081).take 32) = "</sup>\n</p>\n<p>\n<i class=\"fas fa".toList

instance (page : Str) : Decidable (PageFacts page) :=
  decidable_of_iff _ (pageFacts_iff page).symm

theorem website_facts : PageFacts WEBSITE := by
  unfold WEBSITE websiteLines
  simp only [List.flatMap_cons, List.flatMap_nil, String.toList_append]
  repeat rw [toList_literal rfl]
  decide +kernel

variable {page : Str} (facts : PageFacts page)

/-- The placeholder of a variable, before the text in the given range. -/
def hole (name : Str) (start stop : ℕ)
    (hname : name ≠ [] ∧ name.length ≤ 32 ∧ '%' ∉ name ∧ NUL ∉ name)
    (hrange : (start, stop) ∈ textRanges) : Hole where
  name := name
  text := part page start stop
  name_ne := hname.1
  name_le := hname.2.1
  sign_not_mem_name := hname.2.2.1
  nul_not_mem_name := hname.2.2.2
  sign_not_mem_text := facts.signless _ hrange

def holesBefore : List Hole :=
  [hole facts "TEMPERATURE".toList 765 926 (by decide) (by decide),
    hole facts "HUMIDITY".toList 936 963 (by decide) (by decide)]

def holesAfter : List Hole :=
  [hole facts "MOTION".toList 1089 1197 (by decide) (by decide),
    hole facts "LIGHT".toList 1204 1308 (by decide) (by decide),
    hole facts "RFID Status".toList 1321 1430 (by decide) (by decide),
    hole facts "Keypad Status".toList 1445 3469 (by decide) (by decide)]

theorem page_eq : page = part page 0 752 ++
    (source (holesBefore facts) ++ '%' :: (part page 964 1081 ++ source (holesAfter facts))) := by
  apply facts.layout_eq.trans
  have hopen : ∀ name rest : Str, placeholder name ++ rest = '%' :: (name ++ '%' :: rest) := by
    intro name rest
    unfold placeholder
    rw [List.cons_append, List.append_assoc, List.singleton_append]
  unfold layout source holesBefore holesAfter hole
  simp only [List.flatMap_cons, List.flatMap_nil, List.append_assoc, hopen, List.append_nil,
    List.cons_append]

def rootPage (fl : FloatLib F) (s : State F Conn) : Str :=
  layout WEBSITE (fl.render s.t) (fl.render s.h) s.motionStatus (fl.render s.l) s.rfidStatus
    s.keypadStatus

/-- The position of the humidity unit's sign in the rendered page. -/
def unitSign (fl : FloatLib F) (s : State F Conn) : ℕ :=
  940 + (fl.render s.t).length + (fl.render s.h).length

section Values

variable (fl : FloatLib F) (s : State F Conn)

theorem processor_values :
    processor fl s "TEMPERATURE".toList = fl.render s.t ∧
    processor fl s "HUMIDITY".toList = fl.render s.h ∧
    processor fl s "MOTION".toList = s.motionStatus ∧
    processor fl s "LIGHT".toList = fl.render s.l ∧
    processor fl s "RFID Status".toList = s.rfidStatus ∧
    processor fl s "Keypad Status".toList = s.keypadStatus :=
  ⟨rfl, rfl, rfl, rfl, rfl, rfl⟩

private theorem processor_unit :
    processor fl s "</sup>\n</p>\n<p>\n<i class=\"fas fa".toList = [] := rfl

private theorem layout_rendered :
    layout page (fl.render s.t) (fl.render s.h) s.motionStatus (fl.render s.l) s.rfidStatus
      s.keypadStatus =
    part page 0 752 ++ rendered (processor fl s) (holesBefore facts) ++
      '%' :: (part page 964 1081 ++ rendered (processor fl s) (holesAfter facts)) := by
  obtain ⟨ht, hh, hm, hl, hr, hk⟩ := processor_values fl s
  unfold layout rendered holesBefore holesAfter hole
  simp only [List.flatMap_cons, List.flatMap_nil, ht, hh, hm, hl, hr, hk, List.append_assoc,
    List.append_nil]

include facts in
theorem length_part (start stop : ℕ) (h : stop ≤ 3469) :
    (part page start stop).length = stop - start := by
  unfold part
  rw [List.length_drop, List.length_take, facts.length_eq, Nat.min_eq_left h]

theorem length_before :
    (part page 0 752 ++ rendered (processor fl s) (holesBefore facts)).length = unitSign fl s := by
  obtain ⟨ht, hh, -⟩ := processor_values fl s
  unfold rendered holesBefore hole unitSign
  simp only [List.flatMap_cons, List.flatMap_nil, ht, hh, List.length_append, List.append_nil]
  rw [length_part facts 0 752 (by omega), length_part facts 765 926 (by omega),
    length_part facts 936 963 (by omega)]
  omega

theorem sign_not_mem_render (v : F) : '%' ∉ fl.render v :=
  fl.not_mem_render v (by decide) (by decide)

theorem plain_before : Plain (processor fl s) (holesBefore facts) := by
  obtain ⟨ht, hh, -⟩ := processor_values fl s
  unfold Plain holesBefore hole
  simp only [List.forall_mem_cons, List.not_mem_nil, false_implies, implies_true, and_true]
  rw [ht, hh]
  exact ⟨sign_not_mem_render fl s.t, sign_not_mem_render fl s.h⟩

private theorem plain_after (hm : '%' ∉ s.motionStatus) (hr : '%' ∉ s.rfidStatus)
    (hk : '%' ∉ s.keypadStatus) : Plain (processor fl s) (holesAfter facts) := by
  obtain ⟨-, -, hm', hl', hr', hk'⟩ := processor_values fl s
  unfold Plain holesAfter hole
  simp only [List.forall_mem_cons, List.not_mem_nil, false_implies, implies_true, and_true]
  rw [hm', hl', hr', hk']
  exact ⟨hm, sign_not_mem_render fl s.l, hr, hk⟩

private theorem after_opens : ∃ T, source (holesAfter facts) = '%' :: 'M' :: T := ⟨_, rfl⟩

include facts in
private theorem page_iff (hm : '%' ∉ s.motionStatus) (hr : '%' ∉ s.rfidStatus)
    (hk : '%' ∉ s.keypadStatus) {lens : ℕ → ℕ} (hpos : ∀ i, 0 < lens i) :
    Produces (processor fl s) lens ⟨[], page⟩
      (layout page (fl.render s.t) (fl.render s.h) s.motionStatus (fl.render s.l) s.rfidStatus
        s.keypadStatus) ↔
    ∃ k, unitSign fl s < ∑ i ∈ Finset.range k, lens i ∧
      ∑ i ∈ Finset.range k, lens i ≤ unitSign fl s + 118 := by
  have hbefore := plain_before facts fl s
  have hrem : Response.remaining ⟨[], page⟩ = part page 0 752 ++
      (source (holesBefore facts) ++ '%' :: (part page 964 1081 ++ source (holesAfter facts))) :=
    page_eq facts
  have hx : '%' ∉ part page 0 752 := facts.signless (0, 752) (by decide)
  have ht : '%' ∉ part page 964 1081 := facts.signless (964, 1081) (by decide)
  have hlen := length_part facts 964 1081 (by omega)
  have hat := length_before facts fl s
  rw [layout_rendered facts]
  constructor
  · intro h
    by_contra hnone
    obtain ⟨T, hT⟩ := after_opens facts
    rw [hT] at hrem
    refine not_produces_sign hbefore hrem facts.last hx ht (by decide) ?_ ?_ hpos ?_ h rfl
    · rw [facts.unitName]
      decide
    · rw [facts.unitName]
      exact processor_unit fl s
    · intro k hk
      rw [hat] at hk ⊢
      rw [hlen]
      by_contra hend
      exact hnone ⟨k, hk, by omega⟩
  · rintro ⟨k, hin, hend⟩
    have hafter := plain_after facts fl s hm hr hk
    exact produces_sign hbefore hafter hrem facts.last hx ht (by omega) hpos (k := k) (by omega)
      (by omega)

end Values

/-- In a state whose statuses hold no sign, the root page comes out with every value in its
place and nothing else changed exactly when one of the send buffers ends behind the sign of
the humidity unit and not behind the next sign, which opens the placeholder of the motion
status. -/
theorem rootPage_iff (fl : FloatLib F) (s : State F Conn) (hm : '%' ∉ s.motionStatus)
    (hr : '%' ∉ s.rfidStatus) (hk : '%' ∉ s.keypadStatus) (lens : ℕ → ℕ) (hpos : ∀ i, 0 < lens i) :
    Produces (processor fl s) lens ⟨[], WEBSITE⟩ (rootPage fl s) ↔
    ∃ k, unitSign fl s < ∑ i ∈ Finset.range k, lens i ∧
      ∑ i ∈ Finset.range k, lens i ≤ unitSign fl s + 118 :=
  page_iff website_facts fl s hm hr hk hpos

private theorem unitSign_boot :
    unitSign FloatLib.hundredths (boot FloatLib.hundredths : State ℤ Unit) = 948 := by
  decide

private theorem sum_const (n k : ℕ) : ∑ _i ∈ Finset.range k, n = k * n := by
  rw [Finset.sum_const, Finset.card_range]
  rfl

/-- At boot the sign is at 948: buffers of 1000 bytes carry the page. -/
theorem rootPage_iff_boot :
    Produces (processor FloatLib.hundredths (boot FloatLib.hundredths : State ℤ Unit))
      (fun _ => 1000) ⟨[], WEBSITE⟩
      (rootPage FloatLib.hundredths (boot FloatLib.hundredths : State ℤ Unit)) := by
  apply (rootPage_iff _ _ (by decide) (by decide) (by decide) _ (fun _ => by decide)).mpr
  rw [unitSign_boot]
  exact ⟨1, by rw [sum_const]; decide, by rw [sum_const]; decide⟩

/-- A buffer of 5000 bytes, which holds the whole page, loses it. -/
theorem rootPage_counterexample :
    ('%' ∉ (boot FloatLib.hundredths : State ℤ Unit).motionStatus ∧
      '%' ∉ (boot FloatLib.hundredths : State ℤ Unit).rfidStatus ∧
      '%' ∉ (boot FloatLib.hundredths : State ℤ Unit).keypadStatus) ∧
    ¬ Produces (processor FloatLib.hundredths (boot FloatLib.hundredths : State ℤ Unit))
      (fun _ => 5000) ⟨[], WEBSITE⟩
      (rootPage FloatLib.hundredths (boot FloatLib.hundredths : State ℤ Unit)) := by
  refine ⟨by decide, fun h => ?_⟩
  obtain ⟨k, hin, hend⟩ := (page_iff website_facts FloatLib.hundredths _ (by decide) (by decide)
    (by decide) (fun _ => by decide)).mp h
  rw [unitSign_boot, sum_const] at hin hend
  omega

end HomeMonitor.AsyncWebserver
