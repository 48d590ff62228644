import HomeMonitor.Matrix.Tracker
import Mathlib.Algebra.BigOperators.Group.Finset.Piecewise
import Mathlib.Algebra.Order.BigOperators.Group.Finset

/-! The keys that are returned over a run, against the closings of the buttons. -/
namespace HomeMonitor.Matrix
open HomeMonitor.Arduino HomeMonitor.Machine

/-- How often a sequence of scans finds a button closed after it was found open. -/
def closings (b : Layout) (code : ℕ) : Bool → List Scan → ℕ
  | _, [] => 0
  | last, scan :: scans =>
    (if closed b scan code ∧ last = false then 1 else 0) +
      closings b code (closed b scan code) scans

theorem Next.down {s s' : KeyState} (h : Next true s s') (hs : s = .PRESSED ∨ s = .HOLD) :
    s' = .PRESSED ∨ s' = .HOLD := by
  cases h with
  | keep => exact Or.inl rfl
  | hold => exact Or.inr rfl
  | held => exact Or.inr rfl
  | _ => simp at hs

namespace Tracker

/-- A closing that the tracker can still report: the button is closed, and it is not the one
that is followed as pressed or held. -/
def credit (a : Tracker) (last : Bool) (code : ℕ) : ℕ :=
  if last ∧ ¬ (a.leader = some code ∧ (a.phase code = .PRESSED ∨ a.phase code = .HOLD)) then 1
  else 0

section step

variable {n : ℕ} {a a' : Tracker} {button : ℕ → Bool} {code : ℕ}

theorem report_of_leader (h : a.leader = some code) : a.report n button = none := by
  unfold report
  rw [h]
  exact if_neg (Option.some_ne_none code)

theorem report_spec (h : a.report n button = some code) :
    a.leader = none ∧ code < n ∧ button code = true ∧ a.phase code = .IDLE := by
  unfold report at h
  split_ifs at h with hleader
  have hfound := List.find?_some h
  have hmem := List.mem_of_find?_eq_some h
  obtain ⟨hbutton, hphase⟩ := of_decide_eq_true hfound
  exact ⟨hleader, List.mem_range.mp hmem, hbutton, hphase⟩

theorem Step.credit_add_le (h : a.Step n button a') (hcode : code < n) (last : Bool) :
    (if a.report n button = some code then 1 else 0) + a'.credit (button code) code ≤
      (if button code ∧ last = false then 1 else 0) + a.credit last code := by
  by_cases hreport : a.report n button = some code
  · obtain ⟨hleader, -, hbutton, -⟩ := report_spec hreport
    have hafter : a'.credit (button code) code = 0 := by
      unfold credit
      have hleader' : a'.leader = some code := by
        rw [h.leader, hleader, hreport, Option.none_or, Option.filter_some_pos]
        simp [h.pressed code hreport]
      exact if_neg fun hcredit => hcredit.2 ⟨hleader', Or.inl (h.pressed code hreport)⟩
    have hbefore : a.credit last code = if last then 1 else 0 := by
      unfold credit
      simp [hleader]
    rw [if_pos hreport, hafter, hbefore, hbutton]
    cases last <;> simp
  · rw [if_neg hreport, Nat.zero_add]
    unfold credit
    by_cases hafter : button code ∧ ¬ (a'.leader = some code ∧
        (a'.phase code = .PRESSED ∨ a'.phase code = .HOLD))
    · obtain ⟨hbutton, hfollowed⟩ := hafter
      rw [if_pos ⟨hbutton, hfollowed⟩]
      cases last with
      | false => rw [if_pos ⟨hbutton, rfl⟩]; omega
      | true =>
        -- a button that is followed and stays closed goes on being followed
        have hbefore : ¬ (a.leader = some code ∧
            (a.phase code = .PRESSED ∨ a.phase code = .HOLD)) := by
          rintro ⟨hleader, hphase⟩
          have hnext := h.next code hcode
          rw [hbutton] at hnext
          have hphase' := hnext.down hphase
          refine hfollowed ⟨?_, hphase'⟩
          rw [h.leader, hleader, Option.some_or, Option.filter_some_pos]
          rcases hphase' with hphase' | hphase' <;> simp [hphase']
        rw [if_neg fun hnew => Bool.noConfusion hnew.2, if_pos ⟨rfl, hbefore⟩]
    · rw [if_neg hafter]
      exact Nat.zero_le _

end step

end Tracker

def codesOf (b : Layout) (key : Char) : Finset ℕ :=
  (Finset.range (b.rows * b.columns)).filter fun code => b.keymap code = key

/-- The potential argument: over the buttons with a character, what is returned and what can
still be reported is paid for by the closings. -/
theorem count_le_of_trace {b : Layout} {key : Char} (hkey : key ≠ NO_KEY) {a a' : Tracker}
    {reads : List (Scan × Char)} (h : Trace (Tracker.Read b) a reads a') (last : ℕ → Bool) :
    (reads.map Prod.snd).count key ≤
      ∑ code ∈ codesOf b key,
        (closings b code (last code) (reads.map Prod.fst) + a.credit (last code) code) := by
  induction h generalizing last with
  | nil a => exact Nat.zero_le _
  | @cons a a₁ a₂ read reads first rest ih =>
    obtain ⟨hstep, hreturned⟩ := first
    have hreported : (if read.2 = key then 1 else 0) ≤ ∑ code ∈ codesOf b key,
        if a.report (b.rows * b.columns) (closed b read.1) = some code then 1 else 0 := by
      rw [hreturned]
      cases hreport : a.report (b.rows * b.columns) (closed b read.1) with
      | none => simp [hkey.symm]
      | some code =>
        obtain ⟨-, hlt, -, -⟩ := Tracker.report_spec hreport
        by_cases hcode : b.keymap code = key
        · have hmem : code ∈ codesOf b key :=
            Finset.mem_filter.mpr ⟨Finset.mem_range.mpr hlt, hcode⟩
          simp only [Option.map_some, Option.getD_some, hcode, if_true, Option.some.injEq]
          rw [Finset.sum_ite_eq, if_pos hmem]
        · simp [hcode]
    have hpaid : ∀ code ∈ codesOf b key,
        (if a.report (b.rows * b.columns) (closed b read.1) = some code then 1 else 0) +
          a₁.credit (closed b read.1 code) code ≤
        (if closed b read.1 code ∧ last code = false then 1 else 0) + a.credit (last code) code :=
      fun code hmem =>
        hstep.credit_add_le (Finset.mem_range.mp (Finset.mem_filter.mp hmem).1) (last code)
    have hsum := Finset.sum_le_sum hpaid
    have hrest := ih fun code => closed b read.1 code
    simp only [Finset.sum_add_distrib] at hsum hrest
    simp only [List.map_cons, List.count_cons, beq_iff_eq, closings, Finset.sum_add_distrib]
    omega

theorem getKey_of_early (b : Layout) (kpd : Keypad) (scan : Scan)
    (h : decide (kpd.Due b scan) = false) : decide ((kpd.getKey b scan).1 ≠ NO_KEY) = false := by
  rw [Keypad.getKey_of_not_due (of_decide_eq_false h)]
  rfl

theorem returned_eq (b : Layout) (kpd : Keypad) (scans : List Scan) :
    (outputs (Keypad.getKey b) kpd scans).filter (· ≠ NO_KEY) =
      ((kpd.reads b scans).map Prod.snd).filter (· ≠ NO_KEY) :=
  filter_outputs (getKey_of_early b) kpd scans

/-- However the buttons are pressed and whenever `getKey` is called, a key is returned at most
as often as the scans find one of its buttons closed after it was open. -/
theorem count_returned_le {b : Layout} {kpd : Keypad} (h : kpd.Sound b) (scans : List Scan)
    {key : Char} (hkey : key ≠ NO_KEY) :
    (outputs (Keypad.getKey b) kpd scans).count key ≤
      ∑ code ∈ codesOf b key, closings b code false ((kpd.reads b scans).map Prod.fst) := by
  have htrace := count_le_of_trace hkey (Keypad.trace_reads h scans).1 fun _ => false
  have hkept : decide (key ≠ NO_KEY) = true := decide_eq_true hkey
  have hcount : (outputs (Keypad.getKey b) kpd scans).count key =
      ((kpd.reads b scans).map Prod.snd).count key := by
    calc (outputs (Keypad.getKey b) kpd scans).count key
        = ((outputs (Keypad.getKey b) kpd scans).filter (· ≠ NO_KEY)).count key :=
          (List.count_filter (p := fun k => decide (k ≠ NO_KEY)) hkept).symm
      _ = (((kpd.reads b scans).map Prod.snd).filter (· ≠ NO_KEY)).count key := by
          rw [returned_eq]
      _ = ((kpd.reads b scans).map Prod.snd).count key :=
          List.count_filter (p := fun k => decide (k ≠ NO_KEY)) hkept
  have hcredit : ∀ code, kpd.tracker.credit false code = 0 := fun code => by
    unfold Tracker.credit
    simp
  rw [hcount]
  simpa only [hcredit, Nat.add_zero] using htrace

end HomeMonitor.Matrix
