import HomeMonitor.Machine.Simulation
import HomeMonitor.Matrix.KeyList

/-! The keypad as a tracker of its buttons, which the list of keys refines. -/
namespace HomeMonitor.Matrix
open HomeMonitor.Arduino HomeMonitor.Machine

/-- The state of every button, idle when it is not tracked, and the button that is followed. -/
structure Tracker where
  phase : ℕ → KeyState
  leader : Option ℕ

/-- The step of a button from one scan to the next, by whether the next finds it closed. When
a press becomes a hold is left open, and so is whether a new press is tracked. -/
inductive Next : Bool → KeyState → KeyState → Prop
  | pass (button : Bool) : Next button .IDLE .IDLE
  | press : Next true .IDLE .PRESSED
  | keep : Next true .PRESSED .PRESSED
  | hold (button : Bool) : Next button .PRESSED .HOLD
  | release : Next false .PRESSED .RELEASED
  | held : Next true .HOLD .HOLD
  | letGo : Next false .HOLD .RELEASED
  | forget (button : Bool) : Next button .RELEASED .IDLE

namespace Tracker

/-- The button that a scan reports: the first of the new ones when none is followed. -/
def report (n : ℕ) (a : Tracker) (button : ℕ → Bool) : Option ℕ :=
  if a.leader = none then
    (List.range n).find? fun code => button code ∧ a.phase code = .IDLE
  else none

structure Step (n : ℕ) (a : Tracker) (button : ℕ → Bool) (a' : Tracker) : Prop where
  next : ∀ code < n, Next (button code) (a.phase code) (a'.phase code)
  pressed : ∀ code, a.report n button = some code → a'.phase code = .PRESSED
  leader : a'.leader =
    (a.leader.or (a.report n button)).filter fun code => a'.phase code ≠ .IDLE

def Read (b : Layout) (a : Tracker) (read : Scan × Char) (a' : Tracker) : Prop :=
  a.Step (b.rows * b.columns) (closed b read.1) a' ∧
    read.2 = ((a.report (b.rows * b.columns) (closed b read.1)).map b.keymap).getD NO_KEY

end Tracker

namespace Keypad

def tracker (kpd : Keypad) : Tracker where
  phase code :=
    ((List.finRange LIST_MAX).find? fun i =>
      (kpd.key i).kstate ≠ .IDLE ∧ (kpd.key i).kcode = code).elim .IDLE fun i => (kpd.key i).kstate
  leader := if (kpd.key 0).kstate = .IDLE then none else some (kpd.key 0).kcode.toNat

theorem phase_eq_idle {kpd : Keypad} {code : ℕ} (h : ¬ kpd.Tracked code) :
    kpd.tracker.phase code = .IDLE := by
  unfold tracker
  dsimp only
  cases hfind : (List.finRange LIST_MAX).find? fun i =>
      (kpd.key i).kstate ≠ .IDLE ∧ (kpd.key i).kcode = code with
  | none => rfl
  | some i =>
    have hi := List.find?_some hfind
    exact absurd ⟨i, of_decide_eq_true hi⟩ h

theorem phase_eq {kpd : Keypad} {code : ℕ} {i : Fin LIST_MAX} (hcode : (kpd.key i).kcode = code)
    (hunique : ∀ j, (kpd.key j).kstate ≠ .IDLE → (kpd.key j).kcode = code → j = i) :
    kpd.tracker.phase code = (kpd.key i).kstate := by
  by_cases hidle : (kpd.key i).kstate = .IDLE
  · rw [hidle]
    apply phase_eq_idle
    rintro ⟨j, hj, hjcode⟩
    rw [hunique j hj hjcode] at hj
    exact hj hidle
  · unfold tracker
    dsimp only
    cases hfind : (List.finRange LIST_MAX).find? fun i =>
        (kpd.key i).kstate ≠ .IDLE ∧ (kpd.key i).kcode = code with
    | none =>
      have hi := List.find?_eq_none.mp hfind i (List.mem_finRange i)
      exact absurd (decide_eq_true ⟨hidle, hcode⟩) hi
    | some j =>
      have hfound := List.find?_some hfind
      obtain ⟨hj, hjcode⟩ := of_decide_eq_true hfound
      rw [hunique j hj hjcode]
      rfl

theorem phase_ne_idle_iff {b : Layout} {kpd : Keypad} (h : Sound b kpd) (code : ℕ) :
    kpd.tracker.phase code ≠ .IDLE ↔ kpd.Tracked code := by
  constructor
  · intro hphase
    by_contra htracked
    exact hphase (phase_eq_idle htracked)
  · rintro ⟨i, hi, hcode⟩
    rw [phase_eq hcode fun j hj hjcode => h.distinct j i hj hi (hjcode.trans hcode.symm)]
    exact hi

/-- Deleting the idle keys changes nothing that the list says. -/
theorem tracker_deleteIdle (kpd : Keypad) : kpd.deleteIdle.tracker = kpd.tracker := by
  have hstate : ∀ i, (kpd.deleteIdle.key i).kstate = (kpd.key i).kstate := by
    intro i
    rw [deleteIdle_key]
    split_ifs with h
    · exact h.symm
    · rfl
  have hkey : ∀ i, (kpd.key i).kstate ≠ .IDLE → kpd.deleteIdle.key i = kpd.key i := by
    intro i h
    rw [deleteIdle_key, if_neg h]
  unfold tracker
  congr 1
  · funext code
    have hfind : (fun i => decide ((kpd.deleteIdle.key i).kstate ≠ .IDLE ∧
        (kpd.deleteIdle.key i).kcode = (code : ℕ))) =
        fun i => decide ((kpd.key i).kstate ≠ .IDLE ∧ (kpd.key i).kcode = (code : ℕ)) := by
      funext i
      apply decide_eq_decide.mpr
      rw [hstate]
      exact and_congr_right fun h => by rw [hkey i h]
    rw [hfind]
    congr 1
    funext i
    exact hstate i
  · rw [hstate]
    by_cases hidle : (kpd.key 0).kstate = .IDLE
    · rw [if_pos hidle, if_pos hidle]
    · rw [if_neg hidle, if_neg hidle, hkey 0 hidle]

theorem next_nextKey (holdTime holdTimer : BitVec 32) (now : ℕ) (key : Key) (button : Bool) :
    Next button key.kstate (nextKey holdTime holdTimer now key button).1.kstate := by
  unfold nextKey transitionTo
  cases hstate : key.kstate with
  | IDLE =>
    cases button with
    | true => exact .press
    | false => simpa [hstate] using Next.pass false
  | PRESSED =>
    dsimp only
    split_ifs with hheld hopen
    · exact .hold button
    · rw [Bool.not_eq_true'] at hopen
      rw [hopen]
      exact .release
    · rw [Bool.not_eq_true', Bool.not_eq_false] at hopen
      rw [hopen]
      simpa [hstate] using Next.keep
  | HOLD =>
    cases button with
    | true => simpa [hstate] using Next.held
    | false => exact .letGo
  | RELEASED => exact .forget button

/-- A key that is on the list is never reported as newly pressed. -/
theorem nextKey_not_new (holdTime holdTimer : BitVec 32) (now : ℕ) {key : Key} (button : Bool)
    (h : key.kstate ≠ .IDLE) :
    ¬ ((nextKey holdTime holdTimer now key button).1.stateChanged ∧
      (nextKey holdTime holdTimer now key button).1.kstate = .PRESSED) := by
  unfold nextKey transitionTo
  cases hstate : key.kstate with
  | IDLE => exact absurd hstate h
  | PRESSED => dsimp only; split_ifs <;> simp
  | HOLD => dsimp only; split_ifs <;> simp
  | RELEASED => simp

section scan

variable {b : Layout} {scan : Scan} {old kpd : Keypad}

theorem Processed.sound (h : Processed b scan old (b.rows * b.columns) kpd)
    (hold : Cleared b old) : Sound b kpd := by
  have hbutton : ∀ i, (kpd.key i).kstate ≠ .IDLE → ∃ code < b.rows * b.columns,
      (kpd.key i).kcode = code ∧ (kpd.key i).kchar = b.keymap code := by
    intro i hi
    by_cases hidle : (old.key i).kstate = .IDLE
    · rcases h.filled i (hold.vacant_of_idle i hidle) with hv | ⟨code, hlt, -, -, hkey⟩
      · rw [hv] at hi
        exact absurd rfl hi
      · rw [hkey]
        exact ⟨code, hlt, rfl, rfl⟩
    · obtain ⟨code, hlt, hcode, hchar⟩ := hold.button i hidle
      obtain ⟨holdTimer, now, hkey⟩ := h.earlier i code hlt hcode
      rw [hkey, nextKey_kcode, nextKey_kchar]
      exact ⟨code, hlt, hcode, hchar⟩
  refine ⟨hbutton, ?_⟩
  intro i j hi hj heq
  obtain ⟨code, -, hcode, -⟩ := hbutton i hi
  exact h.distinct i j code hcode (heq ▸ hcode)

theorem Processed.next_phase (h : Processed b scan old (b.rows * b.columns) kpd)
    (hold : Cleared b old) {code : ℕ} (hlt : code < b.rows * b.columns) :
    Next (closed b scan code) (old.tracker.phase code) (kpd.tracker.phase code) := by
  by_cases htracked : old.Tracked code
  · obtain ⟨i, hi, hcode⟩ := htracked
    obtain ⟨holdTimer, now, hkey⟩ := h.earlier i code hlt hcode
    have hcode' : (kpd.key i).kcode = code := by rw [hkey, nextKey_kcode, hcode]
    rw [phase_eq hcode fun j hj hjcode => hold.distinct j i hj hi (hjcode.trans hcode.symm),
      phase_eq hcode' fun j _ hjcode => h.distinct j i code hjcode hcode', hkey]
    exact next_nextKey ..
  · rw [phase_eq_idle htracked]
    by_cases htracked' : kpd.Tracked code
    · obtain ⟨i, hi, hcode⟩ := htracked'
      have hidle : (old.key i).kstate = .IDLE := by
        by_contra hused
        obtain ⟨code', hlt', hcode', -⟩ := hold.button i hused
        obtain ⟨holdTimer, now, hkey⟩ := h.earlier i code' hlt' hcode'
        rw [hkey, nextKey_kcode] at hcode
        exact htracked ⟨i, hused, hcode⟩
      rcases h.filled i (hold.vacant_of_idle i hidle) with hv | ⟨code', -, hclosed, -, hkey⟩
      · rw [hv] at hi
        exact absurd rfl hi
      · have hcode_eq : code' = code := by
          rw [hkey] at hcode
          exact Int.ofNat_inj.mp hcode
        rw [phase_eq hcode fun j _ hjcode => h.distinct j i code hjcode hcode, hkey,
          ← hcode_eq, hclosed]
        exact .press
    · rw [phase_eq_idle htracked']
      exact .pass _

/-- The report of the tracker is what the first slot, when vacant, is filled with. -/
theorem report_eq (hold : Cleared b old) :
    old.tracker.report (b.rows * b.columns) (closed b scan) =
      if (old.key 0).kstate = .IDLE then old.firstNew b scan (b.rows * b.columns) else none := by
  unfold Tracker.report firstNew
  have hleader : old.tracker.leader = none ↔ (old.key 0).kstate = .IDLE := by
    unfold tracker
    dsimp only
    split_ifs with h <;> simp [h]
  have hnew : (fun code => decide (closed b scan code ∧ old.tracker.phase code = .IDLE)) =
      fun code => decide (closed b scan code ∧ ¬ old.Tracked code) := by
    funext code
    apply decide_eq_decide.mpr
    rw [← phase_ne_idle_iff hold.toSound, not_not]
  rw [hnew]
  simp only [hleader]

/-- The key in the first slot after the loop: the one that was followed after its step, or the
one that is reported. -/
theorem Processed.key_zero (h : Processed b scan old (b.rows * b.columns) kpd)
    (hold : Cleared b old) :
    ((old.key 0).kstate = .IDLE ∧ kpd.key 0 =
      ((old.tracker.report (b.rows * b.columns) (closed b scan)).map (pressed b)).getD vacant) ∨
    ∃ code < b.rows * b.columns, (old.key 0).kstate ≠ .IDLE ∧ (old.key 0).kcode = code ∧
      ∃ holdTimer now,
        kpd.key 0 = (nextKey b.holdTime holdTimer now (old.key 0) (closed b scan code)).1 := by
  by_cases hidle : (old.key 0).kstate = .IDLE
  · left
    rw [report_eq hold, if_pos hidle]
    exact ⟨hidle, h.first (hold.vacant_of_idle 0 hidle)⟩
  · right
    obtain ⟨code, hlt, hcode, -⟩ := hold.button 0 hidle
    exact ⟨code, hlt, hidle, hcode, h.earlier 0 code hlt hcode⟩

theorem Processed.step (h : Processed b scan old (b.rows * b.columns) kpd)
    (hold : Cleared b old) :
    old.tracker.Step (b.rows * b.columns) (closed b scan) kpd.tracker := by
  have hphase : ∀ code : ℕ, (kpd.key 0).kcode = code →
      kpd.tracker.phase code = (kpd.key 0).kstate :=
    fun code hcode => phase_eq hcode fun j _ hjcode => h.distinct j 0 code hjcode hcode
  refine ⟨fun code hlt => h.next_phase hold hlt, ?_, ?_⟩
  · intro code hreport
    rcases h.key_zero hold with ⟨-, hkey⟩ | ⟨_, -, hused, -⟩
    · rw [hreport] at hkey
      rw [hphase code (by rw [hkey]; rfl), hkey]
      rfl
    · rw [report_eq hold, if_neg hused] at hreport
      cases hreport
  · have hleader : kpd.tracker.leader =
        if (kpd.key 0).kstate = .IDLE then none else some (kpd.key 0).kcode.toNat := rfl
    have hold_leader : old.tracker.leader =
        if (old.key 0).kstate = .IDLE then none else some (old.key 0).kcode.toNat := rfl
    rw [hleader, hold_leader]
    rcases h.key_zero hold with ⟨hidle, hkey⟩ | ⟨code, -, hused, hcode, holdTimer, now, hkey⟩
    · rw [if_pos hidle, Option.none_or]
      cases hreport : old.tracker.report (b.rows * b.columns) (closed b scan) with
      | none =>
        rw [hreport] at hkey
        rw [hkey]
        rfl
      | some code =>
        rw [hreport] at hkey
        have hnot : kpd.tracker.phase code ≠ .IDLE := by
          rw [hphase code (by rw [hkey]; rfl), hkey]
          exact fun hpressed => by cases hpressed
        rw [Option.filter_some_pos (by simpa using hnot), hkey]
        rfl
    · have hcode' : (kpd.key 0).kcode = code := by rw [hkey, nextKey_kcode, hcode]
      have hreport : old.tracker.report (b.rows * b.columns) (closed b scan) = none := by
        rw [report_eq hold, if_neg hused]
      rw [if_neg hused, hreport, Option.or_none, hcode', hcode, Int.toNat_natCast,
        ← hphase code hcode']
      by_cases hidle : kpd.tracker.phase code = .IDLE
      · rw [if_pos hidle, Option.filter_some_neg (by simpa using hidle)]
      · rw [if_neg hidle, Option.filter_some_pos (by simpa using hidle)]

theorem Processed.returned (h : Processed b scan old (b.rows * b.columns) kpd)
    (hold : Cleared b old) :
    (if (kpd.key 0).stateChanged ∧ (kpd.key 0).kstate = .PRESSED then (kpd.key 0).kchar
      else NO_KEY) =
      ((old.tracker.report (b.rows * b.columns) (closed b scan)).map b.keymap).getD NO_KEY := by
  rcases h.key_zero hold with ⟨-, hkey⟩ | ⟨code, -, hused, -, holdTimer, now, hkey⟩
  · rw [hkey]
    cases old.tracker.report (b.rows * b.columns) (closed b scan) with
    | none => rfl
    | some code => rfl
  · rw [report_eq hold, if_neg hused, hkey, if_neg (nextKey_not_new _ _ _ _ hused)]
    rfl

end scan

theorem getKey_of_not_due {b : Layout} {kpd : Keypad} {scan : Scan} (h : ¬ kpd.Due b scan) :
    kpd.getKey b scan = (NO_KEY, kpd) := by
  unfold getKey getKeys
  rw [if_neg h]
  rfl

theorem getKey_of_due {b : Layout} {kpd : Keypad} {scan : Scan} (h : kpd.Due b scan) :
    kpd.getKey b scan =
      (if ((kpd.updateList b scan).key 0).stateChanged ∧
          ((kpd.updateList b scan).key 0).kstate = .PRESSED then
        ((kpd.updateList b scan).key 0).kchar else NO_KEY,
      { kpd.updateList b scan with startTime := millis scan.finish }) := by
  unfold getKey getKeys
  rw [if_pos h]
  dsimp only
  congr 1
  have hactive : ((kpd.updateList b scan).key 0).stateChanged →
      (kpd.updateList b scan).anyActivity = true :=
    fun hchanged => List.any_eq_true.mpr ⟨0, List.mem_finRange 0, hchanged⟩
  by_cases hnew : ((kpd.updateList b scan).key 0).stateChanged ∧
      ((kpd.updateList b scan).key 0).kstate = .PRESSED
  · rw [if_pos ⟨hactive hnew.1, hnew⟩, if_pos hnew]
  · rw [if_neg fun h => hnew h.2, if_neg hnew]

theorem getKey_read {b : Layout} {kpd : Keypad} (h : Sound b kpd) {scan : Scan}
    (hdue : kpd.Due b scan) :
    kpd.tracker.Read b (scan, (kpd.getKey b scan).1) (kpd.getKey b scan).2.tracker ∧
      Sound b (kpd.getKey b scan).2 := by
  have hprocessed := processed_updateList h scan
  rw [getKey_of_due hdue]
  refine ⟨⟨?_, ?_⟩, ?_, ?_⟩
  · have hstep := hprocessed.step h.deleteIdle
    rw [tracker_deleteIdle] at hstep
    exact hstep
  · have hreturned := hprocessed.returned h.deleteIdle
    rw [tracker_deleteIdle] at hreturned
    exact hreturned
  · exact (hprocessed.sound h.deleteIdle).button
  · exact (hprocessed.sound h.deleteIdle).distinct

/-- The scans of a run that are not too early, with the characters returned for them. -/
def reads (b : Layout) : Keypad → List Scan → List (Scan × Char) :=
  observed (getKey b) fun kpd scan => kpd.Due b scan

abbrev after (b : Layout) : Keypad → List Scan → Keypad :=
  run fun kpd scan => (kpd.getKey b scan).2

/-- The scans of every run are a run of the tracker. -/
theorem trace_reads {b : Layout} {kpd : Keypad} (h : Sound b kpd) (scans : List Scan) :
    Trace (Tracker.Read b) kpd.tracker (reads b kpd scans) (after b kpd scans).tracker ∧
      Sound b (after b kpd scans) := by
  have hrun : ∃ a, Trace (Tracker.Read b) kpd.tracker (reads b kpd scans) a ∧
      Sound b (after b kpd scans) ∧ a = (after b kpd scans).tracker := by
    unfold reads
    apply exists_trace (R := fun a kpd => Sound b kpd ∧ a = kpd.tracker) _ _ ⟨h, rfl⟩
    · rintro a kpd scan hdue ⟨hsound, rfl⟩
      obtain ⟨hread, hsound'⟩ := getKey_read hsound (of_decide_eq_true hdue)
      exact ⟨_, hread, hsound', rfl⟩
    · rintro a kpd scan hearly ⟨hsound, rfl⟩
      rw [getKey_of_not_due (of_decide_eq_false hearly)]
      exact ⟨hsound, rfl⟩
  obtain ⟨a, htrace, hsound, rfl⟩ := hrun
  exact ⟨htrace, hsound⟩

end Keypad
end HomeMonitor.Matrix
