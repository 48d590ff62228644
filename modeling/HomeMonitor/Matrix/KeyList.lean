import HomeMonitor.Machine.Run
import HomeMonitor.Matrix.Keypad

/-! What an `updateList` call does to the list of keys. -/
namespace HomeMonitor.Matrix
open HomeMonitor.Arduino HomeMonitor.Machine

def vacant : Key := ⟨NO_KEY, -1, .IDLE, false⟩

def pressed (b : Layout) (keyCode : ℕ) : Key := ⟨b.keymap keyCode, keyCode, .PRESSED, true⟩

def closed (b : Layout) (scan : Scan) (keyCode : ℕ) : Bool :=
  scan.bitMap (keyCode / b.columns) (keyCode % b.columns)

@[simp] theorem nextKey_kchar (holdTime holdTimer : BitVec 32) (now : ℕ) (key : Key)
    (button : Bool) : (nextKey holdTime holdTimer now key button).1.kchar = key.kchar := by
  unfold nextKey transitionTo
  cases key.kstate <;> dsimp only <;> split_ifs <;> rfl

@[simp] theorem nextKey_kcode (holdTime holdTimer : BitVec 32) (now : ℕ) (key : Key)
    (button : Bool) : (nextKey holdTime holdTimer now key button).1.kcode = key.kcode := by
  unfold nextKey transitionTo
  cases key.kstate <;> dsimp only <;> split_ifs <;> rfl

namespace Keypad

theorem places_eq (b : Layout) :
    places b =
      (List.range (b.rows * b.columns)).map fun code => (code / b.columns, code % b.columns) := by
  unfold places
  induction b.rows with
  | zero => simp
  | succ rows ih =>
    rw [List.range_succ, List.flatMap_append, ih, Nat.succ_mul, List.range_add, List.map_append,
      List.flatMap_singleton, List.map_map]
    congr 1
    apply List.map_congr_left
    intro c hc
    have hlt : c < b.columns := List.mem_range.mp hc
    dsimp only [Function.comp]
    rw [Nat.add_comm, Nat.add_mul_div_right _ _ (by omega), Nat.div_eq_of_lt hlt,
      Nat.add_mul_mod_self_right, Nat.mod_eq_of_lt hlt, Nat.zero_add]

def updateCode (b : Layout) (scan : Scan) (kpd : Keypad) (code : ℕ) : Keypad :=
  updateButton b scan kpd (code / b.columns, code % b.columns)

theorem updateList_eq (b : Layout) (kpd : Keypad) (scan : Scan) :
    kpd.updateList b scan =
      run (updateCode b scan) kpd.deleteIdle (List.range (b.rows * b.columns)) := by
  unfold updateList
  rw [places_eq, List.foldl_map]
  rfl

theorem updateCode_eq (b : Layout) (scan : Scan) (kpd : Keypad) (code : ℕ) :
    kpd.updateCode b scan code =
      match kpd.findInList code with
      | some idx => kpd.nextKeyState b idx (closed b scan code) (scan.during code)
      | none =>
        if closed b scan code then
          match kpd.emptySlot with
          | some i =>
            let added := { kpd.key i with
              kchar := b.keymap code
              kcode := code
              kstate := .IDLE }
            ({ kpd with key := Function.update kpd.key i added } : Keypad).nextKeyState b i
              (closed b scan code) (scan.during code)
          | none => kpd
        else kpd := by
  unfold updateCode updateButton closed
  dsimp only
  rewrite [Nat.div_add_mod']
  rfl

theorem kcode_of_findInList {kpd : Keypad} {code : ℕ} {i : Fin LIST_MAX}
    (h : kpd.findInList code = some i) : (kpd.key i).kcode = code := by
  have hi := List.find?_some h
  exact of_decide_eq_true hi

theorem kcode_ne_of_findInList {kpd : Keypad} {code : ℕ} (h : kpd.findInList code = none)
    (i : Fin LIST_MAX) : (kpd.key i).kcode ≠ code := by
  have hi := List.find?_eq_none.mp h i (List.mem_finRange i)
  simpa using hi

theorem kchar_of_emptySlot {kpd : Keypad} {i : Fin LIST_MAX} (h : kpd.emptySlot = some i) :
    (kpd.key i).kchar = NO_KEY := by
  have hi := List.find?_some h
  exact of_decide_eq_true hi

theorem kchar_ne_of_emptySlot {kpd : Keypad} (h : kpd.emptySlot = none) (i : Fin LIST_MAX) :
    (kpd.key i).kchar ≠ NO_KEY := by
  have hi := List.find?_eq_none.mp h i (List.mem_finRange i)
  simpa using hi

theorem emptySlot_of_kchar {kpd : Keypad} (h : (kpd.key 0).kchar = NO_KEY) :
    kpd.emptySlot = some 0 := by
  unfold emptySlot
  rw [List.finRange_succ, List.find?_cons_of_pos (by simpa using h)]

theorem deleteIdle_key (kpd : Keypad) (i : Fin LIST_MAX) :
    kpd.deleteIdle.key i = if (kpd.key i).kstate = .IDLE then vacant else kpd.key i := by
  unfold deleteIdle
  dsimp only
  split_ifs with h
  · unfold vacant
    rw [h]
  · rfl

/-- Every slot in use holds a button of its own, with the button's character. -/
structure Sound (b : Layout) (kpd : Keypad) : Prop where
  button : ∀ i, (kpd.key i).kstate ≠ .IDLE →
    ∃ code < b.rows * b.columns, (kpd.key i).kcode = code ∧ (kpd.key i).kchar = b.keymap code
  distinct : ∀ i j, (kpd.key i).kstate ≠ .IDLE → (kpd.key j).kstate ≠ .IDLE →
    (kpd.key i).kcode = (kpd.key j).kcode → i = j

theorem sound_boot (b : Layout) : Sound b boot where
  button _ h := absurd rfl h
  distinct _ _ h := absurd rfl h

def Tracked (kpd : Keypad) (code : ℕ) : Prop :=
  ∃ i, (kpd.key i).kstate ≠ .IDLE ∧ (kpd.key i).kcode = code

instance (kpd : Keypad) (code : ℕ) : Decidable (Tracked kpd code) :=
  inferInstanceAs (Decidable (∃ _, _))

/-- The first of the codes below a bound whose button is closed and not on the list. -/
def firstNew (b : Layout) (scan : Scan) (kpd : Keypad) (bound : ℕ) : Option ℕ :=
  (List.range bound).find? fun code => closed b scan code ∧ ¬ kpd.Tracked code

theorem firstNew_succ (b : Layout) (scan : Scan) (kpd : Keypad) (bound : ℕ) :
    kpd.firstNew b scan (bound + 1) =
      (kpd.firstNew b scan bound).or
        (if closed b scan bound ∧ ¬ kpd.Tracked bound then some bound else none) := by
  unfold firstNew
  rw [List.range_succ, List.find?_append, List.find?_singleton]
  simp only [decide_eq_true_eq]

/-- The list after the buttons below a code, against the list before them: every key that was
on the list has taken one step if its turn has come, and the vacant slots are still vacant or
hold one of the new buttons. The first slot takes the first of them. -/
structure Processed (b : Layout) (scan : Scan) (old : Keypad) (bound : ℕ) (kpd : Keypad) :
    Prop where
  earlier : ∀ i, ∀ code < bound, (old.key i).kcode = code →
    ∃ holdTimer now,
      kpd.key i = (nextKey b.holdTime holdTimer now (old.key i) (closed b scan code)).1
  later : ∀ i, ∀ code ≥ bound, (old.key i).kcode = (code : ℕ) → kpd.key i = old.key i
  filled : ∀ i, old.key i = vacant → kpd.key i = vacant ∨
    ∃ code < bound, closed b scan code ∧ ¬ old.Tracked code ∧ kpd.key i = pressed b code
  distinct : ∀ i j (code : ℕ), (kpd.key i).kcode = code → (kpd.key j).kcode = code → i = j
  first : old.key 0 = vacant →
    kpd.key 0 = ((old.firstNew b scan bound).map (pressed b)).getD vacant

/-- A list without idle keys: every slot is vacant or holds a button. -/
structure Cleared (b : Layout) (kpd : Keypad) : Prop extends Sound b kpd where
  vacant_of_idle : ∀ i, (kpd.key i).kstate = .IDLE → kpd.key i = vacant

theorem Sound.deleteIdle {b : Layout} {kpd : Keypad} (h : Sound b kpd) :
    Cleared b kpd.deleteIdle := by
  have hused : ∀ i, (kpd.deleteIdle.key i).kstate ≠ .IDLE →
      (kpd.key i).kstate ≠ .IDLE ∧ kpd.deleteIdle.key i = kpd.key i := by
    intro i hi
    rw [deleteIdle_key] at hi ⊢
    by_cases hidle : (kpd.key i).kstate = .IDLE
    · rw [if_pos hidle] at hi
      exact absurd rfl hi
    · exact ⟨hidle, if_neg hidle⟩
  refine ⟨⟨?_, ?_⟩, ?_⟩
  · intro i hi
    obtain ⟨hidle, heq⟩ := hused i hi
    rw [heq]
    exact h.button i hidle
  · intro i j hi hj hcode
    obtain ⟨hidle, heq⟩ := hused i hi
    obtain ⟨hidle', heq'⟩ := hused j hj
    rw [heq, heq'] at hcode
    exact h.distinct i j hidle hidle' hcode
  · intro i hi
    rw [deleteIdle_key] at hi ⊢
    by_cases hidle : (kpd.key i).kstate = .IDLE
    · exact if_pos hidle
    · rw [if_neg hidle] at hi
      exact absurd hi hidle

theorem vacant_kcode_ne (code : ℕ) : vacant.kcode ≠ code := by
  unfold vacant
  dsimp only
  omega

theorem Cleared.used {b : Layout} {kpd : Keypad} (h : Cleared b kpd) {i : Fin LIST_MAX}
    {code : ℕ} (hcode : (kpd.key i).kcode = code) : (kpd.key i).kstate ≠ .IDLE := by
  intro hidle
  rw [h.vacant_of_idle i hidle] at hcode
  exact vacant_kcode_ne code hcode

theorem Processed.start {b : Layout} {scan : Scan} {old : Keypad} (h : Cleared b old) :
    Processed b scan old 0 old where
  earlier _ _ hlt := absurd hlt (Nat.not_lt_zero _)
  later _ _ _ _ := rfl
  filled _ hi := Or.inl hi
  distinct i j _ hi hj := h.distinct i j (h.used hi) (h.used hj) (hi.trans hj.symm)
  first h0 := h0

section step

variable {b : Layout} {scan : Scan} {old kpd : Keypad} {bound : ℕ}

theorem Processed.unchanged (h : Processed b scan old bound kpd) (hold : Cleared b old)
    {i : Fin LIST_MAX} (hcode : (kpd.key i).kcode = bound) :
    kpd.key i = old.key i ∧ (old.key i).kcode = bound := by
  by_cases hidle : (old.key i).kstate = .IDLE
  · rcases h.filled i (hold.vacant_of_idle i hidle) with hi | ⟨code, hlt, -, -, hi⟩
    · rw [hi] at hcode
      exact absurd hcode (vacant_kcode_ne bound)
    · rw [hi] at hcode
      have hbound : (code : ℤ) = bound := hcode
      omega
  · obtain ⟨code, -, hold_code, -⟩ := hold.button i hidle
    by_cases hlt : code < bound
    · obtain ⟨holdTimer, now, hi⟩ := h.earlier i code hlt hold_code
      rw [hi, nextKey_kcode, hold_code] at hcode
      omega
    · have hi := h.later i code (by omega) hold_code
      exact ⟨hi, hi ▸ hcode⟩

theorem Processed.vacant_of_kchar (h : Processed b scan old bound kpd) (hold : Cleared b old)
    (hbound : bound < b.rows * b.columns) {i : Fin LIST_MAX} (hchar : (kpd.key i).kchar = NO_KEY) :
    kpd.key i = vacant ∧ old.key i = vacant := by
  by_cases hidle : (old.key i).kstate = .IDLE
  · have hvacant := hold.vacant_of_idle i hidle
    rcases h.filled i hvacant with hi | ⟨code, hlt, -, -, hi⟩
    · exact ⟨hi, hvacant⟩
    · rw [hi] at hchar
      exact absurd hchar (b.keymap_ne code (by omega))
  · obtain ⟨code, hcode_lt, hold_code, hold_char⟩ := hold.button i hidle
    have hkchar : (kpd.key i).kchar = b.keymap code := by
      by_cases hlt : code < bound
      · obtain ⟨holdTimer, now, hi⟩ := h.earlier i code hlt hold_code
        rw [hi, nextKey_kchar, hold_char]
      · rw [h.later i code (by omega) hold_code, hold_char]
    exact absurd (hkchar.symm.trans hchar) (b.keymap_ne code hcode_lt)

theorem Processed.next_tracked (h : Processed b scan old bound kpd) (hold : Cleared b old)
    {idx : Fin LIST_MAX} (hcode : (kpd.key idx).kcode = bound) (now : ℕ) :
    Processed b scan old (bound + 1) (kpd.nextKeyState b idx (closed b scan bound) now) := by
  obtain ⟨hkey, hold_code⟩ := h.unchanged hold hcode
  have htracked : old.Tracked bound := ⟨idx, hold.used hold_code, hold_code⟩
  have hself : (kpd.nextKeyState b idx (closed b scan bound) now).key idx =
      (nextKey b.holdTime kpd.holdTimer now (kpd.key idx) (closed b scan bound)).1 :=
    Function.update_self ..
  have hother : ∀ i ≠ idx,
      (kpd.nextKeyState b idx (closed b scan bound) now).key i = kpd.key i :=
    fun i hi => Function.update_of_ne hi ..
  have hkcode : ∀ i, ((kpd.nextKeyState b idx (closed b scan bound) now).key i).kcode =
      (kpd.key i).kcode := by
    intro i
    by_cases hi : i = idx
    · rw [hi, hself, nextKey_kcode]
    · rw [hother i hi]
  refine ⟨?_, ?_, ?_, ?_, ?_⟩
  · intro i code hlt hi
    by_cases hidx : i = idx
    · rw [hidx, hold_code] at hi
      rw [hidx, hself, hkey, ← Int.ofNat_inj.mp hi]
      exact ⟨_, _, rfl⟩
    · rw [hother i hidx]
      have hne : code ≠ bound := by
        rintro rfl
        exact hidx (hold.distinct i idx (hold.used hi) (hold.used hold_code)
          (hi.trans hold_code.symm))
      exact h.earlier i code (by omega) hi
  · intro i code hge hi
    have hidx : i ≠ idx := by
      rintro rfl
      rw [hold_code] at hi
      omega
    rw [hother i hidx]
    exact h.later i code (by omega) hi
  · intro i hi
    have hidx : i ≠ idx := by
      rintro rfl
      rw [hi] at hold_code
      exact vacant_kcode_ne bound hold_code
    rw [hother i hidx]
    rcases h.filled i hi with hv | ⟨code, hlt, hrest⟩
    · exact Or.inl hv
    · exact Or.inr ⟨code, by omega, hrest⟩
  · intro i j code hi hj
    rw [hkcode] at hi hj
    exact h.distinct i j code hi hj
  · intro h0
    have hidx : 0 ≠ idx := by
      rintro rfl
      rw [h0] at hold_code
      exact vacant_kcode_ne bound hold_code
    rw [hother 0 hidx, h.first h0, firstNew_succ, if_neg fun hnew => hnew.2 htracked,
      Option.or_none]

/-- A turn that leaves the list as it is: the button is not on it and is open, or no slot is
empty. -/
theorem Processed.next_same (h : Processed b scan old bound kpd)
    (hnone : kpd.findInList bound = none)
    (hfirst : closed b scan bound = false ∨ (kpd.key 0) ≠ vacant) :
    Processed b scan old (bound + 1) kpd := by
  refine ⟨?_, ?_, ?_, h.distinct, ?_⟩
  · intro i code hlt hi
    have hne : code ≠ bound := by
      rintro rfl
      have hkey := h.later i code (le_refl _) hi
      exact kcode_ne_of_findInList hnone i (hkey ▸ hi)
    exact h.earlier i code (by omega) hi
  · intro i code hge hi
    exact h.later i code (by omega) hi
  · intro i hi
    rcases h.filled i hi with hv | ⟨code, hlt, hrest⟩
    · exact Or.inl hv
    · exact Or.inr ⟨code, by omega, hrest⟩
  · intro h0
    rw [firstNew_succ, h.first h0]
    rcases hfirst with hopen | hkey
    · rw [if_neg fun hnew => by simp [hopen] at hnew, Option.or_none]
    · rw [h.first h0] at hkey
      cases hfirst : old.firstNew b scan bound with
      | none => rw [hfirst] at hkey; exact absurd rfl hkey
      | some code => rfl

theorem Processed.next_added (h : Processed b scan old bound kpd) (hold : Cleared b old)
    (hbound : bound < b.rows * b.columns) (hnone : kpd.findInList bound = none)
    (hclosed : closed b scan bound = true) {slot : Fin LIST_MAX}
    (hslot : kpd.emptySlot = some slot) (holdTimer : BitVec 32) :
    Processed b scan old (bound + 1)
      { kpd with
        key := Function.update kpd.key slot (pressed b bound)
        holdTimer := holdTimer } := by
  obtain ⟨hvacant, hold_vacant⟩ := h.vacant_of_kchar hold hbound (kchar_of_emptySlot hslot)
  have hnew : ¬ old.Tracked bound := by
    rintro ⟨i, -, hi⟩
    have hkey := h.later i bound (le_refl _) hi
    exact kcode_ne_of_findInList hnone i (hkey ▸ hi)
  have hne_slot : ∀ i (code : ℕ), (old.key i).kcode = code → i ≠ slot := by
    rintro i code hi rfl
    rw [hold_vacant] at hi
    exact vacant_kcode_ne code hi
  refine ⟨?_, ?_, ?_, ?_, ?_⟩
  · intro i code hlt hi
    have hne : code ≠ bound := by
      rintro rfl
      exact hnew ⟨i, hold.used hi, hi⟩
    dsimp only
    rw [Function.update_of_ne (hne_slot i code hi)]
    exact h.earlier i code (by omega) hi
  · intro i code hge hi
    dsimp only
    rw [Function.update_of_ne (hne_slot i code hi)]
    exact h.later i code (by omega) hi
  · intro i hi
    dsimp only
    by_cases hidx : i = slot
    · rw [hidx, Function.update_self]
      exact Or.inr ⟨bound, by omega, hclosed, hnew, rfl⟩
    · rw [Function.update_of_ne hidx]
      rcases h.filled i hi with hv | ⟨code, hlt, hrest⟩
      · exact Or.inl hv
      · exact Or.inr ⟨code, by omega, hrest⟩
  · intro i j code hi hj
    dsimp only at hi hj
    by_cases hidx : i = slot <;> by_cases hjdx : j = slot
    · exact hidx.trans hjdx.symm
    · rw [hidx, Function.update_self] at hi
      rw [Function.update_of_ne hjdx] at hj
      exact absurd (hj.trans hi.symm) (kcode_ne_of_findInList hnone j)
    · rw [Function.update_of_ne hidx] at hi
      rw [hjdx, Function.update_self] at hj
      exact absurd (hi.trans hj.symm) (kcode_ne_of_findInList hnone i)
    · rw [Function.update_of_ne hidx] at hi
      rw [Function.update_of_ne hjdx] at hj
      exact h.distinct i j code hi hj
  · intro h0
    dsimp only
    rw [firstNew_succ, if_pos ⟨hclosed, hnew⟩]
    by_cases hidx : 0 = slot
    · rw [← hidx] at hvacant ⊢
      rw [Function.update_self]
      rw [h.first h0] at hvacant
      cases hfirst : old.firstNew b scan bound with
      | none => rfl
      | some code =>
        rw [hfirst] at hvacant
        have hstate : KeyState.PRESSED = .IDLE := congrArg Key.kstate hvacant
        cases hstate
    · rw [Function.update_of_ne hidx, h.first h0]
      cases hfirst : old.firstNew b scan bound with
      | none =>
        have hkchar : (kpd.key 0).kchar = NO_KEY := by
          rw [h.first h0, hfirst]
          rfl
        rw [emptySlot_of_kchar hkchar] at hslot
        exact absurd (Option.some.inj hslot) hidx
      | some code => rfl

theorem Processed.next (h : Processed b scan old bound kpd) (hold : Cleared b old)
    (hbound : bound < b.rows * b.columns) :
    Processed b scan old (bound + 1) (kpd.updateCode b scan bound) := by
  rw [updateCode_eq]
  cases hfind : kpd.findInList bound with
  | some idx => exact h.next_tracked hold (kcode_of_findInList hfind) _
  | none =>
    dsimp only
    by_cases hclosed : closed b scan bound = true
    · rw [if_pos hclosed]
      cases hslot : kpd.emptySlot with
      | none =>
        refine h.next_same hfind (Or.inr fun hkey => ?_)
        exact kchar_ne_of_emptySlot hslot 0 (congrArg Key.kchar hkey)
      | some slot =>
        have hadded := h.next_added hold hbound hfind hclosed hslot (millis (scan.during bound))
        unfold nextKeyState
        dsimp only
        rw [Function.update_self, Function.update_idem, hclosed]
        exact hadded
    · rw [if_neg hclosed]
      exact h.next_same hfind (Or.inl (Bool.eq_false_iff.mpr hclosed))

end step

theorem processed_updateList {b : Layout} {kpd : Keypad} (h : Sound b kpd) (scan : Scan) :
    Processed b scan kpd.deleteIdle (b.rows * b.columns) (kpd.updateList b scan) := by
  rw [updateList_eq]
  apply run_range (P := Processed b scan kpd.deleteIdle)
  · exact .start h.deleteIdle
  · intro bound kpd' hbound hkpd
    exact hkpd.next h.deleteIdle hbound

end Keypad
end HomeMonitor.Matrix
