import HomeMonitor.Matrix.Presses

/-! Typing: what one button after the other gives back. -/
namespace HomeMonitor.Matrix
open HomeMonitor.Arduino HomeMonitor.Machine

/-- A scan that finds no button closed. -/
def AllOpen (b : Layout) (scan : Scan) : Prop :=
  ∀ code < b.rows * b.columns, closed b scan code = false

/-- A scan that finds a single button closed. -/
def Only (b : Layout) (code : ℕ) (scan : Scan) : Prop :=
  ∀ code' < b.rows * b.columns, closed b scan code' = decide (code' = code)

/-- The scans of a text that is typed: each button is seen closed alone, as often as it may be,
and then at least three scans find all the buttons open before the next is closed. -/
inductive Typed (b : Layout) : List ℕ → List Scan → Prop
  | nil : Typed b [] []
  | quiet {text : List ℕ} {scan : Scan} {scans : List Scan} (up : AllOpen b scan)
    (rest : Typed b text scans) : Typed b text (scan :: scans)
  | stroke {text : List ℕ} {code : ℕ} {scan : Scan} {down up scans : List Scan}
    (button : code < b.rows * b.columns) (first : Only b code scan)
    (held : ∀ scan ∈ down, Only b code scan) (released : ∀ scan ∈ up, AllOpen b scan)
    (settled : 3 ≤ up.length) (rest : Typed b text scans) :
    Typed b (code :: text) (scan :: down ++ (up ++ scans))

/-- The scans a button that is open is away from being idle, at most. -/
def toIdle : KeyState → ℕ
  | .IDLE => 0
  | .RELEASED => 1
  | .HOLD => 2
  | .PRESSED => 3

theorem Next.toIdle_le {s s' : KeyState} (h : Next false s s') : toIdle s' ≤ toIdle s - 1 := by
  cases h <;> decide

theorem Next.idle {s' : KeyState} (h : Next false .IDLE s') : s' = .IDLE := by
  cases h
  rfl

namespace Tracker

def Idle (n : ℕ) (a : Tracker) : Prop := a.leader = none ∧ ∀ code < n, a.phase code = .IDLE

/-- No button but one is tracked, and this one is followed. -/
structure Follows (n : ℕ) (a : Tracker) (code : ℕ) : Prop where
  leader : a.leader = some code
  others : ∀ code' < n, code' ≠ code → a.phase code' = .IDLE

/-- A tracker that reaches idle in a number of scans without a button. -/
def Settles (n : ℕ) (code r : ℕ) (a : Tracker) : Prop :=
  a.Idle n ∨ a.Follows n code ∧ a.phase code ≠ .IDLE ∧ toIdle (a.phase code) ≤ r

section read

variable {b : Layout} {a a' : Tracker} {scan : Scan} {key : Char} {code : ℕ}

theorem report_eq_none_of_open (h : AllOpen b scan) :
    a.report (b.rows * b.columns) (closed b scan) = none := by
  cases hreport : a.report (b.rows * b.columns) (closed b scan) with
  | none => rfl
  | some code =>
    obtain ⟨-, hlt, hclosed, -⟩ := report_spec hreport
    rw [h code hlt] at hclosed
    cases hclosed

theorem Idle.read_open (ha : a.Idle (b.rows * b.columns)) (hscan : AllOpen b scan)
    (h : a.Read b (scan, key) a') : a'.Idle (b.rows * b.columns) ∧ key = NO_KEY := by
  obtain ⟨hstep, hkey⟩ := h
  have hreport := report_eq_none_of_open (a := a) hscan
  dsimp only at hstep hkey
  rw [hreport] at hkey
  refine ⟨⟨?_, ?_⟩, hkey⟩
  · rw [hstep.leader, ha.1, hreport]
    rfl
  · intro code hlt
    have hnext := hstep.next code hlt
    rw [hscan code hlt, ha.2 code hlt] at hnext
    exact hnext.idle

theorem Idle.read_only (ha : a.Idle (b.rows * b.columns)) (hcode : code < b.rows * b.columns)
    (hscan : Only b code scan) (h : a.Read b (scan, key) a') :
    a'.Follows (b.rows * b.columns) code ∧ a'.phase code = .PRESSED ∧ key = b.keymap code := by
  obtain ⟨hstep, hkey⟩ := h
  dsimp only at hstep hkey
  have hreport : a.report (b.rows * b.columns) (closed b scan) = some code := by
    cases hreport : a.report (b.rows * b.columns) (closed b scan) with
    | none =>
      unfold report at hreport
      rw [if_pos ha.1] at hreport
      have hnone := List.find?_eq_none.mp hreport code (List.mem_range.mpr hcode)
      refine absurd (decide_eq_true ⟨?_, ha.2 code hcode⟩) hnone
      rw [hscan code hcode]
      exact decide_eq_true rfl
    | some code' =>
      obtain ⟨-, hlt, hclosed, -⟩ := report_spec hreport
      rw [hscan code' hlt] at hclosed
      rw [of_decide_eq_true hclosed]
  rw [hreport] at hkey
  refine ⟨⟨?_, ?_⟩, hstep.pressed code hreport, hkey⟩
  · rw [hstep.leader, ha.1, hreport, Option.none_or, Option.filter_some_pos]
    simp [hstep.pressed code hreport]
  · intro code' hlt hne
    have hnext := hstep.next code' hlt
    rw [hscan code' hlt, decide_eq_false hne, ha.2 code' hlt] at hnext
    exact hnext.idle

/-- A scan of the button that is followed, closed or open, returns nothing. -/
theorem Follows.read (ha : a.Follows (b.rows * b.columns) code)
    (hcode : code < b.rows * b.columns)
    (hscan : ∀ code' < b.rows * b.columns, code' ≠ code → closed b scan code' = false)
    (h : a.Read b (scan, key) a') :
    key = NO_KEY ∧ Next (closed b scan code) (a.phase code) (a'.phase code) ∧
      if a'.phase code = .IDLE then a'.Idle (b.rows * b.columns)
      else a'.Follows (b.rows * b.columns) code := by
  obtain ⟨hstep, hkey⟩ := h
  dsimp only at hstep hkey
  have hreport : a.report (b.rows * b.columns) (closed b scan) = none :=
    report_of_leader ha.leader
  rw [hreport] at hkey
  have hothers : ∀ code' < b.rows * b.columns, code' ≠ code → a'.phase code' = .IDLE := by
    intro code' hlt hne
    have hnext := hstep.next code' hlt
    rw [hscan code' hlt hne, ha.others code' hlt hne] at hnext
    exact hnext.idle
  have hleader : a'.leader = (some code).filter fun code => a'.phase code ≠ .IDLE := by
    rw [hstep.leader, ha.leader, Option.some_or]
  refine ⟨hkey, hstep.next code hcode, ?_⟩
  split_ifs with hidle
  · refine ⟨?_, ?_⟩
    · rw [hleader, Option.filter_some_neg (by simpa using hidle)]
    · intro code' hlt
      by_cases hne : code' = code
      · rw [hne, hidle]
      · exact hothers code' hlt hne
  · refine ⟨?_, hothers⟩
    rw [hleader, Option.filter_some_pos (by simpa using hidle)]

end read

variable {b : Layout} {a a' : Tracker} {reads : List (Scan × Char)} {code : ℕ}

/-- While a button is held alone, it is followed and nothing is returned. -/
theorem held_of_trace (h : Trace (Tracker.Read b) a reads a') (hcode : code < b.rows * b.columns)
    (ha : a.Follows (b.rows * b.columns) code)
    (hdown : a.phase code = .PRESSED ∨ a.phase code = .HOLD)
    (hscans : ∀ read ∈ reads, Only b code read.1) :
    a'.Follows (b.rows * b.columns) code ∧ (a'.phase code = .PRESSED ∨ a'.phase code = .HOLD) ∧
      (reads.map Prod.snd).filter (· ≠ NO_KEY) = [] := by
  induction h with
  | nil a => exact ⟨ha, hdown, rfl⟩
  | @cons a a₁ a₂ read reads first rest ih =>
    have honly := hscans read (List.mem_cons_self ..)
    obtain ⟨hkey, hnext, hafter⟩ := ha.read hcode
      (fun code' hlt hne => by rw [honly code' hlt, decide_eq_false hne]) first
    rw [honly code hcode, decide_eq_true rfl] at hnext
    have hdown' := hnext.down hdown
    rw [if_neg (by rcases hdown' with hd | hd <;> simp [hd])] at hafter
    obtain ⟨hfollows, hdown'', hnone⟩ := ih hafter hdown' fun read hmem =>
      hscans read (List.mem_cons_of_mem _ hmem)
    refine ⟨hfollows, hdown'', ?_⟩
    rw [List.map_cons, hkey, List.filter_cons_of_neg (by simp)]
    exact hnone

/-- Without a button the tracker comes nearer to idle with every scan, and nothing is returned. -/
theorem settles_of_trace (h : Trace (Tracker.Read b) a reads a')
    (hcode : code < b.rows * b.columns) {r : ℕ} (ha : a.Settles (b.rows * b.columns) code r)
    (hscans : ∀ read ∈ reads, AllOpen b read.1) :
    a'.Settles (b.rows * b.columns) code (r - reads.length) ∧
      (reads.map Prod.snd).filter (· ≠ NO_KEY) = [] := by
  induction h generalizing r with
  | nil a => exact ⟨ha, rfl⟩
  | @cons a a₁ a₂ read reads first rest ih =>
    have hopen := hscans read (List.mem_cons_self ..)
    have hnow : read.2 = NO_KEY ∧ a₁.Settles (b.rows * b.columns) code (r - 1) := by
      rcases ha with hidle | ⟨hfollows, -, hr⟩
      · obtain ⟨hidle', hkey⟩ := hidle.read_open hopen first
        exact ⟨hkey, Or.inl hidle'⟩
      · obtain ⟨hkey, hnext, hafter⟩ := hfollows.read hcode
          (fun code' hlt _ => hopen code' hlt) first
        rw [hopen code hcode] at hnext
        have hnearer := hnext.toIdle_le
        refine ⟨hkey, ?_⟩
        split_ifs at hafter with hidle
        · exact Or.inl hafter
        · exact Or.inr ⟨hafter, hidle, by omega⟩
    obtain ⟨hsettles, hnone⟩ := ih hnow.2 fun read hmem => hscans read (List.mem_cons_of_mem _ hmem)
    refine ⟨?_, ?_⟩
    · rw [List.length_cons, Nat.add_comm, ← Nat.sub_sub]
      exact hsettles
    · rw [List.map_cons, hnow.1, List.filter_cons_of_neg (by simp)]
      exact hnone

theorem Settles.idle {n : ℕ} (h : a.Settles n code 0) : a.Idle n := by
  rcases h with hidle | ⟨-, hphase, hr⟩
  · exact hidle
  · cases hstate : a.phase code with
    | IDLE => exact absurd hstate hphase
    | _ => rw [hstate] at hr; exact absurd hr (by decide)

/-- From idle, the scans of a typed text return the text and lead back to idle. -/
theorem typed_of_trace {text : List ℕ} {scans : List Scan} (htyped : Typed b text scans)
    (h : Trace (Tracker.Read b) a reads a') (hscans : reads.map Prod.fst = scans)
    (ha : a.Idle (b.rows * b.columns)) :
    (reads.map Prod.snd).filter (· ≠ NO_KEY) = text.map b.keymap ∧
      a'.Idle (b.rows * b.columns) := by
  induction htyped generalizing a reads with
  | nil =>
    rw [List.map_eq_nil_iff.mp hscans] at h ⊢
    cases h
    exact ⟨rfl, ha⟩
  | quiet hopen _ ih =>
    obtain ⟨read, rest, rfl, rfl, hrest⟩ := List.map_eq_cons_iff.mp hscans
    cases h with
    | cons first htail =>
      obtain ⟨ha₁, hkey⟩ := ha.read_open hopen first
      obtain ⟨htext, ha'⟩ := ih htail hrest ha₁
      rw [List.map_cons, hkey, List.filter_cons_of_neg (by simp)]
      exact ⟨htext, ha'⟩
  | @stroke text code scan down up scans hcode hfirst hdown hup hsettled _ ih =>
    obtain ⟨pressing, rest, rfl, hpressing, hrest⟩ := List.map_eq_append_iff.mp hscans
    obtain ⟨releasing, rest, rfl, hreleasing, hrest⟩ := List.map_eq_append_iff.mp hrest
    obtain ⟨read, holding, rfl, rfl, hholding⟩ := List.map_eq_cons_iff.mp hpressing
    obtain ⟨a₁, hpress, h⟩ := h.exists_of_append
    obtain ⟨a₂, hrelease, h⟩ := h.exists_of_append
    cases hpress with
    | cons first hhold =>
      obtain ⟨hfollows, hpressed, hkey⟩ := ha.read_only hcode hfirst first
      have honly : ∀ read ∈ holding, Only b code read.1 :=
        fun read hmem => hdown _ (hholding ▸ List.mem_map_of_mem hmem)
      obtain ⟨hfollows', hdown', hnone⟩ :=
        held_of_trace hhold hcode hfollows (Or.inl hpressed) honly
      have hsettles : a₁.Settles (b.rows * b.columns) code 3 := by
        refine Or.inr ⟨hfollows', ?_, ?_⟩
        · rcases hdown' with hd | hd <;> simp [hd]
        · rcases hdown' with hd | hd <;> rw [hd] <;> decide
      have hopen : ∀ read ∈ releasing, AllOpen b read.1 :=
        fun read hmem => hup _ (hreleasing ▸ List.mem_map_of_mem hmem)
      obtain ⟨hsettles', hnone'⟩ := settles_of_trace hrelease hcode hsettles hopen
      have hlength : 3 - releasing.length = 0 := by
        rw [← hreleasing, List.length_map] at hsettled
        omega
      rw [hlength] at hsettles'
      obtain ⟨htext, ha'⟩ := ih h hrest hsettles'.idle
      refine ⟨?_, ha'⟩
      rw [List.map_append, List.map_append, List.filter_append, List.filter_append, List.map_cons,
        List.filter_cons_of_pos (by rw [hkey]; simpa using b.keymap_ne code hcode), hnone, hnone',
        htext, hkey]
      rfl

end Tracker

def Keypad.Released (kpd : Keypad) : Prop := ∀ i, (kpd.key i).kstate = .IDLE

theorem Keypad.released_boot : boot.Released := fun _ => rfl

theorem Keypad.Released.sound {kpd : Keypad} (h : kpd.Released) (b : Layout) : kpd.Sound b where
  button i hi := absurd (h i) hi
  distinct i _ hi _ _ := absurd (h i) hi

theorem Keypad.Released.idle {kpd : Keypad} (h : kpd.Released) (n : ℕ) : kpd.tracker.Idle n := by
  refine ⟨if_pos (h 0), fun code _ => ?_⟩
  apply phase_eq_idle
  rintro ⟨i, hi, -⟩
  exact hi (h i)

theorem Keypad.released_of_idle {b : Layout} {kpd : Keypad} (h : kpd.Sound b)
    (hidle : kpd.tracker.Idle (b.rows * b.columns)) : kpd.Released := by
  intro i
  by_contra hi
  obtain ⟨code, hlt, hcode, -⟩ := h.button i hi
  exact (phase_ne_idle_iff h code).mpr ⟨i, hi, hcode⟩ (hidle.2 code hlt)

/-- Typing comes back as it was typed: whatever the times of the calls, if the scans are those
of a typed text then the keys that are returned are the characters of its buttons, each once and
in order, and the list of keys is left empty. -/
theorem returned_of_typed {b : Layout} {kpd : Keypad} (h : kpd.Released) {text : List ℕ}
    {scans : List Scan} (htyped : Typed b text ((kpd.reads b scans).map Prod.fst)) :
    (outputs (Keypad.getKey b) kpd scans).filter (· ≠ NO_KEY) = text.map b.keymap ∧
      (kpd.after b scans).Released := by
  obtain ⟨htrace, hsound⟩ := Keypad.trace_reads (h.sound b) scans
  obtain ⟨htext, hidle⟩ := Tracker.typed_of_trace htyped htrace rfl (h.idle _)
  refine ⟨?_, Keypad.released_of_idle hsound hidle⟩
  rw [returned_eq]
  exact htext

/-- A scan at a time that finds the buttons with a property closed. -/
def scanAt (b : Layout) (now : ℕ) (down : ℕ → Bool) : Scan where
  check := now
  during _ := now
  finish := now
  bitMap r c := down (r * b.columns + c)

/-- The scans of a text at full speed: each button is seen closed once. -/
def strokes (b : Layout) : ℕ → List ℕ → List Scan
  | _, [] => []
  | now, code :: text =>
    scanAt b now (· = code) :: [] ++
      ([scanAt b (now + 20) fun _ => false, scanAt b (now + 40) fun _ => false,
        scanAt b (now + 60) fun _ => false] ++ strokes b (now + 80) text)

theorem typed_strokes (b : Layout) (now : ℕ) {text : List ℕ}
    (h : ∀ code ∈ text, code < b.rows * b.columns) : Typed b text (strokes b now text) := by
  have hup : ∀ now, AllOpen b (scanAt b now fun _ => false) := fun _ _ _ => rfl
  induction text generalizing now with
  | nil => exact .nil
  | cons code text ih =>
    refine .stroke (h code (List.mem_cons_self ..)) ?_ (by simp) ?_ (le_refl 3)
      (ih (now + 80) fun code' hmem => h code' (List.mem_cons_of_mem _ hmem))
    · intro code' _
      unfold closed scanAt
      dsimp only
      rw [Nat.div_add_mod']
    · intro scan hscan
      simp only [List.mem_cons, List.not_mem_nil, or_false] at hscan
      rcases hscan with rfl | rfl | rfl
      · exact hup _
      · exact hup _
      · exact hup _

end HomeMonitor.Matrix
