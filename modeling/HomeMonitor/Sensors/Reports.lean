import HomeMonitor.Machine.Run
import HomeMonitor.Sketch.Sensors
import Mathlib.Data.List.Chain

/-! The reports of the sensor loops in true time: the limiter is exact although its
counter turns over. -/
namespace HomeMonitor.Sensors
open HomeMonitor.Arduino HomeMonitor.Machine

section Limiter

variable {ε : Type*} (loop : BitVec 32 → ε → BitVec 32 × HostResult) (attempt : ε → Attempt)

def iterate (previousRequest : BitVec 32) (e : ε) : BitVec 32 := (loop previousRequest e).1

/-- The iteration passes the limiter, whether or not the server is reached then. -/
def Admitted (previousRequest : BitVec 32) (e : ε) : Prop :=
  (loop previousRequest e).2 ≠ .suppressed

instance (previousRequest : BitVec 32) (e : ε) : Decidable (Admitted loop previousRequest e) :=
  inferInstanceAs (Decidable (_ ≠ _))

/-- The true time recorded by the last admitted iteration of a run, zero before the first. -/
def recorded (es : List ε) : ℕ :=
  (es.foldl
    (fun s e =>
      (iterate loop s.1 e, if Admitted loop s.1 e then (attempt e).record else s.2))
    ((0 : BitVec 32), 0)).2

/-- The iterations take place in true time: the counter is checked for the first time before
it turns over, it is recorded between the check and the next one, and successive checks are
less than a turn of the counter and a window apart. -/
structure Timely (attempts : List Attempt) : Prop where
  first : ∀ a, attempts.head? = some a → a.check < 2 ^ 32
  record : ∀ a ∈ attempts, a.check ≤ a.record
  next : attempts.IsChain fun a b => a.record ≤ b.check ∧ b.check < a.check + (2 ^ 32 - 1000)

/-- An iteration is admitted exactly when more than a second of true time has passed since
the recorded time, so that recorded times are more than a second apart. -/
structure ExactReports (es : List ε) : Prop where
  admitted_iff : ∀ before e after, es = before ++ e :: after →
    (Admitted loop (run (iterate loop) 0 before) e ↔
      recorded loop attempt before + 1000 < (attempt e).check)
  apart : ∀ before e between e' after, es = before ++ e :: (between ++ e' :: after) →
    Admitted loop (run (iterate loop) 0 before) e →
    Admitted loop (run (iterate loop) 0 (before ++ e :: between)) e' →
    (attempt e).record + 1000 < (attempt e').record

theorem recorded_concat (es : List ε) (e : ε) :
    recorded loop attempt (es ++ [e]) =
      if Admitted loop (run (iterate loop) 0 es) e then (attempt e).record
      else recorded loop attempt es := by
  have hrun : (es.foldl
      (fun s e =>
        (iterate loop s.1 e, if Admitted loop s.1 e then (attempt e).record else s.2))
      ((0 : BitVec 32), 0)).1 = run (iterate loop) 0 es := by
    induction es using List.reverseRecOn with
    | nil => rfl
    | append_singleton es d ih => rw [List.foldl_concat, run_append, ih]; rfl
  unfold recorded
  rw [List.foldl_concat, hrun]

variable {loop attempt} {text : ε → Str}
  (hloop : ∀ previousRequest e, loop previousRequest e =
    limited previousRequest (text e) (attempt e))

theorem Timely.of_append {as bs : List Attempt} (h : Timely (as ++ bs)) : Timely as where
  first a ha := h.first a (by rw [List.head?_append, ha]; rfl)
  record a ha := h.record a (List.mem_append_left bs ha)
  next := h.next.left_of_append

include hloop

theorem admitted_iff_window (last : ℕ) (e : ε) :
    Admitted loop (BitVec.ofNat 32 last) e ↔ WindowOpen last (attempt e).check := by
  unfold Admitted
  rw [hloop, limited_eq]
  split_ifs <;> simp_all

theorem iterate_eq (last : ℕ) (e : ε) :
    iterate loop (BitVec.ofNat 32 last) e =
      BitVec.ofNat 32 (if WindowOpen last (attempt e).check then (attempt e).record else last) := by
  unfold iterate
  rw [hloop, limited_eq]
  split_ifs <;> rfl

theorem run_eq (es : List ε) :
    run (iterate loop) 0 es = BitVec.ofNat 32 (recorded loop attempt es) := by
  induction es using List.reverseRecOn with
  | nil => rfl
  | append_singleton es e ih =>
    rw [run_append, run_cons, run_nil, recorded_concat, ih, iterate_eq hloop]
    simp only [admitted_iff_window hloop]

theorem recorded_concat_window (es : List ε) (e : ε) :
    recorded loop attempt (es ++ [e]) =
      if WindowOpen (recorded loop attempt es) (attempt e).check then (attempt e).record
      else recorded loop attempt es := by
  rw [recorded_concat]
  simp only [run_eq hloop, admitted_iff_window hloop]

/-- The recorded time is not after the next check and less than a turn of the counter
before it. -/
theorem recorded_bounds {es : List ε} {e : ε} (h : Timely ((es ++ [e]).map attempt)) :
    recorded loop attempt es ≤ (attempt e).check ∧
      (attempt e).check < recorded loop attempt es + 2 ^ 32 := by
  induction es using List.reverseRecOn generalizing e with
  | nil =>
    have hfirst := h.first (attempt e) rfl
    exact ⟨Nat.zero_le _, by simpa [recorded] using hfirst⟩
  | append_singleton es d ih =>
    have hbegin : Timely ((es ++ [d]).map attempt) := by
      rw [List.map_append] at h
      exact h.of_append
    obtain ⟨hle, hlt⟩ := ih hbegin
    have hrecord := h.record (attempt d) (by simp)
    have hnext := h.next
    simp only [List.map_append, List.map_cons, List.map_nil, List.append_assoc,
      List.singleton_append, List.isChain_append_cons_cons] at hnext
    obtain ⟨-, ⟨horder, hspaced⟩, -⟩ := hnext
    rw [recorded_concat_window hloop]
    by_cases hopen : WindowOpen (recorded loop attempt es) (attempt d).check
    · rw [if_pos hopen]
      omega
    · -- a closed window leaves the recorded time at most a second before the check
      rw [if_neg hopen]
      unfold WindowOpen at hopen
      omega

/-- The window is open exactly when more than a second of true time has passed. -/
theorem admitted_iff {es : List ε} {e : ε} (h : Timely ((es ++ [e]).map attempt)) :
    Admitted loop (run (iterate loop) 0 es) e ↔
      recorded loop attempt es + 1000 < (attempt e).check := by
  obtain ⟨hle, hlt⟩ := recorded_bounds hloop h
  rw [run_eq hloop, admitted_iff_window hloop]
  unfold WindowOpen
  omega

theorem recorded_mono {es es' : List ε} (h : Timely ((es ++ es').map attempt)) :
    recorded loop attempt es ≤ recorded loop attempt (es ++ es') := by
  induction es' using List.reverseRecOn with
  | nil => rw [List.append_nil]
  | append_singleton es' d ih =>
    rw [← List.append_assoc] at h ⊢
    have hbegin : Timely ((es ++ es').map attempt) := by
      rw [List.map_append] at h
      exact h.of_append
    have hbefore := (recorded_bounds hloop h).1
    have hrecord := h.record (attempt d) (by simp)
    have hmono := ih hbegin
    rw [recorded_concat]
    split_ifs <;> omega

theorem exactReports {es : List ε} (h : Timely (es.map attempt)) :
    ExactReports loop attempt es := by
  have hbegin : ∀ before e after, es = before ++ e :: after →
      Timely ((before ++ [e]).map attempt) := by
    rintro before e after rfl
    rw [← List.singleton_append, ← List.append_assoc, List.map_append] at h
    exact h.of_append
  constructor
  · intro before e after hsplit
    exact admitted_iff hloop (hbegin before e after hsplit)
  · intro before e between e' after hsplit hfirst hsecond
    have htime := hbegin (before ++ e :: between) e' after (by rw [hsplit]; simp)
    have hdue := (admitted_iff hloop htime).mp hsecond
    have hrecord := htime.record (attempt e') (by simp)
    have hlast : recorded loop attempt (before ++ [e]) = (attempt e).record := by
      rw [recorded_concat, if_pos hfirst]
    have hassoc : before ++ e :: between = before ++ [e] ++ between := by simp
    rw [hassoc] at hdue htime
    rw [List.map_append] at htime
    have hmono := recorded_mono hloop htime.of_append
    omega

end Limiter

variable {F : Type*}

/-- What the proximity sketch reports for the level of its sensor pin. -/
def motionMessage (high : Bool) : Str :=
  if high then "detected".toList else "not detected".toList

theorem proximity_loop_eq (previousRequest : BitVec 32) (high : Bool) (a : Attempt) :
    Proximity.loop previousRequest high a =
      limited previousRequest (Proximity.requestText (motionMessage high)) a := by
  unfold Proximity.loop Proximity.requestHost motionMessage
  split_ifs <;> rfl

/-- The reports of the temperature sketch and of the proximity sketch are exact, whatever the
sensors read and whether or not the server is reached. -/
theorem reports_exact (fl : FloatLib F) :
    (∀ es : List (TemperatureNode.Reading F × Attempt), Timely (es.map Prod.snd) →
      ExactReports (fun previousRequest e => TemperatureNode.loop fl previousRequest e.1 e.2)
        Prod.snd es) ∧
    ∀ es : List (Bool × Attempt), Timely (es.map Prod.snd) →
      ExactReports (fun previousRequest e => Proximity.loop previousRequest e.1 e.2)
        Prod.snd es := by
  constructor
  · intro es h
    have hloop : ∀ previousRequest (e : TemperatureNode.Reading F × Attempt),
        TemperatureNode.loop fl previousRequest e.1 e.2 =
          limited previousRequest (TemperatureNode.requestHost fl e.1) e.2 := fun _ _ => rfl
    exact exactReports hloop h
  · intro es h
    have hloop : ∀ previousRequest (e : Bool × Attempt),
        Proximity.loop previousRequest e.1 e.2 =
          limited previousRequest (Proximity.requestText (motionMessage e.1)) e.2 :=
      fun previousRequest e => proximity_loop_eq previousRequest e.1 e.2
    exact exactReports hloop h

/-- Four iterations around the first turn of the counter. -/
theorem reports_exact_around_turn :
    let attempts : List Attempt := [⟨1500, 1501, true⟩, ⟨4294967000, 4294967001, false⟩,
      ⟨4294967900, 4294967900, true⟩, ⟨4294968100, 4294968101, true⟩]
    Timely attempts ∧
    ExactReports
      (fun previousRequest e => TemperatureNode.loop FloatLib.hundredths previousRequest e.1 e.2)
      Prod.snd (attempts.map fun a => (⟨2150, 4000, 512⟩, a)) ∧
    ExactReports (fun previousRequest e => Proximity.loop previousRequest e.1 e.2)
      Prod.snd (attempts.map fun a => (true, a)) := by
  intro attempts
  have htimely : Timely attempts := by
    refine ⟨?_, by decide, by decide⟩
    rintro a ha
    cases ha
    decide
  exact ⟨htimely, (reports_exact FloatLib.hundredths).1 _ htimely,
    (reports_exact FloatLib.hundredths).2 _ htimely⟩

end HomeMonitor.Sensors
