import HomeMonitor.Machine.Run
import HomeMonitor.Template.RootPage
import HomeMonitor.Template.Termination

/-! Termination of the root page in the states that requests on port 81 lead to: the engine
reads the stored statuses again as template text. -/
namespace HomeMonitor.AsyncWebserver
open HomeMonitor.Arduino HomeMonitor.Machine HomeMonitor.Template

variable {F Conn : Type*}

/-- The status variables by the names of their placeholders. -/
def State.statuses (s : State F Conn) : List (Str × Str) :=
  [("MOTION".toList, s.motionStatus), ("RFID Status".toList, s.rfidStatus),
    ("Keypad Status".toList, s.keypadStatus)]

/-- No status holds the placeholder of a status with a sign in it, and in none is a sign
followed by NUL. -/
structure Quiet (s : State F Conn) : Prop where
  placeholders : ∀ p ∈ s.statuses, ∀ name, Encloses p.2 name →
    ∀ q ∈ s.statuses, cstr (name.take 32) = q.1 → '%' ∉ q.2
  named : ∀ p ∈ s.statuses, ¬ ['%', NUL] <:+: p.2

theorem Quiet.of_count {s : State F Conn} (hcount : ∀ p ∈ s.statuses, p.2.count '%' ≤ 1)
    (hnamed : ∀ p ∈ s.statuses, ¬ ['%', NUL] <:+: p.2) : Quiet s := by
  refine ⟨?_, hnamed⟩
  rintro p hp name ⟨u, v, hsplit, -⟩
  have hle := hcount p hp
  rw [hsplit] at hle
  simp only [List.count_append, List.count_cons_self] at hle
  omega

theorem Quiet.of_signless {s : State F Conn} (h : ∀ p ∈ s.statuses, '%' ∉ p.2) : Quiet s := by
  constructor
  · intro p _ name _ q hq _
    exact h q hq
  · intro p hp hin
    exact h p hp (hin.subset (by simp))

/-- Only the placeholders of the statuses have values with signs. -/
theorem processor_cases (fl : FloatLib F) (s : State F Conn) (var : Str) :
    '%' ∉ processor fl s var ∨ ∃ q ∈ s.statuses, cstr var = q.1 ∧ processor fl s var = q.2 := by
  unfold processor equalsLiteral State.statuses
  simp only [beq_iff_eq]
  split_ifs with h1 h2 hm h4 hr hk
  · exact Or.inl (sign_not_mem_render fl s.t)
  · exact Or.inl (sign_not_mem_render fl s.h)
  · exact Or.inr ⟨_, .head _, hm, rfl⟩
  · exact Or.inl (sign_not_mem_render fl s.l)
  · exact Or.inr ⟨_, .tail _ (.head _), hr, rfl⟩
  · exact Or.inr ⟨_, .tail _ (.tail _ (.head _)), hk, rfl⟩
  · exact Or.inl (by simp)

private theorem cstr_cstr (text : Str) : cstr (cstr text) = cstr text := by
  apply cstr_eq_self
  intro hmem
  have hkept := List.mem_takeWhile_imp hmem
  simp at hkept

theorem tame_processor (fl : FloatLib F) {s : State F Conn} (h : Quiet s) :
    Tame (processor fl s)
      (s.motionStatus.count '%' + s.rfidStatus.count '%' + s.keypadStatus.count '%') := by
  constructor
  · intro var
    rcases processor_cases fl s var with hfree | ⟨p, hp, -, hvalue⟩
    · exact .of_signless hfree
    · rw [hvalue]
      refine ⟨fun name hname => ?_, h.named p hp⟩
      rcases processor_cases fl s (cstr (name.take 32)) with hfree | ⟨q, hq, hvar, hvalue'⟩
      · exact hfree
      · rw [cstr_cstr] at hvar
        rw [hvalue']
        exact h.placeholders p hp name hname q hq hvar
  · intro var
    rcases processor_cases fl s var with hfree | ⟨p, hp, -, hvalue⟩
    · rw [List.count_eq_zero_of_not_mem hfree]
      exact Nat.zero_le _
    · rw [hvalue]
      unfold State.statuses at hp
      simp only [List.mem_cons, List.not_mem_nil, or_false] at hp
      rcases hp with rfl | rfl | rfl <;> dsimp only <;> omega

/-- In a quiet state the root page is finished. -/
theorem Quiet.finishes {fl : FloatLib F} {s : State F Conn} (h : Quiet s) {page : Str}
    (facts : PageFacts page) {lens : ℕ → ℕ} (hpos : ∀ i, 0 < lens i) :
    ∃ body, Produces (processor fl s) lens ⟨[], page⟩ body := by
  have hweighs : Weighs (processor fl s) page
      (s.motionStatus.count '%' + s.rfidStatus.count '%' + s.keypadStatus.count '%') _ page :=
    ⟨[], page, rfl, List.suffix_rfl, .of_signless (by simp), le_rfl⟩
  exact hweighs.produces (r := ⟨[], page⟩) (tame_processor fl h) facts.nul facts.last hpos

theorem quiet_boot (fl : FloatLib F) : Quiet (boot fl : State F Conn) := by
  apply Quiet.of_signless
  unfold State.statuses boot
  simp only [List.forall_mem_cons, List.not_mem_nil, false_implies, implies_true, and_true]
  decide

/-- In every run whose requests leave quiet states, the root page is finished in every state that
is reached, for every sequence of buffers. -/
theorem rootPage_finishes (fl : FloatLib F) (requests : List (Conn × Str))
    (h : Along (handle fl) (fun s request => Quiet (handle fl s request)) (boot fl) requests)
    (front : List (Conn × Str)) (hfront : front <+: requests) (lens : ℕ → ℕ)
    (hpos : ∀ i, 0 < lens i) :
    ∃ body, Produces (processor fl (run (handle fl) (boot fl) front)) lens ⟨[], WEBSITE⟩ body := by
  obtain ⟨back, rfl⟩ := hfront
  have hquiet : Quiet (run (handle fl) (boot fl) front) := by
    rcases List.eq_nil_or_concat front with rfl | ⟨before, request, rfl⟩
    · exact quiet_boot fl
    · rw [List.concat_eq_append] at h ⊢
      rw [run_append]
      exact h before request back (List.append_assoc ..)
  exact hquiet.finishes website_facts hpos

theorem rootPage_finishes_after_report :
    ∃ body, Produces (processor FloatLib.hundredths (run (handle FloatLib.hundredths)
        (boot FloatLib.hundredths) [((), "c[ProximityNode]c m[50%]m".toList)]))
      (fun _ => 1000) ⟨[], WEBSITE⟩ body := by
  refine rootPage_finishes _ _ ?_ _ List.prefix_rfl _ (fun _ => by decide)
  intro before request after hsplit
  obtain ⟨rfl, rfl, rfl⟩ : before = [] ∧ request = ((), _) ∧ after = [] := by
    cases before with
    | nil => simpa [eq_comm] using hsplit
    | cons e before => simp at hsplit
  apply Quiet.of_count <;> decide

/-- A motion status that is its own placeholder keeps the engine busy, once the sign of the
humidity unit has been passed. -/
private theorem not_produces_self {page : Str} (facts : PageFacts page) {fl : FloatLib F}
    {s : State F Conn} (hself : s.motionStatus = placeholder "MOTION".toList) {lens : ℕ → ℕ}
    (hin : unitSign fl s < lens 0) (hend : lens 0 ≤ unitSign fl s + 118) (hnext : 118 ≤ lens 1)
    {body : Str} : ¬ Produces (processor fl s) lens ⟨[], page⟩ body := by
  have hlen := length_part facts 964 1081 (by omega)
  have hat := length_before facts fl s
  obtain ⟨r, hfill, hrem, hlast⟩ := fills_sign (L := lens 0) (r := ⟨[], page⟩)
    (plain_before facts fl s) (page_eq facts) facts.last (facts.signless (0, 752) (by decide))
    (facts.signless (964, 1081) (by decide)) (by omega) (by omega) (by omega)
  have hloops : ∀ out r', ¬ Fills (processor fl s) (lens 1) r out r' := by
    intro out r'
    apply not_fills_self _ hrem hlast
    · exact fun h => facts.signless (964, 1081) (by decide) (List.mem_of_mem_drop h)
    · rw [List.length_drop]
      omega
    · exact (processor_values fl s).2.2.1.trans hself
  intro h
  cases h with
  | finish hempty =>
    have hout := congrArg List.length (hempty.unique hfill).1
    rw [List.length_take, List.length_append, List.length_cons, List.length_nil] at hout
    omega
  | send hsend _ hrest =>
    obtain ⟨-, rfl⟩ := hsend.unique hfill
    cases hrest with
    | finish hfill' => exact hloops _ _ hfill'
    | send hfill' => exact hloops _ _ hfill'

/-- The request for the motion status `%MOTION%` stores it, and the engine never finishes the
second of its buffers. -/
theorem rootPage_finishes_counterexample :
    ¬ ∃ body, Produces (processor FloatLib.hundredths (run (handle FloatLib.hundredths)
        (boot FloatLib.hundredths) [((), "c[ProximityNode]c m[%MOTION%]m".toList)]))
      (fun _ => 1000) ⟨[], WEBSITE⟩ body := by
  rintro ⟨body, h⟩
  refine not_produces_self website_facts ?_ ?_ ?_ ?_ h <;> decide

end HomeMonitor.AsyncWebserver
