import HomeMonitor.Machine.Polling
import HomeMonitor.Network.Board
import HomeMonitor.Sketch.Script

/-! A page that is open: its timers go on asking for the values while the nodes go on reporting. -/
namespace HomeMonitor.Network
open HomeMonitor.Arduino HomeMonitor.AsyncWebserver HomeMonitor.Machine
open HomeMonitor.Machine.Polled

variable {F : Type*}

/-- The nodes and the server, the requests of the timers that are under way, and the texts of the
elements. -/
abbrev LivePage (F : Type*) := Polled (System F) Element Str

/-- A timer sends a request, the server calls its handler, the answer comes back with status 200
as it was sent and is written into the element, or the request fails. -/
def LivePage.step (fl : FloatLib F) : LivePage F → Polling (Event F) Element → LivePage F :=
  Polled.step (System.step fl) fun s el => asked fl s.server el

/-- The page that was loaded with some texts, after events. -/
def LivePage.after (fl : FloatLib F) (before : List (Event F)) (loaded : Element → Str)
    (events : List (Polling (Event F) Element)) : LivePage F :=
  run (LivePage.step fl) (start (System.after fl before) loaded) events

variable (fl : FloatLib F)

theorem source_after (before : List (Event F)) (loaded : Element → Str)
    (events : List (Polling (Event F) Element)) :
    (LivePage.after fl before loaded events).source =
      System.after fl (before ++ changes events) := by
  unfold LivePage.after LivePage.step
  rw [source_run]
  exact (run_append ..).symm

/-- Nothing but a request that the server reads changes what its handlers answer. -/
theorem reported_step {s : System F} {e : Event F} (h : ∀ n, e ≠ .serve n) :
    (s.step fl e).server.reported = s.server.reported := by
  by_cases hskip : e = .skip
  · rw [hskip]
    rfl
  · rw [(texts_step fl s h hskip).2]

theorem reported_run {s : System F} {events : List (Event F)} (h : ∀ n, .serve n ∉ events) :
    (run (System.step fl) s events).server.reported = s.server.reported := by
  induction events generalizing s with
  | nil => rfl
  | cons e events ih =>
    rw [run_cons, ih fun n hn => h n (List.mem_cons_of_mem e hn)]
    exact reported_step fl fun n hn => h n (hn ▸ List.mem_cons_self)

/-- When no connection has been closed and the server has read all the requests, whole, and reads no
more for now, an element for which no request is under way catches up: as soon as the answer to
another one comes back it shows the last report, and goes on showing it. -/
theorem element_settles {before : List (Event F)} {loaded : Element → Str}
    (events calls after : List (Polling (Event F) Element)) {el : Element} {i : ℕ} {text : Str}
    (hwhole : Whole fl (boot fl) (before ++ changes events))
    (hskip : .skip ∉ before ++ changes events)
    (hread : (System.after fl (before ++ changes events)).pending = [])
    (hserve : ∀ n, .serve n ∉ changes (calls ++ .receive i :: after))
    (hfree : ∀ q ∈ (LivePage.after fl before loaded events).polls, q.1 ≠ el)
    (hreceived : (LivePage.after fl before loaded (events ++ calls)).polls[i]? =
      some (el, some text)) :
    (LivePage.after fl before loaded (events ++ (calls ++ .receive i :: after))).shown el =
      el.text fl ((board (sent fl (boot fl) (before ++ changes events))).shown fl) := by
  obtain ⟨posted, queue, hposted, hqueue⟩ := Posted.boot.run hwhole
  have hempty : queue = [] := by
    have hwaiting := hposted.waiting
    unfold System.texts at hwaiting
    rw [show (run (System.step fl) (boot fl) (before ++ changes events)).pending = [] from hread]
      at hwaiting
    exact List.map_eq_nil_iff.mp hwaiting.symm
  have hall : posted = sent fl (boot fl) (before ++ changes events) := by
    have hqueue := hqueue hskip
    rw [hempty, List.append_nil] at hqueue
    exact hqueue
  have hvalue : ∀ front, front <+: changes (calls ++ .receive i :: after) →
      asked fl (run (System.step fl) (LivePage.after fl before loaded events).source
        front).server el = el.text fl ((board posted).shown fl) := by
    intro front hfront
    rw [asked_eq, reported_run fl fun n hn => hserve n (hfront.subset hn), source_after]
    exact congrArg (fun values => el.text fl values) hposted.shown
  have hlater : LivePage.after fl before loaded (events ++ calls) =
      run (LivePage.step fl) (LivePage.after fl before loaded events) calls := run_append ..
  rw [hlater] at hreceived
  have hshown := shown_of_received hfree hvalue hreceived
  rw [← hall]
  unfold LivePage.after
  rw [run_append]
  exact hshown

/-- Both reports have been read when the motion is asked for. -/
theorem element_settles_twoReports :
    (LivePage.after FloatLib.hundredths (twoReports ++ [.serve 200]) (fun _ => [])
        ([] ++ ([.send .motionDetection, .answer 0] ++ [.receive 0]))).shown .motionDetection =
      Element.motionDetection.text FloatLib.hundredths
        ((board (sent FloatLib.hundredths (boot FloatLib.hundredths)
          ((twoReports ++ [.serve 200]) ++ []))).shown FloatLib.hundredths) := by
  refine element_settles FloatLib.hundredths [] [.send .motionDetection, .answer 0] []
    whole_twoReports ?_ (by decide +kernel) (fun n => List.not_mem_nil)
    (fun q hq => absurd hq List.not_mem_nil) rfl
  simp [twoReports, changes]

end HomeMonitor.Network
