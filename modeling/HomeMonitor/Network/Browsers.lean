import HomeMonitor.Http.Calls
import HomeMonitor.Network.Opening
import HomeMonitor.Machine.Simulation
import HomeMonitor.Sketch.Endpoints

/-! The system with the browsers: packets of many connections on port 80 come in between the
events of the nodes. -/
namespace HomeMonitor.Network
open HomeMonitor.Arduino HomeMonitor.AsyncWebserver HomeMonitor.Http HomeMonitor.Machine

variable {F : Type*}

/-- The system and the request of each connection on port 80. -/
structure Home (F : Type*) where
  system : System F
  requests : ℕ → Request Endpoint

namespace Home

def boot (fl : FloatLib F) : Home F := ⟨Network.boot fl, fun _ => .init⟩

/-- An event of the nodes and their connections, or the next packet of a browser. A request for
`/on` is no event here: the packets that bring it are. -/
inductive Event (F : Type*)
  | node (e : Network.Event F) (h : e ≠ .on)
  | packet (conn : ℕ) (data : Str)

/-- What the handler of an endpoint does to the system: only `/on` prints something. -/
def call (fl : FloatLib F) (s : System F) : Endpoint → System F
  | .on => s.step fl .on
  | _ => s

def step (fl : FloatLib F) (h : Home F) : Event F → Home F
  | .node e _ => { h with system := h.system.step fl e }
  | .packet conn data =>
    let (request, effects) := (h.requests conn).onData endpoints data
    { system := (called effects).foldl (call fl) h.system
      requests := Function.update h.requests conn request }

def packetsOf (conn : ℕ) (events : List (Event F)) : List Str :=
  events.filterMap fun e =>
    match e with
    | .packet conn' data => if conn' = conn then some data else none
    | .node _ _ => none

def openings (h : Home F) : Event F → ℕ
  | .node e _ => h.system.openings e
  | .packet _ _ => 0

/-- The events of the nodes that may open the door. -/
def cause (h : Home F) : Event F → ℕ
  | .node e _ => h.system.cause e
  | .packet _ _ => 0

/-- Besides these, the calls of the handler of `/on`. -/
def charge (h : Home F) : Event F → ℕ
  | .node e _ => h.system.cause e
  | .packet conn data => (called ((h.requests conn).onData endpoints data).2).count .on

theorem receive_concat (packets : List Str) (packet : Str) :
    receive endpoints (packets ++ [packet]) =
      (((receive endpoints packets).1.onData endpoints packet).1,
        (receive endpoints packets).2 ++
          ((receive endpoints packets).1.onData endpoints packet).2) := run_append ..

theorem packetsOf_packet (conn conn' : ℕ) (events : List (Event F)) (data : Str) :
    packetsOf conn' (events ++ [.packet conn data]) =
      packetsOf conn' events ++ if conn = conn' then [data] else [] := by
  unfold packetsOf
  rw [List.filterMap_append]
  congr 1
  split_ifs with hconn <;> simp [hconn]

theorem packetsOf_node (conn : ℕ) (events : List (Event F)) (e : Network.Event F) (he) :
    packetsOf conn (events ++ [.node e he]) = packetsOf conn events := by
  unfold packetsOf
  rw [List.filterMap_append]
  exact List.append_nil _

/-- What has become of a request depends on the packets of its connection alone. -/
theorem requests_run (fl : FloatLib F) (events : List (Event F)) (conn : ℕ) :
    (run (step fl) (boot fl) events).requests conn =
      (receive endpoints (packetsOf conn events)).1 := by
  induction events using List.reverseRecOn with
  | nil => rfl
  | append_singleton events e ih =>
    rw [run_append]
    cases e with
    | node e he =>
      rw [packetsOf_node]
      exact ih
    | packet conn' data =>
      show Function.update _ conn' _ conn = _
      rw [packetsOf_packet]
      by_cases hconn : conn' = conn
      · subst hconn
        rw [Function.update_self, if_pos rfl, receive_concat, ih]
        rfl
      · rw [Function.update_of_ne (Ne.symm hconn), if_neg hconn, List.append_nil]
        exact ih

theorem potential_called_le (fl : FloatLib F) (s : System F) (endpoints : List Endpoint) :
    (endpoints.foldl (call fl) s).potential ≤ endpoints.count .on + s.potential := by
  induction endpoints generalizing s with
  | nil => exact Nat.le_add_left ..
  | cons e endpoints ih =>
    rw [List.foldl_cons]
    have hrest := ih (call fl s e)
    by_cases he : e = .on
    · have hon : 0 + (s.step fl .on).potential ≤ 1 + s.potential :=
        System.openings_add_potential_le fl s .on
      rw [he, List.count_cons_self]
      rw [he] at hrest
      change _ ≤ _ + (s.step fl .on).potential at hrest
      omega
    · have hsame : call fl s e = s := by
        cases e <;> first | rfl | exact absurd rfl he
      rw [hsame] at hrest ⊢
      rwa [List.count_cons_of_ne (fun heq => he heq)]

theorem openings_add_potential_le (fl : FloatLib F) (h : Home F) (e : Event F) :
    h.openings e + (h.step fl e).system.potential ≤ h.charge e + h.system.potential := by
  cases e with
  | node e he => exact System.openings_add_potential_le fl h.system e
  | packet conn data =>
    rw [openings, Nat.zero_add]
    exact potential_called_le fl h.system _

theorem charge_le (fl : FloatLib F) (events : List (Event F)) :
    ∃ doors : List ℕ, doors.Nodup ∧
      (∀ conn ∈ doors, .on ∈ called (receive endpoints (packetsOf conn events)).2) ∧
      total (step fl) charge (boot fl) events ≤
        total (step fl) cause (boot fl) events + doors.length := by
  induction events using List.reverseRecOn with
  | nil => exact ⟨[], List.nodup_nil, List.forall_mem_nil _, le_rfl⟩
  | append_singleton events e ih =>
    obtain ⟨doors, hnodup, hdoors, hle⟩ := ih
    rw [total_concat, total_concat]
    cases e with
    | node e he =>
      refine ⟨doors, hnodup, fun conn hconn => ?_, ?_⟩
      · rw [packetsOf_node]
        exact hdoors conn hconn
      · show _ + System.cause _ e ≤ _ + System.cause _ e + _
        omega
    | packet conn data =>
      have hgrows : ∀ conn' ∈ doors,
          .on ∈ called (receive endpoints (packetsOf conn' (events ++ [.packet conn data]))).2 := by
        intro conn' hconn'
        rw [packetsOf_packet]
        split_ifs
        · rw [receive_concat, called_append]
          exact List.mem_append_left _ (hdoors conn' hconn')
        · rw [List.append_nil]
          exact hdoors conn' hconn'
      have hcalled : called (receive endpoints (packetsOf conn (events ++ [.packet conn data]))).2 =
          called (receive endpoints (packetsOf conn events)).2 ++
            called (((run (step fl) (boot fl) events).requests conn).onData endpoints data).2 := by
        rw [packetsOf_packet, if_pos rfl, receive_concat, called_append, requests_run]
      have honce := (calledOnce_receive endpoints
        (packetsOf conn (events ++ [.packet conn data]))).once
      show ∃ doors : List ℕ, _ ∧ _ ∧ _ + List.count _ _ ≤ _ + 0 + _
      rw [hcalled, List.length_append] at honce
      by_cases hon : .on ∈
          called (((run (step fl) (boot fl) events).requests conn).onData endpoints data).2
      · have hpos := List.length_pos_of_mem hon
        have hcount := List.count_le_length (a := Endpoint.on)
          (l := called (((run (step fl) (boot fl) events).requests conn).onData endpoints data).2)
        have hnew : conn ∉ doors := by
          intro hmem
          have hbefore := List.length_pos_of_mem (hdoors conn hmem)
          omega
        refine ⟨conn :: doors, List.nodup_cons.mpr ⟨hnew, hnodup⟩, ?_, ?_⟩
        · rw [List.forall_mem_cons]
          refine ⟨?_, hgrows⟩
          rw [hcalled]
          exact List.mem_append_right _ hon
        · rw [List.length_cons]
          omega
      · refine ⟨doors, hnodup, hgrows, ?_⟩
        rw [List.count_eq_zero_of_not_mem hon]
        omega

/-- In every run of the nodes and any number of browsers, whose packets come in any order, the
door opens at most once for each `D` on the correct password, each scan of the first or third
enrolled tag, and each connection whose own packets call the handler of `/on`. -/
theorem openings_authorized (fl : FloatLib F) (events : List (Event F)) :
    ∃ doors : List ℕ, doors.Nodup ∧
      (∀ conn ∈ doors, .call .on ∈ (receive endpoints (packetsOf conn events)).2) ∧
      total (step fl) openings (boot fl) events ≤
        total (step fl) cause (boot fl) events + doors.length := by
  obtain ⟨doors, hnodup, hdoors, hcharge⟩ := charge_le fl events
  have hrun := total_add_potential_le (step fl) (I := fun _ => True)
    (fun h : Home F => h.system.potential) (fun _ _ _ => trivial)
    (fun h e _ => openings_add_potential_le fl h e) (s := boot fl) trivial events
  have hboot : (boot fl).system.potential = 0 := rfl
  refine ⟨doors, hnodup, fun conn hconn => ?_, by omega⟩
  exact mem_called_iff.mp (hdoors conn hconn)

end Home
end HomeMonitor.Network
