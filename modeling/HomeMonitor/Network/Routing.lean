import HomeMonitor.Machine.Simulation
import HomeMonitor.Network.System
import HomeMonitor.Framing.Truncation
import HomeMonitor.RFID.Reply
import HomeMonitor.Keypad.Decisions
import Mathlib.Data.Set.Insert

/-! Where the server's opening commands go. The server learns the connection of the RFID
node from the RFID requests that it handles. -/
namespace HomeMonitor.Network
open HomeMonitor.Arduino HomeMonitor.AsyncWebserver HomeMonitor.Framing
open HomeMonitor.Network.System

variable {F : Type*}

/-- However the text is cut, the server does not take it for an RFID request. -/
def NotRFID (text : Str) : Prop := ∀ n, dispatch (arrived text n) ≠ some .rfid

private theorem notRFID_of_field (node : Node) {text s post : Str}
    (hread : readStringUntil CR text = s) (hs : NUL ∉ s) (hf : FieldAt s 'c' node.name [] post)
    (hnode : node ≠ .rfid) : NotRFID text := by
  intro n
  unfold arrived
  rw [readStringUntil_take, hread, dispatch_take hs hf]
  split_ifs
  · simp
  · simpa using hnode

theorem notRFID_nil : NotRFID [] := by
  intro n
  unfold arrived
  rw [List.take_nil]
  decide

theorem notRFID_keypad {M : Str} (hM : IsValueText M) : NotRFID (println (Keypad.requestText M)) :=
  notRFID_of_field .keypad (read_keypad_request hM.cr) (keypadFormat.not_mem_text (by simp) hM.nul)
    (keypadFormat.nameField hM) (by decide)

theorem notRFID_proximity {M : Str} (hM : IsValueText M) :
    NotRFID (println (Proximity.requestText M)) :=
  notRFID_of_field .proximity (read_proximity_request hM.cr)
    (proximityFormat.not_mem_text (by simp) hM.nul) (proximityFormat.nameField hM) (by decide)

theorem notRFID_measure (fl : FloatLib F) (r : TemperatureNode.Reading F) :
    NotRFID (println (TemperatureNode.requestHost fl r)) := by
  have hT := isValueText_render fl r.temperature
  have hH := isValueText_render fl r.humidity
  have hL := isValueText_renderInt r.lightValue
  exact notRFID_of_field .temHumLight (read_report hT.cr hH.cr hL.cr)
    (not_mem_reportText (by simp) hT.nul hH.nul hL.nul) (reportField_c hT hH hL) (by decide)

theorem notRFID_limited {text : Str} (h : NotRFID (println text)) (previousRequest : BitVec 32)
    (a : Attempt) : NotRFID (limited previousRequest text a).2.text := by
  unfold limited
  split_ifs
  · exact h
  · exact notRFID_nil
  · exact notRFID_nil

/-- The connection whose RFID request the server handles in an event. -/
def handledBy (s : System F) : Event F → Option ℕ
  | .serve n =>
    match s.pending with
    | (client, text) :: _ => if dispatch (arrived text n) = some .rfid then some client else none
    | [] => none
  | _ => none

/-- Connections are served in the order in which they were made, and the one that the RFID
node holds is its last. `handled` are those whose RFID request the server has handled. -/
structure Routed (handled : Set ℕ) (s : System F) : Prop where
  sorted : s.pending.Pairwise fun p q => p.1 < q.1
  pending_lt : ∀ p ∈ s.pending, p.1 < s.accepted
  host_lt : ∀ c, s.host = some c → c < s.accepted
  latest : ∀ p ∈ s.pending, ¬ NotRFID p.2 → ∀ c, s.host = some c → p.1 ≤ c
  handled_lt : ∀ d ∈ handled, d < s.accepted ∧ ∀ p ∈ s.pending, d < p.1
  handled_le : ∀ d ∈ handled, ∀ c, s.host = some c → d ≤ c
  client_mem : ∀ d, s.server.rfidClient = some d → d ∈ handled ∧ ∀ d' ∈ handled, d' ≤ d
  client_isSome : ∀ d ∈ handled, s.server.rfidClient ≠ none

namespace Routed

variable {handled : Set ℕ} {s : System F}

theorem boot (fl : FloatLib F) : Routed ∅ (Network.boot fl) where
  sorted := List.Pairwise.nil
  pending_lt := by intro p hp; cases hp
  host_lt := by intro c hc; cases hc
  latest := by intro p hp; cases hp
  handled_lt := by intro d hd; cases hd
  handled_le := by intro d hd; cases hd
  client_mem := by intro d hd; cases hd
  client_isSome := by intro d hd; cases hd

/-- The server knows the connection of the RFID node exactly when it has handled the
RFID request of that connection. -/
theorem client_eq_host_iff (h : Routed handled s) {c : ℕ} (hc : s.host = some c) :
    s.server.rfidClient = some c ↔ c ∈ handled := by
  constructor
  · intro hclient
    exact (h.client_mem c hclient).1
  · intro hmem
    obtain ⟨d, hd⟩ := Option.ne_none_iff_exists'.mp (h.client_isSome c hmem)
    have hle := h.handled_le d (h.client_mem d hd).1 c hc
    have hge := (h.client_mem d hd).2 c hmem
    rw [hd, Nat.le_antisymm hle hge]

private theorem sorted_concat (h : Routed handled s) (text : Str) :
    (s.pending ++ [(s.accepted, text)]).Pairwise fun p q => p.1 < q.1 := by
  rw [List.pairwise_append]
  refine ⟨h.sorted, List.pairwise_singleton _ _, ?_⟩
  intro p hp q hq
  rw [List.mem_singleton.mp hq]
  exact h.pending_lt p hp

private theorem pending_concat_lt (h : Routed handled s) (text : Str) :
    ∀ p ∈ s.pending ++ [(s.accepted, text)], p.1 < s.accepted + 1 := by
  intro p hp
  rcases List.mem_append.mp hp with hp | hp
  · exact Nat.lt_succ_of_lt (h.pending_lt p hp)
  · rw [List.mem_singleton.mp hp]
    exact Nat.lt_succ_self _

private theorem handled_concat_lt (h : Routed handled s) (text : Str) :
    ∀ d ∈ handled, d < s.accepted + 1 ∧ ∀ p ∈ s.pending ++ [(s.accepted, text)], d < p.1 := by
  intro d hd
  obtain ⟨hlt, hpending⟩ := h.handled_lt d hd
  refine ⟨Nat.lt_succ_of_lt hlt, fun p hp => ?_⟩
  rcases List.mem_append.mp hp with hp | hp
  · exact hpending p hp
  · rw [List.mem_singleton.mp hp]
    exact hlt

theorem request (h : Routed handled s) {r : HostResult} (hr : NotRFID r.text) :
    Routed handled (s.request r) := by
  cases r with
  | suppressed => exact h
  | noConnection => exact h
  | printed text =>
    exact
      { sorted := h.sorted_concat text
        pending_lt := h.pending_concat_lt text
        host_lt := fun c hc => Nat.lt_succ_of_lt (h.host_lt c hc)
        latest := by
          intro p hp hrfid c hc
          rcases List.mem_append.mp hp with hp | hp
          · exact h.latest p hp hrfid c hc
          · rw [List.mem_singleton.mp hp] at hrfid
            exact absurd hr hrfid
        handled_lt := h.handled_concat_lt text
        handled_le := h.handled_le
        client_mem := h.client_mem
        client_isSome := h.client_isSome }

theorem requestRFID (h : Routed handled s) (r : HostResult) : Routed handled (s.requestRFID r) := by
  cases r with
  | suppressed => exact h
  | noConnection =>
    exact
      { sorted := h.sorted
        pending_lt := h.pending_lt
        host_lt := by intro c hc; cases hc
        latest := by intro p _ _ c hc; cases hc
        handled_lt := h.handled_lt
        handled_le := by intro d _ c hc; cases hc
        client_mem := h.client_mem
        client_isSome := h.client_isSome }
  | printed text =>
    exact
      { sorted := h.sorted_concat text
        pending_lt := h.pending_concat_lt text
        host_lt := by
          intro c hc
          cases hc
          exact Nat.lt_succ_self _
        latest := by
          intro p hp _ c hc
          cases hc
          exact Nat.le_of_lt_succ (h.pending_concat_lt text p hp)
        handled_lt := h.handled_concat_lt text
        handled_le := by
          intro d hd c hc
          cases hc
          exact (h.handled_lt d hd).1.le
        client_mem := h.client_mem
        client_isSome := h.client_isSome }

theorem print (h : Routed handled s) (lines : List Str) : Routed handled (s.print lines) := by
  unfold System.print
  split_ifs
  · exact ⟨h.sorted, h.pending_lt, h.host_lt, h.latest, h.handled_lt, h.handled_le,
      h.client_mem, h.client_isSome⟩
  · exact h

theorem skip (h : Routed handled s) : Routed handled ({ s with pending := s.pending.tail }) where
  sorted := h.sorted.sublist (List.tail_sublist _)
  pending_lt := fun p hp => h.pending_lt p (List.mem_of_mem_tail hp)
  host_lt := h.host_lt
  latest := fun p hp => h.latest p (List.mem_of_mem_tail hp)
  handled_lt := fun d hd =>
    ⟨(h.handled_lt d hd).1, fun p hp => (h.handled_lt d hd).2 p (List.mem_of_mem_tail hp)⟩
  handled_le := h.handled_le
  client_mem := h.client_mem
  client_isSome := h.client_isSome

/-- The oldest connection's request names the RFID page: its client is the answered one. -/
private theorem answer (h : Routed handled s) {client : ℕ} {text : Str} {rest : List (ℕ × Str)}
    (hp : s.pending = (client, text) :: rest)
    (hrfid : ∃ n, dispatch (arrived text n) = some .rfid)
    {server : AsyncWebserver.State F ℕ} (hclient : server.rfidClient = some client) :
    Routed (insert client handled) { s with pending := rest, server := server } := by
  obtain ⟨n, hrfid⟩ := hrfid
  have hskip := h.skip
  rw [hp, List.tail_cons] at hskip
  have hrest : ∀ p ∈ rest, client < p.1 := by
    have hsorted := h.sorted
    rw [hp] at hsorted
    exact fun p hmem => (List.pairwise_cons.mp hsorted).1 p hmem
  have hmem : (client, text) ∈ s.pending := by rw [hp]; exact List.mem_cons_self
  exact
    { sorted := hskip.sorted
      pending_lt := hskip.pending_lt
      host_lt := hskip.host_lt
      latest := hskip.latest
      handled_lt := by
        rintro d (rfl | hd)
        · exact ⟨h.pending_lt _ hmem, hrest⟩
        · exact hskip.handled_lt d hd
      handled_le := by
        rintro d (rfl | hd) c hc
        · exact h.latest _ hmem (fun hnot => hnot n hrfid) c hc
        · exact hskip.handled_le d hd c hc
      client_mem := by
        intro d hd
        rw [hclient] at hd
        cases hd
        refine ⟨Set.mem_insert _ _, ?_⟩
        rintro d' (rfl | hd')
        · exact le_rfl
        · exact ((h.handled_lt d' hd').2 _ hmem).le
      client_isSome := by
        intro d _
        rw [hclient]
        exact Option.some_ne_none _ }

private theorem keep (h : Routed handled s) {server : AsyncWebserver.State F ℕ}
    (hclient : server.rfidClient = s.server.rfidClient) :
    Routed handled { s with server := server } :=
  { h with
    client_mem := by rw [hclient]; exact h.client_mem
    client_isSome := by rw [hclient]; exact h.client_isSome }

theorem serve (fl : FloatLib F) (h : Routed handled s) (n : ℕ) :
    Routed (handled ∪ {c | handledBy s (.serve n : Event F) = some c}) (s.serve fl n) := by
  unfold System.serve handledBy
  cases hp : s.pending with
  | nil => simpa using h
  | cons p rest =>
    obtain ⟨client, text⟩ := p
    have hclient := RFID.clientRequest_rfidClient fl s.server client (arrived text n)
    dsimp only
    apply print
    by_cases hd : dispatch (arrived text n) = some .rfid
    · rw [if_pos hd] at hclient
      have hset : handled ∪ {c | (if dispatch (arrived text n) = some .rfid then some client
          else none) = some c} = insert client handled := by
        rw [if_pos hd]
        ext c
        simp only [Set.mem_union, Set.mem_ofPred_eq, Set.mem_insert_iff, Option.some.injEq,
          eq_comm, or_comm]
      rw [hset]
      exact h.answer hp ⟨n, hd⟩ hclient
    · rw [if_neg hd] at hclient
      have hset : handled ∪ {c | (if dispatch (arrived text n) = some .rfid then some client
          else none) = some c} = handled := by
        rw [if_neg hd]
        simp
      have hskip := h.skip
      rw [hp, List.tail_cons] at hskip
      rw [hset]
      exact hskip.keep hclient

private theorem union_empty {e : Event F} (he : handledBy s e = none) {s' : System F}
    (hs' : Routed handled s') :
    Routed (handled ∪ {c | handledBy s e = some c}) s' := by
  rw [he]
  simpa using hs'

theorem step (fl : FloatLib F) (h : Routed handled s) (e : Event F) :
    Routed (handled ∪ {c | handledBy s e = some c}) (s.step fl e) := by
  cases e with
  | serve n => exact h.serve fl n
  | key key a =>
    apply union_empty rfl
    have hs : Routed handled { s with keypad := (Keypad.handleKeypad s.keypad key a).1 } :=
      { h with }
    apply hs.request
    by_cases hD : key = 'D'
    · rw [hD, Keypad.handleKeypad_D]
      apply notRFID_limited
      apply notRFID_keypad
      unfold Keypad.decision
      split_ifs <;> decide
    · rw [Keypad.handleKeypad_of_ne_D _ hD]
      exact notRFID_nil
  | scan uid a =>
    apply union_empty rfl
    have hs : Routed handled { s with rfid := (RFID.checkRFID s.rfid uid a).1 } := { h with }
    have hall : ∀ (results : List HostResult) (t : System F), Routed handled t →
        Routed handled (results.foldl System.requestRFID t) := by
      intro results
      induction results with
      | nil => exact fun t ht => ht
      | cons r results ih => exact fun t ht => ih _ (ht.requestRFID r)
    exact hall _ _ hs
  | motion high a =>
    apply union_empty rfl
    have hs : Routed handled { s with proximity := (Proximity.loop s.proximity high a).1 } :=
      { h with }
    apply hs.request
    cases high
    · exact notRFID_limited (notRFID_proximity (by decide)) _ a
    · exact notRFID_limited (notRFID_proximity (by decide)) _ a
  | measure r a =>
    apply union_empty rfl
    have hs : Routed handled
        { s with temperature := (TemperatureNode.loop fl s.temperature r a).1 } := { h with }
    exact hs.request (notRFID_limited (notRFID_measure fl r) _ a)
  | on => exact union_empty rfl (h.print _)
  | skip => exact union_empty rfl h.skip
  | read n => exact union_empty rfl { h with }

end Routed

/-- The connections whose RFID requests the server has handled in a run, in this order. -/
def handledConnections (fl : FloatLib F) (events : List (Event F)) : List ℕ :=
  (Machine.outputs (fun s e => (handledBy s e, s.step fl e)) (boot fl) events).reduceOption

theorem handledConnections_concat (fl : FloatLib F) (events : List (Event F)) (e : Event F) :
    handledConnections fl (events ++ [e]) =
      handledConnections fl events ++ (handledBy (after fl events) e).toList := by
  unfold handledConnections
  rw [Machine.outputs_concat, List.reduceOption_append, List.reduceOption_singleton]
  rfl

theorem mem_handledConnections_concat (fl : FloatLib F) (events : List (Event F)) (e : Event F) :
    {c | c ∈ handledConnections fl (events ++ [e])} =
      {c | c ∈ handledConnections fl events} ∪ {c | handledBy (after fl events) e = some c} := by
  ext c
  simp [handledConnections_concat]

theorem step_rfidClient (fl : FloatLib F) (s : System F) (e : Event F) :
    (s.step fl e).server.rfidClient = (handledBy s e).or s.server.rfidClient := by
  have hrequest : ∀ (s' : System F) (r : HostResult), s'.server = s.server →
      (s'.request r).server.rfidClient = s.server.rfidClient := by
    intro s' r h
    rw [request_server, h]
  cases e with
  | key key a => exact hrequest _ _ rfl
  | scan uid a => exact congrArg AsyncWebserver.State.rfidClient (scan_server _ _)
  | motion high a => exact hrequest _ _ rfl
  | measure r a => exact hrequest _ _ rfl
  | on => exact congrArg AsyncWebserver.State.rfidClient (print_same s _).1
  | serve n =>
    show (s.serve fl n).server.rfidClient = _
    unfold System.serve handledBy
    cases s.pending with
    | nil => rfl
    | cons p rest =>
      obtain ⟨client, text⟩ := p
      dsimp only
      rw [(print_same _ _).1, RFID.clientRequest_rfidClient]
      split_ifs
      · rfl
      · rfl
  | skip => rfl
  | read n => rfl

/-- The server knows the connection of the RFID request that it has handled last. -/
theorem rfidClient_after (fl : FloatLib F) (events : List (Event F)) :
    (after fl events).server.rfidClient = (handledConnections fl events).getLast? := by
  have hlast := Machine.run_getLast? (fun s e => (handledBy s e, s.step fl e))
    (fun s => s.server.rfidClient) (step_rfidClient fl) (boot fl) events
  exact hlast.trans (Option.or_none ..)

/-- The invariant holds after every run. -/
theorem routed_after (fl : FloatLib F) (events : List (Event F)) :
    Routed {c | c ∈ handledConnections fl events} (after fl events) := by
  have hboot : {c | c ∈ handledConnections fl ([] : List (Event F))} = ∅ :=
    Set.eq_empty_of_forall_notMem fun c => List.not_mem_nil
  unfold after
  apply Machine.run_history (System.step fl)
    (R := fun events s => Routed {c | c ∈ handledConnections fl events} s)
  · rw [hboot]
    exact Routed.boot fl
  · intro events e h
    rw [mem_handledConnections_concat]
    exact h.step fl e

/-- The connection that `rfidClient` stands for when the server prints in an event, and the lines
that it prints on it. -/
def written (fl : FloatLib F) (s : System F) : Event F → Option ℕ × List Str
  | .on => (s.server.rfidClient, [onCommand])
  | .serve n =>
    match s.pending with
    | (client, text) :: _ =>
      let r := clientRequest fl s.server client (arrived text n)
      (r.1.rfidClient, r.2)
    | [] => (s.server.rfidClient, [])
  | _ => (s.server.rfidClient, [])

theorem step_inbox (fl : FloatLib F) (s : System F) {e : Event F} (h : (written fl s e).2 ≠ []) :
    (s.step fl e).inbox =
      if (written fl s e).1.isSome ∧ (written fl s e).1 = s.host then
        s.inbox ++ (written fl s e).2.flatMap println
      else s.inbox := by
  cases e with
  | on => exact apply_ite System.inbox _ _ _
  | serve n =>
    show (s.serve fl n).inbox = _
    unfold System.serve written at *
    cases hp : s.pending with
    | nil =>
      rw [hp] at h
      exact absurd rfl h
    | cons p rest => exact apply_ite System.inbox _ _ _
  | key key a => exact absurd rfl h
  | scan uid a => exact absurd rfl h
  | motion high a => exact absurd rfl h
  | measure r a => exact absurd rfl h
  | skip => exact absurd rfl h
  | read n => exact absurd rfl h

/-- The opening command that an event has the server print: for `/on`, which is always
answered `ok`, and for a keypad request with a granting status. -/
def openingCommand (s : System F) : Event F → Option Str
  | .on => some onCommand
  | .serve n =>
    match s.pending with
    | (_, text) :: _ =>
      if dispatch (arrived text n) = some .keypad ∧
          equalsLiteral (getClientSubstring (arrived text n) "k".toList)
            "ACCESS GRANTED".toList then
        some "r[Access OK]r".toList
      else none
    | [] => none
  | _ => none

/-- The command arrives on the connection that the RFID node holds. -/
def Delivered (fl : FloatLib F) (s : System F) (e : Event F) (command : Str) : Prop :=
  (s.step fl e).inbox = s.inbox ++ println command

theorem written_of_openingCommand (fl : FloatLib F) (s : System F) {e : Event F} {command : Str}
    (h : openingCommand s e = some command) :
    written fl s e = (s.server.rfidClient, [command]) := by
  cases e with
  | on =>
    cases h
    rfl
  | serve n =>
    unfold openingCommand written at *
    dsimp only at *
    cases hp : s.pending with
    | nil =>
      rw [hp] at h
      cases h
    | cons p rest =>
      rw [hp] at h
      dsimp only at h ⊢
      split_ifs at h with hgranted
      cases h
      rw [clientRequest_eq, hgranted.1]
      unfold handleKeypadInput
      dsimp only
      rw [if_pos hgranted.2]
  | key key a => cases h
  | scan uid a => cases h
  | motion high a => cases h
  | measure r a => cases h
  | skip => cases h
  | read n => cases h

/-- A command reaches the RFID node exactly when the server knows the connection that the
node holds. -/
theorem delivered_iff_client (fl : FloatLib F) (s : System F) {e : Event F} {command : Str}
    (h : openingCommand s e = some command) :
    Delivered fl s e command ↔ ∃ c, s.host = some c ∧ s.server.rfidClient = some c := by
  have hwritten := written_of_openingCommand fl s h
  have hinbox := step_inbox fl s (e := e) (by rw [hwritten]; exact List.cons_ne_nil _ _)
  have hne : println command ≠ [] := List.append_ne_nil_of_right_ne_nil _ (by decide)
  unfold Delivered
  rw [hinbox, hwritten]
  dsimp only
  rw [List.flatMap_singleton]
  constructor
  · intro hdelivered
    split_ifs at hdelivered with hknown
    · obtain ⟨c, hc⟩ := Option.isSome_iff_exists.mp hknown.1
      exact ⟨c, hknown.2.symm.trans hc, hc⟩
    · exact absurd (List.append_right_eq_self.mp hdelivered.symm) hne
  · intro hknown
    obtain ⟨c, hhost, hclient⟩ := hknown
    rw [hhost, hclient, if_pos ⟨rfl, rfl⟩]

/-- An opening command is written to the connection of the RFID request that the server has
handled last, to none before the first. It reaches the RFID node exactly when the server has
handled the request of the connection that the node holds. -/
theorem delivered_iff (fl : FloatLib F) (events : List (Event F)) (e : Event F) (command : Str)
    (hc : openingCommand (after fl events) e = some command) :
    written fl (after fl events) e = ((after fl events).server.rfidClient, [command]) ∧
      (after fl events).server.rfidClient = (handledConnections fl events).getLast? ∧
      (Delivered fl (after fl events) e command ↔
        ∃ c, (after fl events).host = some c ∧ c ∈ handledConnections fl events) := by
  refine ⟨written_of_openingCommand fl _ hc, rfidClient_after fl events, ?_⟩
  rw [delivered_iff_client fl _ hc]
  apply exists_congr
  intro c
  apply and_congr_right
  intro hhost
  exact (routed_after fl events).client_eq_host_iff hhost

/-- A scan, the handling of its request, and a second scan. -/
def reconnectRun : List (Event ℤ) :=
  [.scan [0x00, 0x01] ⟨2000, 2000, true⟩, .serve 100, .read 100,
    .scan [0x00, 0x01] ⟨4000, 4000, true⟩]

/-- The command reaches the node before it reconnects, and goes to the connection that the node
has closed after that. -/
theorem delivered_iff_examples :
    (written FloatLib.hundredths (after FloatLib.hundredths (reconnectRun.take 3)) .on =
        ((after FloatLib.hundredths (reconnectRun.take 3)).server.rfidClient, [onCommand]) ∧
      (after FloatLib.hundredths (reconnectRun.take 3)).server.rfidClient =
        (handledConnections FloatLib.hundredths (reconnectRun.take 3)).getLast? ∧
      (Delivered FloatLib.hundredths (after FloatLib.hundredths (reconnectRun.take 3)) .on
          onCommand ↔
        ∃ c, (after FloatLib.hundredths (reconnectRun.take 3)).host = some c ∧
          c ∈ handledConnections FloatLib.hundredths (reconnectRun.take 3))) ∧
    written FloatLib.hundredths (after FloatLib.hundredths reconnectRun) .on =
        ((after FloatLib.hundredths reconnectRun).server.rfidClient, [onCommand]) ∧
      (after FloatLib.hundredths reconnectRun).server.rfidClient =
        (handledConnections FloatLib.hundredths reconnectRun).getLast? ∧
      (Delivered FloatLib.hundredths (after FloatLib.hundredths reconnectRun) .on onCommand ↔
        ∃ c, (after FloatLib.hundredths reconnectRun).host = some c ∧
          c ∈ handledConnections FloatLib.hundredths reconnectRun) :=
  ⟨delivered_iff FloatLib.hundredths (reconnectRun.take 3) .on onCommand rfl,
    delivered_iff FloatLib.hundredths reconnectRun .on onCommand rfl⟩

/-- Not every opening command reaches the RFID node, although all connects succeed: not
before its first request is handled, and not after it has reconnected. -/
theorem delivered_counterexample :
    ¬ (∀ (events : List (Event ℤ)) (e : Event ℤ) (command : Str),
        (∀ uid a, .scan uid a ∈ events → a.connects = true) →
        openingCommand (after FloatLib.hundredths events) e = some command →
          Delivered FloatLib.hundredths (after FloatLib.hundredths events) e command) ∧
    (∀ uid a, .scan uid a ∈ reconnectRun → a.connects = true) ∧
    ¬ Delivered FloatLib.hundredths (after FloatLib.hundredths reconnectRun) .on onCommand := by
  refine ⟨fun h => ?_, ?_, ?_⟩
  · have hboot := h [] .on onCommand (by intro uid a hmem; cases hmem) rfl
    exact absurd hboot (by unfold Delivered; decide)
  · intro uid a hmem
    simp only [reconnectRun, List.mem_cons, List.not_mem_nil, or_false, false_or, reduceCtorEq,
      Event.scan.injEq] at hmem
    rcases hmem with ⟨-, rfl⟩ | ⟨-, rfl⟩
    · rfl
    · rfl
  · unfold Delivered
    decide

end HomeMonitor.Network
