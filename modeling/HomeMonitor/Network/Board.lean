import HomeMonitor.Network.System
import HomeMonitor.Framing.Format
import HomeMonitor.Machine.Simulation
import HomeMonitor.RFID.Scan
import HomeMonitor.Keypad.Decisions
import HomeMonitor.Sensors.Reports

/-! What the nodes report and what the server shows of it: a board on which the last report of
each node stands, behind a queue that keeps the order of the reports and may lose some. -/
namespace HomeMonitor.Network
open HomeMonitor.Arduino HomeMonitor.AsyncWebserver HomeMonitor.Framing HomeMonitor.Machine
  HomeMonitor.Text

variable {F : Type*}

inductive Report (F : Type*)
  | measure (r : TemperatureNode.Reading F)
  | motion (high : Bool)
  | decision (granted : Bool)
  | scan (uid : List UInt8) (msg : Str) (h : msg ∈ RFID.scanMessages uid)

structure Board (F : Type*) where
  reading : Option (TemperatureNode.Reading F)
  motion : Option Bool
  granted : Option Bool
  access : Option {msg : Str // ∃ uid, msg ∈ RFID.scanMessages uid}

def Board.blank : Board F := ⟨none, none, none, none⟩

def Board.post (b : Board F) : Report F → Board F
  | .measure r => { b with reading := some r }
  | .motion high => { b with motion := some high }
  | .decision granted => { b with granted := some granted }
  | .scan uid msg h => { b with access := some ⟨msg, uid, h⟩ }

def board (reports : List (Report F)) : Board F := reports.foldl Board.post .blank

def decisionMessage (granted : Bool) : Str :=
  if granted then "ACCESS GRANTED".toList else "ACCESS DENIED".toList

/-- A number as it arrives: rendered by the node and parsed by the server. -/
def parsed (fl : FloatLib F) (value : TemperatureNode.Reading F → Str)
    (reading : Option (TemperatureNode.Reading F)) : F :=
  (reading.map fun r => fl.strtof (value r)).getD fl.zero

def Board.shown (fl : FloatLib F) (b : Board F) : F × F × F × Str × Str × Str :=
  (parsed fl (fun r => fl.render r.temperature) b.reading,
    parsed fl (fun r => fl.render r.humidity) b.reading,
    parsed fl (fun r => TemperatureNode.renderInt r.lightValue) b.reading,
    (b.motion.map Sensors.motionMessage).getD "No motion".toList,
    (b.granted.map decisionMessage).getD "No access".toList,
    (b.access.map Subtype.val).getD "No access".toList)

/-- The text of the request that a node prints for a report. -/
def Report.request (fl : FloatLib F) : Report F → Str
  | .measure r => TemperatureNode.requestHost fl r
  | .motion high => Proximity.requestText (Sensors.motionMessage high)
  | .decision granted => Keypad.requestText (decisionMessage granted)
  | .scan _ msg _ => RFID.requestText msg

/-- The limiter lets a request out, and the server is reached. -/
def Goes (previousRequest : BitVec 32) (a : Attempt) : Prop :=
  millis a.check - previousRequest > UPDATE_TIME ∧ a.connects

instance (previousRequest : BitVec 32) (a : Attempt) : Decidable (Goes previousRequest a) :=
  inferInstanceAs (Decidable (_ ∧ _))

def System.reports (s : System F) : Event F → List (Report F)
  | .key key a =>
    if key = 'D' ∧ Goes s.keypad.previousRequest a then
      [.decision (s.keypad.input_password = Keypad.password)]
    else []
  | .scan uid a =>
    if Goes s.rfid a then (RFID.scanMessages uid).attach.map fun msg => .scan uid msg.1 msg.2
    else []
  | .motion high a => if Goes s.proximity a then [.motion high] else []
  | .measure r a => if Goes s.temperature a then [.measure r] else []
  | _ => []

def sent (fl : FloatLib F) (s : System F) (events : List (Event F)) : List (Report F) :=
  (outputs (fun s e => (s.reports e, s.step fl e)) s events).flatten

/-- The requests that the server reads arrive whole. -/
def Whole (fl : FloatLib F) (s : System F) (events : List (Event F)) : Prop :=
  Along (System.step fl) (fun s e => ∀ n p rest, e = .serve n → s.pending = p :: rest →
    (readStringUntil CR p.2).length ≤ n) s events

theorem isValueText_scanMessage {uid : List UInt8} {msg : Str} (h : msg ∈ RFID.scanMessages uid) :
    IsValueText msg := by
  rw [RFID.scanMessages_eq] at h
  split_ifs at h
  · rw [List.mem_singleton.mp h]
    decide
  · cases h
  · rw [List.mem_singleton.mp h]
    decide
  · rw [List.mem_singleton.mp h]
    decide

theorem isValueText_motionMessage (high : Bool) : IsValueText (Sensors.motionMessage high) := by
  cases high <;> decide

theorem isValueText_decisionMessage (granted : Bool) : IsValueText (decisionMessage granted) := by
  cases granted <;> decide

theorem read_status (f : StatusFormat) {M : Str} (hM : IsValueText M) {n : Node}
    (hn : n.name = f.name) :
    dispatch (f.text M) = some n ∧ getClientSubstring (f.text M) [f.id] = M := by
  constructor
  · rw [f.dispatch_text_eq hM.nul n hn, if_neg (not_pair_infix_of_left_not_mem _ hM.closer)]
  · exact f.getSubstring_status hM.nul

theorem reported_report (fl : FloatLib F) {Conn : Type*} (s : State F Conn) (client : Conn)
    (r : Report F) {b : Board F} (h : s.reported = b.shown fl) :
    (clientRequest fl s client (readStringUntil CR (println (r.request fl)))).1.reported =
      (b.post r).shown fl := by
  obtain ⟨ht, hh, hl, hm, hk, ha⟩ :
      s.t = (b.shown fl).1 ∧ s.h = (b.shown fl).2.1 ∧ s.l = (b.shown fl).2.2.1 ∧
        s.motionStatus = (b.shown fl).2.2.2.1 ∧ s.keypadStatus = (b.shown fl).2.2.2.2.1 ∧
        s.rfidStatus = (b.shown fl).2.2.2.2.2 := by
    rw [← h]
    exact ⟨rfl, rfl, rfl, rfl, rfl, rfl⟩
  cases r with
  | measure r =>
    have hT := isValueText_render fl r.temperature
    have hH := isValueText_render fl r.humidity
    have hL := isValueText_renderInt r.lightValue
    obtain ⟨hname, hread⟩ := report_fields hT hH hL
    show (clientRequest fl s client (readStringUntil CR (println
      (TemperatureNode.requestText _ _ _)))).1.reported = _
    rw [read_report hT.cr hH.cr hL.cr, clientRequest_eq, hname]
    obtain ⟨ht', hh', hl'⟩ := hread
    show (fl.strtof (cstr (getClientSubstring _ ['t'])),
      fl.strtof (cstr (getClientSubstring _ ['h'])), fl.strtof (cstr (getClientSubstring _ ['l'])),
      s.motionStatus, s.keypadStatus, s.rfidStatus) = _
    rw [ht', hh', hl', cstr_eq_self hT.nul, cstr_eq_self hH.nul, cstr_eq_self hL.nul, hm, hk, ha]
    rfl
  | motion high =>
    have hM := isValueText_motionMessage high
    obtain ⟨hname, hstatus⟩ := read_status proximityFormat hM (rfl : Node.name .proximity = _)
    show (clientRequest fl s client (readStringUntil CR (println
      (Proximity.requestText _)))).1.reported = _
    rw [read_proximity_request hM.cr, clientRequest_eq, hname]
    show (s.t, s.h, s.l, getClientSubstring _ [proximityFormat.id], s.keypadStatus,
      s.rfidStatus) = _
    rw [hstatus, ht, hh, hl, hk, ha]
    rfl
  | decision granted =>
    have hM := isValueText_decisionMessage granted
    obtain ⟨hname, hstatus⟩ := read_status keypadFormat hM (rfl : Node.name .keypad = _)
    show (clientRequest fl s client (readStringUntil CR (println
      (Keypad.requestText _)))).1.reported = _
    rw [read_keypad_request hM.cr, clientRequest_eq, hname]
    show (s.t, s.h, s.l, s.motionStatus, getClientSubstring _ [keypadFormat.id], s.rfidStatus) = _
    rw [hstatus, ht, hh, hl, hm, ha]
    rfl
  | scan uid msg hmsg =>
    have hM := isValueText_scanMessage hmsg
    obtain ⟨hname, hstatus⟩ := read_status rfidFormat hM (rfl : Node.name .rfid = _)
    show (clientRequest fl s client (readStringUntil CR (println
      (RFID.requestText _)))).1.reported = _
    rw [read_rfid_request hM.cr, clientRequest_eq, hname]
    show (s.t, s.h, s.l, s.motionStatus, s.keypadStatus, getClientSubstring _ [rfidFormat.id]) = _
    rw [hstatus, ht, hh, hl, hm, hk]
    rfl

/-- The texts of the connections that the server has not served. -/
def System.texts (s : System F) : List Str := s.pending.map Prod.snd

/-- The board and the queue behind a state: the reports that the server has read and those that
wait are among those that have gone out, in their order. -/
structure Posted (fl : FloatLib F) (sent posted queue : List (Report F)) (s : System F) :
    Prop where
  order : (posted ++ queue).Sublist sent
  waiting : s.texts = queue.map fun r => println (r.request fl)
  shown : s.server.reported = (board posted).shown fl

def HostResult.lines : HostResult → List Str
  | .printed text => [text]
  | _ => []

theorem texts_request (s : System F) (r : HostResult) :
    (s.request r).texts = s.texts ++ HostResult.lines r := by
  cases r with
  | suppressed => exact (List.append_nil _).symm
  | noConnection => exact (List.append_nil _).symm
  | printed text => exact List.map_append

theorem texts_requestRFID (s : System F) (r : HostResult) :
    (s.requestRFID r).texts = s.texts ++ HostResult.lines r := by
  cases r with
  | suppressed => exact (List.append_nil _).symm
  | noConnection => exact (List.append_nil _).symm
  | printed text => exact List.map_append

theorem texts_scan (s : System F) (results : List HostResult) :
    (results.foldl System.requestRFID s).texts =
      s.texts ++ results.flatMap HostResult.lines := by
  induction results generalizing s with
  | nil => exact (List.append_nil _).symm
  | cons r results ih =>
    rw [List.foldl_cons, ih, texts_requestRFID, List.flatMap_cons, List.append_assoc]

theorem lines_limited (previousRequest : BitVec 32) (text : Str) (a : Attempt) :
    HostResult.lines (limited previousRequest text a).2 =
      if Goes previousRequest a then [println text] else [] := by
  unfold limited
  by_cases hgoes : Goes previousRequest a
  · rw [if_pos hgoes, if_pos hgoes.1, if_pos hgoes.2]
    rfl
  · rw [if_neg hgoes]
    split_ifs with hwindow hconnects
    · exact absurd ⟨hwindow, hconnects⟩ hgoes
    · rfl
    · rfl

theorem lines_report (fl : FloatLib F) (r : Report F) (previousRequest : BitVec 32) (a : Attempt) :
    HostResult.lines (limited previousRequest (r.request fl) a).2 =
      (if Goes previousRequest a then [r] else []).map fun r => println (r.request fl) := by
  rw [lines_limited]
  split_ifs <;> rfl

theorem texts_scan_step (s : System F) (fl : FloatLib F) (uid : List UInt8) (a : Attempt) :
    (s.step fl (.scan uid a)).texts = s.texts ++
      (s.reports (.scan uid a : Event F)).map fun r => println (r.request fl) := by
  show (List.foldl System.requestRFID _ (RFID.checkRFID s.rfid uid a).2).texts = _
  rw [texts_scan, RFID.checkRFID_results, List.flatMap_map]
  have hlines : ∀ msg, HostResult.lines (RFID.requestHost s.rfid msg a).2 =
      if Goes s.rfid a then [println (RFID.requestText msg)] else [] :=
    fun msg => lines_limited s.rfid (RFID.requestText msg) a
  simp only [hlines]
  unfold System.reports
  by_cases hgoes : Goes s.rfid a
  · simp only [if_pos hgoes]
    show s.texts ++ (RFID.scanMessages uid).flatMap _ = _
    rw [← List.map_eq_flatMap, List.map_map]
    congr 1
    exact List.attach_map_val.symm
  · simp only [if_neg hgoes]
    show s.texts ++ (RFID.scanMessages uid).flatMap _ = _
    simp

theorem lines_key (fl : FloatLib F) (s : System F) (key : Char) (a : Attempt) :
    HostResult.lines ((Keypad.handleKeypad s.keypad key a).2.elim .suppressed Prod.snd) =
      (s.reports (.key key a : Event F)).map fun r => println (r.request fl) := by
  show _ = List.map _ (if key = 'D' ∧ Goes s.keypad.previousRequest a then _ else [])
  by_cases hD : key = 'D'
  · have hmessage : Keypad.decision s.keypad =
        decisionMessage (s.keypad.input_password = Keypad.password) := by
      unfold Keypad.decision decisionMessage
      simp only [decide_eq_true_eq]
    rw [hD, Keypad.handleKeypad_D]
    simp only [true_and]
    rw [hmessage]
    exact lines_report fl (.decision (s.keypad.input_password = Keypad.password)) _ a
  · rw [Keypad.handleKeypad_of_ne_D _ hD, if_neg fun h => hD h.1]
    rfl

/-- A node puts the requests of its reports behind the others and leaves the server alone. -/
theorem texts_step (fl : FloatLib F) (s : System F) {e : Event F} (hserve : ∀ n, e ≠ .serve n)
    (hskip : e ≠ .skip) :
    (s.step fl e).texts = s.texts ++ (s.reports e).map (fun r => println (r.request fl)) ∧
      (s.step fl e).server = s.server := by
  cases e with
  | key key a =>
    constructor
    · show (System.request _ _).texts = _
      rw [texts_request, lines_key fl]
      rfl
    · exact System.request_server _ _
  | scan uid a => exact ⟨texts_scan_step s fl uid a, System.scan_server _ _⟩
  | motion high a =>
    constructor
    · show (System.request _ (Proximity.loop s.proximity high a).2).texts = _
      rw [texts_request, Sensors.proximity_loop_eq]
      exact congrArg (s.texts ++ ·) (lines_report fl (.motion high) s.proximity a)
    · exact System.request_server _ _
  | measure r a =>
    constructor
    · show (System.request _ (TemperatureNode.loop fl s.temperature r a).2).texts = _
      rw [texts_request]
      exact congrArg (s.texts ++ ·) (lines_report fl (.measure r) s.temperature a)
    · exact System.request_server _ _
  | on =>
    show (s.print _).texts = s.texts ++ [] ∧ (s.print _).server = s.server
    unfold System.print
    rw [List.append_nil]
    split_ifs
    · exact ⟨rfl, rfl⟩
    · exact ⟨rfl, rfl⟩
  | serve n => exact absurd rfl (hserve n)
  | skip => exact absurd rfl hskip
  | read n => exact ⟨(List.append_nil _).symm, rfl⟩

namespace Posted

variable {fl : FloatLib F} {sent posted queue : List (Report F)} {s : System F}

theorem boot : Posted fl [] [] [] (Network.boot fl) := ⟨List.Sublist.refl _, rfl, rfl⟩

/-- The oldest request is read in one piece: its report goes from the queue to the board. -/
theorem serve (h : Posted fl sent posted queue s) (n : ℕ)
    (hwhole : ∀ p rest, s.pending = p :: rest → (readStringUntil CR p.2).length ≤ n) :
    ∃ read queue', Posted fl sent (posted ++ read) queue' (s.serve fl n) ∧
      read ++ queue' = queue := by
  have hwaiting := h.waiting
  unfold System.texts at hwaiting
  unfold System.serve
  cases hp : s.pending with
  | nil =>
    rw [hp] at hwaiting
    refine ⟨[], queue, ?_, rfl⟩
    rw [List.append_nil]
    exact h
  | cons p rest =>
    obtain ⟨client, text⟩ := p
    rw [hp, List.map_cons] at hwaiting
    cases queue with
    | nil => cases hwaiting
    | cons r queue =>
      obtain ⟨rfl, hrest⟩ := List.cons.inj hwaiting
      have harrived : System.arrived (println (r.request fl)) n =
          readStringUntil CR (println (r.request fl)) := by
        unfold System.arrived
        rw [readStringUntil_take]
        exact List.take_of_length_le (hwhole _ rest hp)
      have hboard : board (posted ++ [r]) = (board posted).post r := List.foldl_concat ..
      have hshown := reported_report fl s.server client r h.shown
      refine ⟨[r], queue, ?_, rfl⟩
      dsimp only
      rw [harrived]
      unfold System.print
      split_ifs
      · exact ⟨by simpa using h.order, hrest, hboard ▸ hshown⟩
      · exact ⟨by simpa using h.order, hrest, hboard ▸ hshown⟩

theorem skip (h : Posted fl sent posted queue s) :
    Posted fl sent posted queue.tail { s with pending := s.pending.tail } where
  order := ((List.tail_sublist queue).append_left posted).trans h.order
  waiting := by
    have hwaiting := h.waiting
    unfold System.texts at hwaiting ⊢
    dsimp only
    rw [List.map_tail, hwaiting, List.map_tail]
  shown := h.shown

/-- An event puts the report that a node sends into the queue, takes one out of it and posts it
or loses it, or leaves both alone. None is lost unless a connection is closed. -/
theorem step (h : Posted fl sent posted queue s) (e : Event F)
    (hwhole : ∀ n p rest, e = .serve n → s.pending = p :: rest →
      (readStringUntil CR p.2).length ≤ n) :
    ∃ read queue', Posted fl (sent ++ s.reports e) (posted ++ read) queue' (s.step fl e) ∧
      (e ≠ .skip → read ++ queue' = queue ++ s.reports e) := by
  by_cases hserve : ∃ n, e = .serve n
  · obtain ⟨n, rfl⟩ := hserve
    obtain ⟨read, queue', hposted, hqueue⟩ := h.serve n fun p rest => hwhole n p rest rfl
    refine ⟨read, queue', ?_, fun _ => hqueue.trans (List.append_nil queue).symm⟩
    show Posted fl (sent ++ []) _ _ _
    rw [List.append_nil]
    exact hposted
  by_cases hskip : e = .skip
  · subst hskip
    refine ⟨[], queue.tail, ?_, fun hne => absurd rfl hne⟩
    show Posted fl (sent ++ []) _ _ _
    rw [List.append_nil, List.append_nil]
    exact h.skip
  · obtain ⟨htexts, hserver⟩ := texts_step fl s (fun n heq => hserve ⟨n, heq⟩) hskip
    refine ⟨[], queue ++ s.reports e, ⟨?_, ?_, ?_⟩, fun _ => rfl⟩
    · rw [List.append_nil, ← List.append_assoc]
      exact h.order.append_right _
    · rw [htexts, h.waiting, List.map_append]
    · rw [hserver, List.append_nil]
      exact h.shown

theorem run (h : Posted fl sent posted queue s) {events : List (Event F)}
    (hwhole : Whole fl s events) :
    ∃ read queue', Posted fl (sent ++ Network.sent fl s events) (posted ++ read) queue'
      (Machine.run (System.step fl) s events) ∧
      (.skip ∉ events → read ++ queue' = queue ++ Network.sent fl s events) := by
  induction events generalizing sent posted queue s with
  | nil =>
    refine ⟨[], queue, ?_, fun _ => (List.append_nil queue).symm⟩
    show Posted fl (sent ++ []) _ _ _
    rw [List.append_nil, List.append_nil]
    exact h
  | cons e events ih =>
    obtain ⟨hfirst, hrest⟩ := (along_cons (System.step fl)).mp hwhole
    obtain ⟨read, queue', hposted, hqueue⟩ := h.step e hfirst
    obtain ⟨more, queue'', hend, hqueue'⟩ := ih hposted hrest
    refine ⟨read ++ more, queue'', ?_, fun hskip => ?_⟩
    · rw [List.append_assoc, List.append_assoc] at hend
      exact hend
    · rw [List.mem_cons, not_or] at hskip
      rw [List.append_assoc, hqueue' hskip.2, ← List.append_assoc,
        hqueue fun heq => hskip.1 heq.symm, List.append_assoc]
      rfl

end Posted

/-- Two reports go out, and the second is read later. -/
def twoReports : List (Event ℤ) :=
  [.measure ⟨2150, 4000, 512⟩ ⟨2000, 2000, true⟩, .motion true ⟨2000, 2000, true⟩, .serve 200]

theorem whole_twoReports :
    Whole FloatLib.hundredths (boot FloatLib.hundredths) (twoReports ++ [.serve 200]) := by
  have hlength : ∀ n, n = 200 → ∀ s : System ℤ,
      (∀ p ∈ s.pending.head?, (readStringUntil CR p.2).length ≤ 200) →
      ∀ p rest, s.pending = p :: rest → (readStringUntil CR p.2).length ≤ n := by
    rintro n rfl s hs p rest hp
    exact hs p (by rw [hp]; rfl)
  unfold Whole twoReports
  simp only [List.cons_append, List.nil_append, along_cons]
  refine ⟨?_, ?_, ?_, ?_, ?_⟩
  · intro n p rest he
    cases he
  · intro n p rest he
    cases he
  · intro n p rest he
    injection he with hn
    exact hlength n hn.symm _ (by decide +kernel) p rest
  · intro n p rest he
    injection he with hn
    exact hlength n hn.symm _ (by decide +kernel) p rest
  · intro before e after hsplit
    simp at hsplit

end HomeMonitor.Network
