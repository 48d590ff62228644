import HomeMonitor.Network.Opening
import HomeMonitor.Network.Routing

/-! From the correct password to the lock: the request waits its turn, and the answer reaches the
RFID node if the server knows the node's connection by then. -/
namespace HomeMonitor.Network
open HomeMonitor.Arduino HomeMonitor.AsyncWebserver HomeMonitor.Framing HomeMonitor.Machine
  HomeMonitor.RFID
open HomeMonitor.Network.System

variable {F : Type*}

/-- Requests arrive whole, no connection is closed, and the RFID node reads what the server has
printed before the server prints the next line. -/
def Lossless (s : System F) : Event F → Prop
  | .scan _ _ => False
  | .skip => False
  | .serve n =>
    s.inbox = [] ∧ ∀ p rest, s.pending = p :: rest → (readStringUntil CR p.2).length ≤ n
  | .on => s.inbox = []
  | .read n => s.inbox.length ≤ n
  | _ => True

def isServe : Event F → Bool
  | .serve _ => true
  | _ => false

def granted : Str := println (Keypad.requestText "ACCESS GRANTED".toList)

theorem read_granted : dispatch (readStringUntil CR granted) = some .keypad ∧
    getClientSubstring (readStringUntil CR granted) ['k'] = "ACCESS GRANTED".toList := by
  decide

theorem reply_granted (fl : FloatLib F) {Conn : Type*} (s : State F Conn) (client : Conn) :
    (clientRequest fl s client (readStringUntil CR granted)).2 = [Reply.accessOK.line] := by
  have hreply : replyTo (readStringUntil CR granted) = some .accessOK := by
    unfold replyTo
    rw [read_granted.1]
    dsimp only
    rw [read_granted.2]
    rfl
  rw [clientRequest_replies fl s client (by decide), hreply]
  rfl

/-- A granting request waits behind `k` others. The server knows the connection that the RFID node
holds, or it reads the RFID request of that connection before. -/
structure Waiting (c k : ℕ) (s : System F) : Prop where
  routed : ∃ handled, Routed handled s
  host : s.host = some c
  queued : ∃ before n rest, s.pending = before ++ (n, granted) :: rest ∧ before.length = k ∧
    (s.server.rfidClient = some c ∨
      ∃ text, (c, text) ∈ before ∧ dispatch (readStringUntil CR text) = some .rfid)

/-- An event that only adds to the requests. -/
structure Adds (s s' : System F) : Prop where
  server : s'.server = s.server
  host : s'.host = s.host
  inbox : s'.inbox = s.inbox
  pending : ∃ more, s'.pending = s.pending ++ more

theorem Adds.of_request {s s' : System F} (h : Adds s s') (r : HostResult) :
    Adds s (s'.request r) := by
  obtain ⟨hserver, hhost, hinbox, more, hpending⟩ := h
  cases r with
  | suppressed => exact ⟨hserver, hhost, hinbox, more, hpending⟩
  | noConnection => exact ⟨hserver, hhost, hinbox, more, hpending⟩
  | printed text =>
    refine ⟨hserver, hhost, hinbox, more ++ [(s'.accepted, text)], ?_⟩
    show s'.pending ++ _ = _
    rw [hpending, List.append_assoc]

theorem adds_step (fl : FloatLib F) (s : System F) {e : Event F} (h : Lossless s e) :
    Adds s (s.step fl e) ∨ (∃ n, e = .serve n) ∨ e = .on ∨ ∃ n, e = .read n := by
  have hrefl : ∀ {s' : System F}, s'.server = s.server → s'.host = s.host →
      s'.inbox = s.inbox → s'.pending = s.pending → Adds s s' := by
    intro s' hserver hhost hinbox hpending
    exact ⟨hserver, hhost, hinbox, [], by rw [hpending, List.append_nil]⟩
  cases e with
  | key key a =>
    have hkeypad : Adds s { s with keypad := (Keypad.handleKeypad s.keypad key a).1 } :=
      hrefl rfl rfl rfl rfl
    exact Or.inl (hkeypad.of_request _)
  | motion high a =>
    have hproximity : Adds s { s with proximity := (Proximity.loop s.proximity high a).1 } :=
      hrefl rfl rfl rfl rfl
    exact Or.inl (hproximity.of_request _)
  | measure r a =>
    have htemperature : Adds s
        { s with temperature := (TemperatureNode.loop fl s.temperature r a).1 } :=
      hrefl rfl rfl rfl rfl
    exact Or.inl (htemperature.of_request _)
  | scan uid a => cases h
  | skip => cases h
  | serve n => exact Or.inr (Or.inl ⟨n, rfl⟩)
  | on => exact Or.inr (Or.inr (Or.inl rfl))
  | read n => exact Or.inr (Or.inr (Or.inr ⟨n, rfl⟩))

section

variable {c k : ℕ} {s : System F}

theorem arrived_whole {text : Str} {n : ℕ} (h : (readStringUntil CR text).length ≤ n) :
    arrived text n = readStringUntil CR text := by
  unfold arrived
  rw [readStringUntil_take]
  exact List.take_of_length_le h

/-- In front of the granting request there is no RFID request of another connection than the one
that the node holds, once that one has been handled. -/
theorem Waiting.not_rfid {handled : Set ℕ} (hrouted : Routed handled s) (hhost : s.host = some c)
    (hclient : s.server.rfidClient = some c) {p : ℕ × Str} (hp : p ∈ s.pending) : NotRFID p.2 := by
  by_contra hrfid
  have hmem := (hrouted.client_eq_host_iff hhost).mp hclient
  have hlt := (hrouted.handled_lt c hmem).2 p hp
  have hle := hrouted.latest p hp hrfid c hhost
  omega

theorem Waiting.serve_front (fl : FloatLib F) (h : Waiting c (k + 1) s) {m : ℕ}
    (hlossless : Lossless s (.serve m : Event F)) : Waiting c k (s.step fl (.serve m)) := by
  obtain ⟨⟨handled, hrouted⟩, hhost, before, n, rest, hpending, hlength, hknown⟩ := h
  obtain ⟨⟨client, text⟩, before, rfl⟩ := List.exists_cons_of_length_eq_add_one hlength
  have hwhole := arrived_whole (hlossless.2 _ _ hpending)
  dsimp only at hwhole
  have hserve : s.step fl (.serve m) = ({ s with
      server := (clientRequest fl s.server client (readStringUntil CR text)).1
      pending := before ++ (n, granted) :: rest } : System F).print
        (clientRequest fl s.server client (readStringUntil CR text)).2 := by
    show s.serve fl m = _
    unfold System.serve
    rw [hpending]
    dsimp only [List.cons_append]
    rw [hwhole]
  obtain ⟨hserver, hhost', hpending'⟩ := print_same ({ s with
    server := (clientRequest fl s.server client (readStringUntil CR text)).1
    pending := before ++ (n, granted) :: rest } : System F)
    (clientRequest fl s.server client (readStringUntil CR text)).2
  have hclient := clientRequest_rfidClient fl s.server client (readStringUntil CR text)
  refine ⟨⟨_, hrouted.step fl (.serve m)⟩, ?_, before, n, rest, ?_, ?_, ?_⟩
  · rw [hserve, hhost']
    exact hhost
  · rw [hserve, hpending']
  · exact Nat.succ.inj hlength
  · rw [hserve, hserver]
    dsimp only
    rw [hclient]
    rcases hknown with hknown | ⟨text', hmem, hrfid⟩
    · have hnot := Waiting.not_rfid hrouted hhost hknown (p := (client, text))
        (by rw [hpending]; exact List.mem_cons_self) (readStringUntil CR text).length
      rw [arrived_whole le_rfl] at hnot
      rw [if_neg hnot]
      exact Or.inl hknown
    · rcases List.mem_cons.mp hmem with heq | hmem
      · obtain ⟨rfl, rfl⟩ := Prod.mk.inj heq
        rw [if_pos hrfid]
        exact Or.inl rfl
      · exact Or.inr ⟨text', hmem, hrfid⟩

/-- The server reads the granting request: its answer goes to the RFID node. -/
theorem Waiting.serve_granted (fl : FloatLib F) (h : Waiting c 0 s) {m : ℕ}
    (hlossless : Lossless s (.serve m : Event F)) :
    (s.step fl (.serve m)).inbox = println Reply.accessOK.line := by
  obtain ⟨-, hhost, before, n, rest, hpending, hlength, hknown⟩ := h
  obtain rfl := List.length_eq_zero_iff.mp hlength
  have hclient : s.server.rfidClient = some c := by
    rcases hknown with hknown | ⟨text, hmem, -⟩
    · exact hknown
    · cases hmem
  have hwhole := arrived_whole (hlossless.2 _ _ hpending)
  dsimp only at hwhole
  have hsame : (clientRequest fl s.server n (readStringUntil CR granted)).1.rfidClient =
      some c := by
    rw [clientRequest_rfidClient, read_granted.1]
    exact hclient
  show (s.serve fl m).inbox = _
  unfold System.serve
  rw [hpending]
  dsimp only [List.nil_append]
  rw [hwhole, reply_granted]
  unfold System.print
  rw [if_pos]
  · show s.inbox ++ _ = _
    rw [hlossless.1]
    exact List.append_nil _
  · dsimp only
    rw [hsame, hhost]
    exact ⟨rfl, rfl⟩

theorem Waiting.keep (fl : FloatLib F) (h : Waiting c k s) {e : Event F} (hlossless : Lossless s e)
    (hserve : isServe e = false) : Waiting c k (s.step fl e) := by
  obtain ⟨⟨handled, hrouted⟩, hhost, before, n, rest, hpending, hlength, hknown⟩ := h
  have hrouted' := hrouted.step fl e
  rcases adds_step fl s hlossless with hadds | ⟨m, rfl⟩ | rfl | ⟨m, rfl⟩
  · obtain ⟨hserver, hhost', -, more, hmore⟩ := hadds
    refine ⟨⟨_, hrouted'⟩, hhost'.trans hhost, before, n, rest ++ more, ?_, hlength, ?_⟩
    · rw [hmore, hpending, List.append_assoc]
      rfl
    · rw [hserver]
      exact hknown
  · cases hserve
  · obtain ⟨hserver, hhost', hpending'⟩ := print_same s [onCommand]
    refine ⟨⟨_, hrouted'⟩, hhost'.trans hhost, before, n, rest, hpending'.trans hpending,
      hlength, ?_⟩
    show (s.print _).server.rfidClient = _ ∨ _
    rw [hserver]
    exact hknown
  · exact ⟨⟨_, hrouted'⟩, hhost, before, n, rest, hpending, hlength, hknown⟩

/-- The answer is on its way until the node reads it, and then it opens the door. -/
theorem opens_of_answered (fl : FloatLib F) {events : List (Event F)}
    (h : s.inbox = println Reply.accessOK.line) (hlossless : Along (step fl) Lossless s events)
    (hread : ∃ n, .read n ∈ events) :
    ∃ back n rest, events = back ++ .read n :: rest ∧ (∀ m, .read m ∉ back) ∧
      0 < openings (run (step fl) s back) (.read n) := by
  induction events generalizing s with
  | nil =>
    obtain ⟨n, hmem⟩ := hread
    cases hmem
  | cons e events ih =>
    obtain ⟨hfirst, hrest⟩ := (along_cons (step fl)).mp hlossless
    have hne : s.inbox ≠ [] := by
      rw [h]
      decide
    by_cases hisRead : ∃ n, e = .read n
    · obtain ⟨n, rfl⟩ := hisRead
      refine ⟨[], n, events, rfl, fun m => List.not_mem_nil, ?_⟩
      rw [run_nil]
      unfold openings actions
      dsimp only
      rw [List.take_of_length_le hfirst, h]
      decide
    · have hlater : ∃ n, .read n ∈ events := by
        obtain ⟨n, hmem⟩ := hread
        exact ⟨n, (List.mem_cons.mp hmem).resolve_left fun heq => hisRead ⟨n, heq.symm⟩⟩
      have hinbox : (s.step fl e).inbox = println Reply.accessOK.line := by
        rcases adds_step fl s hfirst with hadds | ⟨n, rfl⟩ | rfl | hread
        · exact hadds.inbox.trans h
        · exact absurd hfirst.1 hne
        · exact absurd hfirst hne
        · exact absurd hread hisRead
      obtain ⟨back, n, rest, hsplit, hback, hopens⟩ := ih hinbox hrest hlater
      refine ⟨e :: back, n, rest, ?_, fun m hmem => ?_, hopens⟩
      · rw [hsplit, List.cons_append]
      · rcases List.mem_cons.mp hmem with heq | hmem
        · exact hisRead ⟨m, heq.symm⟩
        · exact hback m hmem

/-- After `k` requests the server reads a granting one, its answer goes to the RFID node, and the
door opens when the node next reads its inbox. -/
def Unlocks (fl : FloatLib F) (k : ℕ) (s : System F) (events : List (Event F)) : Prop :=
  ∃ front m back n rest, events = front ++ .serve m :: (back ++ .read n :: rest) ∧
    front.countP isServe = k ∧
    (run (step fl) s front).pending.head?.map Prod.snd = some granted ∧
    (run (step fl) s (front ++ [.serve m])).inbox = println Reply.accessOK.line ∧
    (∀ m', .read m' ∉ back) ∧
    0 < openings (run (step fl) s (front ++ .serve m :: back)) (.read n)

theorem Unlocks.cons {fl : FloatLib F} {e : Event F} {events : List (Event F)}
    (h : Unlocks fl k (s.step fl e) events) :
    Unlocks fl (k + if isServe e then 1 else 0) s (e :: events) := by
  obtain ⟨front, m, back, n, rest, hsplit, hcount, houtcome⟩ := h
  refine ⟨e :: front, m, back, n, rest, ?_, ?_, houtcome⟩
  · rw [hsplit, List.cons_append]
  · rw [List.countP_cons, hcount]

theorem unlocks_of_waiting (fl : FloatLib F) {first second : List (Event F)} (h : Waiting c k s)
    (hlossless : Along (step fl) Lossless s (first ++ second)) (hserved : k < first.countP isServe)
    (hread : ∃ n, .read n ∈ second) : Unlocks fl k s (first ++ second) := by
  induction first generalizing k s with
  | nil => cases hserved
  | cons e first ih =>
    obtain ⟨hfirst, hrest⟩ := (along_cons (step fl)).mp hlossless
    rw [List.cons_append]
    cases hserve : isServe e with
    | false =>
      rw [List.countP_cons_of_neg (by rw [hserve]; exact Bool.false_ne_true)] at hserved
      have hlater := (ih (h.keep fl hfirst hserve) hrest hserved).cons
      rw [hserve] at hlater
      exact hlater
    | true =>
      rw [List.countP_cons_of_pos hserve] at hserved
      obtain ⟨m, rfl⟩ : ∃ m, e = .serve m := by
        cases e <;> first | exact ⟨_, rfl⟩ | cases hserve
      cases k with
      | zero =>
        obtain ⟨n, hmem⟩ := hread
        have hinbox := h.serve_granted fl hfirst
        obtain ⟨back, n, rest, hsplit, hback, hopens⟩ := opens_of_answered fl hinbox hrest
          ⟨n, List.mem_append_right first hmem⟩
        obtain ⟨-, -, before, client, pending, hpending, hlength, -⟩ := h
        refine ⟨[], m, back, n, rest, congrArg (_ :: ·) hsplit, rfl, ?_, hinbox, hback, hopens⟩
        rw [run_nil, hpending, List.length_eq_zero_iff.mp hlength]
        rfl
      | succ k => exact (ih (h.serve_front fl hfirst) hrest (by omega)).cons

end

/-- After any run: if the correct password has been typed, the limiter lets the request out and
the server is reached, then the request of a `D` opens the door: the server answers it behind the
requests that wait, and the next read of the RFID node turns the lock, as long as nothing is lost
on the way and the server knows the connection of the RFID node or is about to read its request. -/
theorem door_opens (fl : FloatLib F) (events : List (Event F)) {a : Attempt}
    (hpassword : (after fl events).keypad.input_password = Keypad.password)
    (hwindow : millis a.check - (after fl events).keypad.previousRequest > UPDATE_TIME)
    (hconnects : a.connects) {c : ℕ} (hhost : (after fl events).host = some c)
    (hknown : (after fl events).server.rfidClient = some c ∨
      ∃ text, (c, text) ∈ (after fl events).pending ∧
        dispatch (readStringUntil CR text) = some .rfid)
    {first second : List (Event F)}
    (hlossless : Along (step fl) Lossless (after fl events) (.key 'D' a :: (first ++ second)))
    (hserved : (after fl events).pending.length < first.countP isServe)
    (hread : ∃ n, .read n ∈ second) :
    Unlocks fl (after fl events).pending.length ((after fl events).step fl (.key 'D' a))
      (first ++ second) := by
  have hrouted := routed_after fl events
  obtain ⟨-, hrest⟩ := (along_cons (step fl)).mp hlossless
  generalize after fl events = s at *
  have hdecision : Keypad.decision s.keypad = "ACCESS GRANTED".toList := if_pos hpassword
  have hkey : s.step fl (.key 'D' a) =
      ({ s with keypad := (Keypad.handleKeypad s.keypad 'D' a).1 } : System F).request
        (.printed granted) := by
    show System.request _ ((Keypad.handleKeypad s.keypad 'D' a).2.elim _ _) = _
    rw [Keypad.handleKeypad_D, hdecision]
    dsimp only [Option.elim_some]
    unfold Keypad.requestHost limited
    rw [if_pos hwindow, if_pos hconnects]
    rfl
  have hwaiting : Waiting c s.pending.length (s.step fl (.key 'D' a)) := by
    have hrouted' := hrouted.step fl (.key 'D' a)
    rw [hkey] at hrouted' ⊢
    exact ⟨⟨_, hrouted'⟩, hhost, s.pending, s.accepted, [], rfl, rfl, hknown⟩
  exact unlocks_of_waiting fl hwaiting hrest hserved hread

/-- A scan of an unknown card, which connects the RFID node, and four keys. -/
def typedRun : List (Event ℤ) :=
  [.scan [0x00, 0x01] ⟨2000, 2000, true⟩, .serve 100, .read 100] ++
    "1111".toList.map fun key => .key key ⟨4000, 4000, true⟩

theorem door_opens_typed :
    Unlocks FloatLib.hundredths (after FloatLib.hundredths typedRun).pending.length
      ((after FloatLib.hundredths typedRun).step FloatLib.hundredths (.key 'D' ⟨4000, 4000, true⟩))
      ([.serve 100] ++ [.read 100]) := by
  have hlossless : Along (step FloatLib.hundredths) Lossless (after FloatLib.hundredths typedRun)
      (.key 'D' ⟨4000, 4000, true⟩ :: ([.serve 100] ++ [.read 100])) := by
    simp only [List.cons_append, List.nil_append, along_cons]
    refine ⟨trivial, ⟨by decide +kernel, ?_⟩, ?_, ?_⟩
    · intro p rest hp
      have hall : ∀ p ∈ (step FloatLib.hundredths (after FloatLib.hundredths typedRun)
          (.key 'D' ⟨4000, 4000, true⟩)).pending, (readStringUntil CR p.2).length ≤ 100 := by
        decide +kernel
      exact hall p (by rw [hp]; exact List.mem_cons_self)
    · show List.length _ ≤ 100
      decide +kernel
    · intro before e after hsplit
      simp at hsplit
  exact door_opens FloatLib.hundredths typedRun (by decide +kernel) (by decide +kernel) rfl
    (by decide +kernel : _ = some 0) (Or.inl (by decide +kernel)) hlossless (by decide +kernel)
    ⟨100, List.mem_singleton_self _⟩

end HomeMonitor.Network
