import HomeMonitor.Network.System
import HomeMonitor.RFID.Scan
import HomeMonitor.Keypad.Decisions
import Mathlib.Algebra.Order.BigOperators.Group.List
import Mathlib.Algebra.Order.Group.Nat
import Mathlib.Algebra.GroupWithZero.Nat

/-! Every opening of the door has a cause. Some letters stand once in each text that can
open the door and in no other text, and reading, cutting, splitting and merging texts
creates no letters. -/
namespace HomeMonitor.Network
open HomeMonitor.Arduino HomeMonitor.AsyncWebserver HomeMonitor.Machine HomeMonitor.RFID

variable {F : Type*}

/-- One for each opening command in a text of replies: of `Open`, `Martin`, `Magnus`, `OK`. -/
def replyWeight (s : Str) : ℕ := s.countP (· ∈ "pMK".toList)

/-- One for each granting status in a text of requests: of `GRANTED`, `Martin`, `Magnus`. -/
def requestWeight (s : Str) : ℕ := s.countP (· ∈ "GM".toList)

private theorem countP_infix_le {p : Char → Bool} {s t : Str} (h : s <:+: t) :
    s.countP p ≤ t.countP p := h.sublist.countP_le

private theorem one_le_countP {p : Char → Bool} {s lit : Str} (h : equalsLiteral s lit)
    (hlit : 1 ≤ lit.countP p) : 1 ≤ s.countP p := by
  unfold equalsLiteral at h
  rw [beq_iff_eq] at h
  rw [← h] at hlit
  exact hlit.trans (countP_infix_le (cstr_isPrefix s).isInfix)

theorem runServo_handleHostSubstring_le (s : Str) :
    (handleHostSubstring s).count .runServo ≤ replyWeight s := by
  have hone : ∀ l : List Action, l.count .runServo = 1 → 1 ≤ replyWeight s →
      l.count .runServo ≤ replyWeight s := fun l hl h => hl.trans_le h
  unfold handleHostSubstring
  split_ifs with h1 h2 h3 h4
  · exact hone _ (by decide) (one_le_countP h1 (by decide))
  · exact hone _ (by decide) (one_le_countP h2 (by decide))
  · exact hone _ (by decide) (one_le_countP h3 (by decide))
  · exact hone _ (by decide) (one_le_countP h4 (by decide))
  · exact Nat.zero_le _

theorem runServo_getHostMessage_le (s : Str) :
    (getHostMessage s).count .runServo ≤ replyWeight s := by
  unfold getHostMessage
  split_ifs
  · exact Nat.zero_le _
  · exact (runServo_handleHostSubstring_le _).trans
      (countP_infix_le (Framing.getSubstring_within s _))

/-- What the server prints weighs at most what it has read. -/
theorem replyWeight_clientRequest_le {Conn : Type*} (fl : FloatLib F) (s : State F Conn)
    (client : Conn) (request : Str) :
    replyWeight ((clientRequest fl s client request).2.flatMap println) ≤
      requestWeight request := by
  have hstatus : ∀ {id lit}, equalsLiteral (getClientSubstring request id) lit →
      1 ≤ requestWeight lit → 1 ≤ requestWeight request := fun {id _} h hlit =>
    (one_le_countP h hlit).trans (countP_infix_le (Framing.getSubstring_within request id))
  have hreply : ∀ reply, replyWeight ([reply].flatMap println) ≤ 1 → 1 ≤ requestWeight request →
      replyWeight ([reply].flatMap println) ≤ requestWeight request := fun _ h h' => h.trans h'
  have hnone : ∀ {reply}, replyWeight ([reply].flatMap println) = 0 →
      replyWeight ([reply].flatMap println) ≤ requestWeight request := fun h => h ▸ Nat.zero_le _
  rw [clientRequest_eq]
  cases hd : dispatch request with
  | none => exact Nat.zero_le _
  | some n =>
    cases n with
    | temHumLight => exact Nat.zero_le _
    | proximity => exact Nat.zero_le _
    | keypad =>
      unfold handleKeypadInput
      dsimp only
      split_ifs with h
      · exact hreply _ (by decide) (hstatus h (by decide))
      · exact hnone (by decide)
    | rfid =>
      unfold handleRFIDInput
      dsimp only
      split_ifs with h h'
      · exact hreply _ (by decide) (hstatus h (by decide))
      · exact hreply _ (by decide) (hstatus h' (by decide))
      · exact hnone (by decide)

theorem requestWeight_decision (s : Keypad.State) :
    requestWeight (println (Keypad.requestText (Keypad.decision s))) =
      if s.input_password = Keypad.password then 1 else 0 := by
  unfold Keypad.decision
  split_ifs <;> decide

theorem requestWeight_scan (uid : List UInt8) :
    ((scanMessages uid).map fun msg => requestWeight (println (requestText msg))).sum =
      if some (uidText uid) = IDs[0]? ∨ some (uidText uid) = IDs[2]? then 1 else 0 := by
  have h0 : IDs[0]? = some "2C76454A".toList := rfl
  have h2 : IDs[2]? = some "23475B1F".toList := rfl
  have hcard : "2C76454A".toList ≠ "B32CDF0E".toList := by decide
  have hcard' : "23475B1F".toList ≠ "B32CDF0E".toList := by decide
  rw [scanMessages_eq, h0, h2]
  simp only [Option.some_inj]
  generalize uidText uid = value
  generalize "2C76454A".toList = martin, "23475B1F".toList = magnus,
    "B32CDF0E".toList = card at *
  by_cases h1 : value = martin
  · rw [if_pos h1, if_pos (Or.inl h1)]
    decide
  by_cases h3 : value = magnus
  · rw [if_neg h1, if_neg (h3 ▸ hcard'), if_pos h3, if_pos (Or.inr h3)]
    decide
  have hneither : ¬ (value = martin ∨ value = magnus) := fun h => h.elim h1 h3
  rw [if_neg h1, if_neg h3, if_neg hneither]
  split_ifs <;> decide

theorem requestWeight_motion (high : Bool) :
    requestWeight (println (Proximity.requestText
      (if high then "detected".toList else "not detected".toList))) = 0 := by
  cases high <;> decide

theorem requestWeight_measure (fl : FloatLib F) (r : TemperatureNode.Reading F) :
    requestWeight (println (TemperatureNode.requestHost fl r)) = 0 := by
  have hzero : ∀ {x : Str}, (∀ c ∈ "GM".toList, c ∉ x) → requestWeight x = 0 := by
    intro x hx
    unfold requestWeight
    rw [List.countP_eq_zero]
    intro c hc
    simp only [decide_eq_true_eq]
    exact fun hmem => hx c hmem hc
  have hclean : ∀ c ∈ "GM".toList, c.isDigit = false ∧ c ∉ " -.ainf".toList ∧ c ≠ '-' :=
    forall_mem_of_all (by decide)
  have hfloat : ∀ v : F, requestWeight (fl.render v) = 0 := fun v =>
    hzero fun c hc => fl.not_mem_render v (hclean c hc).1 (hclean c hc).2.1
  have hint : requestWeight (TemperatureNode.renderInt r.lightValue) = 0 :=
    hzero fun c hc => TemperatureNode.not_mem_renderInt _ (hclean c hc).1 (hclean c hc).2.2
  unfold requestWeight at hfloat hint
  unfold requestWeight TemperatureNode.requestHost TemperatureNode.requestText println
  simp only [List.countP_append, hfloat, hint]
  decide

namespace System

/-- What a text on the wire can still open. -/
def potential (s : System F) : ℕ :=
  (s.pending.map fun p => requestWeight p.2).sum + replyWeight s.inbox

def openings (s : System F) (e : Event F) : ℕ := (s.actions e).count .runServo

/-- The events that may open the door: a `D` on the correct password, a scan of the first
or third enrolled tag, and a request for `/on`. -/
def cause (s : System F) : Event F → ℕ
  | .key key _ => if key = 'D' ∧ s.keypad.input_password = Keypad.password then 1 else 0
  | .scan uid _ => if some (uidText uid) = IDs[0]? ∨ some (uidText uid) = IDs[2]? then 1 else 0
  | .on => 1
  | _ => 0

theorem potential_request (s : System F) (r : HostResult) :
    (s.request r).potential = s.potential + requestWeight r.text := by
  cases r with
  | suppressed => rfl
  | noConnection => rfl
  | printed text =>
    unfold potential request
    simp only [List.map_append, List.sum_append, List.map_singleton, List.sum_singleton,
      HostResult.text]
    omega

theorem potential_requestRFID_le (s : System F) (r : HostResult) :
    (s.requestRFID r).potential ≤ s.potential + requestWeight r.text := by
  have hempty : replyWeight [] = 0 := rfl
  cases r with
  | suppressed => exact Nat.le_add_right _ _
  | noConnection =>
    unfold potential requestRFID
    simp only [hempty]
    omega
  | printed text =>
    unfold potential requestRFID
    simp only [List.map_append, List.sum_append, List.map_singleton, List.sum_singleton,
      HostResult.text, hempty]
    omega

theorem potential_scan_le (s : System F) (results : List HostResult) :
    (results.foldl requestRFID s).potential ≤
      s.potential + (results.map fun r => requestWeight r.text).sum := by
  induction results generalizing s with
  | nil => exact Nat.le_add_right _ _
  | cons r results ih =>
    have hfirst := s.potential_requestRFID_le r
    have hrest := ih (s.requestRFID r)
    simp only [List.foldl_cons, List.map_cons, List.sum_cons]
    omega

theorem potential_print_le (s : System F) (lines : List Str) :
    (s.print lines).potential ≤ s.potential + replyWeight (lines.flatMap println) := by
  unfold print
  split_ifs
  · unfold potential replyWeight
    simp only [List.countP_append]
    omega
  · exact Nat.le_add_right _ _

theorem requestWeight_limited_le (previousRequest : BitVec 32) (text : Str) (a : Attempt) :
    requestWeight (limited previousRequest text a).2.text ≤ requestWeight (println text) := by
  unfold limited
  split_ifs
  · exact le_rfl
  · exact Nat.zero_le _
  · exact Nat.zero_le _

private theorem potential_report_le {s s' : System F} (hsame : s'.potential = s.potential)
    {r : HostResult} {charge : ℕ} (hweight : requestWeight r.text ≤ charge) :
    (s'.request r).potential ≤ charge + s.potential := by
  rw [potential_request, hsame, Nat.add_comm]
  exact Nat.add_le_add_right hweight _

theorem requestWeight_key_le (s : System F) (key : Char) (a : Attempt) :
    requestWeight ((Keypad.handleKeypad s.keypad key a).2.elim .suppressed Prod.snd).text ≤
      s.cause (.key key a) := by
  by_cases hD : key = 'D'
  · subst hD
    rw [Keypad.handleKeypad_D]
    unfold cause
    simp only [true_and]
    rw [← requestWeight_decision]
    exact requestWeight_limited_le _ _ a
  · rw [Keypad.handleKeypad_of_ne_D _ hD]
    exact Nat.zero_le _

theorem requestWeight_scan_le (s : System F) (uid : List UInt8) (a : Attempt) :
    ((checkRFID s.rfid uid a).2.map fun r => requestWeight r.text).sum ≤
      s.cause (.scan uid a) := by
  unfold cause
  dsimp only
  rw [← requestWeight_scan uid, checkRFID_results, List.map_map]
  exact List.sum_le_sum fun msg _ => requestWeight_limited_le _ _ a

/-- Handling a request turns what it can open into what its reply can open. -/
theorem potential_serve_le (s : System F) (fl : FloatLib F) (n : ℕ) :
    (s.serve fl n).potential ≤ s.potential := by
  unfold serve
  cases hp : s.pending with
  | nil => exact le_rfl
  | cons p rest =>
    obtain ⟨client, text⟩ := p
    dsimp only
    have hprint := ({ s with
        server := (clientRequest fl s.server client (arrived text n)).1
        pending := rest } : System F).potential_print_le
      (clientRequest fl s.server client (arrived text n)).2
    have hreply := replyWeight_clientRequest_le fl s.server client (arrived text n)
    have hread : requestWeight (arrived text n) ≤ requestWeight text :=
      countP_infix_le ((List.takeWhile_prefix _).trans (List.take_prefix n text)).isInfix
    have hsplit : s.potential = requestWeight text +
        ({ s with
          server := (clientRequest fl s.server client (arrived text n)).1
          pending := rest } : System F).potential := by
      unfold potential
      rw [hp, List.map_cons, List.sum_cons, Nat.add_assoc]
    omega

theorem potential_skip_le (s : System F) :
    ({ s with pending := s.pending.tail } : System F).potential ≤ s.potential := by
  unfold potential
  dsimp only
  apply Nat.add_le_add_right
  cases s.pending with
  | nil => exact le_rfl
  | cons p rest =>
    rw [List.tail_cons, List.map_cons, List.sum_cons]
    exact Nat.le_add_left _ _

/-- The RFID node opens the door for no more than it reads. -/
theorem openings_read_add_le (s : System F) (n : ℕ) :
    s.openings (.read n) + ({ s with inbox := s.inbox.drop n } : System F).potential ≤
      s.potential := by
  have hacts : s.openings (.read n) ≤ replyWeight (s.inbox.take n) :=
    runServo_getHostMessage_le _
  have hsplit : replyWeight s.inbox =
      replyWeight (s.inbox.take n) + replyWeight (s.inbox.drop n) := by
    unfold replyWeight
    rw [← List.countP_append, List.take_append_drop]
  unfold potential
  dsimp only
  omega

/-- No event opens the door, or makes an opening possible, without a cause. -/
theorem openings_add_potential_le (fl : FloatLib F) (s : System F) (e : Event F) :
    s.openings e + (s.step fl e).potential ≤ s.cause e + s.potential := by
  cases e with
  | key key a =>
    apply (Nat.zero_add _).trans_le
    exact potential_report_le rfl (s.requestWeight_key_le key a)
  | scan uid a =>
    apply (Nat.zero_add _).trans_le
    have hscan := ({ s with rfid := (checkRFID s.rfid uid a).1 } : System F).potential_scan_le
      (checkRFID s.rfid uid a).2
    rw [Nat.add_comm]
    exact hscan.trans (Nat.add_le_add_left (s.requestWeight_scan_le uid a) _)
  | motion high a =>
    apply (Nat.zero_add _).trans_le
    apply potential_report_le rfl
    change requestWeight _ ≤ 0
    rw [← requestWeight_motion high]
    cases high <;> exact requestWeight_limited_le _ _ a
  | measure r a =>
    apply (Nat.zero_add _).trans_le
    apply potential_report_le rfl
    change requestWeight _ ≤ 0
    rw [← requestWeight_measure fl r]
    exact requestWeight_limited_le _ _ a
  | on =>
    have hprint := s.potential_print_le [onCommand]
    have hweight : replyWeight ([onCommand].flatMap println) = 1 := by decide
    rw [hweight, Nat.add_comm] at hprint
    exact (Nat.zero_add _).trans_le hprint
  | serve n => exact Nat.add_le_add_left (s.potential_serve_le fl n) 0
  | skip => exact Nat.add_le_add_left s.potential_skip_le 0
  | read n => exact (s.openings_read_add_le n).trans (Nat.le_add_left _ _)

end System

open HomeMonitor.Network.System

/-- In every run the door has opened at most as often as it had a cause to. -/
theorem total_openings_le (fl : FloatLib F) (events : List (Event F)) :
    total (step fl) openings (boot fl) events ≤ total (step fl) cause (boot fl) events := by
  have hrun := total_add_potential_le (step fl) (I := fun _ => True) potential
    (fun _ _ _ => trivial) (fun s e _ => openings_add_potential_le fl s e) (s := boot fl) trivial
    events
  have hboot : (boot fl).potential = 0 := rfl
  omega

/-- The texts of the requests that ask for nothing: reports and denied attempts. -/
inductive Denying (fl : FloatLib F) : Str → Prop
  | keypad : Denying fl (println (Keypad.requestText "ACCESS DENIED".toList))
  | rfid : Denying fl (println (RFID.requestText "Access denied".toList))
  | motion (high : Bool) : Denying fl (println (Proximity.requestText
      (if high then "detected".toList else "not detected".toList)))
  | measure (r : TemperatureNode.Reading F) :
    Denying fl (println (TemperatureNode.requestHost fl r))

theorem requestWeight_of_denying {fl : FloatLib F} {text : Str} (h : Denying fl text) :
    requestWeight text = 0 := by
  cases h with
  | keypad => decide
  | rfid => decide
  | motion high => exact requestWeight_motion high
  | measure r => exact requestWeight_measure fl r

private theorem replyWeight_of_opening {r : Reply} (h : r.opening) : replyWeight r.line = 1 := by
  cases r <;> first | decide | exact absurd h (by decide)

/-- However a request that asks for nothing is cut, no opening command answers it. -/
theorem not_opening_of_denying {fl : FloatLib F} {text : Str} (h : Denying fl text) (n : ℕ)
    {Conn : Type*} (s : State F Conn) (client : Conn) {r : Reply} (hr : r.opening) :
    r.line ∉ (clientRequest fl s client (arrived text n)).2 := by
  intro hmem
  have hline : replyWeight r.line ≤
      replyWeight ((clientRequest fl s client (arrived text n)).2.flatMap println) := by
    apply countP_infix_le
    obtain ⟨before, after, hsplit⟩ := List.append_of_mem hmem
    rw [hsplit, List.flatMap_append, List.flatMap_cons]
    exact ⟨before.flatMap println, "\r\n".toList ++ after.flatMap println, by simp [println]⟩
  have hread : requestWeight (arrived text n) ≤ requestWeight text :=
    countP_infix_le ((List.takeWhile_prefix _).trans (List.take_prefix n text)).isInfix
  have hprinted := replyWeight_clientRequest_le fl s client (arrived text n)
  rw [replyWeight_of_opening hr] at hline
  rw [requestWeight_of_denying h] at hread
  omega

/-- However replies without an opening command are split and merged, the door stays shut. -/
theorem runServo_not_mem_of_denied {replies : List Reply} (h : ∀ r ∈ replies, ¬ r.opening)
    {chunk : Str} (hchunk : chunk <:+: replies.flatMap fun r => println r.line) :
    .runServo ∉ getHostMessage chunk := by
  have hline : ∀ r : Reply, ¬ r.opening → ∀ c ∈ println r.line, c ∉ "pMK".toList := by
    intro r hr
    cases r <;> first | exact forall_mem_of_all (by decide) | exact absurd rfl hr
  have hzero : replyWeight chunk = 0 := by
    unfold replyWeight
    rw [List.countP_eq_zero]
    intro c hc
    obtain ⟨r, hr, hcr⟩ := List.mem_flatMap.mp (hchunk.subset hc)
    simpa using hline r (h r hr) c hcr
  have hle := runServo_getHostMessage_le chunk
  rw [← List.count_eq_zero]
  omega

/-- In every run the door has opened at most as often as it had a cause to; no request
that asks for nothing is answered with an opening command, however it is cut, and replies
without one do not open the door, however they are split and merged. -/
theorem openings_caused (fl : FloatLib F) (events : List (Event F)) :
    total (step fl) openings (boot fl) events ≤ total (step fl) cause (boot fl) events ∧
    (∀ text, Denying fl text → ∀ (n : ℕ) (s : State F ℕ) (client : ℕ) (r : Reply), r.opening →
      r.line ∉ (clientRequest fl s client (arrived text n)).2) ∧
    (∀ replies : List Reply, (∀ r ∈ replies, ¬ r.opening) →
      ∀ chunk, chunk <:+: (replies.flatMap fun r => println r.line) →
        .runServo ∉ getHostMessage chunk) :=
  ⟨total_openings_le fl events,
    fun _ h n s client _ hr => not_opening_of_denying h n s client hr,
    fun _ h _ hchunk => runServo_not_mem_of_denied h hchunk⟩

/-- The stronger wording: besides, no cut request and no part of a reply ever opens. -/
structure NothingPartialOpens (fl : FloatLib F) (events : List (Event F)) : Prop where
  caused : total (step fl) openings (boot fl) events ≤ total (step fl) cause (boot fl) events
  request : Along (step fl) (fun s e => ∀ n client text rest, e = .serve n →
    s.pending = (client, text) :: rest → n < (readStringUntil CR text).length →
      ∀ r : Reply, r.opening → r.line ∉ (clientRequest fl s.server client (arrived text n)).2)
    (boot fl) events
  reply : Along (step fl) (fun s e => ∀ n r rest, e = .read n →
    s.inbox = println (Reply.line r) ++ rest → n < r.line.length → .runServo ∉ s.actions e)
    (boot fl) events

/-- A scan of an unknown card, its reply, the correct password, a request cut behind the frame
of its status, and a reply of which eleven bytes have arrived. -/
def cutRun : List (Event ℤ) :=
  [.scan [0x00, 0x01] ⟨2000, 2000, true⟩, .serve 100, .read 100] ++
    ("1111D".toList.map fun key => .key key ⟨4000, 4000, true⟩) ++ [.serve 32, .read 11]

/-- The cut request is answered with an opening command, and eleven bytes of the answer
open the door. -/
theorem nothingPartialOpens_counterexample :
    (¬ ∀ events, NothingPartialOpens FloatLib.hundredths events) ∧
    (after FloatLib.hundredths (cutRun.take 9)).inbox = println Reply.accessOK.line ∧
    11 < Reply.accessOK.line.length ∧
    .runServo ∈ (after FloatLib.hundredths (cutRun.take 9)).actions (.read 11) := by
  refine ⟨fun h => ?_, rfl, by decide, by decide⟩
  have hserve := (h cutRun).request (cutRun.take 8) (.serve 32) [.read 11] rfl 32 1
    (println (Keypad.requestText "ACCESS GRANTED".toList)) [] rfl rfl (by decide) .accessOK rfl
  exact absurd hserve (by decide)

end HomeMonitor.Network
