import HomeMonitor.Http.Response
import HomeMonitor.Machine.Simulation

/-! Responses that are delivered whole, whatever the client has room for at each event. -/
namespace HomeMonitor.Http
open HomeMonitor.Arduino HomeMonitor.Machine

/-- An acknowledgement of bytes, or a poll, which acknowledges none, and what the client has
room for then. -/
structure Event where
  len : ℕ
  space : ℕ
  deriving DecidableEq, Repr

namespace BasicResponse

/-- `_onAck` and `_onPoll`. -/
def answer (r : BasicResponse) (e : Event) : Str × BasicResponse :=
  if r.finished then ([], r) else r.ack e.len e.space

/-- A response to a message of `total` bytes, of which the last ones are not written. -/
structure Owes (total : ℕ) (rest : Str) (r : BasicResponse) : Prop where
  accounted : r.writtenLength + rest.length = total
  pending : (r.state = .CONTENT ∧ r.content = rest ∧
      r.contentLength = r.sentLength + rest.length) ∨
    (r.state = .WAIT_ACK ∧ rest = []) ∨ (r.state = .END ∧ rest = [] ∧ total ≤ r.ackedLength)

variable {total : ℕ} {rest : Str} {r : BasicResponse}

theorem ack_content (hstate : r.state = .CONTENT) (len space : ℕ) :
    r.ack len space =
      if r.contentLength - r.sentLength < space then
        { r with ackedLength := r.ackedLength + len, content := [], state := .WAIT_ACK }.written
          space (r.content.take (r.contentLength - r.sentLength))
      else
        { r with
          ackedLength := r.ackedLength + len
          content := r.content.drop space
          sentLength := r.sentLength + space }.written space (r.content.take space) := by
  unfold ack
  simp only [hstate]

theorem ack_wait (hstate : r.state = .WAIT_ACK) (len space : ℕ) :
    r.ack len space =
      ([], if r.writtenLength ≤ r.ackedLength + len then
          { r with ackedLength := r.ackedLength + len, state := .END }
        else { r with ackedLength := r.ackedLength + len }) := by
  unfold ack
  simp only [hstate]

theorem Owes.pays (h : Owes total rest r) (e : Event) :
    (r.answer e).1 = rest.take e.space ∧ Owes total (rest.drop e.space) (r.answer e).2 := by
  obtain ⟨haccounted, (⟨hstate, hcontent, hlength⟩ | ⟨hstate, rfl⟩ | ⟨hstate, rfl, hacked⟩)⟩ := h
  · have hopen : ¬ r.finished = true := by simp [WebServerResponse.finished_iff, hstate]
    have hleft : r.contentLength - r.sentLength = rest.length := by omega
    unfold answer
    rw [if_neg hopen, ack_content hstate, hleft, hcontent]
    by_cases hroom : rest.length < e.space
    · have hall : rest.take e.space = rest := List.take_of_length_le hroom.le
      have hnone : rest.drop e.space = [] := List.drop_of_length_le hroom.le
      rw [if_pos hroom, List.take_length, hall, hnone]
      unfold written write
      refine ⟨hall, ?_, Or.inr (Or.inl ⟨rfl, rfl⟩)⟩
      dsimp only
      rw [hall, List.length_nil]
      omega
    · have htake : (rest.take e.space).take e.space = rest.take e.space := by
        rw [List.take_take, Nat.min_self]
      rw [if_neg hroom]
      unfold written write
      refine ⟨htake, ?_, Or.inl ⟨hstate, rfl, ?_⟩⟩
      · dsimp only
        rw [htake, List.length_take, List.length_drop]
        omega
      · dsimp only
        rw [List.length_drop]
        omega
  · have hopen : ¬ r.finished = true := by simp [WebServerResponse.finished_iff, hstate]
    unfold answer
    rw [if_neg hopen, ack_wait hstate, List.take_nil, List.drop_nil]
    refine ⟨rfl, ?_⟩
    rw [List.length_nil, Nat.add_zero] at haccounted
    by_cases hacked : r.writtenLength ≤ r.ackedLength + e.len
    · dsimp only
      rw [if_pos hacked]
      exact ⟨haccounted, Or.inr (Or.inr ⟨rfl, rfl, haccounted ▸ hacked⟩)⟩
    · dsimp only
      rw [if_neg hacked]
      exact ⟨haccounted, Or.inr (Or.inl ⟨hstate, rfl⟩)⟩
  · have hdone : r.finished = true := by simp [WebServerResponse.finished_iff, hstate]
    unfold answer
    rw [if_pos hdone, List.take_nil, List.drop_nil]
    exact ⟨rfl, haccounted, Or.inr (Or.inr ⟨hstate, rfl, hacked⟩)⟩

theorem Owes.of_finished (h : Owes total rest r) (hfinished : r.finished = true) :
    rest = [] ∧ total ≤ r.ackedLength := by
  rw [WebServerResponse.finished_iff] at hfinished
  rcases h.pending with ⟨hstate, -⟩ | ⟨hstate, -⟩ | ⟨-, hrest, hacked⟩
  · simp [hstate] at hfinished
  · simp [hstate] at hfinished
  · exact ⟨hrest, hacked⟩

theorem Owes.of_written {message data : Str} {space window : ℕ} (hzero : r.writtenLength = 0)
    (hdata : data.take space = message.take window)
    (hpending : (r.state = .CONTENT ∧ r.content = message.drop window ∧
        r.contentLength = r.sentLength + (message.drop window).length) ∨
      (r.state = .WAIT_ACK ∧ message.drop window = [])) :
    (r.written space data).1 = message.take window ∧
      Owes message.length (message.drop window) (r.written space data).2 := by
  unfold written write
  refine ⟨hdata, ?_, ?_⟩
  · dsimp only
    rw [hdata, hzero, List.length_take, List.length_drop]
    omega
  · rcases hpending with hcontent | hwait
    · exact Or.inl hcontent
    · exact Or.inr (Or.inl hwait)

/-- A window that ends with the head, in front of a content, is not used. -/
def firstWindow (head content : Str) (space : ℕ) : ℕ :=
  if content ≠ [] ∧ space = head.length then 0 else space

theorem respond_pays (code : ℕ) (contentType content : Str) (version space : ℕ) :
    let r := new code contentType content
    let message := r.assembleHead version ++ content
    let window := firstWindow (r.assembleHead version) content space
    (r.respond version space).1 = message.take window ∧
      Owes message.length (message.drop window) (r.respond version space).2 := by
  intro r message window
  have hlength : r.contentLength = content.length := rfl
  have hcontent : r.content = content := rfl
  have hmessage : message.length = (r.assembleHead version).length + content.length :=
    List.length_append
  have hfirst : (content = [] ∨ space ≠ (r.assembleHead version).length) → window = space := by
    intro h
    refine if_neg fun hboth => ?_
    rcases h with h | h
    · exact hboth.1 h
    · exact h hboth.2
  unfold respond
  dsimp only
  rw [hlength, hcontent]
  split_ifs with hnone hall hhead hpart
  · have hempty : content = [] := List.length_eq_zero_iff.mp hnone.1
    have hwhole : message = r.assembleHead version := by
      show r.assembleHead version ++ content = _
      rw [hempty, List.append_nil]
    rw [hfirst (Or.inl hempty)]
    refine Owes.of_written rfl (by rw [hwhole]) (Or.inr ⟨rfl, ?_⟩)
    exact List.drop_of_length_le (by omega)
  · rw [hfirst (Or.inr (by omega))]
    refine Owes.of_written rfl ?_ (Or.inr ⟨rfl, List.drop_of_length_le (by omega)⟩)
    rw [List.take_of_length_le (l := _ ++ _) (by rw [List.length_append])]
  · have hdrop : message.drop space = (r.assembleHead version).drop space ++ content :=
      List.drop_append_of_le_length hhead.2.le
    rw [hfirst (Or.inr (by omega))]
    refine Owes.of_written rfl ?_ (Or.inl ⟨rfl, hdrop.symm, ?_⟩)
    · rw [List.take_take, Nat.min_self]
      exact (List.take_append_of_le_length hhead.2.le).symm
    · show content.length + ((r.assembleHead version).length - space) = 0 + _
      rw [List.length_drop, hmessage]
      omega
  · have hdrop : message.drop space =
        content.drop (space - (r.assembleHead version).length) := by
      show (r.assembleHead version ++ content).drop space = _
      rw [List.drop_append, List.drop_of_length_le hpart.1.le, List.nil_append]
    rw [hfirst (Or.inr (by omega))]
    refine Owes.of_written rfl ?_ (Or.inl ⟨rfl, hdrop.symm, ?_⟩)
    · have htake : message.take space =
          r.assembleHead version ++ content.take (space - (r.assembleHead version).length) := by
        show (r.assembleHead version ++ content).take space = _
        rw [List.take_append, List.take_of_length_le hpart.1.le]
      have hshort : (r.assembleHead version ++
          content.take (space - (r.assembleHead version).length)).length ≤ space := by
        rw [List.length_append, List.length_take]
        omega
      have hlen : (r.assembleHead version).length +
          (space - (r.assembleHead version).length) = space := by omega
      rw [hlen, List.take_take, Nat.min_self, htake, List.take_of_length_le hshort]
    · show content.length = 0 + (space - (r.assembleHead version).length) + _
      rw [hdrop, List.length_drop]
      omega
  · have hwindow : window = 0 := by
      show (if _ then _ else _) = 0
      rw [ite_eq_left_iff]
      intro hend
      by_cases hempty : content = []
      · rw [hempty] at hnone
        simp only [List.length_nil, true_and] at hnone
        omega
      · have hspace : space ≠ (r.assembleHead version).length := fun h => hend ⟨hempty, h⟩
        have hpos := List.length_pos_of_ne_nil hempty
        omega
    rw [hwindow]
    refine ⟨rfl, ?_, Or.inl ⟨rfl, rfl, ?_⟩⟩
    · exact Nat.zero_add _
    · show content.length + (r.assembleHead version).length = 0 + message.length
      omega

/-- Whatever the client has room for and whenever, it gets the head and the content, in order
and without a gap: as much of them as the windows add up to. The response is finished only
when all of it is acknowledged. -/
theorem written_eq_take (code : ℕ) (contentType content : Str) (version space : ℕ)
    (events : List Event) :
    let r := new code contentType content
    let message := r.assembleHead version ++ content
    let response := (r.respond version space).2
    let window := firstWindow (r.assembleHead version) content space
    (r.respond version space).1 ++ (outputs answer response events).flatten =
        message.take (window + (events.map Event.space).sum) ∧
      ((run (fun r e => (r.answer e).2) response events).finished →
        message.length ≤ window + (events.map Event.space).sum ∧
          message.length ≤ (run (fun r e => (r.answer e).2) response events).ackedLength) := by
  intro r message response window
  obtain ⟨hfirst, howes⟩ := respond_pays code contentType content version space
  have hpays : ∀ e ∈ events, ∀ rest (r : BasicResponse), Owes message.length rest r →
      (r.answer e).1 = rest.take e.space ∧
        Owes message.length (rest.drop e.space) (r.answer e).2 := fun e _ _ _ h => h.pays e
  obtain ⟨houts, hend⟩ := outputs_flatten hpays howes
  constructor
  · rw [List.take_add]
    exact congrArg₂ (· ++ ·) hfirst houts
  · intro hfinished
    obtain ⟨hrest, hacked⟩ := hend.of_finished hfinished
    rw [List.drop_drop, List.drop_eq_nil_iff] at hrest
    exact ⟨hrest, hacked⟩

end BasicResponse
end HomeMonitor.Http
