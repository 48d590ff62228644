import HomeMonitor.Http.Delivery

/-! Responses without a template callback. They keep a pointer to their content, and read it
when there is room for it. -/
namespace HomeMonitor.Http
open HomeMonitor.Arduino HomeMonitor.Machine

structure Progmem where
  response : AbstractResponse
  readLength : ℕ
  deriving DecidableEq, Repr

/-- An event, and the bytes that then stand at the pointer. -/
structure Visit extends Event where
  content : Str
  deriving DecidableEq, Repr

namespace Progmem

/-- The response of `send_P` before its first call of `_ack`. -/
def start (code : ℕ) (contentType : Str) (len version : ℕ) : Progmem where
  response := (AbstractResponse.progmem code contentType len false).prepare version
  readLength := 0

/-- What a call comes to with `_fillBuffer`, when the bytes stand at the pointer. -/
def serve (contentLength : ℕ) (content : Str) (readLength : ℕ) :
    Call (Str × AbstractResponse) → Str × Progmem
  | .ret (out, response) => (out, ⟨response, readLength⟩)
  | .fill n k =>
    let (data, readLength) := fillBuffer contentLength content readLength n
    let (out, response) := k data
    (out, ⟨response, readLength⟩)

/-- `_onAck` and `_onPoll`, and with no bytes acknowledged the call of `_ack` in `_respond`. -/
def answer (p : Progmem) (e : Visit) : Str × Progmem :=
  if p.response.finished then ([], p)
  else serve p.response.contentLength e.content p.readLength (p.response.ack e.len e.space)

/-- A response that is to send the content, and of its message still the last part. -/
structure Owes (content rest : Str) (p : Progmem) : Prop where
  plain : p.response.chunked = false ∧ p.response.sendContentLength = true
  length_eq : p.response.contentLength = content.length
  read_eq : p.readLength = p.response.sentLength
  pending : (p.response.state = .HEADERS ∧ p.response.sentLength = 0 ∧
      rest = p.response.head ++ content) ∨
    (p.response.state = .CONTENT ∧ p.response.head = [] ∧ p.response.sentLength < content.length ∧
      rest = content.drop p.response.sentLength) ∨
    ((p.response.state = .WAIT_ACK ∨ p.response.state = .END) ∧ rest = [])

theorem fillBuffer_eq {contentLength readLength n : ℕ} (h : n ≤ contentLength - readLength)
    (content : Str) :
    fillBuffer contentLength content readLength n =
      ((content.drop readLength).take n, readLength + n) := by
  unfold fillBuffer
  dsimp only
  by_cases hlt : n < contentLength - readLength
  · rw [if_pos hlt]
  · have heq : contentLength - readLength = n := by omega
    rw [if_neg hlt, heq]

theorem sendContent_eq {r : AbstractResponse}
    (h : r.chunked = false ∧ r.sendContentLength = true) (room space : ℕ) :
    r.sendContent room space = .fill (min (r.contentLength - r.sentLength) space) fun data =>
      (write room (r.head ++ data),
        { r with
          head := []
          writtenLength := r.writtenLength + (write room (r.head ++ data)).length
          sentLength := r.sentLength + data.length
          state := if r.sentLength + data.length = r.contentLength then .WAIT_ACK
            else r.state }) := by
  unfold AbstractResponse.sendContent
  simp [h]

variable {content rest : Str} {p : Progmem}

theorem content_pays {r : AbstractResponse}
    (hplain : r.chunked = false ∧ r.sendContentLength = true)
    (hlength : r.contentLength = content.length) (hstate : r.state = .CONTENT)
    (hsent : r.sentLength ≤ content.length) (space : ℕ) :
    let room := r.head.length + space
    let rest := r.head ++ content.drop r.sentLength
    let served := serve r.contentLength content r.sentLength (r.sendContent room space)
    served.1 = rest.take room ∧ Owes content (rest.drop room) served.2 := by
  intro room rest served
  have hdata : (content.drop r.sentLength).take (min (r.contentLength - r.sentLength) space) =
      (content.drop r.sentLength).take space := by
    rw [hlength, ← List.length_drop, ← List.take_take]
    exact List.take_of_length_le (List.length_take_le' _ _)
  have hdrop : rest.drop room = content.drop (r.sentLength + space) :=
    calc rest.drop room = (content.drop r.sentLength).drop space :=
          List.drop_length_add_append space
      _ = content.drop (r.sentLength + space) := List.drop_drop
  have hserved : served = serve r.contentLength content r.sentLength (r.sendContent room space) :=
    rfl
  rw [sendContent_eq hplain, serve, fillBuffer_eq (min_le_left _ _), hdata] at hserved
  rw [hserved, hdrop]
  refine ⟨?_, hplain, hlength, ?_, ?_⟩
  · show (r.head ++ _).take (r.head.length + space) = (r.head ++ _).take (r.head.length + space)
    rw [List.take_length_add_append, List.take_length_add_append, List.take_take, Nat.min_self]
  · dsimp only
    rw [List.length_take, List.length_drop, hlength, min_comm]
  · dsimp only
    rw [List.length_take, List.length_drop, hlength]
    by_cases hlast : r.sentLength + min space (content.length - r.sentLength) = content.length
    · rw [if_pos hlast]
      exact Or.inr (Or.inr ⟨Or.inl rfl, List.drop_of_length_le (by omega)⟩)
    · rw [if_neg hlast, hstate]
      have hfull : min space (content.length - r.sentLength) = space := by omega
      rw [hfull] at hlast ⊢
      exact Or.inr (Or.inl ⟨rfl, rfl, by omega, rfl⟩)

theorem Owes.pays (h : Owes content rest p) {e : Visit} (hcontent : e.content = content) :
    (p.answer e).1 = rest.take e.space ∧ Owes content (rest.drop e.space) (p.answer e).2 := by
  obtain ⟨hplain, hlength, hread, hpending⟩ := h
  have hopen : p.response.state ≠ .END → p.response.state ≠ .FAILED →
      p.answer e = serve p.response.contentLength content p.response.sentLength
        (p.response.ack e.len e.space) := by
    intro hend hfailed
    unfold answer
    rw [if_neg, hcontent, hread]
    rw [WebServerResponse.finished_iff]
    exact not_or.mpr ⟨hend, hfailed⟩
  rcases hpending with ⟨hstate, hsent, rfl⟩ | ⟨hstate, hhead, hsent, rfl⟩ | ⟨hstate | hstate, rfl⟩
  · rw [hopen (by simp [hstate]) (by simp [hstate]), AbstractResponse.ack_headers hstate]
    by_cases hroom : p.response.head.length ≤ e.space
    · have hrest : p.response.head ++ content =
          p.response.head ++ content.drop p.response.sentLength := by
        rw [hsent, List.drop_zero]
      have hpays := content_pays
        (r := { p.response with ackedLength := p.response.ackedLength + e.len, state := .CONTENT })
        hplain hlength rfl (by rw [hsent]; exact Nat.zero_le _)
        (e.space - p.response.head.length)
      dsimp only at hpays
      rw [Nat.add_sub_cancel' hroom] at hpays
      rw [if_pos hroom, hrest]
      exact hpays
    · have hless : e.space ≤ p.response.head.length := by omega
      rw [if_neg hroom, List.take_append_of_le_length hless,
        List.drop_append_of_le_length hless]
      unfold serve write
      rw [List.take_take, Nat.min_self]
      exact ⟨rfl, hplain, hlength, rfl, Or.inl ⟨hstate, hsent, rfl⟩⟩
  · rw [hopen (by simp [hstate]) (by simp [hstate]), AbstractResponse.ack_content hstate]
    have hrest : content.drop p.response.sentLength =
        p.response.head ++ content.drop p.response.sentLength := by
      rw [hhead, List.nil_append]
    have hroom : p.response.head.length + e.space = e.space := by
      rw [hhead, List.length_nil, Nat.zero_add]
    have hpays := content_pays
      (r := { p.response with ackedLength := p.response.ackedLength + e.len })
      hplain hlength hstate hsent.le e.space
    dsimp only at hpays
    rw [hroom, ← hrest] at hpays
    exact hpays
  · rw [hopen (by simp [hstate]) (by simp [hstate]), AbstractResponse.ack_wait hstate,
      List.take_nil, List.drop_nil]
    unfold serve
    refine ⟨rfl, ?_⟩
    dsimp only
    split_ifs
    · exact ⟨hplain, hlength, rfl, Or.inr (Or.inr ⟨Or.inr rfl, rfl⟩)⟩
    · exact ⟨hplain, hlength, rfl, Or.inr (Or.inr ⟨Or.inl hstate, rfl⟩)⟩
  · have hdone : p.response.finished = true := by simp [WebServerResponse.finished_iff, hstate]
    unfold answer
    rw [if_pos hdone, List.take_nil, List.drop_nil]
    exact ⟨rfl, hplain, hlength, hread, Or.inr (Or.inr ⟨Or.inr hstate, rfl⟩)⟩

theorem owes_start (code : ℕ) (contentType content : Str) (version : ℕ) :
    let p := start code contentType content.length version
    Owes content (p.response.head ++ content) p :=
  ⟨⟨rfl, rfl⟩, rfl, rfl, Or.inl ⟨rfl, rfl, rfl⟩⟩

theorem Owes.moved (h : Owes content rest p) (content' : Str)
    (hlength : content'.length = content.length) :
    ∃ rest', Owes content' rest' p ∧ rest'.length = rest.length ∧
      (rest ≠ [] → content ≠ [] →
        rest.getLast? = content.getLast? ∧ rest'.getLast? = content'.getLast?) := by
  obtain ⟨hplain, hcontent, hread, hpending⟩ := h
  rw [← hlength] at hcontent
  rcases hpending with ⟨hstate, hsent, rfl⟩ | ⟨hstate, hhead, hsent, rfl⟩ | ⟨hstate, rfl⟩
  · refine ⟨p.response.head ++ content', ⟨hplain, hcontent, hread, Or.inl ⟨hstate, hsent, rfl⟩⟩,
      by rw [List.length_append, List.length_append, hlength], fun _ hne => ?_⟩
    have hne' : content' ≠ [] :=
      fun h => hne (List.length_eq_zero_iff.mp (by rw [← hlength, h]; rfl))
    rw [List.getLast?_append_of_ne_nil _ hne, List.getLast?_append_of_ne_nil _ hne']
    exact ⟨rfl, rfl⟩
  · refine ⟨content'.drop p.response.sentLength, ⟨hplain, hcontent, hread,
      Or.inr (Or.inl ⟨hstate, hhead, by omega, rfl⟩)⟩,
      by rw [List.length_drop, List.length_drop, hlength], fun _ _ => ?_⟩
    rw [List.getLast?_drop, List.getLast?_drop, if_neg (by omega), if_neg (by omega)]
    exact ⟨rfl, rfl⟩
  · exact ⟨[], ⟨hplain, hcontent, hread, Or.inr (Or.inr ⟨hstate, rfl⟩)⟩, rfl,
      fun hne => absurd rfl hne⟩

/-- With nothing of the content left it does not matter what stands at the pointer. -/
theorem Owes.pays_any (h : Owes content rest p) (hover : content = [] ∨ rest = []) {e : Visit}
    (hlength : e.content.length = content.length) :
    (p.answer e).1 = rest.take e.space ∧ Owes content (rest.drop e.space) (p.answer e).2 := by
  rcases hover with hempty | hempty
  · have hcontent : e.content = content := by
      rw [hempty] at hlength ⊢
      exact List.length_eq_zero_iff.mp hlength
    exact h.pays hcontent
  · obtain ⟨rest', howes, hrest, -⟩ := h.moved e.content hlength
    have hempty' : rest' = [] := List.length_eq_zero_iff.mp (by rw [hrest, hempty]; rfl)
    obtain ⟨hout, hnext⟩ := howes.pays rfl
    obtain ⟨rest'', howes', hrest', -⟩ := hnext.moved content hlength.symm
    have hempty'' : rest'' = [] := by
      apply List.length_eq_zero_iff.mp
      rw [hrest', hempty', List.drop_nil]
      rfl
    rw [hout, hempty', hempty, List.take_nil, List.drop_nil]
    exact ⟨rfl, hempty'' ▸ howes'⟩

/-- While the content stays where it is, the client gets the head and the content, in order and
without a gap: as much of them as it has room for. -/
theorem served_eq_take (code : ℕ) (contentType content : Str) (version : ℕ)
    {visits : List Visit} (hcontent : ∀ v ∈ visits, v.content = content) :
    let p := start code contentType content.length version
    (outputs answer p visits).flatten =
      (p.response.head ++ content).take (visits.map fun v => v.space).sum := by
  intro p
  have hpays : ∀ v ∈ visits, ∀ rest (p : Progmem), Owes content rest p →
      (p.answer v).1 = rest.take v.space ∧ Owes content (rest.drop v.space) (p.answer v).2 :=
    fun v hv _ _ h => h.pays (hcontent v hv)
  exact (outputs_flatten hpays (owes_start code contentType content version)).1

/-- The content comes through whatever stands at the pointer later exactly when the first
window holds the whole message. -/
theorem served_iff (code : ℕ) (contentType content : Str) (version space : ℕ) :
    let p := start code contentType content.length version
    let message := p.response.head ++ content
    let first := p.answer ⟨⟨0, space⟩, content⟩
    (∀ visits : List Visit, (∀ v ∈ visits, v.content.length = content.length) →
      first.1 ++ (outputs answer first.2 visits).flatten =
        message.take (space + (visits.map fun v => v.space).sum)) ↔
    content = [] ∨ message.length ≤ space := by
  intro p message first
  obtain ⟨hfirst, howes⟩ := (owes_start code contentType content version).pays
    (e := ⟨⟨0, space⟩, content⟩) rfl
  change first.1 = message.take space at hfirst
  change Owes content (message.drop space) first.2 at howes
  constructor
  · intro h
    by_contra hnot
    obtain ⟨hne, hlt⟩ := not_or.mp hnot
    have hrest : message.drop space ≠ [] := by
      rw [Ne, List.drop_eq_nil_iff]
      exact hlt
    let other := content.map fun c => if c = 'a' then 'b' else 'a'
    obtain ⟨rest, howes', hlength, hlast⟩ := howes.moved other (List.length_map _)
    obtain ⟨hold, hnew⟩ := hlast hrest hne
    have hout : (first.2.answer ⟨⟨0, message.length⟩, other⟩).1 = rest := by
      rw [(howes'.pays rfl).1]
      refine List.take_of_length_le ?_
      rw [hlength, List.length_drop]
      exact Nat.sub_le _ _
    have hwhole := h [⟨⟨0, message.length⟩, other⟩]
      (List.forall_mem_singleton.mpr (List.length_map _))
    rw [outputs, outputs, List.flatten_cons, List.flatten_nil, List.append_nil, hout, hfirst,
      List.map_singleton, List.sum_singleton, List.take_of_length_le (i := space + message.length)
        (Nat.le_add_left _ _)] at hwhole
    have hsame : rest = message.drop space := by
      refine List.append_cancel_left (?_ : message.take space ++ rest = message.take space ++ _)
      rw [hwhole, List.take_append_drop]
    rw [hsame, hold] at hnew
    change content.getLast? = (content.map _).getLast? at hnew
    rw [List.getLast?_map, List.getLast?_eq_some_getLast hne, Option.map_some,
      Option.some.injEq] at hnew
    split_ifs at hnew with ha
    · rw [ha] at hnew
      exact absurd hnew (by decide)
    · exact ha hnew
  · intro hover visits hlength
    have hpays : ∀ v ∈ visits, ∀ rest (p : Progmem),
        (Owes content rest p ∧ (content = [] ∨ rest = [])) →
        (p.answer v).1 = rest.take v.space ∧
          (Owes content (rest.drop v.space) (p.answer v).2 ∧
            (content = [] ∨ rest.drop v.space = [])) := by
      intro v hv rest p h
      obtain ⟨hout, hnext⟩ := h.1.pays_any h.2 (hlength v hv)
      refine ⟨hout, hnext, h.2.imp_right fun hempty => ?_⟩
      rw [hempty, List.drop_nil]
    have hfrom : content = [] ∨ message.drop space = [] :=
      hover.imp_right fun hle => List.drop_of_length_le hle
    have houts := (outputs_flatten hpays ⟨howes, hfrom⟩).1
    rw [houts, hfirst]
    exact List.take_add.symm

end Progmem
end HomeMonitor.Http
