import HomeMonitor.Http.Delivery
import HomeMonitor.Template.Buffers
import HomeMonitor.Text.Chunks

/-! Responses with a template callback. Their length is not known when the head is sent, and the
body goes out in chunks. -/
namespace HomeMonitor.Http
open HomeMonitor.Arduino HomeMonitor.Machine HomeMonitor.Template HomeMonitor.Text

structure Templated where
  response : AbstractResponse
  source : Template.Response
  deriving DecidableEq, Repr

/-- An event, what the template callback answers then, and what is written. -/
structure Answer extends Event where
  callback : Str → Str
  out : Str

namespace Templated

def start (code : ℕ) (contentType page : Str) (version : ℕ) : Templated where
  response := (AbstractResponse.progmem code contentType page.length true).prepare version
  source := ⟨[], page⟩

/-- What a call comes to with `_fillBufferAndProcessTemplates`. -/
def Serves (callback : Str → Str) (source : Template.Response) (out : Str) (t : Templated) :
    Call (Str × AbstractResponse) → Prop
  | .ret (sent, response) => out = sent ∧ t = ⟨response, source⟩
  | .fill n k => ∃ data, Fills callback n source data t.source ∧
      out = (k data).1 ∧ t.response = (k data).2

/-- `_onAck` and `_onPoll`, and with no bytes acknowledged the call of `_ack` in `_respond`. -/
def Step (t : Templated) (a : Answer) (t' : Templated) : Prop :=
  if t.response.finished then a.out = [] ∧ t' = t
  else Serves a.callback t.source a.out t' (t.response.ack a.len a.space)

end Templated

theorem memcpy_append {a b c bytes : Str} {i : ℕ} (ha : a.length = i)
    (hb : b.length = bytes.length) : memcpy (a ++ (b ++ c)) i bytes = a ++ (bytes ++ c) := by
  unfold memcpy
  rw [← ha, List.take_append_length, ← hb, List.drop_length_add_append, List.drop_left,
    List.append_assoc]

theorem length_size {n : ℕ} (h : n < 2 ^ 16) :
    (List.rightpad 4 ' ' (Nat.toDigits 16 n) ++ CRLF).length = 6 := by
  have hdigits : (Nat.toDigits 16 n).length ≤ 4 :=
    (Nat.length_toDigits_le_iff (by omega) (by omega)).mpr h
  rw [List.length_append, List.length_rightpad, max_eq_left hdigits]
  rfl

theorem chunk_eq (data : Str) : Chunks.chunk 4 data =
    List.rightpad 4 ' ' (Nat.toDigits 16 data.length) ++ CRLF ++ (data ++ CRLF) := by
  rw [List.append_assoc]
  rfl

theorem length_chunk {data : Str} (h : data.length < 2 ^ 16) :
    (Chunks.chunk 4 data).length = data.length + 8 := by
  rw [chunk_eq, List.length_append, length_size h, List.length_append]
  show 6 + (data.length + 2) = data.length + 8
  omega

/-- In the buffer for a chunk nothing is overwritten that is to be sent. -/
theorem frame_eq (head : Str) {outLen : ℕ} {data : Str} (hfit : data.length + 8 ≤ outLen)
    (hsmall : data.length < 2 ^ 16) : frame head outLen data = head ++ Chunks.chunk 4 data := by
  have hlength := length_size hsmall
  have hchunk := chunk_eq data
  obtain ⟨size, hsize⟩ : ∃ size, List.rightpad 4 ' ' (Nat.toDigits 16 data.length) ++ CRLF = size :=
    ⟨_, rfl⟩
  rw [hsize] at hlength hchunk
  -- the buffer, cut where the head, the size, the data and the line end go
  obtain ⟨free, hfree⟩ : ∃ free, outLen = 6 + (data.length + (2 + free)) :=
    ⟨outLen - 8 - data.length, by omega⟩
  have hcut : List.replicate (outLen + head.length) NUL =
      List.replicate head.length NUL ++ (List.replicate 6 NUL ++
        (List.replicate data.length NUL ++ (List.replicate 2 NUL ++ List.replicate free NUL))) := by
    simp only [List.replicate_append_replicate]
    rw [hfree, Nat.add_comm]
  have hhead : ∀ rest : Str, memcpy (List.replicate head.length NUL ++ rest) 0 head =
      head ++ rest := fun rest =>
    memcpy_append (a := []) rfl List.length_replicate
  have hstop : (head ++ (size ++ data)).length = head.length + 6 + data.length := by
    rw [List.length_append, List.length_append, hlength]
    omega
  have hend : (List.replicate 2 NUL).length = CRLF.length := rfl
  unfold frame
  dsimp only
  rw [hsize, hlength, hcut, hhead, ← List.append_assoc head,
    memcpy_append (by rw [List.length_append, List.length_replicate]) List.length_replicate,
    List.append_assoc,
    memcpy_append rfl (by rw [hlength, List.length_replicate]), ← List.append_assoc size,
    ← List.append_assoc head, memcpy_append hstop hend, ← hstop,
    List.take_length_add_append, hchunk]
  simp only [List.append_assoc]
  rfl

namespace Templated

def Chunking (r : AbstractResponse) : Prop := r.chunked = true ∧ r.sendContentLength = false

variable {callback : Str → Str} {source : Template.Response} {out : Str} {t t' : Templated}

theorem sendContent_chunked {r : AbstractResponse} (h : Chunking r) (room : ℕ) {space : ℕ}
    (hspace : 8 < space) :
    r.sendContent room space = .fill (space - 8) fun data =>
      (write room (frame r.head space data),
        { r with
          head := []
          writtenLength := r.writtenLength + (write room (frame r.head space data)).length
          sentLength := r.sentLength + data.length
          state := if data.length = 0 ∨ (frame r.head space data).length = 0 then .WAIT_ACK
            else r.state }) := by
  unfold AbstractResponse.sendContent
  simp [h.1, h.2, hspace]

theorem serves_content {r : AbstractResponse} {room space : ℕ} (hchunking : Chunking r)
    (hstate : r.state = .CONTENT) (hroom : room = r.head.length + space) (hspace : space < 2 ^ 16)
    (hlast : source.remaining.getLast? ≠ some '%')
    (h : Serves callback source out t (r.sendContent room space)) :
    (space ≤ 8 ∧ out = [] ∧ t = ⟨r, source⟩) ∨
      (8 < space ∧ ∃ data, Fills callback (space - 8) source data t.source ∧
        out = r.head ++ Chunks.chunk 4 data ∧ Chunking t.response ∧ t.response.head = [] ∧
        t.response.state = if data = [] then .WAIT_ACK else .CONTENT) := by
  by_cases hsmall : space ≤ 8
  · left
    unfold AbstractResponse.sendContent at h
    rw [if_pos ⟨hchunking.1, hsmall⟩] at h
    exact ⟨hsmall, h⟩
  · right
    rw [sendContent_chunked hchunking room (by omega)] at h
    obtain ⟨data, hfill, hout, hresponse⟩ := h
    have hlength := (hfill.length_le hlast).1
    have hframe : frame r.head space data = r.head ++ Chunks.chunk 4 data :=
      frame_eq r.head (by omega) (by omega)
    have hchunk : (Chunks.chunk 4 data).length = data.length + 8 := length_chunk (by omega)
    have hwhole : (frame r.head space data).length ≤ room := by
      rw [hframe, List.length_append, hchunk]
      omega
    have hne : (frame r.head space data).length ≠ 0 := by
      rw [hframe, List.length_append, hchunk]
      omega
    refine ⟨by omega, data, hfill, ?_, ?_, ?_, ?_⟩
    · rw [hout, ← hframe]
      exact List.take_of_length_le hwhole
    · rw [hresponse]
      exact hchunking
    · rw [hresponse]
    · rw [hresponse]
      simp only [hne, or_false, List.length_eq_zero_iff, hstate]

/-- A response that sends a chunk when there is room behind what is left of its head. -/
structure Ready (t : Templated) : Prop where
  chunking : Chunking t.response
  state : t.response.state = .HEADERS ∨ (t.response.state = .CONTENT ∧ t.response.head = [])
  last : t.source.remaining.getLast? ≠ some '%'

/-- The event that gives a buffer of some length. -/
def chunkAnswer (t : Templated) (callback : Str → Str) (len : ℕ) (data : Str) : Answer where
  len := 0
  space := t.response.head.length + len + 8
  callback := callback
  out := t.response.head ++ Chunks.chunk 4 data

theorem Ready.ack_eq (h : Ready t) (space : ℕ) :
    ∃ r, t.response.ack 0 (t.response.head.length + space) =
        r.sendContent (t.response.head.length + space) space ∧
      Chunking r ∧ r.state = .CONTENT ∧ r.head = t.response.head := by
  rcases h.state with hstate | ⟨hstate, hhead⟩
  · rw [AbstractResponse.ack_headers hstate, if_pos (Nat.le_add_right _ _),
      Nat.add_sub_cancel_left]
    exact ⟨_, rfl, h.chunking, rfl, rfl⟩
  · have hroom : t.response.head.length + space = space := by
      rw [hhead, List.length_nil, Nat.zero_add]
    rw [AbstractResponse.ack_content hstate, hroom]
    exact ⟨_, rfl, h.chunking, hstate, rfl⟩

theorem Ready.step (h : Ready t) {len : ℕ} {data : Str} {source' : Template.Response}
    (hpos : 0 < len) (hspace : t.response.head.length + len + 8 < 2 ^ 16)
    (hfills : Fills callback len t.source data source') :
    ∃ t', t.Step (chunkAnswer t callback len data) t' ∧ t'.source = source' ∧
      Chunking t'.response ∧ t'.response.head = [] ∧
      t'.response.state = if data = [] then .WAIT_ACK else .CONTENT := by
  have hlength := (hfills.length_le h.last).1
  obtain ⟨r, hack, hchunking, hcontent, hhead⟩ := h.ack_eq (len + 8)
  have hframe : frame r.head (len + 8) data = r.head ++ Chunks.chunk 4 data :=
    frame_eq r.head (by omega) (by omega)
  have hserves : ∃ response, Serves callback t.source (t.response.head ++ Chunks.chunk 4 data)
      ⟨response, source'⟩ (r.sendContent (t.response.head.length + (len + 8)) (len + 8)) := by
    rw [sendContent_chunked hchunking _ (by omega), Nat.add_sub_cancel]
    refine ⟨_, data, hfills, ?_, rfl⟩
    dsimp only
    rw [hframe, hhead]
    refine (List.take_of_length_le ?_).symm
    rw [List.length_append, length_chunk (by omega)]
    omega
  obtain ⟨response, hserves⟩ := hserves
  have hstep : t.Step (chunkAnswer t callback len data) ⟨response, source'⟩ := by
    unfold Step
    rw [if_neg]
    · rw [← hack] at hserves
      exact hserves
    · rw [WebServerResponse.finished_iff]
      rcases h.state with hstate | ⟨hstate, -⟩
      · simp [hstate]
      · simp [hstate]
  rcases serves_content hchunking hcontent (by rw [hhead]) (by omega) h.last hserves with
    ⟨hsmall, -⟩ | ⟨-, data', hfills', -, hchunking', hhead', hstate'⟩
  · omega
  · rw [Nat.add_sub_cancel] at hfills'
    obtain ⟨rfl, -⟩ := hfills.unique hfills'
    exact ⟨_, hstep, rfl, hchunking', hhead', hstate'⟩

/-- Events at which the body of a response is sent to its end, in buffers of the given lengths. -/
structure Delivers (callback : Str → Str) (lens : ℕ → ℕ) (body : Str) (t : Templated)
    (answers : List Answer) (t' : Templated) : Prop where
  trace : Trace Step t answers t'
  finished : t'.response.state = .WAIT_ACK
  callbacks : ∀ a ∈ answers, a.callback = callback
  windows : ∃ n, answers.map (fun a => a.space) =
    (t.response.head.length + lens 0 + 8) :: (List.range n).map fun i => lens (i + 1) + 8
  sent : ∃ parts : List Str, (answers.map Answer.out).flatten =
      t.response.head ++ (parts.flatMap (Chunks.chunk 4) ++ Chunks.chunk 4 []) ∧
    parts.flatten = body ∧ ∀ part ∈ parts, part ≠ []

/-- If the template engine gives a body in buffers of some lengths, then a client that has room
for them gets it, and it is the last thing it gets. -/
theorem Ready.completes {lens : ℕ → ℕ} {source : Template.Response} {body : Str}
    (hproduces : Produces callback lens source body) (h : Ready t) (hsource : t.source = source)
    (hpos : ∀ i, 0 < lens i) (hspace : ∀ i, t.response.head.length + lens i + 8 < 2 ^ 16) :
    ∃ answers t', Delivers callback lens body t answers t' := by
  induction hproduces generalizing t with
  | @finish lens source source' hfills =>
    rw [← hsource] at hfills
    obtain ⟨t', hstep, -, -, -, hstate⟩ := h.step (hpos 0) (hspace 0) hfills
    refine ⟨[chunkAnswer t callback (lens 0) []], t', .cons hstep (.nil _), hstate,
      List.forall_mem_singleton.mpr rfl, ⟨0, rfl⟩, [], ?_, rfl, List.forall_mem_nil _⟩
    exact List.append_nil _
  | @send lens source source' out rest hfills hout hrest ih =>
    rw [← hsource] at hfills
    obtain ⟨t₁, hstep, hsource₁, hchunking₁, hhead₁, hstate₁⟩ := h.step (hpos 0) (hspace 0) hfills
    rw [if_neg hout] at hstate₁
    have hready₁ : Ready t₁ := by
      refine ⟨hchunking₁, Or.inr ⟨hstate₁, hhead₁⟩, ?_⟩
      rw [hsource₁]
      exact (hfills.length_le h.last).2
    have hspace₁ : ∀ i, t₁.response.head.length + lens (i + 1) + 8 < 2 ^ 16 := by
      intro i
      have hroom := hspace (i + 1)
      rw [hhead₁, List.length_nil]
      omega
    obtain ⟨answers, t', htrace, hstate, hcallback, ⟨n, hwindows⟩, parts, houts, hparts, hne⟩ :=
      ih hready₁ hsource₁ (fun i => hpos (i + 1)) hspace₁
    refine ⟨chunkAnswer t callback (lens 0) out :: answers, t', .cons hstep htrace, hstate,
      List.forall_mem_cons.mpr ⟨rfl, hcallback⟩, ⟨n + 1, ?_⟩, out :: parts, ?_, ?_,
      List.forall_mem_cons.mpr ⟨hout, hne⟩⟩
    · rw [List.map_cons, hwindows, hhead₁, List.length_nil, Nat.zero_add, List.range_succ_eq_map,
        List.map_cons, List.map_map]
      rfl
    · rw [List.map_cons, List.flatten_cons, houts, hhead₁, List.nil_append, List.flatMap_cons]
      simp only [chunkAnswer, List.append_assoc]
    · rw [List.flatten_cons, hparts]

end Templated
end HomeMonitor.Http
