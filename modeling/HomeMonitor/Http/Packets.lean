import HomeMonitor.Http.Request
import HomeMonitor.Text.Head

/-! A request over the packets that its bytes come in. -/
namespace HomeMonitor.Http
open HomeMonitor.Arduino HomeMonitor.Machine HomeMonitor.Text

variable {ρ : Type*} (handlers : List (Handler ρ))

/-- The request and what it has made the server do, after packets. -/
def receive (packets : List Str) : Request ρ × List (Effect ρ) :=
  run (fun s packet =>
    let (r, effects) := s.1.onData handlers packet
    (r, s.2 ++ effects)) (.init, []) packets

abbrev readHead : Str → Head Char := Head.read '\n' trim

def Request.readLine (r : Request ρ) (line : Str) : Request ρ :=
  match r.parseState with
  | .START => { ({ r with temp := line } : Request ρ).parseReqHead with parseState := .HEADERS }
  | _ => ({ r with temp := line } : Request ρ).parseReqHeader

def headOf (lines : List Str) : Request ρ := lines.foldl Request.readLine .init

section lines

theorem parseReqHeader_same (r : Request ρ) :
    r.parseReqHeader.temp = [] ∧ r.parseReqHeader.parsedLength = r.parsedLength ∧
      r.parseReqHeader.parseState = r.parseState ∧ r.parseReqHeader.method = r.method ∧
      r.parseReqHeader.url = r.url := by
  unfold Request.parseReqHeader
  dsimp only
  split_ifs <;> exact ⟨rfl, rfl, rfl, rfl, rfl⟩

theorem readLine_of_headers {r : Request ρ} (h : r.parseState = .HEADERS) (line : Str) :
    r.readLine line = ({ r with temp := line } : Request ρ).parseReqHeader := by
  unfold Request.readLine
  simp only [h]

def Request.InHead (r : Request ρ) : Prop := r.parseState = .START ∨ r.parseState = .HEADERS

theorem with_temp {r : Request ρ} {temp : Str} (h : r.temp = temp) :
    ({ r with temp := temp } : Request ρ) = r := by
  rw [← h]

theorem readLine_same {r : Request ρ} (h : r.InHead) (line : Str) :
    (r.readLine line).temp = [] ∧ (r.readLine line).parsedLength = r.parsedLength ∧
      (r.readLine line).parseState = .HEADERS := by
  unfold Request.readLine
  rcases h with h | h
  · rw [h]
    exact ⟨rfl, rfl, rfl⟩
  · obtain ⟨htemp, hparsed, hstate, -⟩ := parseReqHeader_same ({ r with temp := line } : Request ρ)
    dsimp only at htemp hparsed hstate
    rw [h] at htemp hparsed hstate ⊢
    exact ⟨htemp, hparsed, hstate⟩

theorem parseLine_eq_readLine {r : Request ρ} (h : r.InHead) {line : Str} (hline : line ≠ []) :
    Request.parseLine handlers { r with temp := line } = (r.readLine line, []) := by
  have hlength : line.length ≠ 0 := fun hzero => hline (List.length_eq_zero_iff.mp hzero)
  unfold Request.parseLine Request.readLine
  rcases h with h | h
  · rw [h]
    exact if_neg hlength
  · rw [h]
    exact if_neg hlength

theorem headOf_concat (lines : List Str) (line : Str) :
    (headOf (lines ++ [line]) : Request ρ) = (headOf lines).readLine line := by
  unfold headOf
  rw [List.foldl_concat]

theorem headOf_same (lines : List Str) :
    (headOf lines : Request ρ).temp = [] ∧ (headOf lines : Request ρ).parsedLength = 0 ∧
      (headOf lines : Request ρ).parseState = if lines = [] then .START else .HEADERS := by
  induction lines using List.reverseRecOn with
  | nil => exact ⟨rfl, rfl, rfl⟩
  | append_singleton lines line ih =>
    obtain ⟨-, hparsed, hstate⟩ := ih
    have hin : (headOf lines : Request ρ).InHead := by
      unfold Request.InHead
      rw [hstate]
      split_ifs
      · exact Or.inl rfl
      · exact Or.inr rfl
    obtain ⟨htemp, hparsed', hstate'⟩ := readLine_same hin line
    rw [headOf_concat, if_neg (by simp)]
    exact ⟨htemp, hparsed'.trans hparsed, hstate'⟩

theorem inHead_headOf (lines : List Str) : (headOf lines : Request ρ).InHead := by
  unfold Request.InHead
  rw [(headOf_same lines).2.2]
  split_ifs
  · exact Or.inl rfl
  · exact Or.inr rfl

/-- The request at the end of its head, and with some bytes of the body behind it. -/
def atEnd (lines : List Str) : Request ρ × List (Effect ρ) :=
  Request.parseLine handlers (headOf lines)

def withBody (lines : List Str) (body : Str) : Request ρ × List (Effect ρ) :=
  let (r, effects) := atEnd handlers lines
  if body = [] then (r, effects)
  else
    match r.parseState with
    | .BODY => ((r.onBody body).1, effects ++ (r.onBody body).2)
    | _ => (r, effects)

def parsed : Head Char → Request ρ × List (Effect ρ)
  | .lines done line => ({ headOf done with temp := line }, [])
  | .ended done body => withBody handlers done body

theorem endHeaders_fst (r : Request ρ) :
    (r.endHeaders handlers).1 =
      { r with
        handler := some (attachHandler handlers r.method r.url)
        parseState := if r.contentLength ≠ 0 then .BODY else .END } := by
  unfold Request.endHeaders
  dsimp only
  by_cases hlength : r.contentLength ≠ 0
  · rw [if_pos hlength, if_pos hlength]
  · rw [if_neg hlength, if_neg hlength]

theorem endHeaders_snd (r : Request ρ) :
    (r.endHeaders handlers).2 =
      (if r.expectingContinue then [.sendContinue] else []) ++
        if r.contentLength ≠ 0 then [] else [(r.endHeaders handlers).1.handleRequest] := by
  rw [endHeaders_fst]
  unfold Request.endHeaders
  dsimp only
  by_cases hlength : r.contentLength ≠ 0
  · rw [if_pos hlength, if_pos hlength, List.append_nil]
  · rw [if_neg hlength, if_neg hlength]
    rfl

theorem atEnd_eq (lines : List Str) :
    atEnd handlers lines =
      if lines = [] then ({ (Request.init : Request ρ) with parseState := .FAIL }, [.close])
      else (headOf lines).endHeaders handlers := by
  obtain ⟨htemp, -, hstate⟩ := headOf_same (ρ := ρ) lines
  unfold atEnd Request.parseLine
  by_cases hlines : lines = []
  · rw [if_pos hlines, hlines]
    rfl
  · rw [if_neg hlines] at hstate ⊢
    rw [hstate, htemp]
    rfl

theorem atEnd_state (lines : List Str) :
    (atEnd handlers lines).1.parseState =
      if lines = [] then .FAIL
      else if (headOf lines : Request ρ).contentLength ≠ 0 then .BODY else .END := by
  rw [atEnd_eq]
  by_cases hlines : lines = []
  · rw [if_pos hlines, if_pos hlines]
  · rw [if_neg hlines, if_neg hlines, endHeaders_fst]

theorem cstr_str {str : Str} (h : NUL ∉ str) :
    cstr str.dropLast ++ str.getLast?.toList = str := by
  rw [cstr_eq_self fun hmem => h (List.mem_of_mem_dropLast hmem)]
  cases str using List.reverseRecOn with
  | nil => rfl
  | append_singleton str c => rw [List.dropLast_concat, List.getLast?_concat]; rfl

theorem onDataFrom_eq {done : List Str} {line str packet : Str} (hstr : NUL ∉ str)
    (hpacket : NUL ∉ packet) :
    Request.onDataFrom handlers { headOf done with temp := line } str packet =
      parsed handlers (run (Head.next '\n' trim) (.lines done (line ++ str)) packet) := by
  induction packet generalizing done line str with
  | nil =>
    unfold Request.onDataFrom parsed
    dsimp only [run_nil]
    rw [List.append_assoc, cstr_str hstr]
  | cons c packet ih =>
    have hrest : NUL ∉ packet := fun hmem => hpacket (List.mem_cons_of_mem _ hmem)
    rw [Request.onDataFrom, run_cons, Head.next, cstr_eq_self hstr]
    by_cases hc : c = '\n'
    · rw [if_pos hc, if_pos hc]
      dsimp only
      by_cases hblank : trim (line ++ str) = []
      · have hparse : Request.parseLine handlers
            { (headOf done : Request ρ) with temp := trim (line ++ str) } =
              atEnd handlers done := by
          rw [hblank, ← (headOf_same (ρ := ρ) done).1]
          rfl
        rw [if_pos hblank, Head.run_ended, List.nil_append, hparse]
        unfold parsed withBody
        by_cases hnil : packet = []
        · rw [if_pos hnil, hnil]
          rfl
        · rw [if_neg hnil]
          dsimp only
          rw [if_neg hnil]
          have hstate := atEnd_state handlers done
          split_ifs at hstate with hlines hlength
          · rw [hstate]
            simp only [List.append_nil]
          · rw [hstate]
          · rw [hstate]
            simp only [List.append_nil]
      · have hparse := parseLine_eq_readLine handlers (inHead_headOf (ρ := ρ) done) hblank
        obtain ⟨htemp, -, hstate⟩ := readLine_same (inHead_headOf (ρ := ρ) done)
          (trim (line ++ str))
        rw [if_neg hblank, hparse]
        have hline : ({ headOf (done ++ [trim (line ++ str)]) with temp := [] } : Request ρ) =
            (headOf done).readLine (trim (line ++ str)) := by
          rw [headOf_concat, with_temp htemp]
        by_cases hnil : packet = []
        · rw [if_pos hnil, hnil, ← hline]
          rfl
        · have hrun := @ih (done ++ [trim (line ++ str)]) [] [] (by simp : NUL ∉ ([] : Str)) hrest
          rw [hline] at hrun
          rw [if_neg hnil]
          dsimp only
          rw [hstate]
          dsimp only
          rw [hrun]
          rfl
    · rw [if_neg hc, if_neg hc, ih (by
        rw [List.mem_append, not_or]
        exact ⟨hstr, fun hmem => hpacket (List.mem_cons.mpr (Or.inl (List.mem_singleton.mp hmem)))⟩)
        hrest, List.append_assoc]

end lines

/-- Some packets end where a body of a length does. -/
def Completed (len : BitVec 32) (lines : List Str) (packets : List Str) : Prop :=
  ∃ front body, front <+: packets ∧ readHead front.flatten = .ended lines body ∧
    BitVec.ofNat 32 body.length = len

def Request.Waits (r : Request ρ) : Prop := r.parseState = .BODY ∧ r.isMultipart = false

def Request.into (r : Request ρ) (len : ℕ) : Request ρ :=
  { r with parsedLength := BitVec.ofNat 32 len }

/-- What packets make of a request, by what has been read of its head. What they make of one with
a multipart body is left open here. -/
def Received (packets : List Str) (s : Request ρ × List (Effect ρ)) : Head Char → Prop
  | .lines done line => s = ({ headOf done with temp := line }, [])
  | .ended done body =>
    let start := atEnd handlers done
    (start.1.parseState ≠ .BODY ∧ s = start) ∨
    (start.1.Waits ∧ Completed start.1.contentLength done packets ∧ s.1.parseState = .END ∧
      s.2 = start.2 ++ [start.1.handleRequest]) ∨
    (start.1.Waits ∧ ¬ Completed start.1.contentLength done packets ∧
      s = (start.1.into body.length, start.2)) ∨
    (start.1.parseState = .BODY ∧ start.1.isMultipart = true)

theorem onData_of_inHead {r : Request ρ} (h : r.InHead) (packet : Str) :
    r.onData handlers packet = r.onDataFrom handlers [] packet := by
  unfold Request.onData
  rcases h with h | h <;> rw [h]

theorem onData_of_over {r : Request ρ} (h : r.parseState = .END ∨ r.parseState = .FAIL)
    (packet : Str) : r.onData handlers packet = (r, []) := by
  unfold Request.onData
  rcases h with h | h <;> rw [h]

/-- The end of the head leaves a request that waits for a body, or one that is over. -/
theorem atEnd_parsedLength (lines : List Str) : (atEnd handlers lines).1.parsedLength = 0 := by
  rw [atEnd_eq]
  by_cases hlines : lines = []
  · rw [if_pos hlines]
    rfl
  · rw [if_neg hlines, endHeaders_fst]
    exact (headOf_same lines).2.1

theorem atEnd_contentLength_ne {lines : List Str}
    (h : (atEnd handlers lines).1.parseState = .BODY) :
    (atEnd handlers lines).1.contentLength ≠ 0 := by
  rw [atEnd_eq] at h ⊢
  by_cases hlines : lines = []
  · rw [if_pos hlines] at h
    cases h
  · rw [if_neg hlines, endHeaders_fst] at h ⊢
    intro hlength
    change (headOf lines : Request ρ).contentLength = 0 at hlength
    dsimp only at h
    rw [if_neg (not_not.mpr hlength)] at h
    cases h

theorem completed_concat (len : BitVec 32) {lines : List Str} {packets : List Str} {packet : Str}
    {body : Str} (h : readHead (packets ++ [packet]).flatten = .ended lines body) :
    Completed len lines (packets ++ [packet]) ↔
      Completed len lines packets ∨ BitVec.ofNat 32 body.length = len := by
  constructor
  · rintro ⟨front, body', hfront, hread, hlen⟩
    rcases List.prefix_concat_iff.mp hfront with rfl | hfront
    · rw [h] at hread
      injection hread with _ hbody
      exact Or.inr (hbody ▸ hlen)
    · exact Or.inl ⟨front, body', hfront, hread, hlen⟩
  · rintro (⟨front, body', hfront, hread, hlen⟩ | hlen)
    · exact ⟨front, body', hfront.trans (List.prefix_append _ _), hread, hlen⟩
    · exact ⟨_, body, List.prefix_rfl, h, hlen⟩

theorem not_completed_of_lines (len : BitVec 32) (lines : List Str) {done : List Str}
    {line : Str} {packets : List Str} (h : readHead packets.flatten = .lines done line) :
    ¬ Completed len lines packets := by
  rintro ⟨front, body, ⟨back, rfl⟩, hread, -⟩
  rw [List.flatten_append, readHead, Head.read_append_of_ended _ _ hread] at h
  cases h

theorem onBody_into {r : Request ρ} (h : r.isMultipart = false) (n : ℕ) (buf : Str) :
    (r.into n).onBody buf =
      if BitVec.ofNat 32 (n + buf.length) = r.contentLength then
        ({ r.into (n + buf.length) with parseState := .END }, [r.handleRequest])
      else (r.into (n + buf.length), []) := by
  have htake : (r.into n).takeBody buf = r.into (n + buf.length) := by
    have hplain : ¬ ((r.into n).isMultipart = true ∧ ((r.into n).handler.bind id).isSome = true) :=
      fun hboth => Bool.false_ne_true (h.symm.trans hboth.1)
    unfold Request.takeBody
    rw [if_neg hplain]
    unfold Request.into
    rw [BitVec.ofNat_add]
  unfold Request.onBody
  rw [htake]
  rfl

theorem onData_into {r : Request ρ} (h : r.parseState = .BODY) (n : ℕ) (packet : Str) :
    (r.into n).onData handlers packet = (r.into n).onBody packet := by
  unfold Request.onData
  have hstate : (r.into n).parseState = .BODY := h
  rw [hstate]

theorem into_zero {r : Request ρ} (h : r.parsedLength = 0) : r.into 0 = r := by
  unfold Request.into
  rw [show BitVec.ofNat 32 0 = r.parsedLength from h.symm]

theorem over_of_ne_body {done : List Str} (h : (atEnd handlers done).1.parseState ≠ .BODY) :
    (atEnd handlers done).1.parseState = .END ∨ (atEnd handlers done).1.parseState = .FAIL := by
  have hstate := atEnd_state handlers done
  split_ifs at hstate with hlines hlength
  · exact Or.inr hstate
  · exact absurd hstate h
  · exact Or.inl hstate

theorem multipart_of_not_waits {r : Request ρ} (hbody : r.parseState = .BODY) (h : ¬ r.Waits) :
    r.isMultipart = true := by
  rw [← Bool.not_eq_false]
  exact fun hfalse => h ⟨hbody, hfalse⟩

theorem received_body {packets : List Str} {packet : Str} {done : List Str} {body : Str}
    {s : Request ρ × List (Effect ρ)} (hread : readHead packets.flatten = .ended done body)
    (h : Received handlers packets s (.ended done body)) :
    Received handlers (packets ++ [packet])
      ((s.1.onData handlers packet).1, s.2 ++ (s.1.onData handlers packet).2)
      (.ended done (body ++ packet)) := by
  have hread' : readHead (packets ++ [packet]).flatten = .ended done (body ++ packet) := by
    rw [List.flatten_concat, readHead, Head.read_append_of_ended _ _ hread]
  have hcompleted := completed_concat (atEnd handlers done).1.contentLength hread'
  unfold Received at h ⊢
  dsimp only at h ⊢
  rcases h with ⟨hstate, rfl⟩ | ⟨hwaits, hdone, hend, heffects⟩ | ⟨hwaits, hdone, rfl⟩ |
    hmultipart
  · left
    rw [onData_of_over handlers (over_of_ne_body handlers hstate), List.append_nil]
    exact ⟨hstate, rfl⟩
  · right; left
    rw [onData_of_over handlers (Or.inl hend), List.append_nil]
    exact ⟨hwaits, hcompleted.mpr (Or.inl hdone), hend, heffects⟩
  · right
    rw [onData_into handlers hwaits.1, onBody_into hwaits.2, ← List.length_append]
    by_cases hlength : BitVec.ofNat 32 (body ++ packet).length =
        (atEnd handlers done).1.contentLength
    · left
      rw [if_pos hlength]
      exact ⟨hwaits, hcompleted.mpr (Or.inr hlength), rfl, rfl⟩
    · right
      rw [if_neg hlength, List.append_nil]
      left
      refine ⟨hwaits, fun hc => ?_, rfl⟩
      rcases hcompleted.mp hc with hc | hc
      · exact hdone hc
      · exact hlength hc
  · right; right; right
    exact hmultipart

theorem received_ended {packets : List Str} {packet : Str} {done done' : List Str}
    {line body : Str} (hread : readHead packets.flatten = .lines done line)
    (hread' : readHead (packets ++ [packet]).flatten = .ended done' body) :
    Received handlers (packets ++ [packet]) (withBody handlers done' body)
      (.ended done' body) := by
  have hcompleted := completed_concat (atEnd handlers done').1.contentLength hread'
  have hbefore := not_completed_of_lines (atEnd handlers done').1.contentLength done' hread
  have hzero := into_zero (atEnd_parsedLength handlers done')
  unfold Received withBody
  dsimp only
  by_cases hbody : (atEnd handlers done').1.parseState = .BODY
  · right
    rw [hbody]
    dsimp only
    by_cases hwaits : (atEnd handlers done').1.Waits
    · by_cases hnil : body = []
      · right; left
        rw [if_pos hnil, hnil, List.length_nil, hzero]
        refine ⟨hwaits, fun hc => ?_, rfl⟩
        rcases hcompleted.mp hc with hc | hc
        · exact hbefore hc
        · rw [hnil] at hc
          exact atEnd_contentLength_ne handlers hwaits.1 hc.symm
      · have honBody := onBody_into hwaits.2 0 body
        rw [hzero, Nat.zero_add] at honBody
        rw [if_neg hnil, honBody]
        by_cases hlength : BitVec.ofNat 32 body.length = (atEnd handlers done').1.contentLength
        · left
          rw [if_pos hlength]
          exact ⟨hwaits, hcompleted.mpr (Or.inr hlength), rfl, rfl⟩
        · right; left
          rw [if_neg hlength, List.append_nil]
          refine ⟨hwaits, fun hc => ?_, rfl⟩
          rcases hcompleted.mp hc with hc | hc
          · exact hbefore hc
          · exact hlength hc
    · right; right
      exact ⟨rfl, multipart_of_not_waits hbody hwaits⟩
  · left
    refine ⟨hbody, ?_⟩
    rcases over_of_ne_body handlers hbody with hstate | hstate
    · rw [hstate]
      split_ifs <;> rfl
    · rw [hstate]
      split_ifs <;> rfl

/-- What packets without NUL make of a request is what has been read of its head, and whether
some of them end where its body does. -/
theorem receive_received {packets : List Str} (hnul : ∀ packet ∈ packets, NUL ∉ packet) :
    Received handlers packets (receive handlers packets) (readHead packets.flatten) := by
  revert hnul
  apply run_history _ (R := fun packets s => (∀ packet ∈ packets, NUL ∉ packet) →
    Received handlers packets s (readHead packets.flatten))
  · intro _
    rfl
  · intro packets packet ih hnul
    have hreceived := ih fun p hp => hnul p (List.mem_append_left _ hp)
    have hpacket : NUL ∉ packet := hnul packet (by simp)
    cases hread : readHead packets.flatten with
    | lines done line =>
      rw [hread] at hreceived
      change _ = _ at hreceived
      rw [hreceived]
      dsimp only
      have hin : ({ headOf done with temp := line } : Request ρ).InHead := inHead_headOf done
      have hread' : readHead (packets ++ [packet]).flatten =
          run (Head.next '\n' trim) (.lines done (line ++ [])) packet := by
        rw [List.flatten_concat, readHead, Head.read_append, List.append_nil]
        exact congrArg (run _ · packet) hread
      rw [onData_of_inHead handlers hin, onDataFrom_eq handlers (by simp) hpacket, ← hread']
      cases hend : readHead (packets ++ [packet]).flatten with
      | lines done' line' => rfl
      | ended done' body => exact received_ended handlers hread hend
    | ended done body =>
      rw [hread] at hreceived
      have hread' : readHead (packets ++ [packet]).flatten = .ended done (body ++ packet) := by
        rw [List.flatten_concat, readHead, Head.read_append_of_ended _ _ hread]
      rw [hread']
      exact received_body handlers hread hreceived

/-- Without a body it does not matter how the bytes are cut into packets. -/
theorem receive_eq_of_flatten_eq {packets packets' : List Str}
    (hflatten : packets.flatten = packets'.flatten) (hnul : NUL ∉ packets.flatten)
    (hbody : ∀ lines body, readHead packets.flatten = .ended lines body →
      (headOf lines : Request ρ).contentLength = 0) :
    receive handlers packets = receive handlers packets' := by
  have hnul' : NUL ∉ packets'.flatten := hflatten ▸ hnul
  have hone := receive_received handlers fun packet hpacket hmem =>
    hnul (List.mem_flatten_of_mem hpacket hmem)
  have htwo := receive_received handlers fun packet hpacket hmem =>
    hnul' (List.mem_flatten_of_mem hpacket hmem)
  rw [← hflatten] at htwo
  cases hread : readHead packets.flatten with
  | lines done line =>
    rw [hread] at hone htwo
    exact Eq.trans hone (Eq.symm htwo)
  | ended done body =>
    rw [hread] at hone htwo
    have hover : (atEnd handlers done).1.parseState ≠ .BODY := by
      intro hstate
      rw [atEnd_state] at hstate
      split_ifs at hstate with hlines hlength
      exact hlength (hbody done body hread)
    have hstart : ∀ {packets s}, Received handlers packets s (.ended done body) →
        s = atEnd handlers done := by
      rintro packets s (⟨-, h⟩ | ⟨h, -⟩ | ⟨h, -⟩ | ⟨h, -⟩)
      · exact h
      · exact absurd h.1 hover
      · exact absurd h.1 hover
      · exact absurd h hover
    exact (hstart hone).trans (hstart htwo).symm

/-- A request in one packet and in two. -/
theorem receive_eq_of_flatten_eq_cut :
    receive ([] : List (Handler Unit)) ["GET / HTTP/1.1\r\n\r\n".toList] =
      receive [] ["GET / HT".toList, "TP/1.1\r\n\r\n".toList] := by
  have hread : readHead ["GET / HTTP/1.1\r\n\r\n".toList].flatten =
      .ended ["GET / HTTP/1.1".toList] [] := by decide +kernel
  refine receive_eq_of_flatten_eq [] (by decide) (by decide) ?_
  intro lines body h
  rw [hread] at h
  injection h with hlines
  rw [← hlines]
  decide +kernel

end HomeMonitor.Http
