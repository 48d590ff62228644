import HomeMonitor.Http.Chunked
import HomeMonitor.Http.Progmem
import HomeMonitor.Sketch.Endpoints
import HomeMonitor.Text.Head

/-! What a client reads of a response: the lines of the head, and what is behind them. -/
namespace HomeMonitor.Http
open HomeMonitor.Arduino HomeMonitor.Machine HomeMonitor.Text HomeMonitor.AsyncWebserver

/-- A line that comes through: it is short enough for the buffer it is printed to. -/
structure Sendable (line : Str) : Prop where
  newline : '\n' ∉ line
  short : line.length ≤ 297
  shown : trim (line ++ [CR]) = line
  nonempty : line ≠ []

theorem snprintf_eq {line : Str} (h : Sendable line) : snprintf line = line ++ [CR] ++ ['\n'] := by
  have hshort : (line ++ CRLF).length ≤ 300 - 1 := by
    have hline := h.short
    rw [List.length_append]
    show line.length + 2 ≤ 299
    omega
  unfold snprintf
  rw [List.take_of_length_le hshort, List.append_assoc]
  rfl

theorem read_assembleHead {r : WebServerResponse} {version : ℕ}
    (h : ∀ line ∈ r.headLines version, Sendable line) (body : Str) :
    Head.read '\n' trim (r.assembleHead version ++ body) = .ended (r.headLines version) body := by
  have hlines : ∀ line ∈ (r.headLines version).map (· ++ [CR]), '\n' ∉ line ∧ trim line ≠ [] := by
    intro line hline
    obtain ⟨l, hl, rfl⟩ := List.mem_map.mp hline
    have hsend := h l hl
    constructor
    · rw [List.mem_append, not_or]
      exact ⟨hsend.newline, by decide⟩
    · rw [hsend.shown]
      exact hsend.nonempty
  have hread := Head.read_head '\n' trim hlines (by decide : '\n' ∉ [CR]) (by decide) body
  have htext : r.assembleHead version ++ body =
      (((r.headLines version).map (· ++ [CR])).flatMap fun line => line ++ ['\n']) ++
        ([CR] ++ '\n' :: body) := by
    unfold WebServerResponse.assembleHead
    rw [List.flatMap_map, List.append_assoc]
    congr 1
    exact List.flatMap_congr fun line hline => snprintf_eq (h line hline)
  have hclean : ((r.headLines version).map (· ++ [CR])).map trim = r.headLines version := by
    rw [List.map_map]
    exact (List.map_congr_left fun line hline => (h line hline).shown).trans (List.map_id _)
  rw [htext, hread, hclean]

theorem isspace_of_isDigit {d : Char} (h : d.isDigit = true) : isspace d = false := by
  rw [Bool.eq_false_iff]
  intro hspace
  unfold isspace at hspace
  simp only [Bool.or_eq_true, beq_iff_eq, Bool.and_eq_true, decide_eq_true_eq] at hspace
  rcases hspace with rfl | ⟨-, hle⟩
  · exact absurd h (by decide)
  · have hzero : '0' ≤ d := by
      unfold Char.isDigit at h
      rw [Bool.and_eq_true, decide_eq_true_eq] at h
      exact h.1
    exact absurd (Char.le_trans hzero hle) (by decide)

theorem sendable_number {c : Char} {text : Str} (hc : isspace c = false)
    (hnewline : '\n' ∉ c :: text) (hshort : text.length ≤ 200) {n : ℕ} (hn : n < 2 ^ 31) :
    Sendable (c :: text ++ Nat.toDigits 10 n) := by
  have hdigit : ∀ d ∈ Nat.toDigits 10 n, d.isDigit = true :=
    fun d hd => Nat.isDigit_of_mem_toDigits (by omega) (by omega) hd
  have hlength : (Nat.toDigits 10 n).length ≤ 10 :=
    (Nat.length_toDigits_le_iff (by omega) (by omega)).mpr (by omega)
  refine ⟨?_, ?_, ?_, by simp⟩
  · rw [List.mem_append, not_or]
    exact ⟨hnewline, fun h => absurd (hdigit _ h) (by decide)⟩
  · rw [List.length_append, List.length_cons]
    omega
  · obtain ⟨digits, d, hdigits⟩ : ∃ digits d, Nat.toDigits 10 n = digits ++ [d] :=
      ⟨_, _, (List.dropLast_append_getLast Nat.toDigits_ne_nil).symm⟩
    have hd : isspace d = false :=
      isspace_of_isDigit (hdigit d (by rw [hdigits]; exact List.mem_concat_self))
    have hblank : ∀ b ∈ [CR], isspace b = true := List.forall_mem_singleton.mpr rfl
    have htrim := trim_line hc hd (text ++ digits) hblank
    rw [hdigits]
    simpa only [List.append_assoc, List.cons_append, List.nil_append] using htrim

def textLines (n : ℕ) : List Str :=
  ["HTTP/1.1 200 OK".toList, "Content-Length: ".toList ++ Nat.toDigits 10 n,
    "Content-Type: text/plain".toList, "Connection: close".toList, "Accept-Ranges: none".toList]

instance (line : Str) : Decidable (Sendable line) :=
  decidable_of_iff ('\n' ∉ line ∧ line.length ≤ 297 ∧ trim (line ++ [CR]) = line ∧ line ≠ [])
    ⟨fun ⟨h₁, h₂, h₃, h₄⟩ => ⟨h₁, h₂, h₃, h₄⟩, fun ⟨h₁, h₂, h₃, h₄⟩ => ⟨h₁, h₂, h₃, h₄⟩⟩

theorem sendable_textLines {n : ℕ} (hn : n < 2 ^ 31) : ∀ line ∈ textLines n, Sendable line := by
  have hnumber : Sendable ("Content-Length: ".toList ++ Nat.toDigits 10 n) :=
    sendable_number (by decide : isspace 'C' = false)
      (by decide : '\n' ∉ 'C' :: "ontent-Length: ".toList) (by decide) hn
  unfold textLines
  simp only [List.forall_mem_cons, List.not_mem_nil, false_implies, implies_true, and_true]
  exact ⟨by decide, hnumber, by decide, by decide, by decide⟩

theorem headLines_text {r : WebServerResponse} (hcode : r.code = 200)
    (htype : r.contentType = "text/plain".toList)
    (hheaders : r.headers = [("Connection".toList, "close".toList)])
    (hsend : r.sendContentLength = true) (hchunked : r.chunked = false) :
    r.headLines 1 = textLines r.contentLength := by
  have hstatus : r.statusLine 1 = "HTTP/1.1 200 OK".toList := by
    unfold WebServerResponse.statusLine
    rw [hcode]
    decide
  have hadded : r.addedHeaders 1 = [("Accept-Ranges".toList, "none".toList)] := by
    unfold WebServerResponse.addedHeaders
    rw [if_pos (by decide), hchunked, if_neg Bool.false_ne_true]
  have hnamed : ([("Connection".toList, "close".toList)] ++
      [("Accept-Ranges".toList, "none".toList)]).map
        (fun header => cstr header.1 ++ ": ".toList ++ cstr header.2) =
      ["Connection: close".toList, "Accept-Ranges: none".toList] := by decide
  have hplain : "Content-Type: ".toList ++ cstr "text/plain".toList =
      "Content-Type: text/plain".toList := by decide
  unfold WebServerResponse.headLines textLines
  rw [hstatus, hsend, htype, hheaders, hadded, hnamed, if_pos rfl, if_pos (by decide), hplain]
  rfl

inductive Outgoing
  | basic (r : BasicResponse)
  | progmem (p : Progmem)
  | templated (t : Templated)

/-- `send` and `send_P`, before the response is asked to respond. -/
def begin (version : ℕ) : Reply → Outgoing
  | .page content => .templated (Templated.start 200 "text/html".toList content version)
  | .text content => .progmem (Progmem.start 200 "text/plain".toList content.length version)
  | .string content => .basic (BasicResponse.new 200 "text/plain".toList content)

theorem begin_eq_progmem {version : ℕ} {reply : Reply} {p : Progmem}
    (h : begin version reply = .progmem p) :
    p = Progmem.start 200 "text/plain".toList reply.content.length version := by
  cases reply with
  | page => cases h
  | text content => exact (Outgoing.progmem.inj h).symm
  | string => cases h

theorem read_start {len : ℕ} (hsmall : len < 2 ^ 31) (body : Str) :
    Head.read '\n' trim ((Progmem.start 200 "text/plain".toList len 1).response.head ++ body) =
      .ended (textLines len) body := by
  have hlines := headLines_text
    (r := (AbstractResponse.progmem 200 "text/plain".toList len false).addHeader
      "Connection" "close") rfl rfl rfl rfl rfl
  have hsend : ∀ line ∈ ((AbstractResponse.progmem 200 "text/plain".toList len
      false).addHeader "Connection" "close").headLines 1, Sendable line := by
    rw [hlines]
    exact sendable_textLines hsmall
  have hread := read_assembleHead hsend body
  rw [hlines] at hread
  exact hread

/-- A client that asks for a variable in HTTP/1.1 and makes room for the answer reads its value and
the length of it, as long as the string stays at the pointer. -/
theorem text_read {F Conn : Type*} (fl : FloatLib F) (s : State F Conn) {e : Endpoint}
    {p : Progmem} (hbegin : begin 1 (e.reply fl s) = .progmem p)
    (hsmall : (e.reply fl s).content.length < 2 ^ 31) {visits : List Visit}
    (hcontent : ∀ v ∈ visits, v.content = (e.reply fl s).content)
    (hroom : p.response.head.length + (e.reply fl s).content.length ≤
      (visits.map fun v => v.space).sum) :
    Head.read '\n' trim (outputs Progmem.answer p visits).flatten =
      .ended (textLines (e.reply fl s).content.length) (e.reply fl s).content := by
  rw [begin_eq_progmem hbegin] at hroom ⊢
  have hserved := Progmem.served_eq_take 200 "text/plain".toList (e.reply fl s).content 1 hcontent
  dsimp only at hserved
  rw [List.take_of_length_le (by rw [List.length_append]; exact hroom)] at hserved
  rw [hserved, read_start hsmall]

/-- At boot the temperature is read as `0.00`, here in three parts. -/
theorem text_read_boot :
    Head.read '\n' trim (outputs Progmem.answer (Progmem.start 200 "text/plain".toList 4 1)
        [⟨⟨0, 100⟩, "0.00".toList⟩, ⟨⟨100, 10⟩, "0.00".toList⟩,
          ⟨⟨10, 100⟩, "0.00".toList⟩]).flatten =
      .ended (textLines 4) "0.00".toList :=
  text_read FloatLib.hundredths (boot FloatLib.hundredths : State ℤ Unit) (e := .temperature) rfl
    (by decide) (by decide) (by decide)

end HomeMonitor.Http
