import HomeMonitor.Http.Client
import HomeMonitor.Template.RootPageEnds

/-! The root page as a browser reads it while the nodes go on reporting. -/
namespace HomeMonitor.Http
open HomeMonitor.Arduino HomeMonitor.Machine HomeMonitor.Template HomeMonitor.Text
  HomeMonitor.AsyncWebserver

variable {F Conn : Type*}

def pageLines : List Str :=
  ["HTTP/1.1 200 OK".toList, "Content-Type: text/html".toList, "Connection: close".toList,
    "Accept-Ranges: none".toList, "Transfer-Encoding: chunked".toList]

/-- The response that the handler of the root page starts, in HTTP/1.1. -/
def pageStart : Templated := Templated.start 200 "text/html".toList WEBSITE 1

theorem headLines_page (len : ℕ) :
    ((AbstractResponse.progmem 200 "text/html".toList len true).addHeader
      "Connection" "close").headLines 1 = pageLines := by
  let r := (AbstractResponse.progmem 200 "text/html".toList len true).addHeader
    "Connection" "close"
  have hstatus : r.statusLine 1 = "HTTP/1.1 200 OK".toList := by
    show "HTTP/1.".toList ++ Nat.toDigits 10 1 ++ ' ' :: Nat.toDigits 10 200 ++
      ' ' :: responseCodeToString 200 = _
    decide
  have hadded : r.headers ++ r.addedHeaders 1 = [("Connection".toList, "close".toList),
      ("Accept-Ranges".toList, "none".toList),
      ("Transfer-Encoding".toList, "chunked".toList)] := rfl
  have htype : "Content-Type: ".toList ++ cstr "text/html".toList =
      "Content-Type: text/html".toList := by decide
  show r.headLines 1 = pageLines
  unfold WebServerResponse.headLines pageLines
  rw [hstatus, hadded]
  show "HTTP/1.1 200 OK".toList :: (([] ++ if "text/html".toList.length ≠ 0 then
    ["Content-Type: ".toList ++ cstr "text/html".toList] else []) ++ _) = _
  rw [htype]
  decide

theorem read_pageStart (body : Str) :
    Head.read '\n' trim (pageStart.response.head ++ body) = .ended pageLines body := by
  have hlines := headLines_page WEBSITE.length
  have hsend : ∀ line ∈ ((AbstractResponse.progmem 200 "text/html".toList WEBSITE.length
      true).addHeader "Connection" "close").headLines 1, Sendable line := by
    rw [hlines]
    decide
  have hread := read_assembleHead hsend body
  rw [hlines] at hread
  exact hread

section

variable {fl : FloatLib F} {states : List (State F Conn)} {callbacks : List (Str → Str)}
  {text : Str}

end

theorem length_pageStart : pageStart.response.head.length = 112 := by
  decide +kernel

theorem ready_pageStart : Templated.Ready pageStart :=
  ⟨⟨rfl, rfl⟩, Or.inl rfl, website_facts.last⟩

/-- In a quiet state, a browser that makes room for one buffer after another, of any lengths, gets
what the template engine makes of the page in these buffers, and the response comes to its end. -/
theorem page_completes (fl : FloatLib F) {s : State F Conn} (h : Quiet s) {lens : ℕ → ℕ}
    (hpos : ∀ i, 0 < lens i)
    (hspace : ∀ i, pageStart.response.head.length + lens i + 8 < 2 ^ 16) :
    ∃ answers t stream body, Templated.Delivers (processor fl s) lens body pageStart answers t ∧
      Head.read '\n' trim (answers.map Answer.out).flatten = .ended pageLines stream ∧
      Chunks.read stream = ⟨.ended, body⟩ ∧
      Produces (processor fl s) lens ⟨[], WEBSITE⟩ body := by
  obtain ⟨body, hproduces⟩ : ∃ body, Produces (processor fl s) lens ⟨[], WEBSITE⟩ body :=
    h.finishes website_facts hpos
  obtain ⟨answers, t, hdelivers⟩ := ready_pageStart.completes hproduces rfl hpos hspace
  obtain ⟨parts, hout, hbody, hne⟩ := hdelivers.sent
  refine ⟨answers, t, parts.flatMap (Chunks.chunk 4) ++ Chunks.chunk 4 [], body, hdelivers, ?_, ?_,
    hproduces⟩
  · rw [hout]
    exact read_pageStart _
  · rw [← hbody]
    exact Chunks.read_chunks_ended 4 hne

/-- At boot, in buffers of 1000 bytes. -/
theorem page_completes_boot :
    ∃ answers t stream body, Templated.Delivers (processor FloatLib.hundredths
        (boot FloatLib.hundredths : State ℤ Unit)) (fun _ => 1000) body pageStart answers t ∧
      Head.read '\n' trim (answers.map Answer.out).flatten = .ended pageLines stream ∧
      Chunks.read stream = ⟨.ended, body⟩ ∧
      Produces (processor FloatLib.hundredths (boot FloatLib.hundredths : State ℤ Unit))
        (fun _ => 1000) ⟨[], WEBSITE⟩ body :=
  page_completes FloatLib.hundredths (quiet_boot FloatLib.hundredths)
    (fun _ => (by decide : 0 < 1000)) fun _ => (by
      rw [length_pageStart]
      decide : pageStart.response.head.length + 1000 + 8 < 2 ^ 16)

end HomeMonitor.Http
