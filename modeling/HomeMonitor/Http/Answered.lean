import HomeMonitor.Http.Routes
import HomeMonitor.Http.Url

/-! The requests of browsers, from the request line that names an endpoint to its call. -/
namespace HomeMonitor.Http
open HomeMonitor.Arduino HomeMonitor.Machine HomeMonitor.Text HomeMonitor.AsyncWebserver

variable {ρ : Type*}

def Bodiless (line : Str) : Prop :=
  equalsIgnoreCase (line.takeWhile (· ≠ ':')) "Content-Length".toList = false ∧
    equalsIgnoreCase (line.takeWhile (· ≠ ':')) "Content-Type".toList = false

instance (line : Str) : Decidable (Bodiless line) := inferInstanceAs (Decidable (_ ∧ _))

theorem parseReqHeader_of_bodiless {r : Request ρ} (hnul : NUL ∉ r.temp) (h : Bodiless r.temp) :
    r.parseReqHeader.contentLength = r.contentLength ∧
      r.parseReqHeader.isMultipart = r.isMultipart := by
  have hname : substring r.temp 0 (indexOfChar r.temp ':' 0) = r.temp.takeWhile (· ≠ ':') :=
    substring_indexOfChar hnul ':' (Nat.zero_le _)
  unfold Request.parseReqHeader
  dsimp only
  rw [hname, h.1, h.2]
  simp only [Bool.false_eq_true, if_false]
  split_ifs <;> exact ⟨rfl, rfl⟩

theorem headOf_of_bodiless {first : Str} {headers : List Str}
    (h : ∀ header ∈ headers, NUL ∉ header ∧ Bodiless header) :
    (headOf (first :: headers) : Request ρ).contentLength = 0 ∧
      (headOf (first :: headers) : Request ρ).isMultipart = false := by
  induction headers using List.reverseRecOn with
  | nil => exact ⟨rfl, rfl⟩
  | append_singleton headers header ih =>
    obtain ⟨hlength, hmultipart⟩ := ih fun l hl => h l (List.mem_append_left _ hl)
    obtain ⟨hnul, hbodiless⟩ := h header (by simp)
    have hstate := (headOf_same (ρ := ρ) (first :: headers)).2.2
    rw [if_neg (List.cons_ne_nil first headers)] at hstate
    obtain ⟨hlength', hmultipart'⟩ := parseReqHeader_of_bodiless
      (r := { (headOf (first :: headers) : Request ρ) with temp := header }) hnul hbodiless
    rw [← List.cons_append, headOf_concat, readLine_of_headers hstate]
    exact ⟨hlength'.trans hlength, hmultipart'.trans hmultipart⟩

def getLines (spelled query : Str) (headers : List Str) : List Str :=
  ("GET ".toList ++ (spelled ++ query) ++ " HTTP/1.1\r".toList) ::
    headers.map fun header => header ++ [CR]

def getText (spelled query : Str) (headers : List Str) : Str :=
  ((getLines spelled query headers).flatMap fun line => line ++ ['\n']) ++ "\r\n".toList

structure Header (header : Str) : Prop where
  newline : '\n' ∉ header
  nul : NUL ∉ header
  shown : trim (header ++ [CR]) ≠ []
  bodiless : Bodiless (trim (header ++ [CR]))

theorem requestLine_eq (spelled query : Str) :
    "GET ".toList ++ (spelled ++ query) ++ " HTTP/1.1\r".toList =
      'G' :: (("ET ".toList ++ (spelled ++ query) ++ " HTTP/1.".toList) ++ '1' :: [CR]) := by
  have hget : "GET ".toList = 'G' :: "ET ".toList := by decide
  have hversion : " HTTP/1.1\r".toList = " HTTP/1.".toList ++ '1' :: [CR] := by decide
  rw [hget, hversion]
  simp only [List.append_assoc, List.cons_append]

theorem trim_requestLine (spelled query : Str) :
    trim ("GET ".toList ++ (spelled ++ query) ++ " HTTP/1.1\r".toList) =
      "GET".toList ++ ' ' :: ((spelled ++ query) ++ ' ' :: "HTTP/1.1".toList) := by
  have hget : "GET".toList = 'G' :: "ET".toList := by decide
  have hspace : "ET ".toList = "ET".toList ++ [' '] := by decide
  have hversion : " HTTP/1.".toList ++ ['1'] = ' ' :: "HTTP/1.1".toList := by decide
  rw [requestLine_eq, trim_line (by decide) (by decide) _ (List.forall_mem_singleton.mpr rfl),
    List.append_assoc, hversion, hget, hspace]
  simp only [List.append_assoc, List.cons_append, List.nil_append]

theorem word_append {w rest : Str} (h : ' ' ∉ w) : word (w ++ ' ' :: rest) = w := by
  have hall : ∀ c ∈ w, decide (c ≠ ' ') = true := fun c hc => decide_eq_true fun heq => h (heq ▸ hc)
  unfold word
  rw [List.takeWhile_append_of_pos hall, List.takeWhile_cons_of_neg (by simp), List.append_nil]

theorem target_append {w u rest : Str} (hw : ' ' ∉ w) (hu : ' ' ∉ u) :
    target (w ++ ' ' :: (u ++ ' ' :: rest)) = u := by
  unfold target
  rw [word_append hw, List.drop_append, List.drop_of_length_le (by omega), List.nil_append,
    Nat.add_sub_cancel_left, List.drop_succ_cons, List.drop_zero, word_append hu]

theorem path_append {spelled query : Str} (hne : spelled ≠ []) (h : '?' ∉ spelled)
    (hquery : query = [] ∨ query.head? = some '?') : path (spelled ++ query) = spelled := by
  have hall : ∀ c ∈ spelled, decide (c ≠ '?') = true :=
    fun c hc => decide_eq_true fun heq => h (heq ▸ hc)
  have hhead : (spelled ++ query).head? ≠ some '?' := by
    rw [List.head?_append_of_ne_nil _ hne]
    exact fun heq => h (List.mem_of_head? heq)
  unfold path
  rw [if_neg hhead, List.takeWhile_append_of_pos hall]
  rcases hquery with rfl | hquery
  · rw [List.takeWhile_nil, List.append_nil]
  · cases query with
    | nil => cases hquery
    | cons c query =>
      rw [List.head?_cons, Option.some.injEq] at hquery
      rw [List.takeWhile_cons_of_neg (by simp [hquery]), List.append_nil]

section text

variable {spelled query : Str} {headers : List Str}

theorem map_trim_getLines (spelled query : Str) (headers : List Str) :
    (getLines spelled query headers).map trim =
      ("GET".toList ++ ' ' :: ((spelled ++ query) ++ ' ' :: "HTTP/1.1".toList)) ::
        headers.map fun header => trim (header ++ [CR]) := by
  unfold getLines
  rw [List.map_cons, trim_requestLine, List.map_map]
  rfl

theorem lines_getLines (hnewline : '\n' ∉ spelled ++ query)
    (hheaders : ∀ header ∈ headers, Header header) :
    ∀ line ∈ getLines spelled query headers, '\n' ∉ line ∧ trim line ≠ [] := by
  intro line hline
  rcases List.mem_cons.mp hline with rfl | hline
  · rw [trim_requestLine]
    constructor
    · simp only [List.mem_append, not_or] at hnewline ⊢
      exact ⟨⟨by decide, hnewline⟩, by decide⟩
    · simp
  · obtain ⟨header, hheader, rfl⟩ := List.mem_map.mp hline
    refine ⟨?_, (hheaders header hheader).shown⟩
    rw [List.mem_append, not_or]
    exact ⟨(hheaders header hheader).newline, by decide⟩

theorem nul_not_mem_getText (hnul : NUL ∉ spelled ++ query)
    (hheaders : ∀ header ∈ headers, Header header) : NUL ∉ getText spelled query headers := by
  have hlines : ∀ line ∈ getLines spelled query headers, NUL ∉ line := by
    intro line hline
    rcases List.mem_cons.mp hline with rfl | hline
    · simp only [List.mem_append, not_or] at hnul ⊢
      exact ⟨⟨by decide, hnul⟩, by decide⟩
    · obtain ⟨header, hheader, rfl⟩ := List.mem_map.mp hline
      rw [List.mem_append, not_or]
      exact ⟨(hheaders header hheader).nul, by decide⟩
  unfold getText
  rw [List.mem_append, List.mem_flatMap, not_or]
  refine ⟨?_, by decide⟩
  intro hmem
  obtain ⟨line, hline, hmem⟩ := hmem
  rw [List.mem_append] at hmem
  exact hmem.elim (hlines line hline) (by decide)

theorem read_getText (hnewline : '\n' ∉ spelled ++ query)
    (hheaders : ∀ header ∈ headers, Header header) :
    readHead (getText spelled query headers) =
      .ended (("GET".toList ++ ' ' :: ((spelled ++ query) ++ ' ' :: "HTTP/1.1".toList)) ::
        headers.map fun header => trim (header ++ [CR])) [] := by
  have hblank : "\r\n".toList = [CR] ++ '\n' :: [] := by decide
  have hread := Head.read_head '\n' trim (lines_getLines hnewline hheaders)
    (by decide : '\n' ∉ [CR]) (by decide) []
  rw [getText, hblank, readHead, hread, map_trim_getLines]

end text

/-- However a browser encodes the path of an endpoint, whatever query and headers it adds and
whatever packets its request is cut into, the endpoint is called. -/
theorem get_answered {e : Endpoint} {spelled query : Str} {headers : List Str}
    {packets : List Str} (hspelled : Spells spelled e.handler.uri)
    (hquery : query = [] ∨ query.head? = some '?')
    (hletters : ∀ c ∈ query, c ≠ ' ' ∧ c ≠ '\n' ∧ c ≠ NUL)
    (hheaders : ∀ header ∈ headers, Header header)
    (hpackets : packets.flatten = getText spelled query headers) :
    .call e ∈ (receive endpoints packets).2 := by
  have hfree : ∀ c : Char, c ∉ e.handler.uri → c ≠ '%' → c ≠ '+' → hexDigit? c = none →
      c ∉ spelled := fun c => not_mem_of_spells hspelled
  have hspace : ' ' ∉ spelled ++ query := by
    rw [List.mem_append, not_or]
    exact ⟨hfree ' ' (by cases e <;> decide) (by decide) (by decide) (by decide),
      fun hmem => (hletters ' ' hmem).1 rfl⟩
  have hnewline : '\n' ∉ spelled ++ query := by
    rw [List.mem_append, not_or]
    exact ⟨hfree '\n' (by cases e <;> decide) (by decide) (by decide) (by decide),
      fun hmem => (hletters '\n' hmem).2.1 rfl⟩
  have hnul : NUL ∉ spelled ++ query := by
    rw [List.mem_append, not_or]
    exact ⟨hfree NUL (by cases e <;> decide) (by decide) (by decide) (by decide),
      fun hmem => (hletters NUL hmem).2.2 rfl⟩
  have hmark : '?' ∉ spelled :=
    hfree '?' (by cases e <;> decide) (by decide) (by decide) (by decide)
  have hne : spelled ≠ [] := by
    rintro rfl
    cases hspelled
  have hread := read_getText hnewline hheaders
  have htext := nul_not_mem_getText hnul hheaders
  rw [← hpackets] at hread htext
  obtain ⟨first, hfirst⟩ : ∃ first, first =
      "GET".toList ++ ' ' :: ((spelled ++ query) ++ ' ' :: "HTTP/1.1".toList) := ⟨_, rfl⟩
  rw [← hfirst] at hread
  have hbodiless : ∀ header ∈ headers.map fun header => trim (header ++ [CR]),
      NUL ∉ header ∧ Bodiless header := by
    intro line hline
    refine ⟨nul_not_mem_of_readHead htext hread line (List.mem_cons_of_mem _ hline), ?_⟩
    obtain ⟨header, hheader, rfl⟩ := List.mem_map.mp hline
    exact (hheaders header hheader).bodiless
  obtain ⟨hlength, hmultipart⟩ :
      (headOf (first :: _) : Request Endpoint).contentLength = 0 ∧ _ :=
    headOf_of_bodiless hbodiless
  have hword : word first = "GET".toList := by
    rw [hfirst, word_append (by decide)]
  have htarget : target first = spelled ++ query := by
    rw [hfirst, target_append (by decide) hspace]
  rw [call_mem_receive_iff endpoints fun packet hpacket hmem =>
    htext (List.mem_flatten_of_mem hpacket hmem)]
  · unfold Calls
    refine ⟨first, _, packets, [], List.prefix_rfl, hread, ?_, Or.inl hlength⟩
    rw [attach_headOf_iff (nul_not_mem_of_readHead htext hread first List.mem_cons_self), hword,
      htarget, path_append hne hmark hquery, urlDecode_of_spells hspelled]
    exact ⟨by decide, Or.inl rfl⟩
  · intro lines body hlines
    rw [hread] at hlines
    injection hlines with hlines
    rw [← hlines]
    exact hmultipart

/-- An encoded letter, a query and a header, in three packets. -/
theorem get_answered_rfid :
    .call .rfid ∈ (receive endpoints
      ["GET /%72fi".toList, "d?x=1 HTTP/1.1\r".toList, "\nHost: a\r\n\r\n".toList]).2 :=
  get_answered
    (.letter (by decide) (by decide) (.percent (x := 7) (y := 2) (by decide) (by decide)
      (.letter (by decide) (by decide) (.letter (by decide) (by decide)
        (.letter (by decide) (by decide) .nil)))) :
      Spells "/%72fid".toList Endpoint.rfid.handler.uri)
    (Or.inr rfl : "?x=1".toList = [] ∨ "?x=1".toList.head? = some '?')
    (forall_mem_of_all (by decide))
    (List.forall_mem_singleton.mpr ⟨by decide, by decide, by decide, by decide⟩ :
      ∀ header ∈ ["Host: a".toList], Header header)
    (by decide)

end HomeMonitor.Http
