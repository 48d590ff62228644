import HomeMonitor.Http.Packets
import HomeMonitor.Sketch.Endpoints

/-! The requests that reach an endpoint. -/
namespace HomeMonitor.Http
open HomeMonitor.Arduino HomeMonitor.Machine HomeMonitor.Text HomeMonitor.AsyncWebserver

variable {ρ : Type*}

def word (line : Str) : Str := line.takeWhile (· ≠ ' ')

def target (line : Str) : Str := word (line.drop ((word line).length + 1))

/-- The part of a target in front of a question mark that is not its first letter. -/
def path (target : Str) : Str :=
  if target.head? = some '?' then target else target.takeWhile (· ≠ '?')

theorem substring_path {u : Str} (h : NUL ∉ u) :
    (if 0 < indexOfChar u '?' 0 then substring u 0 (indexOfChar u '?' 0) else u) = path u := by
  have hcut : substring u 0 (indexOfChar u '?' 0) = u.takeWhile (· ≠ '?') :=
    substring_indexOfChar h '?' (Nat.zero_le _)
  rw [hcut, indexOfChar_eq h, List.drop_zero]
  unfold path
  by_cases hmem : '?' ∈ u
  · rw [if_pos hmem]
    cases u with
    | nil => cases hmem
    | cons c u =>
      by_cases hc : c = '?'
      · simp [hc]
      · simp [hc]
  · have hhead : u.head? ≠ some '?' := fun heq => hmem (List.mem_of_head? heq)
    rw [if_neg hmem, if_neg (by decide), if_neg hhead, takeWhile_ne_eq_self hmem]

theorem parseReqHead_eq {r : Request ρ} (h : NUL ∉ r.temp) :
    r.parseReqHead.method = r.methodOf (word r.temp) ∧
      r.parseReqHead.url = urlDecode (path (target r.temp)) := by
  have hword : substring r.temp 0 (indexOfChar r.temp ' ' 0) = word r.temp :=
    substring_indexOfChar h ' ' (Nat.zero_le _)
  have htarget : substring r.temp ((word r.temp).length + 1 : ℕ)
      (indexOfChar r.temp ' ' (indexOfChar r.temp ' ' 0 + 1).toNat) = target r.temp := by
    by_cases hspace : ' ' ∈ r.temp
    · have hindex : (indexOfChar r.temp ' ' 0 + 1).toNat = (word r.temp).length + 1 := by
        rw [indexOfChar_eq h, List.drop_zero, if_pos hspace]
        unfold word
        omega
      rw [hindex]
      exact substring_indexOfChar h ' ' (length_takeWhile_lt hspace)
    · have hself : word r.temp = r.temp := takeWhile_ne_eq_self hspace
      have hindex : indexOfChar r.temp ' ' 0 = -1 := by
        rw [indexOfChar_eq h, List.drop_zero, if_neg hspace]
      have hindex' : indexOfChar r.temp ' ' (-1 + 1 : ℤ).toNat = -1 := hindex
      unfold target
      rw [hindex, hindex', hself, substring_of_length_le (by rw [toUnsigned_natCast]; omega)
        (length_le_toUnsigned_neg _), List.drop_of_length_le (by omega)]
      rfl
  have hsubset : target r.temp ⊆ r.temp := fun c hc =>
    List.mem_of_mem_drop ((List.takeWhile_prefix _).subset hc)
  unfold Request.parseReqHead
  dsimp only
  rw [hword, htarget, substring_path (nul_not_mem_of_subset h hsubset)]
  exact ⟨rfl, rfl⟩

/-- The words for which a request is not taken for a `GET`. -/
def otherMethods : List Str :=
  ["POST".toList, "DELETE".toList, "PUT".toList, "PATCH".toList, "HEAD".toList,
    "OPTIONS".toList]

/-- Every other word, known or not, counts as `GET`. -/
theorem methodOf_and_get {m : Str} (h : NUL ∉ m) :
    HTTP_GET &&& (Request.init : Request ρ).methodOf m = 0 ↔ m ∈ otherMethods := by
  unfold Request.methodOf otherMethods
  simp only [equalsLiteral_iff h, List.mem_cons, List.not_mem_nil, or_false]
  by_cases hget : m = "GET".toList
  · rw [if_pos hget, hget]
    decide
  · rw [if_neg hget]
    split_ifs with hpost hdelete hput hpatch hhead hoptions
    · exact iff_of_true (by decide) (Or.inl hpost)
    · exact iff_of_true (by decide) (Or.inr (Or.inl hdelete))
    · exact iff_of_true (by decide) (Or.inr (Or.inr (Or.inl hput)))
    · exact iff_of_true (by decide) (Or.inr (Or.inr (Or.inr (Or.inl hpatch))))
    · exact iff_of_true (by decide) (Or.inr (Or.inr (Or.inr (Or.inr (Or.inl hhead)))))
    · exact iff_of_true (by decide) (Or.inr (Or.inr (Or.inr (Or.inr (Or.inr hoptions)))))
    · have hany : ¬ HTTP_GET &&& HTTP_ANY = 0 := by decide
      refine iff_of_false hany ?_
      rintro (h | h | h | h | h | h)
      · exact hpost h
      · exact hdelete h
      · exact hput h
      · exact hpatch h
      · exact hhead h
      · exact hoptions h

/-- A handler without a wildcard takes its own path and everything below it. -/
theorem canHandle_iff {h : Handler ρ} (hnul : NUL ∉ h.uri) (hne : h.uri ≠ [])
    (hext : startsWith h.uri "/*.".toList = false) (hstar : endsWith h.uri "*".toList = false)
    (method : Methods) (url : Str) :
    h.canHandle method url = true ↔
      h.method &&& method ≠ 0 ∧ (url = h.uri ∨ h.uri ++ "/".toList <+: url) := by
  have hlength : h.uri.length ≠ 0 := fun hzero => hne (List.length_eq_zero_iff.mp hzero)
  have hequal : equalsString h.uri url = true ↔ url = h.uri := by
    have hiff := equalsString_iff url h.uri hnul
    rw [← hiff]
    unfold equalsString
    rw [Bool.beq_comm (a := h.uri.length), Bool.beq_comm (a := cstr h.uri)]
  have hbelow : startsWith url (h.uri ++ "/".toList) = true ↔ h.uri ++ "/".toList <+: url :=
    startsWith_iff (by
      rw [List.mem_append, not_or]
      exact ⟨hnul, by decide⟩)
  unfold Handler.canHandle
  rw [hext, hstar, if_neg (fun h => Bool.false_ne_true h.2 : ¬ (h.uri.length ≠ 0 ∧ false = true)),
    if_neg (fun h => Bool.false_ne_true h.2 : ¬ (h.uri.length ≠ 0 ∧ false = true))]
  by_cases hmethod : h.method &&& method = 0
  · simp [hmethod]
  · rw [if_neg hmethod, decide_eq_true_eq, hequal, hbelow]
    simp only [hlength, false_or]
    exact ⟨fun hurl => ⟨hmethod, hurl⟩, fun hurl => hurl.2⟩

/-- The paths of an endpoint: its own and everything below it. -/
def Endpoint.Covers (e : Endpoint) (url : Str) : Prop :=
  url = e.handler.uri ∨ e.handler.uri ++ "/".toList <+: url

theorem canHandle_endpoint (e : Endpoint) (method : Methods) (url : Str) :
    e.handler.canHandle method url = true ↔ HTTP_GET &&& method ≠ 0 ∧ Endpoint.Covers e url := by
  apply canHandle_iff
  · cases e <;> decide
  · exact List.cons_ne_nil '/' e.name
  · cases e <;> decide
  · cases e <;> decide

/-- The name of an endpoint is what stands between the first two slashes of its paths. -/
theorem name_of_covers {e : Endpoint} {url : Str} (h : Endpoint.Covers e url) :
    url.tail.takeWhile (· ≠ '/') = e.name := by
  have hslash : '/' ∉ e.name := by cases e <;> decide
  rcases h with rfl | ⟨rest, rfl⟩
  · exact takeWhile_ne_eq_self hslash
  · have hall : ∀ c ∈ e.name, decide (c ≠ '/') = true :=
      fun c hc => decide_eq_true fun heq => hslash (heq ▸ hc)
    change ((e.name ++ "/".toList) ++ rest).takeWhile _ = e.name
    rw [List.append_assoc, List.takeWhile_append_of_pos hall]
    exact List.append_nil _

theorem Endpoint.name_injective : Function.Injective Endpoint.name := by
  intro e e' h
  cases e <;> cases e' <;> first | rfl | exact absurd h (by decide)

/-- No endpoint shadows another: whatever their order, a request goes to the one that covers
its path. -/
theorem attachHandler_endpoints (method : Methods) (url : Str) (e : Endpoint) :
    attachHandler endpoints method url = some e ↔
      HTTP_GET &&& method ≠ 0 ∧ Endpoint.Covers e url := by
  have hmem : e.handler ∈ endpoints := List.mem_map_of_mem (by cases e <;> decide)
  have hfound : ∀ h, endpoints.find? (fun h => h.canHandle method url) = some h →
      ∃ e' : Endpoint, h = e'.handler ∧ HTTP_GET &&& method ≠ 0 ∧ Endpoint.Covers e' url := by
    intro h hfind
    obtain ⟨e', -, rfl⟩ := List.mem_map.mp (List.mem_of_find?_eq_some hfind)
    have hcan := List.find?_some hfind
    exact ⟨e', rfl, (canHandle_endpoint e' method url).mp hcan⟩
  unfold attachHandler
  constructor
  · intro h
    obtain ⟨found, hfind, heq⟩ := Option.map_eq_some_iff.mp h
    obtain ⟨e', rfl, hcovers⟩ := hfound found hfind
    have he : e' = e := heq
    rwa [he] at hcovers
  · rintro ⟨hmethod, hcovers⟩
    cases hfind : endpoints.find? fun h => h.canHandle method url with
    | none =>
      have hcan := List.find?_eq_none.mp hfind e.handler hmem
      exact absurd ((canHandle_endpoint e method url).mpr ⟨hmethod, hcovers⟩) hcan
    | some found =>
      obtain ⟨e', rfl, -, hcovers'⟩ := hfound found hfind
      have he : e' = e :=
        Endpoint.name_injective ((name_of_covers hcovers').symm.trans (name_of_covers hcovers))
      rw [he]
      rfl

section calls

variable (handlers : List (Handler ρ))

theorem headOf_cons (first : Str) (headers : List Str) :
    (headOf (first :: headers) : Request ρ).method = (headOf [first] : Request ρ).method ∧
      (headOf (first :: headers) : Request ρ).url = (headOf [first] : Request ρ).url := by
  induction headers using List.reverseRecOn with
  | nil => exact ⟨rfl, rfl⟩
  | append_singleton headers header ih =>
    have hstate := (headOf_same (ρ := ρ) (first :: headers)).2.2
    rw [if_neg (List.cons_ne_nil first headers)] at hstate
    obtain ⟨-, -, -, hmethod, hurl⟩ := parseReqHeader_same
      ({ headOf (first :: headers) with temp := header } : Request ρ)
    rw [← List.cons_append, headOf_concat, readLine_of_headers hstate]
    exact ⟨hmethod.trans ih.1, hurl.trans ih.2⟩

theorem atEnd_cons (first : Str) (headers : List Str) :
    (atEnd handlers (first :: headers)).1 =
      { (headOf (first :: headers) : Request ρ) with
        handler :=
          some (attachHandler handlers (headOf [first] : Request ρ).method
            (headOf [first] : Request ρ).url)
        parseState :=
          if (headOf (first :: headers) : Request ρ).contentLength ≠ 0 then .BODY else .END } ∧
    (atEnd handlers (first :: headers)).2 =
      (if (headOf (first :: headers) : Request ρ).expectingContinue then [.sendContinue] else []) ++
        if (headOf (first :: headers) : Request ρ).contentLength ≠ 0 then []
        else [(atEnd handlers (first :: headers)).1.handleRequest] := by
  constructor
  · rw [atEnd_eq, if_neg (List.cons_ne_nil first headers), endHeaders_fst,
      ← (headOf_cons first headers).1, ← (headOf_cons first headers).2]
  · rw [atEnd_eq, if_neg (List.cons_ne_nil first headers), endHeaders_snd]

theorem handleRequest_atEnd_iff (first : Str) (headers : List Str) (x : ρ) :
    (atEnd handlers (first :: headers)).1.handleRequest = .call x ↔
      attachHandler handlers (headOf [first] : Request ρ).method (headOf [first] : Request ρ).url =
        some x := by
  rw [(atEnd_cons handlers first headers).1]
  unfold Request.handleRequest
  cases attachHandler handlers (headOf [first] : Request ρ).method
      (headOf [first] : Request ρ).url with
  | none => simp
  | some y => simp

/-- Some packets bring a head that names a handler, and it announces no body or they end where the
body does. -/
def Calls (packets : List Str) (x : ρ) : Prop :=
  ∃ first headers front body, front <+: packets ∧
    readHead front.flatten = .ended (first :: headers) body ∧
    attachHandler handlers (headOf [first] : Request ρ).method
      (headOf [first] : Request ρ).url = some x ∧
    ((headOf (first :: headers) : Request ρ).contentLength = 0 ∨
      BitVec.ofNat 32 body.length = (headOf (first :: headers) : Request ρ).contentLength)

section

variable {packets front : List Str} {done lines headers : List Str} {first line body body' : Str}

/-- The head that some packets bring is the head that all of them bring. -/
theorem head_of_isPrefix (hfront : front <+: packets)
    (hlines : readHead front.flatten = .ended lines body') :
    ∃ body, readHead packets.flatten = .ended lines body := by
  obtain ⟨back, rfl⟩ := hfront
  rw [List.flatten_append, readHead, Head.read_append_of_ended _ _ hlines]
  exact ⟨_, rfl⟩

theorem Calls.exists_head {x : ρ} (h : Calls handlers packets x) :
    ∃ first headers body, readHead packets.flatten = .ended (first :: headers) body := by
  obtain ⟨first, headers, front, body, hfront, hlines, -⟩ := h
  exact ⟨first, headers, head_of_isPrefix hfront hlines⟩

theorem calls_iff (hread : readHead packets.flatten = .ended (first :: headers) body) (x : ρ) :
    Calls handlers packets x ↔ (atEnd handlers (first :: headers)).1.handleRequest = .call x ∧
      ((headOf (first :: headers) : Request ρ).contentLength = 0 ∨
        Completed (headOf (first :: headers) : Request ρ).contentLength (first :: headers)
          packets) := by
  rw [handleRequest_atEnd_iff]
  constructor
  · rintro ⟨first', headers', front, body', hfront, hlines, hattach, hlength⟩
    obtain ⟨body'', hread'⟩ := head_of_isPrefix hfront hlines
    rw [hread] at hread'
    injection hread' with heq
    obtain ⟨rfl, rfl⟩ := List.cons.inj heq
    exact ⟨hattach, hlength.imp_right fun hlength => ⟨front, body', hfront, hlines, hlength⟩⟩
  · rintro ⟨hattach, hlength | ⟨front, body', hfront, hlines, hlength⟩⟩
    · exact ⟨first, headers, packets, body, List.prefix_rfl, hread, hattach, Or.inl hlength⟩
    · exact ⟨first, headers, front, body', hfront, hlines, hattach, Or.inr hlength⟩

theorem atEnd_body_iff (first : Str) (headers : List Str) :
    (atEnd handlers (first :: headers)).1.parseState = .BODY ↔
      (headOf (first :: headers) : Request ρ).contentLength ≠ 0 := by
  rw [atEnd_state, if_neg (List.cons_ne_nil first headers)]
  split_ifs with hlength
  · exact iff_of_true rfl hlength
  · exact iff_of_false (by decide) hlength

theorem call_not_mem_continue (r : Request ρ) (x : ρ) :
    Effect.call x ∉ if r.expectingContinue then [Effect.sendContinue] else [] := by
  split_ifs
  · simp
  · exact List.not_mem_nil

theorem call_mem_iff_of_head {s : Request ρ × List (Effect ρ)}
    (h : Received handlers packets s (.ended (first :: headers) body))
    (hplain : (headOf (first :: headers) : Request ρ).isMultipart = false) (x : ρ) :
    .call x ∈ s.2 ↔ (atEnd handlers (first :: headers)).1.handleRequest = .call x ∧
      ((headOf (first :: headers) : Request ρ).contentLength = 0 ∨
        Completed (headOf (first :: headers) : Request ρ).contentLength (first :: headers)
          packets) := by
  obtain ⟨hfst, hsnd⟩ := atEnd_cons handlers first headers
  have hbody := atEnd_body_iff handlers first headers
  have hcontinue := call_not_mem_continue (headOf (first :: headers) : Request ρ) x
  have hlength : (atEnd handlers (first :: headers)).1.contentLength =
      (headOf (first :: headers) : Request ρ).contentLength := by rw [hfst]
  have hone : (atEnd handlers (first :: headers)).1.isMultipart = false := by
    rw [hfst]
    exact hplain
  rcases h with ⟨hstays, h⟩ | ⟨hwaits, hdone, -, heffects⟩ | ⟨hwaits, hdone, h⟩ | ⟨-, hmultipart⟩
  · have hzero := not_not.mp fun h => hstays (hbody.mpr h)
    rw [h, hsnd, if_neg (not_not.mpr hzero), List.mem_append, List.mem_singleton]
    exact ⟨fun h => ⟨(h.resolve_left hcontinue).symm, Or.inl hzero⟩, fun h => Or.inr h.1.symm⟩
  · have hne := hbody.mp hwaits.1
    rw [heffects, hsnd, if_pos hne, List.append_nil, List.mem_append, List.mem_singleton]
    rw [hlength] at hdone
    exact ⟨fun h => ⟨(h.resolve_left hcontinue).symm, Or.inr hdone⟩, fun h => Or.inr h.1.symm⟩
  · have hne := hbody.mp hwaits.1
    rw [h, hsnd, if_pos hne, List.append_nil]
    rw [hlength] at hdone
    exact iff_of_false hcontinue fun h => h.2.elim hne hdone
  · exact absurd (hone.symm.trans hmultipart) Bool.false_ne_true

end

/-- The calls of packets: a handler is called once the head has come, if the head names it and
either no body is announced or some packets end where the body does. -/
theorem call_mem_receive_iff {packets : List Str} (hnul : ∀ packet ∈ packets, NUL ∉ packet)
    (hplain : ∀ lines body, readHead packets.flatten = .ended lines body →
      (headOf lines : Request ρ).isMultipart = false) (x : ρ) :
    .call x ∈ (receive handlers packets).2 ↔ Calls handlers packets x := by
  have hreceived := receive_received handlers hnul
  cases hread : readHead packets.flatten with
  | lines done line =>
    rw [hread] at hreceived
    change _ = _ at hreceived
    rw [hreceived]
    refine iff_of_false List.not_mem_nil fun h => ?_
    obtain ⟨first, headers, body, hhead⟩ := h.exists_head
    rw [hread] at hhead
    cases hhead
  | ended done body =>
    rw [hread] at hreceived
    cases done with
    | nil =>
      have hfail : (atEnd handlers []).1.parseState ≠ .BODY := by
        rw [atEnd_state]
        exact ParseState.noConfusion
      rcases hreceived with ⟨-, hreceived⟩ | ⟨hwaits, -⟩ | ⟨hwaits, -⟩ | ⟨hbody, -⟩
      · rw [hreceived]
        refine iff_of_false (by simp [atEnd_eq]) fun h => ?_
        obtain ⟨first, headers, body', hhead⟩ := h.exists_head
        rw [hread] at hhead
        injection hhead with hnil
        exact List.cons_ne_nil _ _ hnil.symm
      · exact absurd hwaits.1 hfail
      · exact absurd hwaits.1 hfail
      · exact absurd hbody hfail
    | cons first headers =>
      rw [calls_iff handlers hread]
      exact call_mem_iff_of_head handlers hreceived (hplain _ body hread) x

end calls

theorem nul_not_mem_of_readHead {text : Str} (h : NUL ∉ text) {lines : List Str} {body : Str}
    (hread : readHead text = .ended lines body) : ∀ line ∈ lines, NUL ∉ line := by
  have hsubset := Head.read_subset '\n' (fun l => (trim_within l).subset) text
  rw [readHead] at hread
  rw [hread] at hsubset
  exact fun line hline => nul_not_mem_of_subset h (hsubset.1 line hline)

theorem attach_headOf_iff {first : Str} (hfirst : NUL ∉ first) (e : Endpoint) :
    attachHandler endpoints (headOf [first] : Request Endpoint).method
        (headOf [first] : Request Endpoint).url = some e ↔
      word first ∉ otherMethods ∧ Endpoint.Covers e (urlDecode (path (target first))) := by
  have hword : NUL ∉ word first :=
    nul_not_mem_of_subset hfirst (List.takeWhile_prefix _).subset
  obtain ⟨hmethod, hurl⟩ := parseReqHead_eq
    (r := { (Request.init : Request Endpoint) with temp := first }) hfirst
  have hhead : (headOf [first] : Request Endpoint) =
      { ({ Request.init with temp := first } : Request Endpoint).parseReqHead with
        parseState := .HEADERS } := rfl
  rw [hhead, attachHandler_endpoints]
  dsimp only
  rw [hmethod, hurl]
  exact and_congr_left fun _ => not_congr (methodOf_and_get (ρ := Endpoint) hword)

/-- A request opens the door with whatever word for its method but six, with any letter of the
path percent-encoded, and with any path below `/on`: the packets bring a head that says so, and
some of them end where the body that it announces does. -/
theorem on_called_iff {packets : List Str} (hnul : ∀ packet ∈ packets, NUL ∉ packet)
    (hplain : ∀ lines body, readHead packets.flatten = .ended lines body →
      (headOf lines : Request Endpoint).isMultipart = false) :
    .call .on ∈ (receive endpoints packets).2 ↔
      ∃ first headers front body, front <+: packets ∧
        readHead front.flatten = .ended (first :: headers) body ∧
        word first ∉ otherMethods ∧
        (urlDecode (path (target first)) = "/on".toList ∨
          "/on/".toList <+: urlDecode (path (target first))) ∧
        ((headOf (first :: headers) : Request Endpoint).contentLength = 0 ∨
          BitVec.ofNat 32 body.length =
            (headOf (first :: headers) : Request Endpoint).contentLength) := by
  rw [call_mem_receive_iff endpoints hnul hplain]
  unfold Calls
  refine exists_congr fun first => exists_congr fun headers => exists_congr fun front =>
    exists_congr fun body => and_congr_right fun hfront => and_congr_right fun hread => ?_
  have hfirst : NUL ∉ first := by
    refine nul_not_mem_of_readHead ?_ hread first List.mem_cons_self
    rw [List.mem_flatten]
    rintro ⟨packet, hpacket, hmem⟩
    exact hnul packet (hfront.subset hpacket) hmem
  rw [attach_headOf_iff hfirst, and_assoc]
  rfl

/-- An unknown word, an encoded letter and two packets. -/
theorem on_called_unknown :
    .call .on ∈ (receive endpoints ["OPEN /%6".toList, "fn/now?x HTTP/1.1\r\n\r\n".toList]).2 ↔
      ∃ first headers front body,
        front <+: ["OPEN /%6".toList, "fn/now?x HTTP/1.1\r\n\r\n".toList] ∧
        readHead front.flatten = .ended (first :: headers) body ∧
        word first ∉ otherMethods ∧
        (urlDecode (path (target first)) = "/on".toList ∨
          "/on/".toList <+: urlDecode (path (target first))) ∧
        ((headOf (first :: headers) : Request Endpoint).contentLength = 0 ∨
          BitVec.ofNat 32 body.length =
            (headOf (first :: headers) : Request Endpoint).contentLength) := by
  have hread : readHead ["OPEN /%6".toList, "fn/now?x HTTP/1.1\r\n\r\n".toList].flatten =
      .ended ["OPEN /%6fn/now?x HTTP/1.1".toList] [] := by decide +kernel
  refine on_called_iff (List.forall_mem_cons.mpr
    ⟨by decide +kernel, List.forall_mem_singleton.mpr (by decide +kernel)⟩) ?_
  intro lines body h
  rw [hread] at h
  injection h with hlines
  rw [← hlines]
  decide +kernel

end HomeMonitor.Http
