import HomeMonitor.Sketch.AsyncWebserver

/-! Which requests the server accepts. The extraction does not test whether its
markers were found, so a name or a status can be read where no frame stands. -/
namespace HomeMonitor.Framing
open HomeMonitor.Arduino HomeMonitor.AsyncWebserver

variable {F Conn : Type*}

/-- A handler runs, and access is granted, only on the frames that say so. Without the frame of a
node nothing is answered and nothing changes. -/
structure OnlyFramed (fl : FloatLib F) (s : State F Conn) (client : Conn) (request : Str) :
    Prop where
  handler : ∀ n, dispatch request = some n → frame 'c' n.name <:+: request
  rejected : (∀ n : Node, ¬ frame 'c' n.name <:+: request) →
    clientRequest fl s client request = (s, [])
  keypad : "r[Access OK]r".toList ∈ (clientRequest fl s client request).2 →
    frame 'k' "ACCESS GRANTED".toList <:+: request
  martin : "r[Access Martin]r".toList ∈ (clientRequest fl s client request).2 →
    frame 'a' "Access Martin".toList <:+: request
  magnus : "r[Access Magnus]r".toList ∈ (clientRequest fl s client request).2 →
    frame 'a' "Access Magnus".toList <:+: request

/-- No name and no granting status stands where a missing marker leaves it exposed. -/
structure NothingExposed (request : Str) : Prop where
  name : ∀ n : Node, ¬ Unframed request 'c' n.name
  keypad : WidestFrame request 'c' keypadName → ¬ Unframed request 'k' "ACCESS GRANTED".toList
  martin : WidestFrame request 'c' rfidName → ¬ Unframed request 'a' "Access Martin".toList
  magnus : WidestFrame request 'c' rfidName → ¬ Unframed request 'a' "Access Magnus".toList

theorem dispatch_eq_some_iff_frame {request : Str} (h : NUL ∉ request) (n : Node) :
    dispatch request = some n ↔ WidestFrame request 'c' n.name ∨ Unframed request 'c' n.name := by
  rw [dispatch_eq_some_iff]
  exact getSubstring_eq_iff h 'c' (by cases n <;> decide) (by cases n <;> decide)

private theorem equalsLiteral_field {request : Str} (h : NUL ∉ request) (id : Char) (lit : Str) :
    equalsLiteral (getClientSubstring request [id]) lit =
      decide (getClientSubstring request [id] = lit) := by
  have hiff := equalsLiteral_iff (fun hn => h ((getSubstring_within request [id]).subset hn)) lit
  rw [Bool.eq_iff_iff, decide_eq_true_eq]
  exact hiff

theorem replies_keypad (fl : FloatLib F) (s : State F Conn) (client : Conn) {request : Str}
    (h : NUL ∉ request) (hd : dispatch request = some .keypad) :
    (clientRequest fl s client request).2 =
      [if getClientSubstring request ['k'] = "ACCESS GRANTED".toList
        then "r[Access OK]r".toList else "r[Access NO]r".toList] := by
  rw [clientRequest_eq, hd]
  have hid : "k".toList = ['k'] := rfl
  simp only [handleKeypadInput, hid, equalsLiteral_field h, decide_eq_true_eq]

theorem replies_rfid (fl : FloatLib F) (s : State F Conn) (client : Conn) {request : Str}
    (h : NUL ∉ request) (hd : dispatch request = some .rfid) :
    (clientRequest fl s client request).2 =
      [if getClientSubstring request ['a'] = "Access Martin".toList
        then "r[Access Martin]r".toList
        else if getClientSubstring request ['a'] = "Access Magnus".toList
        then "r[Access Magnus]r".toList else "r[Access NO]r".toList] := by
  rw [clientRequest_eq, hd]
  have hid : "a".toList = ['a'] := rfl
  simp only [handleRFIDInput, hid, equalsLiteral_field h, decide_eq_true_eq]

theorem replies_eq_nil (fl : FloatLib F) (s : State F Conn) (client : Conn) {request : Str}
    (hk : dispatch request ≠ some .keypad) (hr : dispatch request ≠ some .rfid) :
    (clientRequest fl s client request).2 = [] := by
  rw [clientRequest_eq]
  cases hd : dispatch request with
  | none => rfl
  | some n => cases n <;> first | rfl | exact absurd hd hk | exact absurd hd hr

inductive Grant
  | keypad
  | martin
  | magnus

namespace Grant

def node : Grant → Node
  | .keypad => .keypad
  | .martin => .rfid
  | .magnus => .rfid

def id : Grant → Char
  | .keypad => 'k'
  | .martin => 'a'
  | .magnus => 'a'

def status : Grant → Str
  | .keypad => "ACCESS GRANTED".toList
  | .martin => "Access Martin".toList
  | .magnus => "Access Magnus".toList

def reply : Grant → Str
  | .keypad => "r[Access OK]r".toList
  | .martin => "r[Access Martin]r".toList
  | .magnus => "r[Access Magnus]r".toList

end Grant

/-- A granting reply answers its status in a request of its node. -/
theorem reply_mem_iff (fl : FloatLib F) (s : State F Conn) (client : Conn) {request : Str}
    (h : NUL ∉ request) (g : Grant) : g.reply ∈ (clientRequest fl s client request).2 ↔
      dispatch request = some g.node ∧ getClientSubstring request [g.id] = g.status := by
  by_cases hk : dispatch request = some .keypad
  · rw [replies_keypad fl s client h hk, List.mem_singleton, hk]
    cases g with
    | keypad =>
      show _ ↔ _ ∧ getClientSubstring request ['k'] = "ACCESS GRANTED".toList
      split_ifs with hstatus
      · exact iff_of_true rfl ⟨rfl, hstatus⟩
      · exact iff_of_false (by decide) fun h => hstatus h.2
    | martin => exact iff_of_false (by split_ifs <;> decide) fun h => by cases h.1
    | magnus => exact iff_of_false (by split_ifs <;> decide) fun h => by cases h.1
  · by_cases hr : dispatch request = some .rfid
    · rw [replies_rfid fl s client h hr, List.mem_singleton, hr]
      cases g with
      | keypad => exact iff_of_false (by split_ifs <;> decide) fun h => by cases h.1
      | martin =>
        show _ ↔ _ ∧ getClientSubstring request ['a'] = "Access Martin".toList
        split_ifs with hmartin
        · exact iff_of_true rfl ⟨rfl, hmartin⟩
        · exact iff_of_false (by decide) fun h => hmartin h.2
        · exact iff_of_false (by decide) fun h => hmartin h.2
      | magnus =>
        show _ ↔ _ ∧ getClientSubstring request ['a'] = "Access Magnus".toList
        split_ifs with hmartin hmagnus
        · exact iff_of_false (by decide) fun h => absurd (hmartin.symm.trans h.2) (by decide)
        · exact iff_of_true rfl ⟨rfl, hmagnus⟩
        · exact iff_of_false (by decide) fun h => hmagnus h.2
    · rw [replies_eq_nil fl s client hk hr]
      refine iff_of_false List.not_mem_nil fun h => ?_
      cases g with
      | keypad => exact hk h.1
      | martin => exact hr h.1
      | magnus => exact hr h.1

private theorem unframed_absurd {request : Str} {id : Char} {x : Str}
    (hu : Unframed request id x) (hf : frame id x <:+: request) : False :=
  not_frame_infix_of_unframed hu x hf

private theorem frame_of_field {request : Str} (h : NUL ∉ request) {id : Char} {x : Str}
    (hx : x ≠ [] ∧ x.head? ≠ some ']') (hexposed : ¬ Unframed request id x)
    (heq : getClientSubstring request [id] = x) : frame id x <:+: request :=
  frame_infix_of_widestFrame
    (((getSubstring_eq_iff h id hx.1 hx.2).mp heq).resolve_right hexposed)

/-- The server accepts only framed requests exactly when a missing marker exposes
neither a name nor a granting status. -/
theorem onlyFramed_iff (fl : FloatLib F) (s : State F Conn) (client : Conn) (request : Str)
    (h : NUL ∉ request) : OnlyFramed fl s client request ↔ NothingExposed request := by
  constructor
  · intro hof
    refine ⟨fun n hu => ?_, fun hw hu => ?_, fun hw hu => ?_, fun hw hu => ?_⟩
    · exact unframed_absurd hu (hof.handler n ((dispatch_eq_some_iff_frame h n).mpr (.inr hu)))
    · exact unframed_absurd hu (hof.keypad ((reply_mem_iff fl s client h .keypad).mpr
        ⟨(dispatch_eq_some_iff_frame h .keypad).mpr (.inl hw), getSubstring_of_unframed h hu⟩))
    · exact unframed_absurd hu (hof.martin ((reply_mem_iff fl s client h .martin).mpr
        ⟨(dispatch_eq_some_iff_frame h .rfid).mpr (.inl hw), getSubstring_of_unframed h hu⟩))
    · exact unframed_absurd hu (hof.magnus ((reply_mem_iff fl s client h .magnus).mpr
        ⟨(dispatch_eq_some_iff_frame h .rfid).mpr (.inl hw), getSubstring_of_unframed h hu⟩))
  · intro hne
    have hwidest : ∀ n, dispatch request = some n → WidestFrame request 'c' n.name := fun n hn =>
      ((dispatch_eq_some_iff_frame h n).mp hn).resolve_right (hne.name n)
    refine ⟨fun n hn => frame_infix_of_widestFrame (hwidest n hn), fun hnone => ?_, fun hg => ?_,
      fun hg => ?_, fun hg => ?_⟩
    · rw [clientRequest_eq]
      cases hd : dispatch request with
      | none => rfl
      | some n => exact absurd (frame_infix_of_widestFrame (hwidest n hd)) (hnone n)
    · obtain ⟨hd, hstatus⟩ := (reply_mem_iff fl s client h .keypad).mp hg
      exact frame_of_field h (by decide) (hne.keypad (hwidest _ hd)) hstatus
    · obtain ⟨hd, hstatus⟩ := (reply_mem_iff fl s client h .martin).mp hg
      exact frame_of_field h (by decide) (hne.martin (hwidest _ hd)) hstatus
    · obtain ⟨hd, hstatus⟩ := (reply_mem_iff fl s client h .magnus).mp hg
      exact frame_of_field h (by decide) (hne.magnus (hwidest _ hd)) hstatus

/-- A complete request is accepted on its frames. -/
theorem onlyFramed_iff_keypad_request :
    OnlyFramed FloatLib.hundredths (boot FloatLib.hundredths) ()
      "c[KeypadNode]ck[ACCESS GRANTED]k ".toList ↔
    NothingExposed "c[KeypadNode]ck[ACCESS GRANTED]k ".toList :=
  onlyFramed_iff FloatLib.hundredths (boot FloatLib.hundredths) ()
    "c[KeypadNode]ck[ACCESS GRANTED]k ".toList (by decide)

/-- A bare name after one byte runs the handler, and a granting status without its
closer opens the door. -/
theorem onlyFramed_counterexample :
    ¬ OnlyFramed FloatLib.hundredths (boot FloatLib.hundredths) () "xKeypadNode".toList ∧
    ¬ OnlyFramed FloatLib.hundredths (boot FloatLib.hundredths) ()
      "c[KeypadNode]ck[ACCESS GRANTED".toList := by
  refine ⟨fun h => ?_, fun h => ?_⟩
  · exact absurd (h.handler .keypad (by decide)) (by decide)
  · exact absurd (h.keypad (by decide)) (by decide)

end HomeMonitor.Framing
