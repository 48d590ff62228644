import HomeMonitor.Framing.Format

/-! Requests cut short by the read timeout. A cut request is handled as soon as the
name is complete, with whatever stands where its fields are looked for. -/
namespace HomeMonitor.Framing
open HomeMonitor.Text HomeMonitor.Arduino HomeMonitor.AsyncWebserver

variable {F Conn : Type*}

/-- Whatever the state, the cut request has no effect on the reported variables and no
reply, or the effect and the reply of the complete one. -/
def Atomic (fl : FloatLib F) (client : Conn) (request cut : Str) : Prop :=
  ∀ s : State F Conn,
    let whole := clientRequest fl s client request
    let part := clientRequest fl s client cut
    (part.1.reported = s.reported ∧ part.2 = []) ∨
      (part.1.reported = whole.1.reported ∧ part.2 = whole.2)

private theorem name_take_ne (m n : Node) {k : ℕ} (hk : k < n.name.length) :
    n.name.take k ≠ m.name := by
  have hall : ∀ m n : Node, ∀ k < n.name.length, n.name.take k ≠ m.name := by
    intro m n
    cases m <;> cases n <;> decide
  exact hall m n k hk

/-- A cut request is dispatched once the last letter of the name has arrived, except
between the two bytes of the closer. -/
theorem dispatch_take {s post : Str} (hs : NUL ∉ s) {n : Node}
    (hf : FieldAt s 'c' n.name [] post) (k : ℕ) :
    dispatch (s.take k) =
      if k < n.name.length + 2 ∨ k = n.name.length + 3 then none else some n := by
  have hbracket : ∀ m : Node, ']' ∉ m.name := by intro m; cases m <;> decide
  have hfield := hf.getSubstring_take hs k
  simp only [List.length_nil, Nat.zero_add] at hfield
  split_ifs with hk
  · by_contra hne
    obtain ⟨m, hm⟩ := Option.ne_none_iff_exists'.mp hne
    have hm' : Framing.getSubstring (s.take k) ['c'] = m.name := (dispatch_eq_some_iff _ _).mp hm
    rw [hfield] at hm'
    rcases hk with hk | rfl
    · split_ifs at hm' with h1 h2
      · have hnil : (s.take k).drop 1 = [] := List.drop_of_length_le (by simp; omega)
        rw [hnil] at hm'
        cases m <;> exact absurd hm' (by decide)
      · rw [List.take_append_of_le_length (by omega)] at hm'
        exact name_take_ne m n (by omega) hm'
      · omega
    · rw [if_neg (by omega), if_pos (by omega), List.take_of_length_le (by simp)] at hm'
      exact hbracket m (hm' ▸ by simp)
  · rw [dispatch_eq_some_iff]
    refine Eq.trans hfield ?_
    rw [if_neg (by omega)]
    split_ifs with h
    · rw [List.take_append_of_le_length (by omega), List.take_of_length_le (by omega)]
    · rfl

/-- A handler that stores what it reads in a variable of its own is atomic on a cut
request exactly when the name is not recognised or the same value is read. -/
private theorem atomic_iff_of_handler {V : Type*} (fl : FloatLib F) (client : Conn) (n : Node)
    (read : Str → V) (store : State F Conn → V → State F Conn) (reply : V → List Str)
    (stored : F × F × F × Str × Str × Str → V)
    (hrun : ∀ s req, dispatch req = some n →
      (clientRequest fl s client req).1.reported = (store s (read req)).reported ∧
      (clientRequest fl s client req).2 = reply (read req))
    (hstored : ∀ s v, stored (store s v).reported = v)
    {request cut : Str} (hreq : dispatch request = some n)
    (hcut : dispatch cut = none ∨ dispatch cut = some n) :
    Atomic fl client request cut ↔ dispatch cut = none ∨ read cut = read request := by
  rcases hcut with hcut | hcut
  · simp only [hcut, true_or, iff_true]
    intro s
    refine Or.inl ?_
    rw [clientRequest_eq, hcut]
    exact ⟨rfl, rfl⟩
  · simp only [hcut, reduceCtorEq, false_or]
    constructor
    · intro h
      -- in a state that already holds the value of the complete request, both
      -- alternatives say that the cut request stores that value
      have hs := h (store (boot fl) (read request))
      dsimp only at hs
      rw [(hrun _ _ hcut).1, (hrun _ _ hreq).1] at hs
      rcases hs with ⟨hs, -⟩ | ⟨hs, -⟩
      · simpa [hstored] using congrArg stored hs
      · simpa [hstored] using congrArg stored hs
    · intro h s
      refine Or.inr ?_
      rw [(hrun s _ hcut).1, (hrun s _ hcut).2, (hrun s _ hreq).1, (hrun s _ hreq).2, h]
      exact ⟨rfl, rfl⟩

/-- The cuts that a status report survives: before the name is complete, inside the
name's closer, right after the message, or after the closer of the message. -/
def StatusCut (f : StatusFormat) (M : Str) (k : ℕ) : Prop :=
  k < f.name.length + 2 ∨ k = f.name.length + 3 ∨ k = f.head.length + 2 + M.length ∨
    f.head.length + 2 + M.length + 2 ≤ k

private theorem take_closed_eq_iff {M : Str} (hM : ']' ∉ M) {k : ℕ} :
    (M ++ [']']).take k = M ↔ k = M.length := by
  constructor
  · intro h
    rcases lt_trichotomy k M.length with hk | hk | hk
    · have := congrArg List.length h
      simp at this
      omega
    · exact hk
    · rw [List.take_of_length_le (by simp; omega)] at h
      exact absurd (h ▸ by simp) hM
  · rintro rfl
    rw [List.take_append_of_le_length le_rfl, List.take_length]

theorem StatusFormat.status_take_eq_iff (f : StatusFormat) {M : Str} (hM : IsValueText M) {k : ℕ}
    (hk : 2 ≤ k) :
    Framing.getSubstring ((f.text M).take k) [f.id] = M ↔
      k = f.head.length + 2 + M.length ∨ f.head.length + 2 + M.length + 2 ≤ k := by
  rw [(f.statusField hM).getSubstring_take (f.not_mem_text (by simp) hM.nul)]
  split_ifs with h1 h2
  · have htext : ∃ rest, ((f.text M).take k).drop 1 = '[' :: rest := by
      obtain ⟨k, rfl⟩ := Nat.exists_eq_add_of_le' hk
      exact ⟨(f.name ++ [']', 'c'] ++ f.prose ++ frame f.id M ++ [' ']).take k,
        by simp [text, head, frame]⟩
    obtain ⟨rest, hrest⟩ := htext
    constructor
    · intro h
      exact absurd (by rw [← h, hrest]; simp) hM.opener
    · omega
  · rw [take_closed_eq_iff hM.closer]
    omega
  · simp only [true_iff]
    omega

private theorem atomic_status_iff (fl : FloatLib F) (client : Conn) (f : StatusFormat) (n : Node)
    (hn : n.name = f.name) (store : State F Conn → Str → State F Conn) (reply : Str → List Str)
    (stored : F × F × F × Str × Str × Str → Str)
    (hrun : ∀ s req, dispatch req = some n →
      (clientRequest fl s client req).1.reported =
        (store s (Framing.getSubstring req [f.id])).reported ∧
      (clientRequest fl s client req).2 = reply (Framing.getSubstring req [f.id]))
    (hstored : ∀ s v, stored (store s v).reported = v) {M : Str} (hM : IsValueText M) (k : ℕ) :
    Atomic fl client (f.text M) ((f.text M).take k) ↔ StatusCut f M k := by
  have hnul : NUL ∉ f.text M := f.not_mem_text (by simp) hM.nul
  have hfield : FieldAt (f.text M) 'c' n.name [] (f.prose ++ frame f.id M ++ [' ']) :=
    hn ▸ f.nameField hM
  have hreq : dispatch (f.text M) = some n := by
    rw [f.dispatch_text_eq hM.nul n hn,
      if_neg (not_pair_infix_of_left_not_mem _ hM.closer)]
  have hcut := dispatch_take hnul hfield k
  rw [hn] at hcut
  rw [atomic_iff_of_handler fl client n (fun req => Framing.getSubstring req [f.id]) store reply
    stored hrun hstored hreq (by rw [hcut]; split_ifs <;> simp), hcut, f.getSubstring_status hM.nul]
  unfold StatusCut
  split_ifs with hk
  · simp only [true_or, true_iff]
    omega
  · rw [f.status_take_eq_iff hM (by omega)]
    simp only [false_or]
    omega

theorem atomic_keypad_iff (fl : FloatLib F) (client : Conn) {M : Str} (hM : IsValueText M) (k : ℕ) :
    Atomic fl client (keypadFormat.text M) ((keypadFormat.text M).take k) ↔
      StatusCut keypadFormat M k :=
  atomic_status_iff fl client keypadFormat .keypad rfl
    (fun s v => { s with keypadStatus := v })
    (fun v => [if equalsLiteral v "ACCESS GRANTED".toList then "r[Access OK]r".toList
      else "r[Access NO]r".toList])
    (fun r => r.2.2.2.2.1)
    (fun s req h => by rw [clientRequest_eq, h]; exact ⟨rfl, rfl⟩) (fun _ _ => rfl) hM k

theorem atomic_proximity_iff (fl : FloatLib F) (client : Conn) {M : Str} (hM : IsValueText M)
    (k : ℕ) :
    Atomic fl client (proximityFormat.text M) ((proximityFormat.text M).take k) ↔
      StatusCut proximityFormat M k :=
  atomic_status_iff fl client proximityFormat .proximity rfl
    (fun s v => { s with motionStatus := v }) (fun _ => []) (fun r => r.2.2.2.1)
    (fun s req h => by rw [clientRequest_eq, h]; exact ⟨rfl, rfl⟩) (fun _ _ => rfl) hM k

theorem atomic_rfid_iff (fl : FloatLib F) (client : Conn) {M : Str} (hM : IsValueText M) (k : ℕ) :
    Atomic fl client (rfidFormat.text M) ((rfidFormat.text M).take k) ↔ StatusCut rfidFormat M k :=
  atomic_status_iff fl client rfidFormat .rfid rfl
    (fun s v => { s with rfidStatus := v })
    (fun v => [if equalsLiteral v "Access Martin".toList then "r[Access Martin]r".toList
      else if equalsLiteral v "Access Magnus".toList then "r[Access Magnus]r".toList
      else "r[Access NO]r".toList])
    (fun r => r.2.2.2.2.2)
    (fun s req h => by rw [clientRequest_eq, h]; exact ⟨rfl, rfl⟩) (fun _ _ => rfl) hM k

/-- Positions of the three values in a report. -/
def temperatureAt : ℕ := temperatureProse.length + 2

def humidityAt (T : Str) : ℕ := temperatureAt + T.length + 2 + humidityProse.length + 2

def lightAt (T H : Str) : ℕ := humidityAt T + H.length + 2 + lightProse.length + 2

/-- The cuts that a temperature report survives: before the name is complete, inside
the name's closer, and where each value reads the same from what has arrived of it. -/
def ReportCut (fl : FloatLib F) (T H L : Str) (k : ℕ) : Prop :=
  k < TemperatureNode.peerName.length + 2 ∨ k = TemperatureNode.peerName.length + 3 ∨
    (fl.strtof (T.take (k - temperatureAt)) = fl.strtof T ∧
      fl.strtof (H.take (k - humidityAt T)) = fl.strtof H ∧
      fl.strtof (L.take (k - lightAt T H)) = fl.strtof L)

/-- A value read from a cut request is the number that its received part reads as. -/
theorem strtof_field_take (fl : FloatLib F) {s : Str} (hs : NUL ∉ s) {id : Char}
    {x pre post : Str} (hf : FieldAt s id x pre post) {rest : Str} (hopen : s = 'c' :: '[' :: rest)
    {k : ℕ} (hk : 2 ≤ k) :
    fl.strtof (cstr (Framing.getSubstring (s.take k) [id])) =
      fl.strtof (x.take (k - (pre.length + 2))) := by
  have hnul : NUL ∉ Framing.getSubstring (s.take k) [id] := fun h =>
    hs (List.mem_of_mem_take ((getSubstring_within _ _).subset h))
  rw [cstr_eq_self hnul, hf.getSubstring_take hs]
  split_ifs with h1 h2
  · obtain ⟨k, rfl⟩ := Nat.exists_eq_add_of_le' hk
    have hzero : k + 2 - (pre.length + 2) = 0 := by omega
    have htext : (s.take (k + 2)).drop 1 = [] ++ '[' :: rest.take k := by rw [hopen]; rfl
    rw [htext, fl.strtof_bracket [] _ '[' (.inl rfl), hzero, List.take_zero]
  · rcases Nat.lt_or_ge x.length (k - (pre.length + 2)) with h | h
    · have htake : (x ++ [']']).take (k - (pre.length + 2)) = x ++ ']' :: [] :=
        List.take_of_length_le (by simp; omega)
      rw [htake, fl.strtof_bracket x [] ']' (.inr rfl), List.take_of_length_le (by omega)]
    · rw [List.take_append_of_le_length h]
  · rw [List.take_of_length_le (by omega)]

theorem atomic_report_iff (fl : FloatLib F) (client : Conn) {T H L : Str} (hT : IsValueText T)
    (hH : IsValueText H) (hL : IsValueText L) (k : ℕ) :
    Atomic fl client (reportText T H L) ((reportText T H L).take k) ↔ ReportCut fl T H L k := by
  have hnul : NUL ∉ reportText T H L := not_mem_reportText (by simp) hT.nul hH.nul hL.nul
  have hc := reportField_c hT hH hL
  have ht := reportField_t hT hH hL
  have hh := reportField_h hT hH hL
  have hl := reportField_l hT hH hL
  have hreq : dispatch (reportText T H L) = some .temHumLight :=
    (dispatch_eq_some_iff _ _).mpr (hc.getSubstring hnul)
  have hcut := dispatch_take hnul (n := .temHumLight) hc k
  have hname : Node.temHumLight.name.length = TemperatureNode.peerName.length := rfl
  rw [atomic_iff_of_handler fl client .temHumLight
    (fun req => (fl.strtof (cstr (getClientSubstring req ['t'])),
      fl.strtof (cstr (getClientSubstring req ['h'])),
      fl.strtof (cstr (getClientSubstring req ['l']))))
    (fun s v => { s with t := v.1, h := v.2.1, l := v.2.2 }) (fun _ => [])
    (fun r => (r.1, r.2.1, r.2.2.1))
    (fun s req h => by rw [clientRequest_eq, h]; exact ⟨rfl, rfl⟩) (fun _ _ => rfl) hreq
    (by rw [hcut]; split_ifs <;> simp), hcut]
  unfold ReportCut
  rw [hname]
  split_ifs with hk
  · simp only [true_or, true_iff]
    omega
  · have hopen : ∃ rest, reportText T H L = 'c' :: '[' :: rest := ⟨_, rfl⟩
    obtain ⟨rest, hopen⟩ := hopen
    have hk2 : 2 ≤ k := by omega
    have hhAt : (temperatureProse ++ frame 't' T ++ humidityProse).length + 2 = humidityAt T := by
      simp only [humidityAt, temperatureAt, frame, List.length_append, List.length_cons,
        List.length_nil]
      omega
    have hlAt : (temperatureProse ++ frame 't' T ++ humidityProse ++ frame 'h' H ++
        lightProse).length + 2 = lightAt T H := by
      simp only [lightAt, humidityAt, temperatureAt, frame, List.length_append, List.length_cons,
        List.length_nil]
      omega
    have htv := strtof_field_take fl hnul ht hopen hk2
    have hhv := strtof_field_take fl hnul hh hopen hk2
    have hlv := strtof_field_take fl hnul hl hopen hk2
    rw [hhAt] at hhv
    rw [hlAt] at hlv
    have hget : ∀ id, getClientSubstring ((reportText T H L).take k) [id] =
      Framing.getSubstring ((reportText T H L).take k) [id] := fun _ => rfl
    have hwhole := (report_fields hT hH hL).2
    simp only [hget, htv, hhv, hlv, hwhole, cstr_eq_self hT.nul, cstr_eq_self hH.nul,
      cstr_eq_self hL.nul, Prod.mk.injEq, false_or]
    have hnot : ¬ (k < TemperatureNode.peerName.length + 2) ∧
        k ≠ TemperatureNode.peerName.length + 3 := by omega
    simp only [hnot.1, hnot.2, false_or]
    rfl

/-- Handling what the server has read of a request when `k` of its bytes arrived in time
is atomic exactly for the stated cuts. -/
theorem cutRequests_atomic_iff (fl : FloatLib F) (client : Conn) (k : ℕ) :
    (∀ M, IsValueText M →
      (Atomic fl client (readStringUntil CR (println (Keypad.requestText M)))
        (readStringUntil CR ((println (Keypad.requestText M)).take k)) ↔
        StatusCut keypadFormat M k)) ∧
    (∀ M, IsValueText M →
      (Atomic fl client (readStringUntil CR (println (Proximity.requestText M)))
        (readStringUntil CR ((println (Proximity.requestText M)).take k)) ↔
        StatusCut proximityFormat M k)) ∧
    (∀ M, IsValueText M →
      (Atomic fl client (readStringUntil CR (println (RFID.requestText M)))
        (readStringUntil CR ((println (RFID.requestText M)).take k)) ↔
        StatusCut rfidFormat M k)) ∧
    (∀ T H L, IsValueText T → IsValueText H → IsValueText L →
      (Atomic fl client (readStringUntil CR (println (TemperatureNode.requestText T H L)))
        (readStringUntil CR ((println (TemperatureNode.requestText T H L)).take k)) ↔
        ReportCut fl T H L k)) := by
  simp only [readStringUntil_take]
  refine ⟨fun M hM => ?_, fun M hM => ?_, fun M hM => ?_, fun T H L hT hH hL => ?_⟩
  · rw [read_keypad_request hM.cr]
    exact atomic_keypad_iff fl client hM k
  · rw [read_proximity_request hM.cr]
    exact atomic_proximity_iff fl client hM k
  · rw [read_rfid_request hM.cr]
    exact atomic_rfid_iff fl client hM k
  · rw [read_report hT.cr hH.cr hL.cr]
    exact atomic_report_iff fl client hT hH hL k

/-- A denial cut before its message, and a report cut after its first value. -/
theorem cutRequests_atomic_iff_examples :
    (Atomic FloatLib.hundredths () (readStringUntil CR (println (Keypad.requestText
      "ACCESS DENIED".toList))) (readStringUntil CR ((println (Keypad.requestText
      "ACCESS DENIED".toList)).take 8)) ↔ StatusCut keypadFormat "ACCESS DENIED".toList 8) ∧
    (Atomic FloatLib.hundredths () (readStringUntil CR (println (TemperatureNode.requestText
      "21.50".toList "40.00".toList "512".toList))) (readStringUntil CR ((println
      (TemperatureNode.requestText "21.50".toList "40.00".toList "512".toList)).take 60)) ↔
      ReportCut FloatLib.hundredths "21.50".toList "40.00".toList "512".toList 60) :=
  ⟨(cutRequests_atomic_iff FloatLib.hundredths () 8).1 "ACCESS DENIED".toList (by decide),
    (cutRequests_atomic_iff FloatLib.hundredths () 60).2.2.2 "21.50".toList "40.00".toList
      "512".toList (by decide) (by decide) (by decide)⟩

/-- A cut motion report is stored, and a cut grant is answered as a denial. -/
theorem cutRequests_counterexample :
    ¬ Atomic FloatLib.hundredths () (readStringUntil CR (println (Proximity.requestText
      "detected".toList))) (readStringUntil CR ((println (Proximity.requestText
      "detected".toList)).take 31)) ∧
    ¬ Atomic FloatLib.hundredths () (readStringUntil CR (println (Keypad.requestText
      "ACCESS GRANTED".toList))) (readStringUntil CR ((println (Keypad.requestText
      "ACCESS GRANTED".toList)).take 20)) := by
  refine ⟨fun h => ?_, fun h => ?_⟩
  · rcases h (boot FloatLib.hundredths) with ⟨h, -⟩ | ⟨h, -⟩
    · exact absurd (congrArg (fun r => r.2.2.2.1) h) (by decide)
    · exact absurd (congrArg (fun r => r.2.2.2.1) h) (by decide)
  · rcases h (boot FloatLib.hundredths) with ⟨-, h⟩ | ⟨-, h⟩
    · exact absurd h (by decide)
    · exact absurd h (by decide)

end HomeMonitor.Framing
