import HomeMonitor.Framing.Format

/-! What the server reads out of the requests the nodes print. -/
namespace HomeMonitor.Framing
open HomeMonitor.Text HomeMonitor.Arduino HomeMonitor.AsyncWebserver

section Codec

variable {F Conn : Type*} (fl : FloatLib F) (s : State F Conn) (client : Conn)

/-- Messages survive the trip to the server: a request is dispatched to the node's own
handler exactly when its message does not contain the closer of the name, and then the
stored status is the message; otherwise no handler runs. -/
def CarriesMessage (n : Node) (requestText : Str → Str) (status : State F Conn → Str) : Prop :=
  ∀ M, CR ∉ M → NUL ∉ M →
    let req := readStringUntil CR (println (requestText M))
    (dispatch req = some n ↔ ¬ "]c".toList <:+: M) ∧
    (¬ "]c".toList <:+: M → status (clientRequest fl s client req).1 = M) ∧
    ("]c".toList <:+: M → dispatch req = none ∧ clientRequest fl s client req = (s, []))

private theorem carriesMessage_of_format (f : StatusFormat) (n : Node) (requestText : Str → Str)
    (status : State F Conn → Str) (hn : n.name = f.name)
    (hread : ∀ M, CR ∉ M → readStringUntil CR (println (requestText M)) = f.text M)
    (hstatus : ∀ req, dispatch req = some n →
      status (clientRequest fl s client req).1 = getClientSubstring req [f.id]) :
    CarriesMessage fl s client n requestText status := by
  intro M hcr hnul
  have hdispatch := f.dispatch_text_eq hnul n hn
  have hcloser : "]c".toList = [']', 'c'] := rfl
  dsimp only
  rw [hread M hcr, hcloser]
  by_cases hc : [']', 'c'] <:+: M
  · rw [if_pos hc] at hdispatch
    have hnone : clientRequest fl s client (f.text M) = (s, []) := by
      rw [clientRequest_eq, hdispatch]
    simp [hc, hdispatch, hnone]
  · rw [if_neg hc] at hdispatch
    refine ⟨by simp [hc, hdispatch], fun _ => ?_, fun h => absurd h hc⟩
    rw [hstatus _ hdispatch]
    exact f.getSubstring_status hnul

theorem carriesMessage_keypad :
    CarriesMessage fl s client .keypad Keypad.requestText State.keypadStatus :=
  carriesMessage_of_format fl s client keypadFormat .keypad _ _ rfl
    (fun _ h => read_keypad_request h) fun _ h => by rw [clientRequest_eq, h]; rfl

theorem carriesMessage_proximity :
    CarriesMessage fl s client .proximity Proximity.requestText State.motionStatus :=
  carriesMessage_of_format fl s client proximityFormat .proximity _ _ rfl
    (fun _ h => read_proximity_request h) fun _ h => by rw [clientRequest_eq, h]; rfl

theorem carriesMessage_rfid :
    CarriesMessage fl s client .rfid RFID.requestText State.rfidStatus :=
  carriesMessage_of_format fl s client rfidFormat .rfid _ _ rfl
    (fun _ h => read_rfid_request h) fun _ h => by rw [clientRequest_eq, h]; rfl

/-- What the server reads out of a complete request is what the node put in. -/
theorem nodeRequests_codec :
    CarriesMessage fl s client .keypad Keypad.requestText State.keypadStatus ∧
    CarriesMessage fl s client .proximity Proximity.requestText State.motionStatus ∧
    CarriesMessage fl s client .rfid RFID.requestText State.rfidStatus ∧
    ∀ T H L, IsValueText T → IsValueText H → IsValueText L →
      let req := readStringUntil CR (println (TemperatureNode.requestText T H L))
      dispatch req = some .temHumLight ∧
      getClientSubstring req "t".toList = T ∧
      getClientSubstring req "h".toList = H ∧
      getClientSubstring req "l".toList = L ∧
      clientRequest fl s client req =
        ({ s with t := fl.strtof T, h := fl.strtof H, l := fl.strtof L }, []) := by
  refine ⟨carriesMessage_keypad fl s client, carriesMessage_proximity fl s client,
    carriesMessage_rfid fl s client, fun T H L hT hH hL => ?_⟩
  obtain ⟨hc, ht, hh, hl⟩ := report_fields hT hH hL
  dsimp only
  rw [read_report hT.cr hH.cr hL.cr]
  refine ⟨hc, ht, hh, hl, ?_⟩
  rw [clientRequest_eq, hc]
  change (handleTemperatureInput fl s (reportText T H L), []) = _
  unfold handleTemperatureInput
  rw [show "t".toList = ['t'] from rfl, show "h".toList = ['h'] from rfl,
    show "l".toList = ['l'] from rfl, ht, hh, hl, cstr_eq_self hT.nul, cstr_eq_self hH.nul,
    cstr_eq_self hL.nul]

end Codec

/-- Reports with two decimals, a message that carries a name closer and one that does not. -/
theorem nodeRequests_codec_hundredths :
    (dispatch (readStringUntil CR (println (Keypad.requestText "a]c".toList))) = none) ∧
    (dispatch (readStringUntil CR (println (RFID.requestText "Access Martin".toList))) =
      some .rfid) ∧
    getClientSubstring (readStringUntil CR (println (TemperatureNode.requestText "21.50".toList
      "40.00".toList "512".toList))) "h".toList = "40.00".toList :=
  have h := nodeRequests_codec FloatLib.hundredths
    (boot FloatLib.hundredths : State ℤ Unit) ()
  ⟨((h.1 "a]c".toList (by decide) (by decide)).2.2 (by decide)).1,
    ((h.2.2.1 "Access Martin".toList (by decide) (by decide)).1).mpr (by decide),
    (h.2.2.2 "21.50".toList "40.00".toList "512".toList (by decide) (by decide)
      (by decide)).2.2.1⟩

end HomeMonitor.Framing
