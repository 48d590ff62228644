import HomeMonitor.Text.Block
import HomeMonitor.Framing.Format
import HomeMonitor.RFID.Reply

/-! From a card to the lock: the text of a UID, the request of a scan, the server's
reply and what the node does on it. -/
namespace HomeMonitor.RFID
open HomeMonitor.Text HomeMonitor.Arduino HomeMonitor.AsyncWebserver HomeMonitor.Framing

/-- The two characters written for one byte of a UID. -/
def hexByte (b : UInt8) : Str :=
  ((if b < 0x10 then "0".toList else []) ++ hexText b).map Char.toUpper

theorem uidText_eq (uid : List UInt8) : uidText uid = uid.flatMap hexByte := by
  unfold uidText hexByte
  rw [List.map_flatMap]

private def hexValue (s : Str) : ℕ :=
  s.foldl (fun n c => 16 * n + if c.isDigit then c.toNat - 48 else c.toNat - 55) 0

private theorem hexByte_table : ∀ n < 256,
    (hexByte (UInt8.ofNat n)).length = 2 ∧ hexValue (hexByte (UInt8.ofNat n)) = n := by
  decide +kernel

theorem hexByte_length (b : UInt8) : (hexByte b).length = 2 := by
  have h := (hexByte_table b.toNat b.toNat_lt).1
  rwa [UInt8.ofNat_toNat] at h

theorem hexByte_injective : Function.Injective hexByte := by
  intro a b h
  have ha := (hexByte_table a.toNat a.toNat_lt).2
  have hb := (hexByte_table b.toNat b.toNat_lt).2
  rw [UInt8.ofNat_toNat] at ha hb
  exact UInt8.toNat_inj.mp (ha.symm.trans ((congrArg hexValue h).trans hb))

theorem uidText_injective : Function.Injective uidText := by
  intro u v h
  rw [uidText_eq, uidText_eq] at h
  exact flatMap_injective_of_block (by decide) hexByte_length hexByte_injective h

theorem authorized_iff (uid : List UInt8) : authorized uid = true ↔ uidText uid ∈ IDs := by
  unfold authorized
  simp only [List.any_eq_true, beq_iff_eq, exists_eq_right']

/-- The bytes of the second enrolled tag, Martin's card. -/
def martinCard : List UInt8 := [0xB3, 0x2C, 0xDF, 0x0E]

/-- Of the enrolled tags, the scan code has a message for the first and the third. -/
theorem scanMessages_eq (uid : List UInt8) :
    scanMessages uid =
      if uidText uid = "2C76454A".toList then ["Access Martin".toList]
      else if uidText uid = "B32CDF0E".toList then []
      else if uidText uid = "23475B1F".toList then ["Access Magnus".toList]
      else ["Access denied".toList] := by
  have hcard : "B32CDF0E".toList ≠ "2C76454A".toList := by decide
  have hmagnus : "23475B1F".toList ≠ "2C76454A".toList := by decide
  have hmagnus' : "23475B1F".toList ≠ "B32CDF0E".toList := by decide
  unfold scanMessages authorized IDs
  generalize uidText uid = value
  generalize "2C76454A".toList = martin, "B32CDF0E".toList = card, "23475B1F".toList = magnus at *
  by_cases h1 : value = martin
  · simp [h1, hmagnus.symm]
  by_cases h2 : value = card
  · simp [h2, hcard, hmagnus'.symm]
  by_cases h3 : value = magnus
  · simp [h3, hmagnus, hmagnus']
  · simp [h1, h2, h3]

private theorem replyTo_rfid_request {msg : Str} (hm : IsValueText msg) :
    replyTo (readStringUntil CR (println (requestText msg))) = some (rfidReply msg) := by
  rw [read_rfid_request hm.cr]
  have hname : dispatch (rfidFormat.text msg) = some .rfid := by
    rw [rfidFormat.dispatch_text_eq hm.nul .rfid rfl,
      if_neg (not_pair_infix_of_left_not_mem _ hm.closer)]
  have hstatus : getClientSubstring (rfidFormat.text msg) ['a'] = msg :=
    rfidFormat.getSubstring_status hm.nul
  unfold replyTo
  rw [hname, hstatus]

/-- A scan has one message at most, so all its messages meet the same window. -/
theorem checkRFID_results (previousRequest : BitVec 32) (uid : List UInt8) (a : Attempt) :
    (checkRFID previousRequest uid a).2 =
      (scanMessages uid).map fun msg => (requestHost previousRequest msg a).2 := by
  unfold checkRFID
  rw [scanMessages_eq]
  split_ifs <;> rfl

/-- With the window open and the server reached, a scan prints all its messages. -/
theorem checkRFID_eq (previousRequest : BitVec 32) (uid : List UInt8) (a : Attempt)
    (window : millis a.check - previousRequest > UPDATE_TIME) (connects : a.connects) :
    (checkRFID previousRequest uid a).2 =
      (scanMessages uid).map fun msg => .printed (println (requestText msg)) := by
  rw [checkRFID_results]
  apply List.map_congr_left
  intro msg _
  unfold requestHost limited
  rw [if_pos window, if_pos connects]

section Answer

variable {F Conn : Type*} (fl : FloatLib F) (s : State F Conn) (client : Conn)
  (previousRequest : BitVec 32) (uid : List UInt8) (a : Attempt)

/-- A scan sends one request, gets one reply on its connection, and the reply opens
the door once exactly when the card is authorized and else sounds the error tone. -/
def ScanAnswered : Prop :=
  ∃ request reply,
    (checkRFID previousRequest uid a).2 = [.printed request] ∧
    (clientRequest fl s client (readStringUntil CR request)).2 = [reply] ∧
    (clientRequest fl s client (readStringUntil CR request)).1.rfidClient = some client ∧
    if authorized uid then
      (getHostMessage (println reply)).count .runServo = 1 ∧
        .playError ∉ getHostMessage (println reply)
    else getHostMessage (println reply) = [.playError]

private theorem scanAnswered_of_message {msg : Str} (hm : IsValueText msg)
    (hscan : (checkRFID previousRequest uid a).2 = [.printed (println (requestText msg))])
    (hopen : (rfidReply msg).opening = authorized uid) :
    ScanAnswered fl s client previousRequest uid a := by
  have hnul : NUL ∉ readStringUntil CR (println (requestText msg)) := by
    rw [read_rfid_request hm.cr]
    exact rfidFormat.not_mem_text (by simp) hm.nul
  have hreply := replyTo_rfid_request hm
  have hname : dispatch (readStringUntil CR (println (requestText msg))) = some .rfid := by
    rw [read_rfid_request hm.cr, rfidFormat.dispatch_text_eq hm.nul .rfid rfl,
      if_neg (not_pair_infix_of_left_not_mem _ hm.closer)]
  refine ⟨println (requestText msg), (rfidReply msg).line, hscan, ?_, ?_, ?_⟩
  · rw [clientRequest_replies fl s client hnul, hreply]
    rfl
  · rw [clientRequest_rfidClient, if_pos hname]
  · rw [Reply.getHostMessage_line, ← hopen]
    exact Reply.handleHostSubstring_payload _

/-- Within an open window and with the server reached, the scans that are not answered
are those of the second enrolled tag: it is authorized, but no message is sent for it. -/
theorem scanAnswered_iff (window : millis a.check - previousRequest > UPDATE_TIME)
    (connects : a.connects) :
    ScanAnswered fl s client previousRequest uid a ↔ uid ≠ martinCard := by
  have hscan := checkRFID_eq previousRequest uid a window connects
  rw [scanMessages_eq] at hscan
  have hcard : uidText uid = "B32CDF0E".toList ↔ uid = martinCard := by
    rw [← uidText_injective.eq_iff]
    rfl
  have hmartin : "2C76454A".toList ≠ "B32CDF0E".toList := by decide
  constructor
  · rintro ⟨request, reply, hone, -⟩ rfl
    rw [hcard.mpr rfl, if_neg hmartin.symm, if_pos rfl] at hscan
    rw [hscan] at hone
    exact absurd hone (by simp)
  · intro huid
    have huid := mt hcard.mp huid
    by_cases h1 : uidText uid = "2C76454A".toList
    · rw [if_pos h1] at hscan
      apply scanAnswered_of_message fl s client previousRequest uid a (by decide) hscan
      rw [(authorized_iff uid).mpr (by rw [h1]; decide)]
      decide
    by_cases h3 : uidText uid = "23475B1F".toList
    · rw [if_neg h1, if_neg huid, if_pos h3] at hscan
      apply scanAnswered_of_message fl s client previousRequest uid a (by decide) hscan
      rw [(authorized_iff uid).mpr (by rw [h3]; decide)]
      decide
    · rw [if_neg h1, if_neg huid, if_neg h3] at hscan
      apply scanAnswered_of_message fl s client previousRequest uid a (by decide) hscan
      have hdenied : authorized uid = false := by
        rw [← Bool.not_eq_true, authorized_iff]
        unfold IDs
        simp only [List.mem_cons, List.not_mem_nil, or_false, not_or]
        exact ⟨h1, huid, h3⟩
      rw [hdenied]
      decide

end Answer

/-- The first scan after two seconds, of the third tag and of an unknown one. -/
theorem scanAnswered_iff_examples :
    millis 2000 - 0 > UPDATE_TIME ∧
    (ScanAnswered FloatLib.hundredths (boot FloatLib.hundredths) () 0 [0x23, 0x47, 0x5B, 0x1F]
      ⟨2000, 2000, true⟩ ↔ [0x23, 0x47, 0x5B, 0x1F] ≠ martinCard) ∧
    (ScanAnswered FloatLib.hundredths (boot FloatLib.hundredths) () 0 [0x00, 0x01]
      ⟨2000, 2000, true⟩ ↔ [0x00, 0x01] ≠ martinCard) :=
  ⟨by decide,
    scanAnswered_iff FloatLib.hundredths (boot FloatLib.hundredths) () 0 _ ⟨2000, 2000, true⟩
      (by decide) rfl,
    scanAnswered_iff FloatLib.hundredths (boot FloatLib.hundredths) () 0 _ ⟨2000, 2000, true⟩
      (by decide) rfl⟩

/-- Martin's card is authorized and its scan does nothing. -/
theorem scanAnswered_counterexample :
    authorized martinCard = true ∧ (checkRFID 0 martinCard ⟨2000, 2000, true⟩).2 = [] ∧
    ¬ ScanAnswered FloatLib.hundredths (boot FloatLib.hundredths) () 0 martinCard
      ⟨2000, 2000, true⟩ := by
  have hnone : (checkRFID 0 martinCard ⟨2000, 2000, true⟩).2 = [] := by decide
  refine ⟨by decide, hnone, ?_⟩
  rintro ⟨request, reply, hone, -⟩
  rw [hnone] at hone
  exact absurd hone (by simp)

end HomeMonitor.RFID
