import HomeMonitor.RFID.Scan

/-! The identification of a card: its text stands for its bytes and for no others. -/
namespace HomeMonitor.RFID
open HomeMonitor.Text HomeMonitor.Arduino

def hexDigits : Str := "0123456789ABCDEF".toList

/-- A UID in upper case hexadecimal, two digits for each byte. -/
def upperHex (uid : List UInt8) : Str :=
  uid.flatMap fun b => [hexDigits.getD (b.toNat / 16) '0', hexDigits.getD (b.toNat % 16) '0']

/-- The UIDs of the enrolled tags: Martin, Martin's card, Magnus. -/
def enrolled : List (List UInt8) :=
  [[0x2C, 0x76, 0x45, 0x4A], martinCard, [0x23, 0x47, 0x5B, 0x1F]]

private theorem hexByte_digits : ∀ n < 256, hexByte (UInt8.ofNat n) =
    [hexDigits.getD (n / 16) '0', hexDigits.getD (n % 16) '0'] := by
  decide +kernel

theorem uidText_eq_upperHex (uid : List UInt8) : uidText uid = upperHex uid := by
  rw [uidText_eq]
  unfold upperHex
  congr 1
  funext b
  have hdigits := hexByte_digits b.toNat b.toNat_lt
  rwa [UInt8.ofNat_toNat] at hdigits

theorem uidText_length (uid : List UInt8) : (uidText uid).length = 2 * uid.length := by
  rw [uidText_eq]
  exact length_flatMap_block hexByte_length uid

theorem mem_hexDigits_of_mem_uidText {uid : List UInt8} {c : Char} (h : c ∈ uidText uid) :
    c ∈ hexDigits := by
  have hdigit : ∀ n < 16, hexDigits.getD n '0' ∈ hexDigits := by decide
  rw [uidText_eq_upperHex] at h
  unfold upperHex at h
  simp only [List.mem_flatMap, List.mem_cons, List.not_mem_nil, or_false] at h
  obtain ⟨b, -, rfl | rfl⟩ := h
  · exact hdigit _ (by have := b.toNat_lt; omega)
  · exact hdigit _ (Nat.mod_lt _ (by omega))

/-- The table of the sketch holds the texts of the enrolled tags. -/
theorem IDs_eq : IDs = enrolled.map uidText := by decide

theorem authorized_iff_enrolled (uid : List UInt8) : authorized uid = true ↔ uid ∈ enrolled := by
  rw [authorized_iff, IDs_eq]
  exact List.mem_map_of_injective uidText_injective

private theorem uidText_eq_iff {uid tag : List UInt8} {text : Str} (htag : uidText tag = text) :
    uidText uid = text ↔ uid = tag := by
  rw [← htag]
  exact uidText_injective.eq_iff

theorem mem_scanMessages_martin (uid : List UInt8) :
    "Access Martin".toList ∈ scanMessages uid ↔ uid = [0x2C, 0x76, 0x45, 0x4A] := by
  rw [scanMessages_eq, ← uidText_eq_iff (by decide : uidText _ = "2C76454A".toList)]
  split_ifs with h1 h2 h3 <;> simp only [h1, iff_true, iff_false] <;> decide

theorem mem_scanMessages_magnus (uid : List UInt8) :
    "Access Magnus".toList ∈ scanMessages uid ↔ uid = [0x23, 0x47, 0x5B, 0x1F] := by
  rw [scanMessages_eq, ← uidText_eq_iff (by decide : uidText _ = "23475B1F".toList)]
  split_ifs with h1 h2 h3
  · simp only [h1]
    decide
  · simp only [h2]
    decide
  · simp only [h3]
    decide
  · simp only [h3]
    decide

/-- The text of a UID is an injective code of two hexadecimal digits a byte, so the enrolled
tags and no others are authorized, and nobody else is taken for Martin or Magnus. -/
theorem identification_exact :
    (∀ u v : List UInt8, uidText u = uidText v ↔ u = v) ∧
    ∀ uid : List UInt8,
      (uidText uid).length = 2 * uid.length ∧ (∀ c ∈ uidText uid, c ∈ hexDigits) ∧
      (authorized uid = true ↔ upperHex uid ∈ IDs) ∧
      (authorized uid = true ↔ uid ∈ enrolled) ∧
      ("Access Martin".toList ∈ scanMessages uid ↔ uid = [0x2C, 0x76, 0x45, 0x4A]) ∧
      ("Access Magnus".toList ∈ scanMessages uid ↔ uid = [0x23, 0x47, 0x5B, 0x1F]) := by
  refine ⟨fun u v => uidText_injective.eq_iff, fun uid => ⟨uidText_length uid, ?_, ?_,
    authorized_iff_enrolled uid, mem_scanMessages_martin uid, mem_scanMessages_magnus uid⟩⟩
  · intro c hc
    exact mem_hexDigits_of_mem_uidText hc
  · rw [authorized_iff, uidText_eq_upperHex]

end HomeMonitor.RFID
