import HomeMonitor.Http.Request

/-! The spellings of a path in a request line. -/
namespace HomeMonitor.Http
open HomeMonitor.Arduino

/-- A text written with some of its letters percent-encoded, in either case, and with spaces as
plus signs. -/
inductive Spells : Str → Str → Prop
  | nil : Spells [] []
  | letter {s t : Str} {c : Char} (percent : c ≠ '%') (plus : c ≠ '+') (rest : Spells s t) :
    Spells (c :: s) (c :: t)
  | plus {s t : Str} (rest : Spells s t) : Spells ('+' :: s) (' ' :: t)
  | percent {s t : Str} {a b : Char} {x y : ℕ} (high : hexDigit? a = some x)
    (low : hexDigit? b = some y) (rest : Spells s t) :
    Spells ('%' :: a :: b :: s) (Char.ofNat (16 * x + y) :: t)

theorem urlDecode_cons {c : Char} (hpercent : c ≠ '%') (hplus : c ≠ '+') (s : Str) :
    urlDecode (c :: s) = c :: urlDecode s := by
  rw [urlDecode]
  · intro a b text h
    exact absurd h hpercent
  · exact hplus

/-- Every spelling of a text is decoded to it. -/
theorem urlDecode_of_spells {s t : Str} (h : Spells s t) : urlDecode s = t := by
  induction h with
  | nil => rfl
  | letter hpercent hplus _ ih => rw [urlDecode_cons hpercent hplus, ih]
  | plus _ ih => rw [urlDecode, ih]
  | percent hhigh hlow _ ih =>
    rw [urlDecode, ih]
    unfold strtolHex
    rw [hhigh, hlow]

/-- A browser may leave some letters as they are. -/
def urlEncode (safe : Char → Bool) (t : Str) : Str :=
  t.flatMap fun c =>
    if safe c then [c]
    else ['%', Nat.digitChar (c.toNat / 16), Nat.digitChar (c.toNat % 16)]

theorem hexDigit?_digitChar : ∀ n < 16, hexDigit? (Nat.digitChar n) = some n := by decide

theorem spells_urlEncode {safe : Char → Bool} (hpercent : safe '%' = false)
    (hplus : safe '+' = false) {t : Str} (hbytes : ∀ c ∈ t, c.toNat < 256) :
    Spells (urlEncode safe t) t := by
  induction t with
  | nil => exact .nil
  | cons c t ih =>
    have hrest := ih fun d hd => hbytes d (List.mem_cons_of_mem _ hd)
    have hc := hbytes c List.mem_cons_self
    unfold urlEncode at hrest ⊢
    rw [List.flatMap_cons]
    by_cases hsafe : safe c = true
    · rw [if_pos hsafe]
      refine .letter ?_ ?_ hrest
      · rintro rfl
        rw [hpercent] at hsafe
        cases hsafe
      · rintro rfl
        rw [hplus] at hsafe
        cases hsafe
    · rw [if_neg hsafe]
      have hspelled := Spells.percent (hexDigit?_digitChar (c.toNat / 16) (by omega))
        (hexDigit?_digitChar (c.toNat % 16) (by omega)) hrest
      have hchar : Char.ofNat (16 * (c.toNat / 16) + c.toNat % 16) = c := by
        rw [Nat.div_add_mod, Char.ofNat_toNat]
      rwa [hchar] at hspelled

/-- Whichever letters are percent-encoded, the signs of the encoding among them, the text comes
back. -/
theorem urlDecode_urlEncode {safe : Char → Bool} (hpercent : safe '%' = false)
    (hplus : safe '+' = false) {t : Str} (hbytes : ∀ c ∈ t, c.toNat < 256) :
    urlDecode (urlEncode safe t) = t :=
  urlDecode_of_spells (spells_urlEncode hpercent hplus hbytes)

/-- A space and a percent sign in a name. -/
theorem urlDecode_urlEncode_signs :
    urlDecode (urlEncode Char.isAlphanum "50 % +x".toList) = "50 % +x".toList :=
  urlDecode_urlEncode (by decide) (by decide) (forall_mem_of_all (by decide))

/-- A spelling has none of the letters that the text has not, but for the signs and digits of the
encoding. -/
theorem not_mem_of_spells {s t : Str} (h : Spells s t) {c : Char} (hc : c ∉ t) (hpercent : c ≠ '%')
    (hplus : c ≠ '+') (hdigit : hexDigit? c = none) : c ∉ s := by
  induction h with
  | nil => exact hc
  | letter _ _ _ ih =>
    rw [List.mem_cons, not_or] at hc ⊢
    exact ⟨hc.1, ih hc.2⟩
  | plus _ ih =>
    rw [List.mem_cons, not_or] at hc ⊢
    exact ⟨hplus, ih hc.2⟩
  | percent hhigh hlow _ ih =>
    rw [List.mem_cons, not_or] at hc
    simp only [List.mem_cons, not_or]
    refine ⟨hpercent, ?_, ?_, ih hc.2⟩
    · rintro rfl
      rw [hdigit] at hhigh
      cases hhigh
    · rintro rfl
      rw [hdigit] at hlow
      cases hlow

end HomeMonitor.Http
