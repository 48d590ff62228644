import HomeMonitor.Http.Packets

/-! How often a connection calls a handler. -/
namespace HomeMonitor.Http
open HomeMonitor.Arduino HomeMonitor.Machine

variable {ρ : Type*}

def called (effects : List (Effect ρ)) : List ρ :=
  effects.filterMap fun effect =>
    match effect with
    | .call x => some x
    | _ => none

/-- At most one handler has been called, and none as long as the request has not ended. -/
structure CalledOnce (s : Request ρ × List (Effect ρ)) : Prop where
  once : (called s.2).length ≤ 1
  ended : called s.2 = [] ∨ s.1.parseState = .END

theorem called_append (effects more : List (Effect ρ)) :
    called (effects ++ more) = called effects ++ called more := List.filterMap_append

theorem mem_called_iff {effects : List (Effect ρ)} {x : ρ} :
    x ∈ called effects ↔ .call x ∈ effects := by
  unfold called
  rw [List.mem_filterMap]
  constructor
  · rintro ⟨effect, heffect, hx⟩
    cases effect with
    | call y =>
      obtain rfl := Option.some.inj hx
      exact heffect
    | close => cases hx
    | sendContinue => cases hx
    | send code => cases hx
  · intro h
    exact ⟨.call x, h, rfl⟩

theorem CalledOnce.of_silent {s : Request ρ × List (Effect ρ)} (h : called s.2 = []) :
    CalledOnce s where
  once := by rw [h]; exact Nat.zero_le 1
  ended := Or.inl h

theorem length_called_singleton (effect : Effect ρ) : (called [effect]).length ≤ 1 := by
  cases effect <;> simp [called]

/-- What follows a request that has not ended calls once; a request that has ended calls no
more. -/
theorem CalledOnce.append {r : Request ρ} {effects : List (Effect ρ)} (h : CalledOnce (r, effects))
    {s : Request ρ × List (Effect ρ)} (hnext : CalledOnce s)
    (hover : r.parseState = .END → s = (r, [])) : CalledOnce (s.1, effects ++ s.2) := by
  by_cases hend : r.parseState = .END
  · rw [hover hend, List.append_nil]
    exact h
  · have hnone : called effects = [] := h.ended.resolve_right hend
    constructor
    · rw [called_append, hnone]
      exact hnext.once
    · rw [called_append, hnone]
      exact hnext.ended

variable (handlers : List (Handler ρ))

theorem calledOnce_endHeaders (r : Request ρ) : CalledOnce (r.endHeaders handlers) := by
  have hsilent : called (if r.expectingContinue then [Effect.sendContinue]
      else ([] : List (Effect ρ))) = [] := by
    split_ifs <;> rfl
  have hcalled : called (r.endHeaders handlers).2 = called (if r.contentLength ≠ 0 then []
      else [(r.endHeaders handlers).1.handleRequest]) := by
    rw [endHeaders_snd, called_append, hsilent, List.nil_append]
  by_cases hlength : r.contentLength ≠ 0
  · rw [if_pos hlength] at hcalled
    exact .of_silent hcalled
  · rw [if_neg hlength] at hcalled
    constructor
    · rw [hcalled]
      exact length_called_singleton _
    · rw [endHeaders_fst]
      exact Or.inr (if_neg hlength)

theorem calledOnce_parseLine (r : Request ρ) : CalledOnce (r.parseLine handlers) := by
  unfold Request.parseLine
  split
  · split_ifs
    · exact .of_silent rfl
    · exact .of_silent rfl
  · split_ifs
    · exact calledOnce_endHeaders handlers r
    · exact .of_silent rfl
  · exact .of_silent rfl

theorem calledOnce_onBody (r : Request ρ) (buf : Str) : CalledOnce (r.onBody buf) := by
  unfold Request.onBody
  dsimp only
  split
  · exact ⟨length_called_singleton _, Or.inr rfl⟩
  · exact .of_silent rfl

theorem calledOnce_onDataFrom (r : Request ρ) (str packet : Str) :
    CalledOnce (r.onDataFrom handlers str packet) := by
  induction packet generalizing r str with
  | nil => exact .of_silent rfl
  | cons c packet ih =>
    rw [Request.onDataFrom]
    by_cases hc : c = '\n'
    · rw [if_pos hc]
      have hline := calledOnce_parseLine handlers { r with temp := trim (r.temp ++ cstr str) }
      generalize Request.parseLine handlers { r with temp := trim (r.temp ++ cstr str) } =
        line at hline ⊢
      obtain ⟨r', effects⟩ := line
      dsimp only
      by_cases hnil : packet = []
      · rw [if_pos hnil]
        exact hline
      · rw [if_neg hnil]
        cases hstate : r'.parseState with
        | START =>
          exact hline.append (ih r' []) fun hend =>
            absurd (hstate.symm.trans hend) (by decide)
        | HEADERS =>
          exact hline.append (ih r' []) fun hend =>
            absurd (hstate.symm.trans hend) (by decide)
        | BODY =>
          exact hline.append (calledOnce_onBody r' _) fun hend =>
            absurd (hstate.symm.trans hend) (by decide)
        | END => exact hline.append (s := (r', [])) (.of_silent rfl) fun _ => rfl
        | FAIL => exact hline.append (s := (r', [])) (.of_silent rfl) fun _ => rfl
    · rw [if_neg hc]
      exact ih r (str ++ [c])

theorem calledOnce_onData (r : Request ρ) (packet : Str) :
    CalledOnce (r.onData handlers packet) := by
  unfold Request.onData
  split
  · exact calledOnce_onDataFrom handlers r [] packet
  · exact calledOnce_onDataFrom handlers r [] packet
  · exact calledOnce_onBody r _
  · exact .of_silent rfl
  · exact .of_silent rfl

/-- Whatever comes on a connection, it calls a handler once at most. -/
theorem calledOnce_receive (packets : List Str) : CalledOnce (receive handlers packets) := by
  apply run_history _ (R := fun _ s => CalledOnce s)
  · exact .of_silent rfl
  · intro _ packet h
    exact h.append (calledOnce_onData handlers _ packet) fun hend =>
      onData_of_over handlers (Or.inl hend) packet

end HomeMonitor.Http
