import HomeMonitor.Template.Page
import HomeMonitor.Machine.Simulation

/-! Buffers filled one after another, each with what the callback answers at its time. -/
namespace HomeMonitor.Template
open HomeMonitor.Arduino HomeMonitor.Machine

/-- Placeholders with values that some of the callbacks give, and the texts behind them. -/
inductive Mixed (callbacks : List (Str → Str)) : List Hole → Str → Prop
  | nil : Mixed callbacks [] []
  | cons {callback : Str → Str} {h : Hole} {hs : List Hole} {text : Str}
    (hmem : callback ∈ callbacks) (rest : Mixed callbacks hs text) :
    Mixed callbacks (h :: hs) (callback h.name ++ h.text ++ text)

section

variable {callback : Str → Str} {callbacks : List (Str → Str)} {L : ℕ} {x t R out text : Str}
  {hs before after : List Hole} {r r' : Response} {fills : List Filling}

theorem Mixed.subset (h : Mixed callbacks hs text) {callbacks' : List (Str → Str)}
    (hsub : callbacks ⊆ callbacks') : Mixed callbacks' hs text := by
  induction h with
  | nil => exact .nil
  | cons hmem _ ih => exact .cons (hsub hmem) ih

end
end HomeMonitor.Template
