import HomeMonitor.Arduino.Host

/-! The proximity sketch and the temperature, humidity and light sketch. -/
namespace HomeMonitor.Proximity
open HomeMonitor.Arduino

def nom : Str := "ProximityNode".toList

def requestText (Message : Str) : Str :=
  "c[".toList ++ nom ++ "]c".toList ++ " motion m[".toList ++ Message ++ "]m \r".toList

def requestHost (previousRequest : BitVec 32) (Message : Str) (a : Attempt) :
    BitVec 32 × HostResult :=
  limited previousRequest (requestText Message) a

/-- One iteration of `loop`, for the level read on the sensor pin. -/
def loop (previousRequest : BitVec 32) (high : Bool) (a : Attempt) : BitVec 32 × HostResult :=
  if high then requestHost previousRequest "detected".toList a
  else requestHost previousRequest "not detected".toList a

end HomeMonitor.Proximity

namespace HomeMonitor.TemperatureNode
open HomeMonitor.Arduino

variable {F : Type*}

def peerName : Str := "TemHumLightNode".toList

/-- `String + int`. -/
def renderInt : ℤ → Str
  | .ofNat n => Nat.toDigits 10 n
  | .negSucc n => '-' :: Nat.toDigits 10 (n + 1)

theorem not_mem_renderInt (v : ℤ) {c : Char} (hd : c.isDigit = false) (hminus : c ≠ '-') :
    c ∉ renderInt v := by
  have hdigits : ∀ n, c ∉ Nat.toDigits 10 n := by
    intro n h
    have hc := Nat.isDigit_of_mem_toDigits (by decide) (by decide) h
    rw [hd] at hc
    exact absurd hc (by decide)
  cases v with
  | ofNat n => exact hdigits n
  | negSucc n => exact List.not_mem_cons_of_ne_of_not_mem hminus (hdigits _)

/-- The text of a report, for the renderings of the three values. -/
def requestText (temperature humidity lightValue : Str) : Str :=
  "c[".toList ++ peerName ++ "]c".toList ++ ": Current temperature is t[".toList ++ temperature ++
    "]t Current humidity is h[".toList ++ humidity ++ "]h Current light level is: l[".toList ++
    lightValue ++ "]l \r".toList

structure Reading (F : Type*) where
  temperature : F
  humidity : F
  lightValue : ℤ

def requestHost (fl : FloatLib F) (r : Reading F) : Str :=
  requestText (fl.render r.temperature) (fl.render r.humidity) (renderInt r.lightValue)

/-- One iteration of `loop`: the limiter guards the sensor queries and the request. -/
def loop (fl : FloatLib F) (previousRequest : BitVec 32) (r : Reading F) (a : Attempt) :
    BitVec 32 × HostResult :=
  limited previousRequest (requestHost fl r) a

end HomeMonitor.TemperatureNode
