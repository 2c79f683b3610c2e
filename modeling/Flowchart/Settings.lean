import Flowchart.Metrics

/-!
Settings of a run: looks, measures, timing, and the model that is asked for repairs.
-/
namespace Flowchart

inductive Theme where
  | light | dark
  deriving DecidableEq, Repr, Inhabited

namespace Theme

def name : Theme → String
  | light => "light"
  | dark => "dark"

def ofName? (text : String) : Option Theme :=
  [light, dark].find? (·.name == text)

end Theme

/-- Whether markup in labels is removed or kept as text. -/
inductive Security where
  | strict | loose
  deriving DecidableEq, Repr, Inhabited

namespace Security

def name : Security → String
  | strict => "strict"
  | loose => "loose"

def ofName? (text : String) : Option Security :=
  [strict, loose].find? (·.name == text)

end Security

/-- Everything that can be configured. -/
structure Settings where
  theme : Theme := .light
  security : Security := .strict
  fontFamily : String := "Inter, sans-serif"
  /-- There is no surrogate in the name of the fonts, so a picture can be encoded. -/
  isEncodable : Bool := true
  debounceMs : Nat := 300
  metrics : Metrics Float := Metrics.standard
  aiModel : String := "gemini-3-flash-preview"
  aiTemperature : Float := 0.2
  deriving Repr, Inhabited

namespace Settings

/-- The settings that hold unless others are chosen. -/
def standard : Settings := {}

def numbers (settings : Settings) : List Float :=
  let metrics := settings.metrics
  [metrics.fontSize, metrics.nodeWidth, metrics.nodeHeight, metrics.nodeGap, metrics.rankGap,
    metrics.padding, metrics.labelPadding, settings.aiTemperature]

def isStandard (settings : Settings) : Bool :=
  settings.theme == standard.theme && settings.security == standard.security &&
    settings.fontFamily == standard.fontFamily && settings.debounceMs == standard.debounceMs &&
    settings.aiModel == standard.aiModel && settings.numbers == standard.numbers

end Settings
end Flowchart
