import Flowchart.Data.Field
import Flowchart.Settings

/-!
Settings from plain data. Every entry is optional and may be spelled with hyphens or with underscores;
entries that are no settings are refused.
-/
namespace Flowchart.Settings

open Data (Problem Reader)

/-- The settings that data describe, or every problem with them. -/
def ofData : Data → Except (List Problem) Settings
  | .mapping entries =>
    let standard := Settings.standard
    let base := standard.metrics
    let reader : Reader := { entries }
    let (theme, reader) := reader.field (Data.asWord Theme.ofName?) "theme" "theme" standard.theme
    let (security, reader) :=
      reader.field (Data.asWord Security.ofName?) "security-level" "security_level" standard.security
    let ((fontFamily, isEncodable), reader) :=
      reader.field Data.asEncodable "font-family" "font_family" (standard.fontFamily, true)
    let (fontSize, reader) := reader.field Data.asPositive "font-size" "font_size" base.fontSize
    let (debounceMs, reader) :=
      reader.field Data.asCount "debounce-ms" "debounce_ms" standard.debounceMs
    let (nodeWidth, reader) := reader.field Data.asPositive "node-width" "node_width" base.nodeWidth
    let (nodeHeight, reader) :=
      reader.field Data.asPositive "node-height" "node_height" base.nodeHeight
    let (nodeGap, reader) := reader.field Data.asNonNegative "node-gap" "node_gap" base.nodeGap
    let (rankGap, reader) := reader.field Data.asNonNegative "rank-gap" "rank_gap" base.rankGap
    let (padding, reader) := reader.field Data.asNonNegative "padding" "padding" base.padding
    let (labelPadding, reader) :=
      reader.field Data.asNonNegative "label-padding" "label_padding" base.labelPadding
    let (aiModel, reader) := reader.field Data.asText "ai-model" "ai_model" standard.aiModel
    let (aiTemperature, reader) :=
      reader.field (Data.asUpTo 2.0) "ai-temperature" "ai_temperature" standard.aiTemperature
    match reader.finish with
    | [] => .ok
      { theme, security, fontFamily, isEncodable, debounceMs, aiModel, aiTemperature
        metrics := ⟨fontSize, nodeWidth, nodeHeight, nodeGap, rankGap, padding, labelPadding⟩ }
    | problems => .error problems
  | _ => .error [⟨"", .notMapping⟩]

end Flowchart.Settings
