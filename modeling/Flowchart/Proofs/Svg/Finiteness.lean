import Flowchart.Proofs.Render
import Flowchart.Proofs.Settings
import Flowchart.Proofs.Svg.Figures
import Flowchart.Proofs.Svg.Legality

/-!
Which pictures have numerals only. The settings of a file are bounded from below, which keeps out what is no number, but
not from above: a font size or a padding that is infinite stands in every picture. As long as no measure comes near the
largest double, all numbers of the picture of a source of ordinary length are finite.
-/
namespace Flowchart

open Number

/-- No measure is larger than a limit. -/
structure Metrics.AtMost (limit : Float) (metrics : Metrics Float) : Prop where
  fontSize : metrics.fontSize ≤ limit
  nodeWidth : metrics.nodeWidth ≤ limit
  nodeHeight : metrics.nodeHeight ≤ limit
  nodeGap : metrics.nodeGap ≤ limit
  rankGap : metrics.rankGap ≤ limit
  padding : metrics.padding ≤ limit
  labelPadding : metrics.labelPadding ≤ limit

instance (limit : Float) (metrics : Metrics Float) : Decidable (metrics.AtMost limit) :=
  decidable_of_iff (metrics.fontSize ≤ limit ∧ metrics.nodeWidth ≤ limit ∧ metrics.nodeHeight ≤ limit ∧
      metrics.nodeGap ≤ limit ∧ metrics.rankGap ≤ limit ∧ metrics.padding ≤ limit ∧ metrics.labelPadding ≤ limit)
    ⟨fun ⟨fontSize, nodeWidth, nodeHeight, nodeGap, rankGap, padding, labelPadding⟩ =>
      ⟨fontSize, nodeWidth, nodeHeight, nodeGap, rankGap, padding, labelPadding⟩,
      fun ⟨fontSize, nodeWidth, nodeHeight, nodeGap, rankGap, padding, labelPadding⟩ =>
      ⟨fontSize, nodeWidth, nodeHeight, nodeGap, rankGap, padding, labelPadding⟩⟩

theorem Metrics.Admissible.modest {metrics : Metrics Float} {limit : Float} (admissible : metrics.Admissible)
    (atMost : metrics.AtMost limit) (within : Within 1 limit) : metrics.Modest where
  fontSize := within.of_le (le_of_lt admissible.fontSize) atMost.fontSize
  nodeWidth := within.of_le (le_of_lt admissible.nodeWidth) atMost.nodeWidth
  nodeHeight := within.of_le (le_of_lt admissible.nodeHeight) atMost.nodeHeight
  nodeGap := within.of_le admissible.nodeGap atMost.nodeGap
  rankGap := within.of_le admissible.rankGap atMost.rankGap
  padding := within.of_le admissible.padding atMost.padding
  labelPadding := within.of_le admissible.labelPadding atMost.labelPadding

/-- The limit up to which measures are multiplied and added without an overflow. -/
theorem Number.within_limit : Within 1 1e291 :=
  within_of_steps (by decide +kernel) (by decide +kernel)

namespace Scene

variable {graph : Graph} {metrics : Metrics Float} {scene : Scene Float}

theorem filled_of_ofGraph (laid : ofGraph graph metrics = .ok scene) :
    ∀ connector ∈ scene.connectors, connector.points ≠ [] := by
  obtain ⟨order, dx, dy, -, -, connectors, -⟩ := parts_of_ofGraph laid
  rw [connectors]
  refine List.forall_mem_map.2 fun connector mem => ?_
  have long := Connector.length_points_of_mem mem
  exact mt List.map_eq_nil_iff.1 (List.ne_nil_of_length_pos (by omega))

/-- The padding is added to the width at last. -/
theorem isFinite_width (laid : ofGraph graph metrics = .ok scene) (infinite : metrics.padding.isFinite = false) :
    scene.width.isFinite = false := by
  obtain ⟨order, -, rfl⟩ := content_of_ofGraph laid
  exact isFinite_add infinite

end Scene

namespace Svg

variable {path : Path} {text source svg : String} {settings : Settings} {graph : Graph} {scene : Scene Float}

/-- The figures of a picture by the measures that it was laid out with. -/
structure Figured (source : String) (settings : Settings) (scene : Scene Float) : Prop where
  iff : (document settings scene).IsNumeric ↔ ∀ x ∈ scene.numbers settings.metrics, x.isFinite = true
  finite : (document settings scene).IsNumeric →
    settings.metrics.fontSize.isFinite = true ∧ settings.metrics.padding.isFinite = true
  numeric : source.length ≤ 2 ^ 19 → settings.metrics.AtMost 1e291 → (document settings scene).IsNumeric

theorem finite_of_isNumeric (laid : Scene.ofGraph graph settings.metrics = .ok scene)
    (numeric : (document settings scene).IsNumeric) :
    settings.metrics.fontSize.isFinite = true ∧ settings.metrics.padding.isFinite = true := by
  have finite := (isNumeric_document (Scene.filled_of_ofGraph laid)).1 numeric
  constructor
  · exact finite _ (by simp [Scene.numbers])
  · by_contra infinite
    have width := Scene.isFinite_width laid (Bool.eq_false_iff.2 infinite)
    rw [finite scene.width (by simp [Scene.numbers])] at width
    cases width

theorem figured_of_ofGraph (admissible : settings.metrics.Admissible) (built : Rendering.graphOf source = .ok graph)
    (laid : Scene.ofGraph graph settings.metrics = .ok scene) : Figured source settings scene := by
  have iff : (document settings scene).IsNumeric ↔ ∀ x ∈ scene.numbers settings.metrics, x.isFinite = true :=
    isNumeric_document (Scene.filled_of_ofGraph laid)
  refine ⟨iff, finite_of_isNumeric laid, fun short atMost => iff.2 fun x mem => ?_⟩
  obtain ⟨diagram, read, described⟩ := Rendering.diagram_of_graphOf built
  have small := Graph.small_ofSource read described
  have within := Scene.within_numbers (admissible.modest atMost within_limit) (by omega) small
    (Graph.wellFormed_ofDiagram described).1 (Graph.grouped_ofDiagram described) laid x mem
  refine (within ?_).1
  have room := Nat.pow_le_pow_left (show source.length + 1 + 2 ≤ 2 ^ 19 + 3 by omega) 2
  omega

/-- What is drawn was laid out before. -/
theorem laid_of_draw (drawn : (Rendering.draw source settings Renderer.svg).svg = some svg) : ∃ graph scene,
    Rendering.graphOf source = .ok graph ∧ Scene.ofGraph graph settings.metrics = .ok scene ∧
      (Rendering.draw source settings Renderer.svg).scene = some scene ∧ svg = render settings scene := by
  have course := Rendering.course_draw source settings Renderer.svg
  generalize Rendering.draw source settings Renderer.svg = rendering at course drawn
  cases course with
  | @drawn graph scene renderer svg built _ laidOut isRenderer rendered =>
    cases drawn
    cases isRenderer
    obtain rfl := Except.ok.inj rendered
    exact ⟨graph, scene, built, laidOut, rfl, rfl⟩
  | _ => cases drawn

/-- The picture of settings from a file shows numerals only just if all of its numbers are finite. -/
theorem numeric_draw (accepted : Settings.ofYaml path text = .ok settings)
    (drawn : (Rendering.draw source settings Renderer.svg).svg = some svg) :
    ∃ scene, (Rendering.draw source settings Renderer.svg).scene = some scene ∧ svg = render settings scene ∧
      Figured source settings scene := by
  obtain ⟨graph, scene, built, laid, isScene, isPicture⟩ := laid_of_draw drawn
  exact ⟨scene, isScene, isPicture, figured_of_ofGraph (Settings.admissible_ofYaml accepted) built laid⟩

/-- A diagram with a single node. -/
def single : String :=
  "graph TD\nA"

def singleGraph : Graph :=
  ⟨.TD, [⟨"A", "A", .rectangle⟩], [], []⟩

theorem graphOf_single : Rendering.graphOf single = .ok singleGraph :=
  ok_of_toOption (by decide +kernel)

/-- Nodes of a width near the largest double. -/
theorem numeric_draw_wide : ∃ settings scene svg,
    Settings.ofYaml (.ofText "c.yaml") "node-width: 1.0e+290\n" = .ok settings ∧
    (Rendering.draw single settings Renderer.svg).svg = some svg ∧
    (Rendering.draw single settings Renderer.svg).scene = some scene ∧ svg = render settings scene ∧
    Figured single settings scene ∧ settings.metrics.AtMost 1e291 ∧ (document settings scene).IsNumeric := by
  have run : (Settings.ofYaml (.ofText "c.yaml") "node-width: 1.0e+290\n").toOption.any fun settings =>
      settings.metrics.AtMost 1e291 := by
    decide +kernel
  obtain ⟨settings, accepted, atMost⟩ := Settings.exists_of_any run
  obtain ⟨_, -, result⟩ := Rendering.draw_of_graphOf graphOf_single (by decide) settings
  have drawn := congrArg Rendering.svg result
  obtain ⟨scene, isScene, isPicture, figured⟩ := numeric_draw accepted drawn
  have atMost := of_decide_eq_true atMost
  exact ⟨settings, scene, _, accepted, drawn, isScene, isPicture, figured, atMost, figured.numeric (by decide) atMost⟩

/-- A padding that is infinite is accepted, and the picture has no size. -/
theorem not_isNumeric_infinite : ∃ settings scene,
    Settings.ofYaml (.ofText "c.yaml") "padding: .inf\n" = .ok settings ∧
    (Rendering.draw single settings Renderer.svg).svg = some (render settings scene) ∧
    ("viewBox", "0 0 inf inf") ∈ (document settings scene).attributes ∧ ¬(document settings scene).IsNumeric := by
  have run : (Settings.ofYaml (.ofText "c.yaml") "padding: .inf\n").toOption.any fun settings =>
      !settings.metrics.padding.isFinite && (Scene.ofGraph singleGraph settings.metrics).toOption.any fun scene =>
        ("viewBox", "0 0 inf inf") ∈ (document settings scene).attributes := by
    decide +kernel
  obtain ⟨settings, accepted, run⟩ := Settings.exists_of_any run
  obtain ⟨infinite, shown⟩ := Bool.and_eq_true_iff.1 run
  obtain ⟨scene, laid, result⟩ := Rendering.draw_of_graphOf graphOf_single (by decide) settings
  rw [laid] at shown
  refine ⟨settings, scene, accepted, congrArg Rendering.svg result, of_decide_eq_true shown, fun numeric => ?_⟩
  rw [(finite_of_isNumeric laid numeric).2] at infinite
  cases infinite

end Svg
end Flowchart
