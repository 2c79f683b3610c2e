import Flowchart.Proofs.Related
import Flowchart.Proofs.Scene.Completeness
import Flowchart.Render

/-!
What a run comes to. The first stage that fails decides the result, a failure tells where it was found as
far as its stage knows, and no stage can fail otherwise than by refusing the source.
-/
namespace Flowchart

/-- The errors of drawing that the renderer raises name the last stage, as their class does. -/
def Renderer.KeepsStage (renderer : Renderer) : Prop :=
  ∀ settings scene error, renderer settings scene = .error (.drawing error) → error.stage = .render

namespace Rendering

open Token (scan)

variable {source : String} {settings : Settings} {drawing : Option Renderer} {rendering : Rendering}

/-- A stage is the first one that fails. A layout is drawn only if there is a renderer. -/
def FailsIn (source : String) (settings : Settings) (drawing : Option Renderer) : Stage → Prop
  | .lex => ∃ error, scan source = .error error
  | .parse => ∃ tokens error, scan source = .ok tokens ∧ Diagram.ofTokens tokens = .error error
  | .validate => ∃ diagram error, Diagram.ofSource source = .ok diagram ∧ Graph.ofDiagram diagram = .error error
  | .layout => ∃ diagram graph, Diagram.ofSource source = .ok diagram ∧ Graph.ofDiagram diagram = .ok graph ∧
      ∀ node, .ref node ∉ diagram.constructs
  | .render => ∃ graph scene renderer raised, graphOf source = .ok graph ∧
      Scene.ofGraph graph settings.metrics = .ok scene ∧ drawing = some renderer ∧
      renderer settings scene = .error raised

/-- The place is one of the source: it is reached by passing over characters that stand there. -/
def Located (source : String) (place : Position) : Prop :=
  Position.Within .start source.toList place ∧ 0 ≤ place.offset ∧ place.offset ≤ source.length

/-- What a failure tells of its place, by the stage that fails. -/
def Placed (source : String) (failure : Failure) : Stage → Prop
  | .lex | .parse => (∃ place, failure.position = some place ∧ Located source place) ∧ failure.related = []
  | .validate => failure.position.isSome = true ∧ 2 ≤ failure.related.length
  | .layout => failure.position = none ∧ failure.related = []
  | .render => failure.related = []

/-- The result of a run fits the stages that the source passes. -/
structure Consistent (source : String) (settings : Settings) (drawing : Option Renderer)
    (rendering : Rendering) : Prop where
  input : rendering.source = source
  finished : rendering.scene.isSome = true ↔ rendering.error = none
  drawn : rendering.svg.isSome = true ↔ drawing.isSome = true ∧ rendering.error = none
  graph : ∀ graph, rendering.graph = some graph ↔ graphOf source = .ok graph
  scene : ∀ scene, rendering.scene = some scene →
    ∃ graph, graphOf source = .ok graph ∧ Scene.ofGraph graph settings.metrics = .ok scene
  svg : ∀ svg, rendering.svg = some svg →
    ∃ renderer scene, drawing = some renderer ∧ rendering.scene = some scene ∧ renderer settings scene = .ok svg
  fails : rendering.error.isSome = true ↔ ∃ stage, FailsIn source settings drawing stage
  /-- A stage before the last one is told whatever the renderer does. -/
  early : ∀ stage, stage ≠ .render → FailsIn source settings drawing stage →
    rendering.error.map Failure.stage = some stage
  /-- What a renderer raises is what is reported, in any case. -/
  raised : ∀ graph scene renderer raised, graphOf source = .ok graph →
    Scene.ofGraph graph settings.metrics = .ok scene → drawing = some renderer →
    renderer settings scene = .error raised → rendering.error = some raised.failure
  /-- Just the stage of the failure is the first one that fails. For the last stage that is said of errors of drawing
  that have the stage of their class. -/
  stage : (∀ renderer ∈ drawing, renderer.KeepsStage) → ∀ stage,
    rendering.error.map Failure.stage = some stage ↔ FailsIn source settings drawing stage
  placed : ∀ failure stage, rendering.error = some failure → FailsIn source settings drawing stage →
    Placed source failure stage

/-- A source of which every stage is left by a result or by a refusal: no token is missing, events refer
only to what was told before, and a layout finds all that it looks up unless there is no node. -/
structure Total (source : String) (settings : Settings) : Prop where
  tokens : ∀ tokens error, scan source = .ok tokens → Diagram.ofTokens tokens = .error error →
    ∃ fault, ∃ token ∈ tokens, error = .refused fault token
  events : ∀ diagram, Diagram.ofSource source = .ok diagram → Grounded [] diagram.events
  layout : ∀ graph, graphOf source = .ok graph →
    (graph.nodes = [] ∧ Scene.ofGraph graph settings.metrics = .error .noNodes) ∨
      (Layout.Complete graph settings.metrics ∧ ∃ scene, Scene.ofGraph graph settings.metrics = .ok scene)

theorem graphOf_of_read_error {failure : Failure} (read : Diagram.ofSource source = .error failure) :
    graphOf source = .error failure := by
  rw [graphOf, read]
  rfl

theorem graphOf_of_error {diagram : Diagram} {error : GraphError} (read : Diagram.ofSource source = .ok diagram)
    (described : Graph.ofDiagram diagram = .error error) : graphOf source = .error error.failure := by
  rw [graphOf, read]
  show Except.mapError GraphError.failure (Graph.ofDiagram diagram) = _
  rw [described]
  rfl

theorem graphOf_of_ofDiagram {diagram : Diagram} {graph : Graph} (read : Diagram.ofSource source = .ok diagram)
    (described : Graph.ofDiagram diagram = .ok graph) : graphOf source = .ok graph := by
  rw [graphOf, read]
  show Except.mapError GraphError.failure (Graph.ofDiagram diagram) = _
  rw [described]
  rfl

/-- A graph of a source describes a diagram of it. -/
theorem diagram_of_graphOf {graph : Graph} (built : graphOf source = .ok graph) :
    ∃ diagram, Diagram.ofSource source = .ok diagram ∧ Graph.ofDiagram diagram = .ok graph := by
  cases read : Diagram.ofSource source with
  | error failure =>
    rw [graphOf_of_read_error read] at built
    cases built
  | ok diagram =>
    cases described : Graph.ofDiagram diagram with
    | error error =>
      rw [graphOf_of_error read described] at built
      cases built
    | ok other =>
      rw [graphOf_of_ofDiagram read described] at built
      exact ⟨diagram, rfl, by rw [described, Except.ok.inj built]⟩

/-- What becomes of a source, by the first stage that fails. -/
inductive Course (source : String) (settings : Settings) (drawing : Option Renderer) : Rendering → Prop where
  | lex {error : LexError} : scan source = .error error →
      Course source settings drawing { source, error := some error.failure }
  | parse {tokens : List Token} {error : ParseError} : scan source = .ok tokens →
      Diagram.ofTokens tokens = .error error →
      Course source settings drawing { source, error := some error.failure }
  | validate {diagram : Diagram} {error : GraphError} : Diagram.ofSource source = .ok diagram →
      Graph.ofDiagram diagram = .error error →
      Course source settings drawing { source, error := some error.failure }
  | layout {graph : Graph} : graphOf source = .ok graph → graph.nodes = [] →
      Course source settings drawing { source, graph, error := some LayoutError.noNodes.failure }
  | render {graph : Graph} {scene : Scene Float} {renderer : Renderer} {raised : Raised} :
      graphOf source = .ok graph → graph.nodes ≠ [] → Scene.ofGraph graph settings.metrics = .ok scene →
      drawing = some renderer → renderer settings scene = .error raised →
      Course source settings drawing { source, graph, error := some raised.failure }
  | laidOut {graph : Graph} {scene : Scene Float} : graphOf source = .ok graph → graph.nodes ≠ [] →
      Scene.ofGraph graph settings.metrics = .ok scene → drawing = none →
      Course source settings drawing { source, graph, scene }
  | drawn {graph : Graph} {scene : Scene Float} {renderer : Renderer} {svg : String} :
      graphOf source = .ok graph → graph.nodes ≠ [] → Scene.ofGraph graph settings.metrics = .ok scene →
      drawing = some renderer → renderer settings scene = .ok svg →
      Course source settings drawing { source, graph, scene, svg }

/-- A graph that has a node is laid out. -/
theorem scene_of_graphOf {graph : Graph} (built : graphOf source = .ok graph) (nodes : graph.nodes ≠ [])
    (settings : Settings) : ∃ scene, Scene.ofGraph graph settings.metrics = .ok scene := by
  obtain ⟨diagram, -, described⟩ := diagram_of_graphOf built
  exact Scene.ofGraph_ok (Graph.wellFormed_ofDiagram described) (Graph.grouped_ofDiagram described) nodes _

/-- The run without drawing, for the two outcomes of the graph. -/
theorem ofSource_of_graphOf {graph : Graph} (built : graphOf source = .ok graph) :
    (graph.nodes = [] ∧
      ofSource source settings = { source, graph, error := some LayoutError.noNodes.failure }) ∨
    ∃ scene, graph.nodes ≠ [] ∧ Scene.ofGraph graph settings.metrics = .ok scene ∧
      ofSource source settings = { source, graph, scene } := by
  by_cases none : graph.nodes = []
  · left
    refine ⟨none, ?_⟩
    simp [ofSource, built, Scene.ofGraph, none]
  · right
    obtain ⟨scene, laidOut⟩ := scene_of_graphOf built none settings
    exact ⟨scene, none, laidOut, by simp [ofSource, built, laidOut]⟩

/-- A source without a graph ends the run in one of the first three stages. -/
theorem course_of_error {failure : Failure} (refused : graphOf source = .error failure) :
    Course source settings drawing { source, error := some failure } := by
  cases scanned : scan source with
  | error error =>
    rw [graphOf_of_read_error (Diagram.ofSource_of_scan_error scanned)] at refused
    cases refused
    exact .lex scanned
  | ok tokens =>
    cases parsed : Diagram.ofTokens tokens with
    | error error =>
      rw [graphOf_of_read_error (Diagram.ofSource_of_parse_error scanned parsed)] at refused
      cases refused
      exact .parse scanned parsed
    | ok diagram =>
      have read := Diagram.ofSource_of_ofTokens scanned parsed
      cases described : Graph.ofDiagram diagram with
      | error error =>
        rw [graphOf_of_error read described] at refused
        cases refused
        exact .validate read described
      | ok graph =>
        rw [graphOf_of_ofDiagram read described] at refused
        cases refused

theorem course_draw (source : String) (settings : Settings) (renderer : Renderer) :
    Course source settings (some renderer) (draw source settings renderer) := by
  cases built : graphOf source with
  | error failure =>
    have result : ofSource source settings = { source, error := some failure } := by rw [ofSource, built]
    rw [draw, result]
    exact course_of_error built
  | ok graph =>
    rcases ofSource_of_graphOf built with ⟨none, result⟩ | ⟨scene, nodes, laidOut, result⟩
    · rw [draw, result]
      exact .layout built none
    · cases drawn : renderer settings scene with
      | error raised =>
        have whole : draw source settings renderer = { source, graph, error := some raised.failure } := by
          simp [draw, result, drawn]
        rw [whole]
        exact .render built nodes laidOut rfl drawn
      | ok svg =>
        have whole : draw source settings renderer = { source, graph, scene, svg } := by
          simp [draw, result, drawn]
        rw [whole]
        exact .drawn built nodes laidOut rfl drawn

/-- A source with a graph passes the first three stages. -/
theorem passes_of_graphOf {graph : Graph} (built : graphOf source = .ok graph) :
    ¬FailsIn source settings drawing .lex ∧ ¬FailsIn source settings drawing .parse ∧
      ¬FailsIn source settings drawing .validate := by
  obtain ⟨diagram, read, described⟩ := diagram_of_graphOf built
  obtain ⟨tokens, scanned, parsed⟩ := Diagram.tokens_of_ofSource read
  simp [FailsIn, scanned, parsed, read, described]

theorem failsIn_layout_iff {graph : Graph} (built : graphOf source = .ok graph) :
    FailsIn source settings drawing .layout ↔ graph.nodes = [] := by
  obtain ⟨diagram, read, described⟩ := diagram_of_graphOf built
  simp [FailsIn, read, described, Graph.nodes_eq_nil_iff described]

theorem failsIn_render_iff {graph : Graph} {scene : Scene Float} (built : graphOf source = .ok graph)
    (laidOut : Scene.ofGraph graph settings.metrics = .ok scene) :
    FailsIn source settings drawing .render ↔
      ∃ renderer raised, drawing = some renderer ∧ renderer settings scene = .error raised := by
  simp [FailsIn, built, laidOut]

theorem located_of_within {place : Position} (inside : Position.Within .start source.toList place) :
    Located source place := by
  have bounds := Position.offset_of_within inside
  refine ⟨inside, bounds.1, ?_⟩
  have size : source.toList.length = source.length := rfl
  rw [size] at bounds
  simpa [Position.start] using bounds.2

/-- The error of a graph cites the two constructs that clash. -/
theorem places_of_ofDiagram {diagram : Diagram} {error : GraphError} (read : Diagram.ofSource source = .ok diagram)
    (refused : Graph.ofDiagram diagram = .error error) : ∃ first second, error.places = [first, second] := by
  rcases Graph.ofDiagram_cases diagram with ⟨found, first, second, same, detected⟩ | ⟨graph, accepted, -⟩
  · rw [refused] at same
    cases same
    exact ⟨_, _, (Graph.places_of_detected (Diagram.constructs_ordered read) detected).1⟩
  · rw [refused] at accepted
    cases accepted

/-- A stage is the only one that fails. The failure tells its place, and its name unless a renderer told another one. -/
structure FailsOnlyIn (source : String) (settings : Settings) (drawing : Option Renderer) (failing : Stage)
    (failure : Failure) : Prop where
  only : ∀ stage, FailsIn source settings drawing stage ↔ stage = failing
  named : failing ≠ .render → failure.stage = failing
  placed : Placed source failure failing

theorem failsOnlyIn_of_course (course : Course source settings drawing rendering) :
    (∃ failing failure, rendering.error = some failure ∧ FailsOnlyIn source settings drawing failing failure) ∨
      rendering.error = none ∧ ∀ stage, ¬FailsIn source settings drawing stage := by
  cases course with
  | lex scanned =>
    have read := Diagram.ofSource_of_scan_error scanned
    have built := graphOf_of_read_error read
    refine .inl ⟨.lex, _, rfl, fun stage => ?_, fun _ => rfl,
      ⟨_, rfl, located_of_within (Token.place_of_scanFrom_error scanned)⟩, rfl⟩
    cases stage <;> simp [FailsIn, scanned, read, built]
  | parse scanned parsed =>
    have read := Diagram.ofSource_of_parse_error scanned parsed
    have built := graphOf_of_read_error read
    obtain ⟨fault, token, mem, rfl⟩ := Diagram.refused_of_ofTokens (Token.stream_of_scan scanned) parsed
    refine .inl ⟨.parse, _, rfl, fun stage => ?_, fun _ => rfl,
      ⟨_, rfl, located_of_within ((Token.places_of_scanFrom scanned).1 token mem)⟩, rfl⟩
    cases stage <;> simp [FailsIn, scanned, parsed, read, built]
  | validate read described =>
    obtain ⟨tokens, scanned, parsed⟩ := Diagram.tokens_of_ofSource read
    have built := graphOf_of_error read described
    obtain ⟨first, second, places⟩ := places_of_ofDiagram read described
    refine .inl ⟨.validate, _, rfl, fun stage => ?_, fun _ => rfl, by simp [Placed, GraphError.failure, places]⟩
    cases stage <;> simp [FailsIn, scanned, parsed, read, described, built]
  | layout built none =>
    have refused : Scene.ofGraph _ settings.metrics = .error .noNodes := if_pos none
    have render : ¬FailsIn source settings drawing .render := by simp [FailsIn, built, refused]
    refine .inl ⟨.layout, _, rfl, fun stage => ?_, fun _ => rfl, rfl, rfl⟩
    cases stage <;> simp [passes_of_graphOf built, failsIn_layout_iff built, render, none]
  | @render graph scene renderer raised built nodes laidOut isRenderer drawn =>
    have noOthers : raised.failure.related = [] := by cases raised <;> rfl
    refine .inl ⟨.render, _, rfl, fun stage => ?_, fun other => absurd rfl other, noOthers⟩
    cases stage <;>
      simp [passes_of_graphOf built, failsIn_layout_iff built, failsIn_render_iff built laidOut, nodes, isRenderer,
        drawn]
  | laidOut built nodes laidOut isRenderer =>
    refine .inr ⟨rfl, fun stage => ?_⟩
    cases stage <;>
      simp [passes_of_graphOf built, failsIn_layout_iff built, failsIn_render_iff built laidOut, nodes, isRenderer]
  | drawn built nodes laidOut isRenderer drawn =>
    refine .inr ⟨rfl, fun stage => ?_⟩
    cases stage <;>
      simp [passes_of_graphOf built, failsIn_layout_iff built, failsIn_render_iff built laidOut, nodes, isRenderer,
        drawn]

/-- The exception that a renderer raises becomes the error of the run. -/
theorem error_of_course (course : Course source settings drawing rendering) (graph : Graph) (scene : Scene Float)
    (renderer : Renderer) (raised : Raised) (built : graphOf source = .ok graph)
    (laidOut : Scene.ofGraph graph settings.metrics = .ok scene) (isRenderer : drawing = some renderer)
    (fails : renderer settings scene = .error raised) : rendering.error = some raised.failure := by
  cases course with
  | lex scanned => cases built.symm.trans (graphOf_of_read_error (Diagram.ofSource_of_scan_error scanned))
  | parse scanned parsed =>
    cases built.symm.trans (graphOf_of_read_error (Diagram.ofSource_of_parse_error scanned parsed))
  | validate read described => cases built.symm.trans (graphOf_of_error read described)
  | layout built' none =>
    obtain rfl := Except.ok.inj (built.symm.trans built')
    have refused : Scene.ofGraph graph settings.metrics = .error .noNodes := if_pos none
    cases laidOut.symm.trans refused
  | render built' nodes laidOut' isRenderer' drawn =>
    obtain rfl := Except.ok.inj (built.symm.trans built')
    obtain rfl := Except.ok.inj (laidOut.symm.trans laidOut')
    obtain rfl := Option.some.inj (isRenderer.symm.trans isRenderer')
    rw [Except.error.inj (fails.symm.trans drawn)]
  | laidOut _ _ _ isNone => cases isRenderer.symm.trans isNone
  | drawn built' nodes laidOut' isRenderer' drawn =>
    obtain rfl := Except.ok.inj (built.symm.trans built')
    obtain rfl := Except.ok.inj (laidOut.symm.trans laidOut')
    obtain rfl := Option.some.inj (isRenderer.symm.trans isRenderer')
    cases fails.symm.trans drawn

/-- What a renderer raises that keeps to its stage counts to the last one. -/
theorem stage_failure {renderer : Renderer} (keeps : renderer.KeepsStage) {scene : Scene Float} {raised : Raised}
    (fails : renderer settings scene = .error raised) : raised.failure.stage = .render := by
  cases raised with
  | drawing error => exact keeps settings scene error fails
  | other type text => rfl

theorem fails_of_course (course : Course source settings drawing rendering) :
    rendering.error.isSome = true ↔ ∃ stage, FailsIn source settings drawing stage := by
  rcases failsOnlyIn_of_course course with ⟨failing, failure, isError, onlyIn⟩ | ⟨isNone, passes⟩
  · rw [isError]
    exact iff_of_true rfl ⟨failing, (onlyIn.only failing).2 rfl⟩
  · rw [isNone]
    exact iff_of_false Bool.false_ne_true fun ⟨stage, fails⟩ => passes stage fails

theorem early_of_course (course : Course source settings drawing rendering) (stage : Stage) (early : stage ≠ .render)
    (fails : FailsIn source settings drawing stage) : rendering.error.map Failure.stage = some stage := by
  rcases failsOnlyIn_of_course course with ⟨failing, failure, isError, onlyIn⟩ | ⟨isNone, passes⟩
  · obtain rfl := (onlyIn.only stage).1 fails
    rw [isError, Option.map_some, onlyIn.named early]
  · exact absurd fails (passes stage)

/-- Just the stage of the failure is the first one that fails. -/
theorem stage_of_course (course : Course source settings drawing rendering)
    (keeps : ∀ renderer ∈ drawing, renderer.KeepsStage) (stage : Stage) :
    rendering.error.map Failure.stage = some stage ↔ FailsIn source settings drawing stage := by
  rcases failsOnlyIn_of_course course with ⟨failing, failure, isError, onlyIn⟩ | ⟨isNone, passes⟩
  · have named : failure.stage = failing := by
      by_cases early : failing = .render
      · obtain ⟨graph, scene, renderer, raised, built, laidOut, isRenderer, fails⟩ := (onlyIn.only .render).2 early.symm
        have isRaised := error_of_course course graph scene renderer raised built laidOut isRenderer fails
        rw [early, Option.some.inj (isError.symm.trans isRaised)]
        exact stage_failure (keeps renderer isRenderer) fails
      · exact onlyIn.named early
    rw [isError, onlyIn.only, Option.map_some, named, Option.some.injEq, eq_comm]
  · rw [isNone]
    exact iff_of_false nofun (passes stage)

theorem placed_of_course (course : Course source settings drawing rendering) (failure : Failure) (stage : Stage)
    (failed : rendering.error = some failure) (fails : FailsIn source settings drawing stage) :
    Placed source failure stage := by
  rcases failsOnlyIn_of_course course with ⟨failing, told, isError, onlyIn⟩ | ⟨isNone, passes⟩
  · rw [Option.some.inj (failed.symm.trans isError), (onlyIn.only stage).1 fails]
    exact onlyIn.placed
  · exact absurd fails (passes stage)

theorem consistent_of_course (course : Course source settings drawing rendering) :
    Consistent source settings drawing rendering := by
  have fails := fails_of_course course
  have early := early_of_course course
  have raised := error_of_course course
  have stage := stage_of_course course
  have placed := placed_of_course course
  cases course with
  | lex scanned =>
    have built := graphOf_of_read_error (Diagram.ofSource_of_scan_error scanned)
    exact ⟨rfl, by simp, by simp, by simp [built], nofun, nofun, fails, early, raised, stage, placed⟩
  | parse scanned parsed =>
    have built := graphOf_of_read_error (Diagram.ofSource_of_parse_error scanned parsed)
    exact ⟨rfl, by simp, by simp, by simp [built], nofun, nofun, fails, early, raised, stage, placed⟩
  | validate read described =>
    have built := graphOf_of_error read described
    exact ⟨rfl, by simp, by simp, by simp [built], nofun, nofun, fails, early, raised, stage, placed⟩
  | layout built none =>
    exact ⟨rfl, by simp, by simp, by simp [built], nofun, nofun, fails, early, raised, stage, placed⟩
  | render built nodes laidOut isRenderer drawn =>
    exact ⟨rfl, by simp, by simp, by simp [built], nofun, nofun, fails, early, raised, stage, placed⟩
  | @laidOut graph scene built nodes laidOut isRenderer =>
    refine ⟨rfl, by simp, by simp [isRenderer], by simp [built], ?_, nofun, fails, early, raised, stage, placed⟩
    intro other same
    cases same
    exact ⟨graph, built, laidOut⟩
  | @drawn graph scene renderer svg built nodes laidOut isRenderer drawn =>
    refine ⟨rfl, by simp, by simp [isRenderer], by simp [built], ?_, ?_, fails, early, raised, stage, placed⟩
    · intro other same
      cases same
      exact ⟨graph, built, laidOut⟩
    · intro other same
      cases same
      exact ⟨renderer, scene, isRenderer, rfl, drawn⟩

theorem total (source : String) (settings : Settings) : Total source settings := by
  constructor
  · intro tokens error scanned parsed
    exact Diagram.refused_of_ofTokens (Token.stream_of_scan scanned) parsed
  · exact fun diagram _ => diagram.grounded_events
  · intro graph built
    obtain ⟨diagram, -, described⟩ := diagram_of_graphOf built
    have wellFormed := Graph.wellFormed_ofDiagram described
    have grouped := Graph.grouped_ofDiagram described
    by_cases nodes : graph.nodes = []
    · exact .inl ⟨nodes, if_pos nodes⟩
    · exact .inr ⟨Layout.complete wellFormed grouped nodes _, Scene.ofGraph_ok wellFormed grouped nodes _⟩

end Rendering
end Flowchart
