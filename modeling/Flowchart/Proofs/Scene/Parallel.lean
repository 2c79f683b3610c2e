import Flowchart.Proofs.Scene.Routes
import Mathlib.Data.Sym.Sym2

/-!
Parallel edges of a scene. The edges between two nodes take places beside the line that joins these, whichever way they
point, and each loop of a node reaches out further than those before it. So they all go different ways, and there is
room for their labels.
-/
namespace Flowchart

variable {direction : Direction} {graph : Graph} {metrics : Metrics Rat} {scene : Scene Rat}

namespace Edge

variable {edge other : Edge}

theorem isParallel_iff :
    edge.isParallel other = true ↔ s(edge.source, edge.target) = s(other.source, other.target) := by
  simp [isParallel]

theorem isParallel_congr (same : s(edge.source, edge.target) = s(other.source, other.target)) :
    edge.isParallel = other.isParallel := by
  funext third
  rw [Bool.eq_iff_iff, isParallel_iff, isParallel_iff, same]

end Edge

namespace Point

/-- The square of the distance between two points. -/
def separation (a b : Point Rat) : Rat :=
  (a.x - b.x) ^ 2 + (a.y - b.y) ^ 2

/-- The place beside the middle of a segment, at a distance along the axis on which the segment extends less. -/
def aside (start stop : Point Rat) (distance : Rat) : Point Rat :=
  let middle := start.midpoint stop
  if |stop.y - start.y| ≤ |stop.x - start.x| then ⟨middle.x, middle.y + distance⟩
  else ⟨middle.x + distance, middle.y⟩

variable {start stop : Point Rat}

theorem aside_zero (start stop : Point Rat) : start.aside stop 0 = start.midpoint stop := by
  simp only [aside, add_zero, ite_self]

/-- It does not matter which way the segment is gone. -/
theorem aside_comm (start stop : Point Rat) (distance : Rat) :
    start.aside stop distance = stop.aside start distance := by
  rw [aside, aside, midpoint_comm, abs_sub_comm stop.y, abs_sub_comm stop.x]

theorem separation_aside (start stop : Point Rat) (near far : Rat) :
    (start.aside stop near).separation (start.aside stop far) = (far - near) ^ 2 := by
  simp only [separation, aside]
  split <;> ring

end Point

namespace Connector

/-- The connectors go different ways, in either direction, and the places of their labels are at least 16 apart. -/
structure Apart (connector other : Connector Rat) : Prop where
  points : connector.points ≠ other.points
  reversed : connector.points ≠ other.points.reverse
  labels : 16 ^ 2 ≤ (labelPoint connector.points).separation (labelPoint other.points)

variable {source target : ShapeBox Rat} {shapes : List (ShapeBox Rat)} {slot place count : Nat} {edge other : Edge}

/-- The label stands at the same place, whichever way the polyline is gone. -/
theorem labelPoint_reverse (direction : Direction) (shapes : List (ShapeBox Rat)) (slot count : Nat) (edge : Edge) :
    labelPoint (path direction shapes slot count edge).reverse =
      labelPoint (path direction shapes slot count edge) := by
  rw [path]
  split
  · rw [loop]
    split <;> exact Point.midpoint_comm _ _
  · rw [straight]
    split
    split
    · exact Point.midpoint_comm _ _
    · rfl

theorem apart_of_labels (index later : Int)
    (labels : 16 ^ 2 ≤ (labelPoint (path direction shapes slot count edge)).separation
      (labelPoint (path direction shapes place count other))) :
    (route direction shapes index slot count edge).Apart (route direction shapes later place count other) := by
  have differ {points : List (Point Rat)} (same : path direction shapes slot count edge = points)
      (label : labelPoint points = labelPoint (path direction shapes place count other)) : False := by
    rw [same, label] at labels
    norm_num [Point.separation] at labels
  exact ⟨fun same => differ same rfl, fun same => differ same (labelPoint_reverse ..), labels⟩

/-- How far aside an edge passes. -/
def bend (slot count : Nat) : Rat :=
  (slot - ((count - 1 : Nat) : Rat) / 2) * 16

/-- The place at a distance beside the middle between the ends of an edge. -/
def beside (direction : Direction) (source target : ShapeBox Rat) (distance : Rat) : Point Rat :=
  (ends direction source target).1.aside (ends direction source target).2 distance

theorem labelPoint_straight (direction : Direction) (source target : ShapeBox Rat) (slot count : Nat) :
    labelPoint (straight direction source target slot count) = beside direction source target (bend slot count) := by
  rw [straight, beside]
  generalize ends direction source target = way
  obtain ⟨start, stop⟩ := way
  dsimp only
  split
  · have centred : bend slot count = 0 := by
      obtain rfl : 2 * slot + 1 = count := ‹_›
      rw [bend, Nat.add_sub_cancel]
      push_cast
      ring
    rw [centred, Point.aside_zero]
    rfl
  · have gap : (parallelGap : Rat) = 16 := by norm_num [parallelGap]
    simp only [labelPoint, Point.aside, bend, Coordinate.magnitude_eq_abs, Coordinate.two_eq, gap]

theorem separation_loop (direction : Direction) (box : Box Rat) (slot place : Nat) :
    (labelPoint (loop direction box slot)).separation (labelPoint (loop direction box place)) =
      (24 * ((place : Rat) - slot)) ^ 2 := by
  have reach : (loopReach : Rat) = 24 := by norm_num [loopReach]
  rw [loop, loop]
  split <;>
    simp only [labelPoint, Point.midpoint, Point.separation, reach, Coordinate.two_eq, Coordinate.three_eq,
      Coordinate.four_eq] <;>
    push_cast <;>
    ring

/-- Different nodes of an edge have different seats. -/
def Seated (shapes : List (ShapeBox Rat)) (edge : Edge) : Prop :=
  edge.source ≠ edge.target →
    (Placement.find shapes edge.source).rank = (Placement.find shapes edge.target).rank →
      (Placement.find shapes edge.source).order ≠ (Placement.find shapes edge.target).order

/-- The line between different seats is the same from both ends. -/
theorem beside_comm (seats : source.rank = target.rank → source.order ≠ target.order) (distance : Rat) :
    beside direction target source distance = beside direction source target distance := by
  have swapped : ends direction target source = (ends direction source target).swap := by
    rw [ends, ends]
    rcases lt_trichotomy source.rank target.rank with earlier | same | later
    · rw [if_neg earlier.not_gt, if_pos earlier, if_pos earlier]
      rfl
    · rw [same, if_neg (lt_irrefl _), if_neg (lt_irrefl _), if_neg (lt_irrefl _), if_neg (lt_irrefl _)]
      rcases (seats same).lt_or_gt with before | after
      · rw [if_neg before.not_gt, if_pos before]
        rfl
      · rw [if_pos after, if_neg after.not_gt]
        rfl
    · rw [if_pos later, if_neg later.not_gt, if_pos later]
      rfl
  rw [beside, swapped, Prod.fst_swap, Prod.snd_swap, Point.aside_comm, beside]

theorem separation_beside (direction : Direction) (source target : ShapeBox Rat) (slot place count : Nat) :
    (beside direction source target (bend slot count)).separation (beside direction source target (bend place count)) =
      (16 * ((place : Rat) - slot)) ^ 2 := by
  rw [beside, beside, Point.separation_aside, bend, bend]
  ring

/-- Places that count up in steps of at least 16 are as far apart. -/
theorem sixteen_le {step : Rat} (wide : 16 ≤ step) (earlier : slot < place) :
    16 ^ 2 ≤ (step * ((place : Rat) - slot)) ^ 2 := by
  have next : (slot : Rat) + 1 ≤ place := by exact_mod_cast earlier
  have far : 16 * 1 ≤ step * ((place : Rat) - slot) :=
    mul_le_mul wide (by linarith) zero_le_one (by linarith)
  exact pow_le_pow_left₀ (by norm_num) (by linarith) 2

/-- Of two parallel edges, the one with the later slot stays apart from the other. -/
theorem apart_route (parallel : s(edge.source, edge.target) = s(other.source, other.target)) (earlier : slot < place)
    (seated : Seated shapes edge) (index later : Int) : (route direction shapes index slot count edge).Apart
      (route direction shapes later place count other) := by
  refine apart_of_labels index later ?_
  by_cases isLoop : edge.source = edge.target
  · have loops : other.source = edge.source ∧ other.target = edge.source := by
      obtain ⟨source, target⟩ | ⟨source, target⟩ := Sym2.eq_iff.1 parallel
      · exact ⟨source.symm, target.symm.trans isLoop.symm⟩
      · exact ⟨target.symm.trans isLoop.symm, source.symm⟩
    rw [path_loop isLoop, path_loop (loops.1.trans loops.2.symm), loops.1, separation_loop]
    exact sixteen_le (by norm_num) earlier
  · have straight : labelPoint (path direction shapes place count other) = beside direction
        (Placement.find shapes edge.source) (Placement.find shapes edge.target) (bend place count) := by
      obtain ⟨source, target⟩ | ⟨source, target⟩ := Sym2.eq_iff.1 parallel
      · rw [path_straight (source ▸ target ▸ isLoop), labelPoint_straight, source, target]
      · rw [path_straight (source ▸ target ▸ Ne.symm isLoop), labelPoint_straight, ← source, ← target,
          beside_comm (seated isLoop)]
    rw [path_straight isLoop, labelPoint_straight, straight, separation_beside]
    exact sixteen_le (le_refl _) earlier

theorem pairwise_routeFrom {all earlier edges : List Edge} (seated : ∀ edge ∈ edges, Seated shapes edge) :
    (routeFrom direction shapes all earlier edges).Pairwise fun connector other =>
      s(connector.source, connector.target) = s(other.source, other.target) → connector.Apart other := by
  induction edges generalizing earlier with
  | nil => exact .nil
  | cons edge edges ih =>
    obtain ⟨here, others⟩ := List.forall_mem_cons.1 seated
    refine .cons (fun connector mem parallel => ?_) (ih others)
    obtain ⟨other, isOther, index, slot, rfl, bound⟩ := exists_of_mem_routeFrom mem
    have parallel : s(edge.source, edge.target) = s(other.source, other.target) := parallel
    -- The edge itself is among the parallel ones in front of the other edge.
    have counted := Edge.isParallel_iff.2 (show s(edge.source, edge.target) = s(edge.source, edge.target) from rfl)
    rw [← Edge.isParallel_congr parallel] at bound ⊢
    rw [List.countP_cons_of_pos counted] at bound
    exact apart_route parallel bound here _ index

end Connector

namespace Scene

/-- The edges of a graph go apart from one another in a scene, and labels stand where their edges bend. -/
structure Spreads (graph : Graph) (scene : Scene Rat) : Prop where
  edges : scene.connectors.map Connector.edge = graph.edges
  labels : ∀ connector ∈ scene.connectors, connector.labelAt =
    if connector.label.getD "" = "" then none else some (Connector.labelPoint connector.points)
  apart : scene.connectors.Pairwise fun connector other =>
    s(connector.source, connector.target) = s(other.source, other.target) → connector.Apart other

theorem spreads_of_ofGraph (wellFormed : graph.WellFormed) (laid : Scene.ofGraph graph metrics = .ok scene) :
    scene.Spreads graph := by
  have connectors := connectors_of_ofGraph wellFormed.1 laid wellFormed
  have edges := edges_of_ofGraph wellFormed.1 laid wellFormed
  have known (id : String) (isId : id ∈ graph.ids) :
      Placement.find scene.shapes id ∈ scene.shapes ∧ (Placement.find scene.shapes id).id = id := by
    obtain ⟨shape, mem, rfl⟩ := exists_shape laid isId
    rw [find_of_mem wellFormed.1 laid mem]
    exact ⟨mem, rfl⟩
  refine ⟨edges, ?labels, ?apart⟩
  case labels =>
    intro connector mem
    rw [connectors] at mem
    obtain ⟨edge, -, index, slot, rfl, -⟩ := Connector.exists_of_mem_routeFrom mem
    rfl
  case apart =>
    rw [connectors]
    refine Connector.pairwise_routeFrom fun edge mem differ same => ?_
    obtain ⟨isSource, source⟩ := known _ (wellFormed.2 edge mem).1
    obtain ⟨isTarget, target⟩ := known _ (wellFormed.2 edge mem).2
    refine order_ne wellFormed.1 laid isSource isTarget (fun both => differ ?_) same
    rw [← source, ← target, both]

/-- Parallel edges of a diagram stay apart, whatever the sizes that it is drawn with. -/
theorem spreads_ofDiagram {diagram : Diagram} (built : Graph.ofDiagram diagram = .ok graph) (some : graph.nodes ≠ [])
    (metrics : Metrics Rat) : ∃ scene, Scene.ofGraph graph metrics = .ok scene ∧ scene.Spreads graph := by
  have wellFormed := Graph.wellFormed_ofDiagram built
  obtain ⟨scene, laid⟩ := ofGraph_ok wellFormed (Graph.grouped_ofDiagram built) some metrics
  exact ⟨scene, laid, spreads_of_ofGraph wellFormed laid⟩

/-- Three edges between two nodes, one of them against the others, and two loops. -/
theorem spreads_ofDiagram_braided :
    ∃ diagram graph, diagram.statements =
        [.chain [⟨"A", none, none, default⟩, ⟨"B", none, none, default⟩, ⟨"A", none, none, default⟩,
            ⟨"B", none, none, default⟩, ⟨"B", none, none, default⟩, ⟨"B", none, none, default⟩]
          [⟨.solid, true, none, default⟩, ⟨.dashed, true, some "back", default⟩, ⟨.thick, false, none, default⟩,
            ⟨.solid, true, none, default⟩, ⟨.solid, true, none, default⟩] default] ∧
      graph = ⟨.LR, [⟨"A", "A", .rectangle⟩, ⟨"B", "B", .rectangle⟩],
        [⟨"A", "B", none, .solid, true⟩, ⟨"B", "A", some "back", .dashed, true⟩, ⟨"A", "B", none, .thick, false⟩,
          ⟨"B", "B", none, .solid, true⟩, ⟨"B", "B", none, .solid, true⟩], []⟩ ∧
      Graph.ofDiagram diagram = .ok graph ∧ graph.nodes ≠ [] ∧
      ∃ scene, Scene.ofGraph graph (Metrics.standard : Metrics Rat) = .ok scene ∧ scene.Spreads graph := by
  refine ⟨⟨.LR, default, _⟩, _, rfl, rfl, and_assoc.1 ?_⟩
  exact (and_iff_left_of_imp fun drawn => spreads_ofDiagram drawn.1 drawn.2 _).2 ⟨rfl, List.cons_ne_nil _ _⟩

end Scene
end Flowchart
