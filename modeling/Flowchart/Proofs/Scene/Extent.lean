import Flowchart.Proofs.Graph.Size
import Flowchart.Proofs.Number.Magnitude
import Flowchart.Proofs.Scene.Depiction

/-!
How large the boxes of a layout can become. With measures of at most a unit, every coordinate is bounded by a number
of units that depends only on the size of the graph: sizes grow with the length of the labels, places with the number
of nodes, and frames with the number of subgraphs.
-/
namespace Flowchart

open Number

variable {metrics : Metrics Float} {graph : Graph} {n s : Nat}

namespace Metrics

/-- No measure is larger than a unit. -/
structure Modest (metrics : Metrics Float) : Prop where
  fontSize : Within 1 metrics.fontSize
  nodeWidth : Within 1 metrics.nodeWidth
  nodeHeight : Within 1 metrics.nodeHeight
  nodeGap : Within 1 metrics.nodeGap
  rankGap : Within 1 metrics.rankGap
  padding : Within 1 metrics.padding
  labelPadding : Within 1 metrics.labelPadding

variable (modest : metrics.Modest) (few : n ≤ 2 ^ 50)
include modest

theorem within_charWidth : Within 2 metrics.charWidth :=
  modest.fontSize.mul (upTo_of_steps (c := 1) (by decide +kernel) (by decide +kernel)) Nat.one_pos

theorem within_lineHeight : Within 3 metrics.lineHeight := by
  have extra : UpTo 6 6.0 := upTo_of_steps (by decide +kernel) (by decide +kernel)
  exact modest.fontSize.add (extra.within (by decide))

include few

theorem within_textWidth {text : String} (short : text.length ≤ n) : Within (2 * n + 3) (metrics.textWidth text) := by
  have length : UpTo (text.length + 1) (Float.ofNat text.length) := upTo_ofNat (by omega)
  exact (length.mul (within_charWidth modest) (Nat.succ_pos _)).mono (by omega)

theorem within_edgeLabelSize {label : String} (short : label.length ≤ n) :
    Within (2 * n + 5) (metrics.edgeLabelSize label).1 ∧ Within (2 * n + 5) (metrics.edgeLabelSize label).2 := by
  have extra : UpTo 8 8.0 := upTo_of_steps (by decide +kernel) (by decide +kernel)
  exact ⟨(within_textWidth modest few short).add (extra.within (by decide)),
    (within_lineHeight modest).mono (by omega)⟩

theorem within_nodeSize (shape : Shape) {label : String} (short : label.length ≤ n) :
    Within (4 * n + 15) (metrics.nodeSize shape label).1 ∧
      Within (4 * n + 15) (metrics.nodeSize shape label).2 := by
  have two : UpTo 2 2.0 := upTo_of_steps (by decide +kernel) (by decide +kernel)
  have stretch : UpTo 2 1.25 := upTo_of_steps (by decide +kernel) (by decide +kernel)
  have stretch' : UpTo 2 1.5 := upTo_of_steps (by decide +kernel) (by decide +kernel)
  have text : Within (2 * n + 7) (metrics.textWidth label + 2.0 * metrics.labelPadding) :=
    (within_textWidth modest few short).add (two.mul modest.labelPadding two_pos)
  have width := (modest.nodeWidth.mono (by omega)).larger text
  have diameter := (modest.nodeHeight.mono (by omega)).larger text
  have height : Within (4 * n + 15) metrics.nodeHeight := modest.nodeHeight.mono (by omega)
  cases shape with
  | circle => exact ⟨diameter.mono (by omega), diameter.mono (by omega)⟩
  | rhombus =>
    exact ⟨(width.mul stretch two_pos).mono (by omega), (modest.nodeHeight.mul stretch' two_pos).mono (by omega)⟩
  | rectangle | rounded => exact ⟨width.mono (by omega), height⟩

end Metrics

namespace Sized

/-- A node that is not wider or higher than a bound. -/
structure Limited (s : Nat) (sized : Sized Float) : Prop where
  width : Within s sized.width
  height : Within s sized.height

variable {sized : Sized Float}

theorem Limited.depth (limited : sized.Limited s) (direction : Direction) : Within s (sized.depth direction) := by
  rw [Sized.depth]
  split
  · exact limited.width
  · exact limited.height

theorem Limited.breadth (limited : sized.Limited s) (direction : Direction) :
    Within s (sized.breadth direction) := by
  rw [Sized.breadth]
  split
  · exact limited.height
  · exact limited.width

end Sized

namespace Point

/-- Both coordinates of a point lie within a bound. -/
structure Bounded (n : Nat) (point : Point Float) : Prop where
  x : Within n point.x
  y : Within n point.y

variable {a b : Point Float} {m : Nat}

theorem Bounded.mono (bounded : a.Bounded n) (le : n ≤ m) : a.Bounded m :=
  ⟨bounded.x.mono le, bounded.y.mono le⟩

theorem Bounded.midpoint (first : a.Bounded n) (second : b.Bounded n) : (a.midpoint b).Bounded (2 * n + 2) where
  x := (first.x.add second.x).half.mono (by omega)
  y := (first.y.add second.y).half.mono (by omega)

theorem Bounded.shift (bounded : a.Bounded n) {dx dy : Float} (right : Within m dx) (down : Within m dy) :
    (a.shift dx dy).Bounded (n + m + 1) :=
  ⟨bounded.x.add right, bounded.y.add down⟩

end Point

namespace Box

/-- The edges of a box lie within a bound, and it is not larger than two of them can be apart. -/
structure Bounded (n : Nat) (box : Box Float) : Prop where
  left : Number.Within n box.x
  top : Number.Within n box.y
  right : Number.Within n box.right
  bottom : Number.Within n box.bottom
  width : Number.Within (2 * n + 1) box.width
  height : Number.Within (2 * n + 1) box.height

variable {box : Box Float} {m : Nat}

theorem Bounded.mono (bounded : box.Bounded n) (le : n ≤ m) : box.Bounded m where
  left := bounded.left.mono le
  top := bounded.top.mono le
  right := bounded.right.mono le
  bottom := bounded.bottom.mono le
  width := bounded.width.mono (by omega)
  height := bounded.height.mono (by omega)

theorem bounded_of_size (left : Number.Within n box.x) (top : Number.Within n box.y) (width : Number.Within s box.width)
    (height : Number.Within s box.height) : box.Bounded (n + s + 1) where
  left := left.mono (by omega)
  top := top.mono (by omega)
  right := left.add width
  bottom := top.add height
  width := width.mono (by omega)
  height := height.mono (by omega)

theorem Bounded.center (bounded : box.Bounded n) : box.center.Bounded (3 * n + 3) where
  x := (bounded.left.add bounded.width.half).mono (by omega)
  y := (bounded.top.add bounded.height.half).mono (by omega)

theorem Bounded.middle (bounded : box.Bounded n) (side : Side) : (box.middle side).Bounded (3 * n + 3) := by
  cases side with
  | top => exact ⟨bounded.center.x, bounded.top.mono (by omega)⟩
  | bottom => exact ⟨bounded.center.x, bounded.bottom.mono (by omega)⟩
  | left => exact ⟨bounded.left.mono (by omega), bounded.center.y⟩
  | right => exact ⟨bounded.right.mono (by omega), bounded.center.y⟩

/-- A box that was moved is as large as before, and its far edges are computed anew. -/
theorem Bounded.shift (bounded : box.Bounded n) {dx dy : Float} (right : Number.Within m dx)
    (down : Number.Within m dy) : (box.shift dx dy).Bounded (3 * n + m + 3) := by
  have left : Number.Within (n + m + 1) (box.shift dx dy).x := bounded.left.add right
  have top : Number.Within (n + m + 1) (box.shift dx dy).y := bounded.top.add down
  have width : Number.Within (2 * n + 1) (box.shift dx dy).width := bounded.width
  have height : Number.Within (2 * n + 1) (box.shift dx dy).height := bounded.height
  exact (bounded_of_size left top width height).mono (by omega)

end Box

namespace Graph

/-- There are no more ranks than nodes. -/
theorem lastRank_lt (nodup : graph.ids.Nodup) (some : graph.nodes ≠ []) : graph.lastRank < graph.nodes.length := by
  have taken : List.range (graph.lastRank + 1) ⊆ graph.nodes.map fun node => graph.rank node.id := by
    intro rank mem
    have bound : rank ≤ graph.lastRank := Nat.le_of_lt_succ (List.mem_range.1 mem)
    obtain ⟨node, isRank⟩ := List.exists_mem_of_ne_nil _ (ofRank_ne_nil nodup some bound)
    obtain ⟨isNode, same⟩ := mem_ofRank.1 isRank
    exact List.mem_map.2 ⟨node, isNode, same⟩
  have le := (List.subperm_of_subset List.nodup_range taken).length_le
  rwa [List.length_range, List.length_map] at le

end Graph

namespace Placement

variable {row : List (Sized Float)} {p a w : Nat}

theorem within_rowDepth (limited : ∀ sized ∈ row, sized.Limited s) (direction : Direction) :
    Within s (rowDepth direction row) :=
  within_maximum (List.forall_mem_map.2 fun sized mem => (limited sized mem).depth direction)

theorem within_rowBreadth (modest : metrics.Modest) (few : n ≤ 2 ^ 50) (limited : ∀ sized ∈ row, sized.Limited s)
    (short : row.length ≤ n) (direction : Direction) :
    Within (n * (s + 2) + 3) (rowBreadth direction metrics row) := by
  have breadths := within_total (List.forall_mem_map.2 fun sized mem => (limited sized mem).breadth direction)
  have gaps : UpTo (row.length - 1 + 1) (Float.ofNat (row.length - 1)) := upTo_ofNat (by omega)
  refine (breadths.add (modest.nodeGap.mul gaps (Nat.succ_pos _))).mono ?_
  have most := Nat.mul_le_mul_right (s + 1) short
  rw [List.length_map, show n * (s + 2) = n * (s + 1) + n by ring]
  omega

theorem within_starts {gap start : Float} {depths : List Float} (isGap : Within 1 gap) (isStart : Within p start)
    (each : ∀ depth ∈ depths, Within s depth) :
    ∀ x ∈ starts gap start depths, Within (p + depths.length * (s + 3)) x := by
  induction depths generalizing start p with
  | nil => exact List.forall_mem_nil _
  | cons depth depths ih =>
    obtain ⟨first, each⟩ := List.forall_mem_cons.1 each
    rw [starts, List.length_cons, Nat.succ_mul]
    refine List.forall_mem_cons.2 ⟨isStart.mono (by omega), fun x mem => ?_⟩
    exact (ih (isStart.add (first.add isGap)) each x mem).mono (by omega)

theorem within_rowStarts (modest : metrics.Modest) {depths : List Float} (each : ∀ depth ∈ depths, Within s depth)
    (direction : Direction) :
    ∀ x ∈ rowStarts direction metrics depths, Within (1 + depths.length * (s + 3)) x := by
  rw [rowStarts]
  split
  · intro x mem
    have reversed := within_starts modest.rankGap modest.padding (fun depth mem => each depth (List.mem_reverse.1 mem))
    rw [List.length_reverse] at reversed
    exact reversed x (List.mem_reverse.1 mem)
  · exact within_starts modest.rankGap modest.padding each

theorem bounded_placeRow {direction : Direction} {gap start depth along : Float} {rank order : Nat}
    (isGap : Within 1 gap) (isStart : Within p start) (isDepth : Within s depth) (isAlong : Within a along)
    (limited : ∀ sized ∈ row, sized.Limited s) :
    ∀ box ∈ placeRow direction gap rank start depth order along row,
      box.box.Bounded (p + a + 3 * s + 4 + row.length * (s + 3)) := by
  induction row generalizing along order a with
  | nil => exact List.forall_mem_nil _
  | cons sized row ih =>
    obtain ⟨first, limited⟩ := List.forall_mem_cons.1 limited
    rw [placeRow, List.length_cons, Nat.succ_mul row.length]
    refine List.forall_mem_cons.2 ⟨?_, fun box mem => ?_⟩
    · have main := (isStart.add (isDepth.sub (first.depth direction)).half).mono
        (show _ ≤ p + a + 2 * s + 3 by omega)
      have side : Within (p + a + 2 * s + 3) along := isAlong.mono (by omega)
      refine Box.Bounded.mono (n := p + a + 2 * s + 3 + s + 1) ?_ (by omega)
      split
      · exact Box.bounded_of_size main side first.width first.height
      · exact Box.bounded_of_size side main first.width first.height
    · have next := isAlong.add ((first.breadth direction).add isGap)
      exact (ih next limited box mem).mono (by omega)

theorem bounded_placeRows (modest : metrics.Modest) (few : n ≤ 2 ^ 50) {direction : Direction} {widest : Float}
    {rank : Nat} {rows : List (List (Sized Float) × Float)} (isWidest : Within (n * (s + 2) + 3) widest)
    (each : ∀ entry ∈ rows, (∀ sized ∈ entry.1, sized.Limited s) ∧ entry.1.length ≤ n ∧ Within p entry.2) :
    ∀ box ∈ placeRows direction metrics widest rank rows,
      box.box.Bounded (p + 2 * (n * (s + 2)) + 3 * s + 14 + n * (s + 3)) := by
  induction rows generalizing rank with
  | nil => exact List.forall_mem_nil _
  | cons entry rows ih =>
    obtain ⟨row, start⟩ := entry
    obtain ⟨⟨limited, short, isStart⟩, each⟩ := List.forall_mem_cons.1 each
    rw [placeRows]
    refine List.forall_mem_append.2 ⟨fun box mem => ?_, ih each⟩
    have along := modest.padding.add (isWidest.sub (within_rowBreadth modest few limited short direction)).half
    refine (bounded_placeRow modest.nodeGap isStart (within_rowDepth limited direction) along limited box mem).mono ?_
    have most := Nat.mul_le_mul_right (s + 3) short
    omega

/-- How far the boxes of the nodes extend. -/
def extent (n : Nat) : Nat :=
  16 * n ^ 2 + 82 * n + 60

theorem limited_of_mem_rows (modest : metrics.Modest) (few : n ≤ 2 ^ 50) (small : graph.Small n)
    (mem : row ∈ rows graph metrics) : (∀ sized ∈ row, sized.Limited (4 * n + 15)) ∧ row.length ≤ n := by
  rw [rows_eq] at mem
  obtain ⟨rank, -, rfl⟩ := List.mem_map.1 mem
  constructor
  · refine List.forall_mem_map.2 fun node isNode => ?_
    obtain ⟨width, height⟩ := Metrics.within_nodeSize modest few node.shape
      (small.labels node (Graph.mem_ofRank.1 isNode).1)
    exact ⟨width, height⟩
  · rw [List.length_map]
    exact (List.length_filter_le _ _).trans small.nodes

theorem bounded_boxes (modest : metrics.Modest) (few : n ≤ 2 ^ 50) (small : graph.Small n)
    (nodup : graph.ids.Nodup) (some : graph.nodes ≠ []) :
    ∀ box ∈ boxes graph metrics, box.box.Bounded (extent n) := by
  have limited : ∀ row ∈ rows graph metrics, (∀ sized ∈ row, sized.Limited (4 * n + 15)) ∧ row.length ≤ n :=
    fun _ => limited_of_mem_rows modest few small
  have count : (rows graph metrics).length ≤ n := by
    rw [rows_eq, List.length_map, List.length_range]
    exact (Graph.lastRank_lt nodup some).trans_le small.nodes
  have depths : ∀ depth ∈ (rows graph metrics).map (rowDepth graph.direction), Within (4 * n + 15) depth :=
    List.forall_mem_map.2 fun row mem => within_rowDepth (limited row mem).1 _
  have starts := within_rowStarts modest depths graph.direction
  have widest := within_maximum (List.forall_mem_map.2 fun row mem =>
    within_rowBreadth modest few (limited row mem).1 (limited row mem).2 graph.direction)
  rw [List.length_map] at starts
  intro box mem
  refine (bounded_placeRows (p := 1 + n * (4 * n + 18)) modest few widest ?_ box mem).mono ?_
  · rintro ⟨row, start⟩ entry
    obtain ⟨isRow, isStart⟩ := List.of_mem_zip entry
    refine ⟨(limited row isRow).1, (limited row isRow).2, (starts start isStart).mono ?_⟩
    exact Nat.add_le_add_left (Nat.mul_le_mul_right _ count) 1
  · rw [extent]
    nlinarith

theorem bounded_default : (default : ShapeBox Float).box.Bounded 1 := by
  have corner {x : Float} (zero : Within 0 x) : (⟨x, x, x, x⟩ : Box Float).Bounded 1 := by
    apply Box.bounded_of_size (n := 0) (s := 0) <;> exact zero
  exact corner within_default

/-- An id that no box has leads to a box at the origin. -/
theorem bounded_find {boxes : List (ShapeBox Float)} (each : ∀ box ∈ boxes, box.box.Bounded n) (id : String) :
    (find boxes id).box.Bounded (n + 1) := by
  rw [find]
  cases found : boxes.find? (·.id == id) with
  | none => exact bounded_default.mono (by omega)
  | some box => exact (each box (List.mem_of_find?_eq_some found)).mono (by omega)

end Placement

namespace Cluster

variable {boxes : List (ShapeBox Float)} {order : List Subgraph} {id : String} {frame : Box Float}

/-- A frame is a little larger than what it surrounds. -/
theorem bounded_frame? (modest : metrics.Modest) {boxes : List (Box Float)} (each : ∀ box ∈ boxes, box.Bounded n)
    (isFrame : frame? metrics boxes = some frame) : frame.Bounded (n + 9) := by
  cases boxes with
  | nil => cases isFrame
  | cons box boxes =>
    cases isFrame
    have margin := modest.padding.half
    have left := (within_minimum (List.forall_mem_map.2 fun box mem => (each box mem).left)).sub margin
    have right := (within_maximum (List.forall_mem_map.2 fun box mem => (each box mem).right)).add margin
    have top := ((within_minimum (List.forall_mem_map.2 fun box mem => (each box mem).top)).sub margin).sub
      (Metrics.within_lineHeight modest)
    have bottom := (within_maximum (List.forall_mem_map.2 fun box mem => (each box mem).bottom)).add margin
    exact {
      left := left.mono (by omega)
      top := top.mono (by omega)
      right := (left.reach right).mono (by omega)
      bottom := (top.reach (bottom.mono (by omega))).mono (by omega)
      width := (right.sub left).mono (by omega)
      height := (bottom.sub top).mono (by omega) }

/-- The frame of a subgraph is larger than what is in it by what each of the subgraphs behind it, one of which is its
parent at most, adds. -/
theorem bounded_framesOf (modest : metrics.Modest) (grouped : graph.Grouped)
    (each : ∀ id, (Placement.find boxes id).box.Bounded n) (subset : order ⊆ graph.subgraphs)
    (isFrame : ((framesOf metrics boxes order).lookup id).join = some frame) :
    frame.Bounded (n + 9 * (graph.subgraphs.length - (graph.subgraphs.map Subgraph.id).idxOf id)) := by
  induction order using List.reverseRecOn generalizing id frame with
  | nil => cases isFrame
  | append_singleton order subgraph ih =>
    have less : order ⊆ graph.subgraphs := fun _ mem => subset (List.mem_append_left _ mem)
    have isSubgraph : subgraph ∈ graph.subgraphs := subset (List.mem_append_right _ List.mem_cons_self)
    rw [framesOf_concat, addFrame, List.lookup_append] at isFrame
    cases before : (framesOf metrics boxes order).lookup id with
    | some entry =>
      rw [before, Option.some_or] at isFrame
      exact ih less (by rw [before, isFrame])
    | none =>
      rw [before, Option.none_or, List.lookup_cons, List.lookup_nil] at isFrame
      split at isFrame
      · rename_i same
        obtain rfl : id = subgraph.id := beq_iff_eq.1 same
        have index : (graph.subgraphs.map Subgraph.id).idxOf subgraph.id < graph.subgraphs.length := by
          rw [← List.length_map Subgraph.id]
          exact List.idxOf_lt_length_of_mem (List.mem_map_of_mem isSubgraph)
        refine (bounded_frame? modest (n := n + 9 * (graph.subgraphs.length -
          ((graph.subgraphs.map Subgraph.id).idxOf subgraph.id + 1))) ?_ isFrame).mono (by omega)
        refine List.forall_mem_append.2 ⟨List.forall_mem_map.2 fun member _ => (each member).mono (by omega), ?_⟩
        intro inner mem
        obtain ⟨child, isChild, isInner⟩ := List.mem_filterMap.1 mem
        have behind := grouped.idxOf_lt ⟨subgraph, isSubgraph, rfl, isChild⟩
        exact (ih less isInner).mono (by omega)
      · cases isFrame

end Cluster

end Flowchart
