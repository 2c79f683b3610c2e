import Flowchart.Proofs.Number.Rational
import Flowchart.Proofs.Scene.Rows
import Mathlib.Tactic.Ring

/-!
The boxes of the nodes over exact rationals. Every rank has a band to itself, the bands lie apart along the flow,
and in its band a rank stands in a line whose middle is the middle of the widest rank.
-/
namespace Flowchart

variable {direction : Direction} {metrics : Metrics Rat} {graph : Graph}

namespace Box

/-- Where a box starts on the axis along which the ranks follow one another. -/
def flowStart (direction : Direction) (box : Box Rat) : Rat :=
  if direction.isHorizontal then box.x else box.y

def flowEnd (direction : Direction) (box : Box Rat) : Rat :=
  if direction.isHorizontal then box.right else box.bottom

/-- Where a box starts on the axis along which the nodes of a rank stand side by side. -/
def crossStart (direction : Direction) (box : Box Rat) : Rat :=
  if direction.isHorizontal then box.y else box.x

def crossEnd (direction : Direction) (box : Box Rat) : Rat :=
  if direction.isHorizontal then box.bottom else box.right

/-- A box lies before another one along the flow, at least the given distance away. A reversed flow runs against
the axis. -/
def Precedes (direction : Direction) (gap : Rat) (box later : Box Rat) : Prop :=
  if direction.isReversed then later.flowEnd direction + gap ≤ box.flowStart direction
  else box.flowEnd direction + gap ≤ later.flowStart direction

end Box

namespace Metrics

theorem admissible_standard : (standard : Metrics Rat).Admissible := by
  constructor <;> norm_num [standard]

theorem nodeSize_pos (admissible : metrics.Admissible) (shape : Shape) (label : String) :
    0 < (metrics.nodeSize shape label).1 ∧ 0 < (metrics.nodeSize shape label).2 := by
  have width : 0 < metrics.nodeWidth := by simpa using admissible.nodeWidth
  have height : 0 < metrics.nodeHeight := by simpa using admissible.nodeHeight
  have wide (text : Rat) : 0 < Coordinate.larger metrics.nodeWidth text := by
    rw [Coordinate.larger_eq_max]
    exact lt_max_of_lt_left width
  have tall (text : Rat) : 0 < Coordinate.larger metrics.nodeHeight text := by
    rw [Coordinate.larger_eq_max]
    exact lt_max_of_lt_left height
  cases shape with
  | circle => exact ⟨tall _, tall _⟩
  | rhombus => exact ⟨mul_pos (wide _) (by norm_num), mul_pos height (by norm_num)⟩
  | rectangle => exact ⟨wide _, height⟩
  | rounded => exact ⟨wide _, height⟩

theorem sized_pos (admissible : metrics.Admissible) (direction : Direction) (node : Node) :
    0 < (metrics.sized node).depth direction ∧ 0 < (metrics.sized node).breadth direction := by
  have size := nodeSize_pos admissible node.shape node.label
  rw [Sized.depth, Sized.breadth]
  split
  · exact size
  · exact size.symm

end Metrics

namespace Placement

variable {gap start depth along : Rat} {rank order : Nat} {row : List (Sized Rat)} {shape : ShapeBox Rat}

/-- The box of a node at a given place in its rank. -/
def placed (direction : Direction) (rank : Nat) (start depth : Rat) (order : Nat) (along : Rat) (sized : Sized Rat) :
    ShapeBox Rat :=
  let main := start + (depth - sized.depth direction) / 2
  ⟨sized.node.id, sized.node.shape, sized.node.label, rank, order,
    if direction.isHorizontal then ⟨main, along, sized.width, sized.height⟩
    else ⟨along, main, sized.width, sized.height⟩⟩

theorem placeRow_cons (sized : Sized Rat) :
    placeRow direction gap rank start depth order along (sized :: row) =
      placed direction rank start depth order along sized ::
        placeRow direction gap rank start depth (order + 1) (along + (sized.breadth direction + gap)) row := by
  rw [placeRow, placed, Coordinate.two_eq]

section placed

variable (sized : Sized Rat)

theorem flowStart_placed : (placed direction rank start depth order along sized).box.flowStart direction =
    start + (depth - sized.depth direction) / 2 := by
  cases horizontal : direction.isHorizontal <;> simp [placed, Box.flowStart, horizontal]

theorem flowEnd_placed : (placed direction rank start depth order along sized).box.flowEnd direction =
    start + (depth + sized.depth direction) / 2 := by
  cases horizontal : direction.isHorizontal <;>
    simp only [placed, Box.flowEnd, Box.right, Box.bottom, Sized.depth, horizontal] <;> norm_num <;> ring

theorem crossStart_placed :
    (placed direction rank start depth order along sized).box.crossStart direction = along := by
  cases horizontal : direction.isHorizontal <;> simp [placed, Box.crossStart, horizontal]

theorem crossEnd_placed : (placed direction rank start depth order along sized).box.crossEnd direction =
    along + sized.breadth direction := by
  cases horizontal : direction.isHorizontal <;>
    simp [placed, Box.crossEnd, Box.right, Box.bottom, Sized.breadth, horizontal]

end placed

theorem mem_placeRow (mem : shape ∈ placeRow direction gap rank start depth order along row) :
    ∃ sized ∈ row, ∃ order along, shape = placed direction rank start depth order along sized := by
  induction row generalizing order along with
  | nil => cases mem
  | cons first row ih =>
    rw [placeRow_cons] at mem
    rcases List.mem_cons.1 mem with rfl | mem
    · exact ⟨first, List.mem_cons_self, order, along, rfl⟩
    · obtain ⟨sized, isSized, place⟩ := ih mem
      exact ⟨sized, List.mem_cons_of_mem _ isSized, place⟩

theorem exists_placed {sized : Sized Rat} (mem : sized ∈ row) (order : Nat) (along : Rat) :
    ∃ place across, placed direction rank start depth place across sized ∈
      placeRow direction gap rank start depth order along row := by
  induction row generalizing order along with
  | nil => cases mem
  | cons first row ih =>
    rw [placeRow_cons]
    rcases List.mem_cons.1 mem with rfl | mem
    · exact ⟨order, along, List.mem_cons_self⟩
    · obtain ⟨place, across, isPlaced⟩ := ih mem (order + 1) (along + (first.breadth direction + gap))
      exact ⟨place, across, List.mem_cons_of_mem _ isPlaced⟩

/-- A row stays within its band. -/
theorem within_band (fits : ∀ sized ∈ row, sized.depth direction ≤ depth)
    (mem : shape ∈ placeRow direction gap rank start depth order along row) :
    start ≤ shape.box.flowStart direction ∧ shape.box.flowEnd direction ≤ start + depth := by
  obtain ⟨sized, isSized, order, along, rfl⟩ := mem_placeRow mem
  have isFit := fits sized isSized
  rw [flowStart_placed, flowEnd_placed]
  constructor <;> linarith

/-- Neighbours in a row are a gap apart. -/
theorem isChain_placeRow (order : Nat) (along : Rat) (row : List (Sized Rat)) :
    (placeRow direction gap rank start depth order along row).IsChain fun left right =>
    right.box.crossStart direction = left.box.crossEnd direction + gap := by
  induction row generalizing order along with
  | nil => exact .nil
  | cons first row ih =>
    rw [placeRow_cons]
    cases row with
    | nil => exact .singleton _
    | cons second row =>
      have next := ih (order + 1) (along + (first.breadth direction + gap))
      rw [placeRow_cons] at next ⊢
      refine .cons_cons ?_ next
      rw [crossStart_placed, crossEnd_placed]
      ring

section positive

variable (gap_nonneg : 0 ≤ gap) (positive : ∀ sized ∈ row, 0 < sized.breadth direction)
include gap_nonneg positive

theorem along_le (mem : shape ∈ placeRow direction gap rank start depth order along row) :
    along ≤ shape.box.crossStart direction := by
  induction row generalizing order along with
  | nil => cases mem
  | cons first row ih =>
    have ⟨here, others⟩ := List.forall_mem_cons.1 positive
    rw [placeRow_cons] at mem
    rcases List.mem_cons.1 mem with rfl | mem
    · exact le_of_eq (crossStart_placed first).symm
    · have bound := ih others mem
      linarith

/-- Of two nodes in a row the earlier one stands first, with at least a gap between them. -/
theorem pairwise_placeRow : (placeRow direction gap rank start depth order along row).Pairwise fun left right =>
    left.box.crossEnd direction + gap ≤ right.box.crossStart direction := by
  induction row generalizing order along with
  | nil => exact .nil
  | cons first row ih =>
    have others := (List.forall_mem_cons.1 positive).2
    rw [placeRow_cons]
    refine .cons (fun shape mem => ?_) (ih others)
    have bound := along_le gap_nonneg others mem
    rw [crossEnd_placed]
    linarith

end positive

theorem rowBreadth_singleton (sized : Sized Rat) :
    rowBreadth direction metrics [sized] = sized.breadth direction := by
  simp [rowBreadth, Coordinate.total_eq_sum]

theorem rowBreadth_cons_cons (first second : Sized Rat) :
    rowBreadth direction metrics (first :: second :: row) =
      first.breadth direction + metrics.nodeGap + rowBreadth direction metrics (second :: row) := by
  simp only [rowBreadth, Coordinate.total_eq_sum, List.map_cons, List.sum_cons, List.length_cons, Nat.add_sub_cancel]
  push_cast
  ring

/-- Where a line of shapes starts and ends. -/
def span? (direction : Direction) (shapes : List (ShapeBox Rat)) : Option (Rat × Rat) := do
  let first ← shapes.head?
  let last ← shapes.getLast?
  return (first.box.crossStart direction, last.box.crossEnd direction)

theorem span?_singleton (shape : ShapeBox Rat) :
    span? direction [shape] = some (shape.box.crossStart direction, shape.box.crossEnd direction) := rfl

theorem span?_cons_cons (first second : ShapeBox Rat) (shapes : List (ShapeBox Rat)) :
    span? direction (first :: second :: shapes) =
      (span? direction (second :: shapes)).map fun span => (first.box.crossStart direction, span.2) := by
  simp [span?, List.getLast?_cons_cons]

theorem span?_placeRow (some : row ≠ []) (order : Nat) (along : Rat) :
    span? direction (placeRow direction metrics.nodeGap rank start depth order along row) =
      Option.some (along, along + rowBreadth direction metrics row) := by
  induction row generalizing order along with
  | nil => exact absurd rfl some
  | cons first row ih =>
    cases row with
    | nil => rw [placeRow_cons, placeRow, rowBreadth_singleton, span?_singleton, crossStart_placed, crossEnd_placed]
    | cons second row =>
      have next := ih (List.cons_ne_nil _ _) (order + 1) (along + (first.breadth direction + metrics.nodeGap))
      rw [placeRow_cons] at next ⊢
      rw [placeRow_cons, span?_cons_cons, next, Option.map_some, crossStart_placed, rowBreadth_cons_cons]
      refine congrArg (fun last => Option.some (along, last)) ?_
      ring

section starts

variable {β : Type} {extent : β → Rat} {items : List β}

theorem le_starts (gap_nonneg : 0 ≤ gap) (nonneg : ∀ item ∈ items, 0 ≤ extent item) {item : β × Rat}
    (mem : item ∈ items.zip (starts gap start (items.map extent))) : start ≤ item.2 := by
  induction items generalizing start with
  | nil => cases mem
  | cons first items ih =>
    have ⟨here, others⟩ := List.forall_mem_cons.1 nonneg
    rw [List.map_cons, starts, List.zip_cons_cons] at mem
    rcases List.mem_cons.1 mem with rfl | mem
    · exact le_refl _
    · have bound := ih others mem
      linarith

/-- Bands that start one behind the other lie a gap apart. -/
theorem pairwise_starts (gap_nonneg : 0 ≤ gap) (nonneg : ∀ item ∈ items, 0 ≤ extent item) :
    (items.zip (starts gap start (items.map extent))).Pairwise fun first later =>
      first.2 + extent first.1 + gap ≤ later.2 := by
  induction items generalizing start with
  | nil => exact .nil
  | cons first items ih =>
    have others := (List.forall_mem_cons.1 nonneg).2
    rw [List.map_cons, starts, List.zip_cons_cons]
    refine .cons (fun item mem => ?_) (ih others)
    have bound := le_starts gap_nonneg others mem
    linarith

end starts

/-- The first band is in front, or in a reversed direction the last one. -/
def Follows (direction : Direction) (metrics : Metrics Rat) (first later : List (Sized Rat) × Rat) : Prop :=
  if direction.isReversed then later.2 + rowDepth direction later.1 + metrics.rankGap ≤ first.2
  else first.2 + rowDepth direction first.1 + metrics.rankGap ≤ later.2

theorem pairwise_rowStarts {rows : List (List (Sized Rat))} (gap_nonneg : 0 ≤ metrics.rankGap)
    (nonneg : ∀ row ∈ rows, 0 ≤ rowDepth direction row) :
    (rows.zip (rowStarts direction metrics (rows.map (rowDepth direction)))).Pairwise
      (Follows direction metrics) := by
  rw [rowStarts]
  cases reversed : direction.isReversed with
  | false =>
    refine (pairwise_starts gap_nonneg nonneg).imp fun apart => ?_
    rw [Follows, reversed]
    exact apart
  | true =>
    have flipped : rows.zip (starts metrics.rankGap metrics.padding (rows.map (rowDepth direction)).reverse).reverse =
        (rows.reverse.zip
          (starts metrics.rankGap metrics.padding (rows.reverse.map (rowDepth direction)))).reverse := by
      rw [List.zip, List.reverse_zipWith (by simp [length_starts]), List.reverse_reverse, List.map_reverse]
    simp only [if_true]
    rw [flipped, List.pairwise_reverse]
    have nonneg : ∀ row ∈ rows.reverse, 0 ≤ rowDepth direction row := fun row mem =>
      nonneg row (List.mem_reverse.1 mem)
    refine (pairwise_starts gap_nonneg nonneg).imp fun apart => ?_
    rw [Follows, reversed]
    exact apart

/-- The ranks with the places where their bands start. -/
def bands (graph : Graph) (metrics : Metrics Rat) : List (List (Sized Rat) × Rat) :=
  let rows := rows graph metrics
  rows.zip (rowStarts graph.direction metrics (rows.map (rowDepth graph.direction)))

def widest (graph : Graph) (metrics : Metrics Rat) : Rat :=
  Coordinate.maximum ((rows graph metrics).map (rowBreadth graph.direction metrics))

/-- The boxes of the nodes of a rank that has a given band. -/
def bandRow (graph : Graph) (metrics : Metrics Rat) (rank : Nat) (band : List (Sized Rat) × Rat) :
    List (ShapeBox Rat) :=
  placeRow graph.direction metrics.nodeGap rank band.2 (rowDepth graph.direction band.1) 0
    (metrics.padding + (widest graph metrics - rowBreadth graph.direction metrics band.1) / 2) band.1

def rowOf (graph : Graph) (metrics : Metrics Rat) (rank : Nat) : List (ShapeBox Rat) :=
  ((bands graph metrics)[rank]?.map (bandRow graph metrics rank)).getD []

theorem mem_rowOf : shape ∈ rowOf graph metrics rank ↔
    ∃ band, (bands graph metrics)[rank]? = some band ∧ shape ∈ bandRow graph metrics rank band := by
  rw [rowOf]
  cases (bands graph metrics)[rank]? <;> simp

theorem mem_placeRows {first : Nat} {list : List (List (Sized Rat) × Rat)} :
    shape ∈ placeRows graph.direction metrics (widest graph metrics) first list ↔
      ∃ place band, list[place]? = some band ∧ shape ∈ bandRow graph metrics (first + place) band := by
  induction list generalizing first with
  | nil => simp [placeRows]
  | cons band list ih =>
    have split : placeRows graph.direction metrics (widest graph metrics) first (band :: list) =
        bandRow graph metrics first band ++
          placeRows graph.direction metrics (widest graph metrics) (first + 1) list := by
      rw [placeRows, bandRow, Coordinate.two_eq]
    rw [split, List.mem_append, ih]
    constructor
    · rintro (here | ⟨place, other, isBand, there⟩)
      · exact ⟨0, band, rfl, here⟩
      · exact ⟨place + 1, other, isBand, Nat.add_right_comm first 1 place ▸ there⟩
    · rintro ⟨_ | place, other, isBand, mem⟩
      · cases isBand
        exact .inl mem
      · exact .inr ⟨place, other, isBand, Nat.add_right_comm first 1 place ▸ mem⟩

/-- The boxes of a graph are those of its ranks. -/
theorem mem_boxes : shape ∈ boxes graph metrics ↔ ∃ rank, shape ∈ rowOf graph metrics rank := by
  apply mem_placeRows.trans
  simp only [mem_rowOf, Nat.zero_add]
  rfl

theorem band_cases {band : List (Sized Rat) × Rat} (isBand : (bands graph metrics)[rank]? = some band) :
    rank ≤ graph.lastRank ∧ band.1 = (graph.ofRank rank).map metrics.sized := by
  have isRow := (List.getElem?_zip_eq_some.1 isBand).1
  rw [rows_eq, List.getElem?_map, Option.map_eq_some_iff] at isRow
  obtain ⟨_, inRange, same⟩ := isRow
  obtain ⟨bound, rfl⟩ := List.getElem?_eq_some_iff.1 inRange
  rw [List.length_range] at bound
  rw [List.getElem_range] at same
  exact ⟨Nat.le_of_lt_succ bound, same.symm⟩

theorem exists_band (metrics : Metrics Rat) (bound : rank ≤ graph.lastRank) :
    ∃ start, (bands graph metrics)[rank]? = some ((graph.ofRank rank).map metrics.sized, start) := by
  have long : rank < (bands graph metrics).length := by
    rw [bands, List.length_zip, length_rowStarts, List.length_map, Nat.min_self, rows_eq, List.length_map,
      List.length_range]
    omega
  have isBand := List.getElem?_eq_getElem long
  refine ⟨(bands graph metrics)[rank].2, ?_⟩
  rw [isBand, ← (band_cases isBand).2]

theorem ids_rowOf (graph : Graph) (metrics : Metrics Rat) (rank : Nat) :
    (rowOf graph metrics rank).map ShapeBox.id = (graph.ofRank rank).map Node.id := by
  by_cases bound : rank ≤ graph.lastRank
  · obtain ⟨start, isBand⟩ := exists_band metrics bound
    rw [rowOf, isBand, Option.map_some, Option.getD_some, bandRow, ids_placeRow, List.map_map]
    rfl
  · have noBand : (bands graph metrics)[rank]? = none := by
      apply Option.eq_none_iff_forall_ne_some.2
      intro band isBand
      exact bound (band_cases isBand).1
    have noNode : graph.ofRank rank = [] := by
      apply List.eq_nil_iff_forall_not_mem.2
      intro node mem
      apply bound
      obtain ⟨isNode, rfl⟩ := Graph.mem_ofRank.1 mem
      exact Graph.rank_le_lastRank (List.mem_map_of_mem isNode)
    rw [rowOf, noBand, noNode]
    rfl

/-- A box lies in the band of the rank of its node. -/
theorem rank_of_mem (mem : shape ∈ rowOf graph metrics rank) : shape.rank = rank ∧ graph.rank shape.id = rank := by
  constructor
  · obtain ⟨band, -, mem⟩ := mem_rowOf.1 mem
    obtain ⟨_, _, _, _, rfl⟩ := mem_placeRow mem
    rfl
  · have isId : shape.id ∈ (rowOf graph metrics rank).map ShapeBox.id := List.mem_map_of_mem mem
    rw [ids_rowOf] at isId
    obtain ⟨node, isNode, same⟩ := List.mem_map.1 isId
    rw [← same]
    exact (Graph.mem_ofRank.1 isNode).2

theorem isChain_rowOf (rank : Nat) : (rowOf graph metrics rank).IsChain fun left right =>
    right.box.crossStart graph.direction = left.box.crossEnd graph.direction + metrics.nodeGap := by
  rw [rowOf]
  cases (bands graph metrics)[rank]? with
  | none => exact .nil
  | some band => exact isChain_placeRow _ _ _

theorem row_of_band {band : List (Sized Rat) × Rat} (isBand : (bands graph metrics)[rank]? = some band) :
    band.1 ∈ rows graph metrics :=
  List.mem_of_getElem? (List.getElem?_zip_eq_some.1 isBand).1

theorem rowBreadth_le_widest (mem : row ∈ rows graph metrics) :
    rowBreadth graph.direction metrics row ≤ widest graph metrics :=
  Coordinate.le_maximum (List.mem_map_of_mem mem)

theorem depth_le_rowDepth {sized : Sized Rat} (mem : sized ∈ row) : sized.depth direction ≤ rowDepth direction row :=
  Coordinate.le_maximum (List.mem_map_of_mem mem)

section admissible

variable (admissible : metrics.Admissible)
include admissible

theorem positive_of_row (mem : row ∈ rows graph metrics) (direction : Direction) :
    ∀ sized ∈ row, 0 < sized.depth direction ∧ 0 < sized.breadth direction := by
  rw [rows_eq] at mem
  obtain ⟨rank, -, rfl⟩ := List.mem_map.1 mem
  intro sized isSized
  obtain ⟨node, -, rfl⟩ := List.mem_map.1 isSized
  exact Metrics.sized_pos admissible direction node

theorem rowDepth_nonneg (mem : row ∈ rows graph metrics) : 0 ≤ rowDepth direction row := by
  cases row with
  | nil => exact le_of_eq Coordinate.zero_eq.symm
  | cons first row =>
    have positive := (positive_of_row admissible mem direction first List.mem_cons_self).1
    exact le_trans (le_of_lt positive) (depth_le_rowDepth List.mem_cons_self)

theorem pairwise_rowOf (rank : Nat) : (rowOf graph metrics rank).Pairwise fun left right =>
    left.box.crossEnd graph.direction + metrics.nodeGap ≤ right.box.crossStart graph.direction := by
  rw [rowOf]
  cases isBand : (bands graph metrics)[rank]? with
  | none => exact .nil
  | some band =>
    apply pairwise_placeRow (by simpa using admissible.nodeGap)
    intro sized mem
    exact (positive_of_row admissible (row_of_band isBand) graph.direction sized mem).2

/-- Of two ranks, the bands follow one another. -/
theorem follows_of_lt {other : Nat} (earlier : rank < other) {band next : List (Sized Rat) × Rat}
    (isBand : (bands graph metrics)[rank]? = some band) (isNext : (bands graph metrics)[other]? = some next) :
    Follows graph.direction metrics band next := by
  have apart : (bands graph metrics).Pairwise (Follows graph.direction metrics) :=
    pairwise_rowStarts (by simpa using admissible.rankGap) fun row mem => rowDepth_nonneg admissible mem
  obtain ⟨_, rfl⟩ := List.getElem?_eq_some_iff.1 isBand
  obtain ⟨_, rfl⟩ := List.getElem?_eq_some_iff.1 isNext
  exact List.pairwise_iff_getElem.1 apart _ _ _ _ earlier

theorem precedes_of_lt {other : Nat} {later : ShapeBox Rat} (mem : shape ∈ rowOf graph metrics rank)
    (isLater : later ∈ rowOf graph metrics other) (earlier : rank < other) :
    shape.box.Precedes graph.direction metrics.rankGap later.box := by
  obtain ⟨band, isBand, mem⟩ := mem_rowOf.1 mem
  obtain ⟨next, isNext, isLater⟩ := mem_rowOf.1 isLater
  have apart := follows_of_lt admissible earlier isBand isNext
  obtain ⟨start, stop⟩ := within_band (fun _ => depth_le_rowDepth) mem
  obtain ⟨nextStart, nextStop⟩ := within_band (fun _ => depth_le_rowDepth) isLater
  rw [Follows] at apart
  rw [Box.Precedes]
  split at apart
  · rw [if_pos ‹_›]
    linarith
  · rw [if_neg ‹_›]
    linarith

theorem size_of_mem (mem : shape ∈ rowOf graph metrics rank) : 0 < shape.box.width ∧ 0 < shape.box.height := by
  obtain ⟨band, isBand, mem⟩ := mem_rowOf.1 mem
  obtain ⟨sized, isSized, order, along, rfl⟩ := mem_placeRow mem
  -- The width is the extent along a horizontal direction, and the height across it.
  have size := positive_of_row admissible (row_of_band isBand) .LR sized isSized
  rw [placed]
  split <;> exact size

end admissible

theorem exists_of_span? {shapes : List (ShapeBox Rat)} {span : Rat × Rat}
    (isSpan : span? direction shapes = some span) : ∃ first ∈ shapes, first.box.crossStart direction = span.1 := by
  cases shapes with
  | nil => cases isSpan
  | cons first shapes =>
    cases isSpan
    exact ⟨first, List.mem_cons_self, rfl⟩

theorem padding_mem_rowStarts (direction : Direction) (metrics : Metrics Rat) {depths : List Rat}
    (some : depths ≠ []) : metrics.padding ∈ rowStarts direction metrics depths := by
  have first {depths : List Rat} (some : depths ≠ []) :
      metrics.padding ∈ starts metrics.rankGap metrics.padding depths := by
    cases depths with
    | nil => exact absurd rfl some
    | cons => exact List.mem_cons_self
  rw [rowStarts]
  split
  · exact List.mem_reverse.2 (first (by simpa using some))
  · exact first some

theorem rows_some (graph : Graph) (metrics : Metrics Rat) : rows graph metrics ≠ [] := by
  simp [rows_eq]

/-- Some rank is the widest one. -/
theorem exists_widest (graph : Graph) (metrics : Metrics Rat) : ∃ rank start, (bands graph metrics)[rank]? =
      some ((graph.ofRank rank).map metrics.sized, start) ∧
    rowBreadth graph.direction metrics ((graph.ofRank rank).map metrics.sized) = widest graph metrics := by
  have some : (rows graph metrics).map (rowBreadth graph.direction metrics) ≠ [] := by
    simpa using rows_some graph metrics
  obtain ⟨row, isRow, isWidest⟩ := List.mem_map.1 (Coordinate.maximum_mem some)
  rw [rows_eq] at isRow
  obtain ⟨rank, inRange, rfl⟩ := List.mem_map.1 isRow
  have bound : rank ≤ graph.lastRank := Nat.le_of_lt_succ (List.mem_range.1 inRange)
  obtain ⟨start, isBand⟩ := exists_band metrics bound
  exact ⟨rank, start, isBand, isWidest⟩

section nonempty

variable (nodup : graph.ids.Nodup) (some : graph.nodes ≠ [])
include nodup some

/-- Some band starts at the padding, and the deepest node of its rank with it. -/
theorem exists_flowStart :
    ∃ shape ∈ boxes graph metrics, shape.box.flowStart graph.direction = metrics.padding := by
  have depths : (rows graph metrics).map (rowDepth graph.direction) ≠ [] := by
    simpa using rows_some graph metrics
  obtain ⟨rank, isStart⟩ := List.mem_iff_getElem?.1 (padding_mem_rowStarts graph.direction metrics depths)
  have long : rank < (rows graph metrics).length := by
    have bound := (List.getElem?_eq_some_iff.1 isStart).1
    rwa [length_rowStarts, List.length_map] at bound
  have isBand : (bands graph metrics)[rank]? = Option.some ((rows graph metrics)[rank], metrics.padding) :=
    List.getElem?_zip_eq_some.2 ⟨List.getElem?_eq_getElem long, isStart⟩
  have filled := rows_ne_nil nodup some (List.getElem_mem long)
  have depths : ((rows graph metrics)[rank]).map (Sized.depth graph.direction) ≠ [] := by simpa using filled
  obtain ⟨deepest, isDeepest, depth⟩ := List.mem_map.1 (Coordinate.maximum_mem depths)
  obtain ⟨order, along, isPlaced⟩ := exists_placed isDeepest 0 _
  refine ⟨_, mem_boxes.2 ⟨rank, mem_rowOf.2 ⟨_, isBand, isPlaced⟩⟩, ?_⟩
  rw [flowStart_placed, rowDepth, depth]
  ring

/-- Every rank is centred on the widest one, which starts at the padding. -/
theorem span?_rowOf {band : List (Sized Rat) × Rat} (isBand : (bands graph metrics)[rank]? = Option.some band) :
    span? graph.direction (rowOf graph metrics rank) = Option.some
      (metrics.padding + (widest graph metrics - rowBreadth graph.direction metrics band.1) / 2,
        metrics.padding + (widest graph metrics + rowBreadth graph.direction metrics band.1) / 2) := by
  have last (start breadth : Rat) : start + (widest graph metrics - breadth) / 2 + breadth =
      start + (widest graph metrics + breadth) / 2 := by ring
  rw [rowOf, isBand, Option.map_some, Option.getD_some, bandRow,
    span?_placeRow (rows_ne_nil nodup some (row_of_band isBand)), last]

theorem exists_crossStart :
    ∃ shape ∈ boxes graph metrics, shape.box.crossStart graph.direction = metrics.padding := by
  obtain ⟨rank, start, isBand, isWidest⟩ := exists_widest graph metrics
  obtain ⟨first, isFirst, place⟩ := exists_of_span? (span?_rowOf nodup some isBand)
  refine ⟨first, mem_boxes.2 ⟨rank, isFirst⟩, ?_⟩
  rw [place, isWidest]
  ring

/-- The margins between a rank and the widest one are equal on both sides. -/
theorem centred_rows (metrics : Metrics Rat) : ∃ widest start stop,
    span? graph.direction (rowOf graph metrics widest) = Option.some (start, stop) ∧
    ∀ rank span, span? graph.direction (rowOf graph metrics rank) = Option.some span →
      start ≤ span.1 ∧ span.2 ≤ stop ∧ span.1 - start = stop - span.2 := by
  obtain ⟨widest, _, isBand, isWidest⟩ := exists_widest graph metrics
  refine ⟨widest, _, _, span?_rowOf nodup some isBand, fun rank span isSpan => ?_⟩
  cases isOther : (bands graph metrics)[rank]? with
  | none =>
    rw [rowOf, isOther] at isSpan
    cases isSpan
  | some band =>
    have bound := rowBreadth_le_widest (row_of_band isOther)
    obtain rfl := Option.some.inj ((span?_rowOf nodup some isOther).symm.trans isSpan)
    rw [isWidest]
    constructor
    · linarith
    · constructor <;> linarith

end nonempty

end Placement
end Flowchart
