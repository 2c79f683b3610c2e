import Flowchart.Proofs.Scene.Numbers
import Flowchart.Proofs.Svg.Markup
import Flowchart.Proofs.Svg.Numerals

/-!
The figures of a picture: the words of all attributes that hold sizes, places and the like. Each is the text of a number
that is drawn or one of a few that never change, so all of them are numerals just if all of these numbers are finite.
-/
namespace Flowchart

open Number

/-- The text is a decimal numeral: an optional minus sign, digits, and an optional fraction. -/
def IsNumeral (cs : List Char) : Prop :=
  ∃ numeral : Numeral, numeral.IsProper ∧ cs = numeral.chars

namespace Numeral

variable {numeral : Numeral} {c : Char}

theorem IsProper.of_mem (proper : numeral.IsProper) (mem : c ∈ numeral.chars) :
    c = '-' ∨ c = '.' ∨ c.isDigit = true := by
  rw [chars, List.mem_append, List.mem_append] at mem
  rcases mem with (isSign | isWhole) | isPointed
  · split at isSign
    · exact .inl (List.mem_singleton.1 isSign)
    · cases isSign
  · exact .inr (.inr (proper.whole c isWhole))
  · rw [pointed] at isPointed
    split at isPointed
    · cases isPointed
    · rcases List.mem_cons.1 isPointed with isPoint | isFraction
      · exact .inr (.inl isPoint)
      · exact .inr (.inr (proper.fraction c isFraction))

theorem isNumeral_of_digits {whole fraction : List Char} (some : whole ≠ [])
    (digits : whole.all Char.isDigit = true) (places : fraction.all Char.isDigit = true) :
    IsNumeral (whole ++ pointed fraction) :=
  ⟨⟨false, whole, fraction⟩, ⟨some, List.all_eq_true.1 digits, List.all_eq_true.1 places⟩, rfl⟩

end Numeral

namespace Svg

open Xml

variable {x : Float} {name value : String} {settings : Settings} {scene : Scene Float}

section numerals

/-- What stands between two numbers of an attribute. -/
def isGap (c : Char) : Bool :=
  c = ' ' || c = ','

theorem numeralChars_of_not_isFinite (notFinite : ¬x.isFinite = true) :
    numeralChars x ∈ [['n', 'a', 'n'], ['i', 'n', 'f'], ['-', 'i', 'n', 'f']] := by
  rw [isFinite_iff] at notFinite
  cases decoded : decode x with
  | nan =>
    rw [numeralChars, fixedChars, decoded]
    decide
  | infinite negative =>
    rw [numeralChars, fixedChars, decoded]
    cases negative <;> decide
  | finite negative mantissa exponent => exact absurd ⟨negative, mantissa, exponent, decoded⟩ notFinite

theorem isNumeral_numeralChars : IsNumeral (numeralChars x) ↔ x.isFinite = true := by
  constructor
  · rintro ⟨numeral, proper, isText⟩
    by_contra notFinite
    have named : ∀ cs ∈ [['n', 'a', 'n'], ['i', 'n', 'f'], ['-', 'i', 'n', 'f']], 'n' ∈ cs := by decide
    have isLetter := named _ (numeralChars_of_not_isFinite notFinite)
    rw [isText] at isLetter
    rcases proper.of_mem isLetter with isSign | isPoint | isDigit
    · cases isSign
    · cases isPoint
    · cases isDigit
  · intro finite
    obtain ⟨negative, mantissa, exponent, isFinite⟩ := isFinite_iff.1 finite
    exact ⟨_, isProper_ofHundredths _ _, numeralChars_of_finite isFinite⟩

theorem mem_numeralChars {c : Char} (mem : c ∈ numeralChars x) :
    c = '-' ∨ c = '.' ∨ c.isDigit = true ∨ c ∈ ['a', 'f', 'i', 'n'] := by
  by_cases finite : x.isFinite = true
  · obtain ⟨numeral, proper, isText⟩ := isNumeral_numeralChars.2 finite
    rw [isText] at mem
    rcases proper.of_mem mem with isSign | isPoint | isDigit
    · exact .inl isSign
    · exact .inr (.inl isPoint)
    · exact .inr (.inr (.inl isDigit))
  · have named : ∀ cs ∈ [['n', 'a', 'n'], ['i', 'n', 'f'], ['-', 'i', 'n', 'f']],
        cs.all (fun c => c = '-' || c ∈ ['a', 'f', 'i', 'n']) = true := by
      decide
    have known := List.all_eq_true.1 (named _ (numeralChars_of_not_isFinite finite)) c mem
    rcases Bool.or_eq_true_iff.1 known with isSign | isLetter
    · exact .inl (of_decide_eq_true isSign)
    · exact .inr (.inr (.inr (of_decide_eq_true isLetter)))

/-- The text of a number is a single word. -/
theorem isGap_of_mem_numeralChars : ∀ c ∈ numeralChars x, isGap c = false := by
  intro c mem
  by_contra gap
  have isBlank : c = ' ' ∨ c = ',' := by simpa [isGap, or_iff_not_imp_left] using gap
  rcases isBlank with rfl | rfl
  · exact absurd (mem_numeralChars mem) (by decide)
  · exact absurd (mem_numeralChars mem) (by decide)

end numerals

section figures

/-- The attributes that hold numbers. -/
def measured : List String :=
  ["width", "height", "x", "y", "cx", "cy", "r", "rx", "ry", "viewBox", "points", "font-size", "stroke-width",
    "stroke-dasharray", "refX", "refY", "markerWidth", "markerHeight"]

def words (text : String) : List (List Char) :=
  text.toList.splitOnP isGap

/-- The figures of an attribute. A share of the whole is none. -/
def figuresOf (pair : String × String) : List (List Char) :=
  if pair.1 ∈ measured ∧ pair.2 ≠ "100%" then words pair.2 else []

theorem words_append {gap : String} {c : Char} (isChar : gap.toList = [c]) (separates : isGap c = true)
    (front behind : String) : words (front ++ gap ++ behind) = words front ++ words behind := by
  rw [words, String.toList_append, String.toList_append, isChar, List.append_assoc, List.singleton_append]
  exact List.splitOnP_append_cons _ _ separates

theorem words_numeral (x : Float) : words (numeral x) = [numeralChars x] := by
  rw [words, numeral, String.toList_ofList]
  exact List.splitOnP_eq_singleton isGap_of_mem_numeralChars

theorem figuresOf_numeral (isMeasured : name ∈ measured) (x : Float) :
    figuresOf (name, numeral x) = [numeralChars x] := by
  have whole : numeral x ≠ "100%" := by
    intro same
    have isText : numeralChars x = "100%".toList := by
      rw [← same, numeral, String.toList_ofList]
    have isMark : '%' ∈ numeralChars x := by
      rw [isText]
      decide
    exact absurd (mem_numeralChars isMark) (by decide)
  rw [figuresOf, if_pos ⟨isMeasured, whole⟩, words_numeral]

theorem figuresOf_other (other : name ∉ measured) (value : String) : figuresOf (name, value) = [] :=
  if_neg fun both => other both.1

theorem words_pointList {points : List (Point Float)} (some : points ≠ []) :
    words (pointList points) = (points.flatMap Point.numbers).map numeralChars := by
  have pair (point : Point Float) : words (numeral point.x ++ "," ++ numeral point.y) =
      point.numbers.map numeralChars := by
    rw [words_append (by decide : ",".toList = [',']) (by decide), words_numeral, words_numeral]
    rfl
  induction points with
  | nil => exact absurd rfl some
  | cons point points ih =>
    cases points with
    | nil =>
      rw [pointList, List.map_singleton, String.intercalate_singleton, pair, List.flatMap_singleton]
    | cons next points =>
      have behind := ih (List.cons_ne_nil _ _)
      rw [pointList, List.map_cons] at behind
      rw [pointList, List.map_cons, List.map_cons, String.intercalate_cons_cons,
        words_append (by decide : " ".toList = [' ']) (by decide), pair, behind, ← List.map_append,
        ← List.flatMap_cons]

theorem figuresOf_points {points : List (Point Float)} (some : points ≠ []) :
    figuresOf ("points", pointList points) = (points.flatMap Point.numbers).map numeralChars := by
  have pairs : pointList points ≠ "100%" := by
    intro same
    have single : (words "100%").length = 1 := by decide
    rw [← same, words_pointList some, List.length_map, List.length_flatMap] at single
    obtain ⟨point, rest, rfl⟩ := List.exists_cons_of_ne_nil some
    simp only [Point.numbers, List.map_cons, List.sum_cons, List.length_cons, List.length_nil] at single
    omega
  have isMeasured : "points" ∈ measured := by decide
  rw [figuresOf, if_pos ⟨isMeasured, pairs⟩, words_pointList some]

end figures

end Svg

namespace Xml.Element

open Svg

/-- The figures of an element and of all that is in it, in order. -/
def figures : Element → List (List Char)
  | mk _ attributes _ children => attributes.flatMap figuresOf ++ figuresOfList children
where
  figuresOfList : List Element → List (List Char)
    | [] => []
    | child :: rest => child.figures ++ figuresOfList rest

theorem figuresOfList_eq (children : List Element) : figures.figuresOfList children = children.flatMap figures := by
  induction children with
  | nil => rfl
  | cons child children ih => rw [figures.figuresOfList, ih, List.flatMap_cons]

/-- All figures of the element are numerals. -/
def IsNumeric (element : Element) : Prop :=
  ∀ figure ∈ element.figures, IsNumeral figure

theorem isNumeric_node {name : String} {attributes : List (String × String)} {children : List Element} :
    (node name attributes children).IsNumeric ↔
      (∀ figure ∈ attributes.flatMap figuresOf, IsNumeral figure) ∧ ∀ child ∈ children, child.IsNumeric := by
  rw [IsNumeric, node, figures, figuresOfList_eq, List.forall_mem_append]
  exact and_congr_right fun _ => List.forall_mem_flatMap

theorem isNumeric_empty {name : String} {attributes : List (String × String)} {text : String} :
    (mk name attributes text []).IsNumeric ↔ ∀ figure ∈ attributes.flatMap figuresOf, IsNumeral figure := by
  rw [IsNumeric, figures, figures.figuresOfList, List.append_nil]

end Xml.Element

namespace Svg

open Xml

variable {settings : Settings} {scene : Scene Float}

theorem figures_box (box : Box Float) : (boxAttributes box).flatMap figuresOf = box.numbers.map numeralChars := by
  simp (disch := decide) only [boxAttributes, List.flatMap_cons, List.flatMap_nil, figuresOf_numeral, Box.numbers,
    List.map_cons, List.map_nil, List.singleton_append, List.append_nil]

theorem forall_mem_map_numeralChars {xs : List Float} :
    (∀ figure ∈ xs.map numeralChars, IsNumeral figure) ↔ ∀ x ∈ xs, x.isFinite = true := by
  rw [List.forall_mem_map]
  exact forall₂_congr fun x _ => isNumeral_numeralChars

theorem isNumeric_text (settings : Settings) (caption : Caption Float) :
    (textElement settings caption).IsNumeric ↔ ∀ x ∈ caption.numbers, x.isFinite = true := by
  rw [textElement, Element.leaf, Element.isNumeric_empty, ← forall_mem_map_numeralChars]
  simp (disch := decide) only [List.flatMap_cons, List.flatMap_nil, figuresOf_numeral, figuresOf_other,
    Caption.numbers, Point.numbers, List.map_cons, List.map_nil, List.singleton_append, List.append_nil]

/-- An outline has no other figures than its own and those of its style. -/
theorem isNumeric_outline {style : List (String × String)}
    (fixed : ∀ figure ∈ style.flatMap figuresOf, IsNumeral figure) {outline : Outline Float}
    (some : ∀ corners, outline = .polygon corners → corners ≠ []) :
    (outlineElement style outline).IsNumeric ↔ ∀ x ∈ outline.numbers, x.isFinite = true := by
  cases outline with
  | circle center radius =>
    rw [outlineElement, Element.node, Element.isNumeric_empty, ← forall_mem_map_numeralChars, List.flatMap_append,
      List.forall_mem_append, and_iff_left fixed]
    simp (disch := decide) only [List.flatMap_cons, List.flatMap_nil, figuresOf_numeral, Outline.numbers,
      Point.numbers, List.map_cons, List.map_nil, List.append_nil, List.cons_append, List.nil_append]
  | polygon corners =>
    rw [outlineElement, Element.node, Element.isNumeric_empty, ← forall_mem_map_numeralChars, List.flatMap_cons,
      List.forall_mem_append, and_iff_left fixed, Outline.numbers, figuresOf_points (some corners rfl)]
  | rectangle box radius =>
    rw [outlineElement, Element.node, Element.isNumeric_empty, ← forall_mem_map_numeralChars, List.flatMap_append,
      List.forall_mem_append, and_iff_left fixed, List.flatMap_append, figures_box, Outline.numbers, List.map_append]
    simp (disch := decide) only [List.flatMap_cons, List.flatMap_nil, figuresOf_numeral, List.forall_mem_append,
      List.map_cons, List.map_nil, List.append_nil, and_self]

theorem isNumeric_shape (settings : Settings) (shape : ShapeBox Float) :
    (shapeElement settings shape).IsNumeric ↔ ∀ x ∈ shape.numbers, x.isFinite = true := by
  have style : ∀ figure ∈ [("fill", (palette settings.theme).nodeFill), ("stroke", (palette settings.theme).nodeStroke),
      ("stroke-width", "1.5")].flatMap figuresOf, IsNumeral figure := by
    have width : figuresOf ("stroke-width", "1.5") = [['1'] ++ Numeral.pointed ['5']] := by decide
    simp (disch := decide) only [List.flatMap_cons, List.flatMap_nil, figuresOf_other, width, List.nil_append,
      List.append_nil, List.forall_mem_singleton]
    exact Numeral.isNumeral_of_digits (by decide) (by decide) (by decide)
  have some : ∀ corners, shape.outline = .polygon corners → corners ≠ [] := by
    intro corners isOutline
    rw [ShapeBox.outline] at isOutline
    cases isShape : shape.shape <;> rw [isShape] at isOutline <;> cases isOutline
    exact List.cons_ne_nil _ _
  rw [shapeElement, Element.isNumeric_node, ShapeBox.numbers, List.forall_mem_append]
  simp (disch := decide) [figuresOf_other, isNumeric_outline style some, isNumeric_text]

theorem isNumeric_cluster (settings : Settings) (cluster : Cluster Float) :
    (clusterElement settings cluster).IsNumeric ↔ ∀ x ∈ cluster.numbers settings.metrics, x.isFinite = true := by
  rw [clusterElement, Element.isNumeric_node, Cluster.numbers, List.forall_mem_append]
  have box : (Element.node "rect" (boxAttributes cluster.box ++ [("fill", (palette settings.theme).clusterFill),
      ("stroke", (palette settings.theme).clusterStroke)]) []).IsNumeric ↔
      ∀ x ∈ cluster.box.numbers, x.isFinite = true := by
    rw [Element.node, Element.isNumeric_empty, List.flatMap_append, figures_box, ← forall_mem_map_numeralChars]
    simp (disch := decide) only [List.flatMap_cons, List.flatMap_nil, figuresOf_other, List.append_nil]
  cases cluster.caption? settings.metrics <;> simp (disch := decide) [figuresOf_other, box, isNumeric_text]

theorem isNumeric_connector (settings : Settings) {connector : Connector Float} (some : connector.points ≠ []) :
    (connectorElement settings connector).IsNumeric ↔
      ∀ x ∈ connector.numbers settings.metrics, x.isFinite = true := by
  have width : ∀ figure ∈ figuresOf ("stroke-width", strokeWidth connector.style), IsNumeral figure := by
    have solid : figuresOf ("stroke-width", "2") = [['2'] ++ Numeral.pointed []] := by decide
    have thick : figuresOf ("stroke-width", "3.5") = [['3'] ++ Numeral.pointed ['5']] := by decide
    cases connector.style with
    | solid | dashed =>
      rw [strokeWidth, solid, List.forall_mem_singleton]
      exact Numeral.isNumeral_of_digits (by decide) (by decide) (by decide)
    | thick =>
      rw [strokeWidth, thick, List.forall_mem_singleton]
      exact Numeral.isNumeral_of_digits (by decide) (by decide) (by decide)
  have dashes : ∀ figure ∈ (if connector.style = .dashed then [("stroke-dasharray", "4 3")] else []).flatMap figuresOf,
      IsNumeral figure := by
    have both : figuresOf ("stroke-dasharray", "4 3") = [['4'] ++ Numeral.pointed [], ['3'] ++ Numeral.pointed []] := by
      decide
    split
    · rw [List.flatMap_singleton, both, List.forall_mem_cons, List.forall_mem_singleton]
      exact ⟨Numeral.isNumeral_of_digits (by decide) (by decide) (by decide),
        Numeral.isNumeral_of_digits (by decide) (by decide) (by decide)⟩
    · exact List.forall_mem_nil _
  have marker : (if connector.head then [("marker-end", "url(#arrowhead)")] else []).flatMap figuresOf = [] := by
    split <;> decide
  have line : (Element.node "polyline" ([("points", pointList connector.points), ("fill", "none"),
      ("stroke", (palette settings.theme).edge), ("stroke-width", strokeWidth connector.style)] ++
      (if connector.style = .dashed then [("stroke-dasharray", "4 3")] else []) ++
      (if connector.head then [("marker-end", "url(#arrowhead)")] else [])) []).IsNumeric ↔
      ∀ x ∈ connector.points.flatMap Point.numbers, x.isFinite = true := by
    rw [Element.node, Element.isNumeric_empty, List.flatMap_append, List.flatMap_append, marker, List.append_nil,
      List.forall_mem_append, and_iff_left dashes, ← forall_mem_map_numeralChars]
    simp (disch := decide) only [List.flatMap_cons, List.flatMap_nil, figuresOf_points some, figuresOf_other,
      List.nil_append, List.append_nil, List.forall_mem_append, and_iff_left width]
  have label (caption : Caption Float) : (∀ element ∈ edgeLabelElements settings caption, element.IsNumeric) ↔
      (∀ x ∈ (caption.background settings.metrics).numbers, x.isFinite = true) ∧
        ∀ x ∈ caption.numbers, x.isFinite = true := by
    rw [edgeLabelElements, List.forall_mem_cons, List.forall_mem_singleton, isNumeric_text, Element.node,
      Element.isNumeric_empty, List.flatMap_append, figures_box]
    simp (disch := decide) only [List.flatMap_cons, List.flatMap_nil, figuresOf_other, List.append_nil,
      forall_mem_map_numeralChars]
  rw [connectorElement, Element.isNumeric_node, Connector.numbers, List.forall_mem_append, List.forall_mem_cons, line]
  cases connector.caption? with
  | none => simp (disch := decide) [figuresOf_other]
  | some caption =>
    rw [Option.map_some, Option.getD_some, label]
    simp (disch := decide) [figuresOf_other, or_imp, forall_and]

theorem isNumeric_definitions (settings : Settings) : (definitions settings).IsNumeric := by
  have figures : (definitions settings).figures = ["0", "0", "10", "10", "9", "5", "8", "8"].map String.toList := by
    rfl
  have each : ∀ text ∈ ["0", "0", "10", "10", "9", "5", "8", "8"], text.toList ≠ [] ∧
      text.toList.all Char.isDigit = true := by
    decide
  rw [Element.IsNumeric, figures, List.forall_mem_map]
  intro text mem
  have isNumeral : IsNumeral (text.toList ++ Numeral.pointed []) :=
    Numeral.isNumeral_of_digits (each text mem).1 (each text mem).2 rfl
  rwa [Numeral.pointed, if_pos rfl, List.append_nil] at isNumeral

theorem isNumeric_background (settings : Settings) : (background settings).IsNumeric := by
  have share (name : String) : figuresOf (name, "100%") = [] := if_neg fun both => both.2 rfl
  rw [background, Element.node, Element.isNumeric_empty]
  simp (disch := decide) only [List.flatMap_cons, List.flatMap_nil, figuresOf_other, share]
  exact List.forall_mem_nil _

theorem figuresOf_viewBox (width height : Float) :
    figuresOf ("viewBox", "0 0 " ++ numeral width ++ " " ++ numeral height) =
      [['0'], ['0'], numeralChars width, numeralChars height] := by
  have space : " ".toList = [' '] := by decide
  have isMeasured : "viewBox" ∈ measured := by decide
  have value : words ("0 0 " ++ numeral width ++ " " ++ numeral height) =
      [['0'], ['0'], numeralChars width, numeralChars height] := by
    rw [words_append space (by decide), show "0 0 " = "0 0" ++ " " from rfl, words_append space (by decide),
      words_numeral, words_numeral]
    rfl
  have some : "0 0 " ++ numeral width ++ " " ++ numeral height ≠ "100%" := by
    intro same
    rw [same] at value
    have single : (words "100%").length = 1 := by decide
    rw [value] at single
    cases single
  rw [figuresOf, if_pos ⟨isMeasured, some⟩, value]

/-- The figures of a picture are numerals just if all of its numbers are finite. -/
theorem isNumeric_document (filled : ∀ connector ∈ scene.connectors, connector.points ≠ []) :
    (document settings scene).IsNumeric ↔ ∀ x ∈ scene.numbers settings.metrics, x.isFinite = true := by
  have origin : IsNumeral ['0'] :=
    ⟨⟨false, ['0'], []⟩, ⟨by decide, List.forall_mem_singleton.2 rfl, List.forall_mem_nil _⟩, rfl⟩
  have connectors : (∀ connector ∈ scene.connectors, (connectorElement settings connector).IsNumeric) ↔
      ∀ connector ∈ scene.connectors, ∀ x ∈ connector.numbers settings.metrics, x.isFinite = true :=
    forall₂_congr fun connector mem => isNumeric_connector settings (filled connector mem)
  rw [document, Element.isNumeric_node, Scene.numbers]
  simp (disch := decide) only [List.flatMap_cons, List.flatMap_nil, figuresOf_other, figuresOf_numeral,
    figuresOf_viewBox, List.forall_mem_append, List.forall_mem_cons, List.forall_mem_map, List.forall_mem_flatMap,
    isNumeric_definitions, isNumeric_background, isNumeric_cluster, isNumeric_shape, connectors,
    isNumeral_numeralChars, origin, List.not_mem_nil, false_imp_iff, implies_true, true_and, and_true]
  -- The width and the height are written twice.
  tauto

end Svg
end Flowchart
