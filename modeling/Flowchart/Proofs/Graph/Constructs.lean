import Flowchart.Graph.Builder

/-!
The node references and blocks of a diagram in the order of the document, and when two of them
contradict each other. Nothing here refers to the graph that is built.
-/
namespace Flowchart

/-- What a diagram can contradict itself with. -/
inductive Construct where
  | ref (node : NodeRef)
  | block (id : String) (place : Position)
  deriving DecidableEq

namespace Construct

def start : Construct → Position
  | ref node => node.span.start
  | block _ place => place

/-- Two explicit shapes of one node, or two blocks of one id. -/
def Clashes : Construct → Construct → Prop
  | ref first, ref second =>
    first.id = second.id ∧ ∃ s t, first.shape = some s ∧ second.shape = some t ∧ s ≠ t
  | block first _, block second _ => first = second
  | _, _ => False

/-- The shape that a reference gives to a node, and where. -/
def declares? (id : String) : Construct → Option (Shape × Position)
  | ref node => if node.id = id then node.shape.map fun shape => (shape, node.span.start) else none
  | block _ _ => none

def mentions? (id : String) : Construct → Option Position
  | ref node => if node.id = id then some node.span.start else none
  | block _ _ => none

def block? : Construct → Option (String × Position)
  | ref _ => none
  | block id place => some (id, place)

def ofEvent? : Event → Option Construct
  | .mention _ node => some (.ref node)
  | .edge _ => none
  | .block _ id _ place => some (.block id place)

theorem clashes_comm {first second : Construct} (clashes : Clashes first second) : Clashes second first := by
  cases first <;> cases second
  case ref.ref =>
    obtain ⟨same, s, t, isFirst, isSecond, differ⟩ := clashes
    exact ⟨same.symm, t, s, isSecond, isFirst, differ.symm⟩
  case block.block => exact Eq.symm clashes
  all_goals exact clashes

end Construct

mutual

def Statement.constructs : Statement → List Construct
  | .node ref _ => [.ref ref]
  | .chain nodes _ _ => nodes.map .ref
  | .subgraph id _ body span => .block id span.start :: Statement.constructsOfList body

def Statement.constructsOfList : List Statement → List Construct
  | [] => []
  | statement :: rest => statement.constructs ++ constructsOfList rest

end

def Diagram.constructs (diagram : Diagram) : List Construct :=
  Statement.constructsOfList diagram.statements

namespace Statement

theorem constructsOfList_append (front back : List Statement) :
    constructsOfList (front ++ back) = constructsOfList front ++ constructsOfList back := by
  induction front with
  | nil => rfl
  | cons statement front ih => rw [List.cons_append, constructsOfList, constructsOfList, ih, List.append_assoc]

mutual

theorem filterMap_events : ∀ (owner : Option String) (statement : Statement),
    (statement.events owner).filterMap Construct.ofEvent? = statement.constructs
  | owner, .node ref span => rfl
  | owner, .chain nodes links span => by
    have noEdge (edges : List Edge) : (edges.map Event.edge).filterMap Construct.ofEvent? = [] := by
      simp [List.filterMap_map, Function.comp_def, Construct.ofEvent?]
    rw [events, List.filterMap_append, noEdge, List.append_nil, List.filterMap_map, constructs]
    induction nodes with
    | nil => rfl
    | cons node nodes ih => rw [List.map_cons, ← ih]; rfl
  | owner, .subgraph id title body span => by
    rw [events, constructs, ← filterMap_eventsOfList (some id) body]
    rfl

theorem filterMap_eventsOfList : ∀ (owner : Option String) (body : List Statement),
    (events.eventsOfList owner body).filterMap Construct.ofEvent? = constructsOfList body
  | owner, [] => rfl
  | owner, statement :: body => by
    rw [events.eventsOfList, constructsOfList, List.filterMap_append, filterMap_events owner statement,
      filterMap_eventsOfList owner body]

end

end Statement

theorem Diagram.filterMap_events (diagram : Diagram) :
    diagram.events.filterMap Construct.ofEvent? = diagram.constructs :=
  Statement.filterMap_eventsOfList none diagram.statements

end Flowchart
