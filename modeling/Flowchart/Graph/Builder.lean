import Flowchart.Diagram
import Flowchart.Failure
import Flowchart.Graph
import Flowchart.Text.Quoted

/-!
From a diagram to its graph. The statements are laid out as a flat list of events, in the order of the
source and with the block that each belongs to, and the graph grows by one event after another. The
first event that contradicts an earlier one is refused.
-/
namespace Flowchart

/-- What a diagram says, one thing at a time. The owner is the innermost block around it. -/
inductive Event where
  | mention (owner : Option String) (ref : NodeRef)
  | edge (edge : Edge)
  | block (owner : Option String) (id : String) (title : Option String) (place : Position)
  deriving Repr

def Link.edges (nodes : List NodeRef) (links : List Link) : List Edge :=
  ((nodes.zip (nodes.drop 1)).zip links).map fun ((source, target), link) =>
    ⟨source.id, target.id, link.label, link.style, link.head⟩

/-- The events of a statement inside a block, and those of several statements. -/
def Statement.events (owner : Option String) : Statement → List Event
  | .node ref _ => [.mention owner ref]
  | .chain nodes links _ => nodes.map (.mention owner) ++ (Link.edges nodes links).map .edge
  | .subgraph id title body span => .block owner id title span.start :: eventsOfList (some id) body
where
  eventsOfList (owner : Option String) : List Statement → List Event
    | [] => []
    | statement :: rest => statement.events owner ++ eventsOfList owner rest

def Diagram.events (diagram : Diagram) : List Event :=
  Statement.events.eventsOfList none diagram.statements

/-- Two statements that contradict each other. -/
inductive GraphError where
  | shapes (id : String) (first : Shape) (firstAt : Position) (second : Shape) (secondAt : Position)
  | duplicate (id : String) (firstAt secondAt : Position)
  | sharedId (id : String) (subgraphAt nodeAt : Position)
  deriving DecidableEq, Repr

namespace GraphError

def message : GraphError → String
  | shapes id first firstAt second secondAt =>
    s!"Node {Text.quoted id} is declared as {first.name} at {firstAt.cite} " ++
      s!"and as {second.name} at {secondAt.cite}"
  | duplicate id firstAt _ =>
    s!"Duplicate subgraph id {Text.quoted id}: first defined at {firstAt.cite}"
  | sharedId id subgraphAt nodeAt =>
    s!"Subgraph id {Text.quoted id} (at {subgraphAt.cite}) is also used as a node id " ++
      s!"(at {nodeAt.cite})"

/-- The places of the two statements, in the order in which they stand or were met. -/
def places : GraphError → List Position
  | shapes _ _ firstAt _ secondAt => [firstAt, secondAt]
  | duplicate _ firstAt secondAt => [firstAt, secondAt]
  | sharedId _ subgraphAt nodeAt =>
    if nodeAt.offset < subgraphAt.offset then [nodeAt, subgraphAt] else [subgraphAt, nodeAt]

def failure (error : GraphError) : Failure :=
  ⟨.validate, error.message, error.places.getLast?, error.places⟩

end GraphError

/-- What is known of a node: where it was first mentioned, and its latest declaration. -/
structure Known where
  id : String
  firstAt : Position
  declared : Option (Shape × Position) := none
  label : Option String := none
  deriving Repr

namespace Known

/-- The node as it is drawn: a rectangle that shows the id, unless it was declared otherwise. -/
def node (known : Known) : Node :=
  ⟨known.id, known.label.getD known.id, (known.declared.map Prod.fst).getD .rectangle⟩

def declare (known : Known) (ref : NodeRef) : Except GraphError Known :=
  match ref.shape with
  | none => .ok known
  | some shape =>
    let declared : Known :=
      { known with declared := some (shape, ref.span.start), label := ref.label.or known.label }
    match known.declared with
    | none => .ok declared
    | some (first, firstAt) =>
      if first = shape then .ok declared
      else .error (.shapes known.id first firstAt shape ref.span.start)

end Known

/-- A graph in the making. -/
structure Builder where
  known : List Known := []
  edges : List Edge := []
  subgraphs : List Subgraph := []
  places : List (String × Position) := []
  deriving Repr

namespace Builder

def update (subgraphs : List Subgraph) (owner : Option String) (change : Subgraph → Subgraph) :
    List Subgraph :=
  match owner with
  | none => subgraphs
  | some id => subgraphs.map fun subgraph => if subgraph.id == id then change subgraph else subgraph

/-- Takes up a mention of a node. A node belongs to the block of its first mention. -/
def mention (builder : Builder) (owner : Option String) (ref : NodeRef) : Except GraphError Builder :=
  match builder.known.find? (·.id == ref.id) with
  | some known => do
    let declared ← known.declare ref
    return { builder with
      known := builder.known.map fun old => if old.id == ref.id then declared else old }
  | none => do
    let declared ← Known.declare { id := ref.id, firstAt := ref.span.start } ref
    return { builder with
      known := builder.known ++ [declared]
      subgraphs := update builder.subgraphs owner fun subgraph =>
        { subgraph with members := subgraph.members ++ [ref.id] } }

def open_ (builder : Builder) (owner : Option String) (id : String) (title : Option String)
    (place : Position) : Except GraphError Builder :=
  match builder.places.lookup id with
  | some firstAt => .error (.duplicate id firstAt place)
  | none => .ok { builder with
      subgraphs :=
        update (builder.subgraphs ++ [{ id, title }]) owner fun subgraph =>
          { subgraph with children := subgraph.children ++ [id] }
      places := builder.places ++ [(id, place)] }

def step (builder : Builder) : Event → Except GraphError Builder
  | .mention owner ref => builder.mention owner ref
  | .edge edge => .ok { builder with edges := builder.edges ++ [edge] }
  | .block owner id title place => builder.open_ owner id title place

/-- The first subgraph whose id is also the id of a node. -/
def clash? (builder : Builder) : Option GraphError :=
  builder.places.findSome? fun (id, place) =>
    (builder.known.find? (·.id == id)).map fun known => .sharedId id place known.firstAt

end Builder

namespace Graph

def ofDiagram (diagram : Diagram) : Except GraphError Graph := do
  let builder ← diagram.events.foldlM Builder.step {}
  match builder.clash? with
  | some error => throw error
  | none =>
    return ⟨diagram.direction, builder.known.map Known.node, builder.edges, builder.subgraphs⟩

end Graph
end Flowchart
