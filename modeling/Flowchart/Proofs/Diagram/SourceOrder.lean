import Flowchart.Proofs.Diagram.ErrorPosition
import Flowchart.Proofs.Graph.Constructs
import Flowchart.Proofs.Token.Places

/-!
The order of a document is the order of its source: node references and blocks start at tokens that
stand one behind the other.
-/
namespace Flowchart

open Grammar
open Feed (Block)

namespace Token

/-- A token that a node reference or a block starts with. -/
def isStart (t : Token) : Bool :=
  t.kind = .identifier || t.kind = .subgraph

def starts (ts : List Token) : List Position :=
  (ts.filter isStart).map Token.position

theorem starts_append (ts us : List Token) : starts (ts ++ us) = starts ts ++ starts us := by
  rw [starts, List.filter_append, List.map_append]
  rfl

theorem starts_line {line : Token} (isLine : line.kind = .newline) : starts [line] = [] := by
  simp [starts, isStart, isLine]

theorem starts_cons {t : Token} (isStart : t.kind = .identifier ∨ t.kind = .subgraph) (ts : List Token) :
    starts (t :: ts) = t.position :: starts ts := by
  rcases isStart with isStart | isStart <;> simp [starts, Token.isStart, isStart]

end Token

namespace Grammar

open Token (starts starts_append starts_line starts_cons)

variable {ts us : List Token}

theorem start_of_mention {ref : NodeRef} (rule : Mention ts ref) : [ref.span.start].Sublist (starts ts) := by
  cases rule with
  | bare isId =>
    rw [starts_cons (.inl isId)]
    exact .cons_cons _ (List.nil_sublist _)
  | declared isId =>
    rw [starts_cons (.inl isId)]
    exact .cons_cons _ (List.nil_sublist _)

theorem starts_of_joints {more : List (Link × NodeRef)} (rule : Joints ts more) :
    (more.map fun step => step.2.span.start).Sublist (starts ts) := by
  induction rule with
  | nil => exact List.nil_sublist _
  | @cons ts us vs link ref more joint mention joints ih =>
    rw [starts_append, starts_append]
    exact ((start_of_mention mention).append ih).trans (List.sublist_append_right _ _)

theorem starts_of_chain {statement : Statement} (rule : Chain ts statement) :
    (statement.constructs.map Construct.start).Sublist (starts ts) := by
  cases rule with
  | node mention => exact start_of_mention mention
  | @edges ts us ref more mention joints _ =>
    have both := (start_of_mention mention).append (starts_of_joints joints)
    rw [starts_append]
    simpa [Statement.constructs, Construct.start, Function.comp_def] using both

theorem starts_of_block {hs : List Token} {line close : Token} {head : Feed.Head} {body : List Statement}
    (header : Header hs head)
    (inner : ((Statement.constructsOfList body).map Construct.start).Sublist (starts ts)) :
    ((Statement.subgraph head.id head.title body
      (Token.range (hs ++ line :: (ts ++ [close])))).constructs.map Construct.start).Sublist
        (starts (hs ++ line :: (ts ++ [close]))) := by
  obtain ⟨more, rfl, opens⟩ := Feed.header_head header
  rw [List.cons_append, starts_cons (.inr opens), Statement.constructs, List.map_cons]
  refine .cons_cons _ ?_
  have split : more ++ line :: (ts ++ [close]) = more ++ ([line] ++ ts) ++ [close] := by simp
  rw [split, starts_append, starts_append, starts_append]
  exact (inner.trans (List.sublist_append_right _ _)).trans
    ((List.sublist_append_right _ _).trans (List.sublist_append_left _ _))

theorem starts_of_rule :
    (∀ ts statement, Sentence ts statement →
      (statement.constructs.map Construct.start).Sublist (starts ts)) ∧
    ∀ ts body, Lines ts body →
      ((Statement.constructsOfList body).map Construct.start).Sublist (starts ts) := by
  refine sentence_lines_induction starts_of_chain
    (fun header _ inner _ => starts_of_block header inner) (List.nil_sublist _) ?_ ?_
  · intro ts line body front isLine
    rwa [starts_append, starts_line isLine, List.append_nil]
  · intro ts us line body statement front last isLine
    rw [starts_append, starts_append, starts_line isLine, List.append_nil,
      Statement.constructsOfList_append, List.map_append]
    refine front.append ?_
    simpa [Statement.constructsOfList] using last

theorem starts_of_opened {direction : Direction} {span : Span} {blocks : List Block} {done : List Statement}
    (opened : Opened direction span ts blocks done) (outside : blocks = []) :
    ((Statement.constructsOfList done.reverse).map Construct.start).Sublist (starts ts) := by
  induction opened with
  | declared => exact List.nil_sublist _
  | blank _ isLine ih =>
    rw [starts_append, starts_line isLine, List.append_nil]
    exact ih outside
  | sentence _ sentence isLine ih =>
    rw [starts_append, starts_append, starts_line isLine, List.append_nil, List.reverse_cons,
      Statement.constructsOfList_append, List.map_append]
    refine (ih outside).append ?_
    simpa [Statement.constructsOfList] using starts_of_rule.1 _ _ sentence
  | header => cases outside

theorem starts_of_document {tokens : List Token} {diagram : Diagram} (rule : Document tokens diagram) :
    (diagram.constructs.map Construct.start).Sublist (starts tokens) := by
  obtain ⟨opened, isLine, isFinal⟩ := rule
  have inside := starts_of_opened opened rfl
  rw [List.reverse_reverse, starts_append, starts_line isLine, List.append_nil] at inside
  rw [starts_append]
  exact inside.trans (List.sublist_append_left _ _)

end Grammar

namespace Diagram

/-- The tokens that a read source was split into. -/
theorem tokens_of_ofSource {source : String} {diagram : Diagram} (read : ofSource source = .ok diagram) :
    ∃ tokens, Token.scan source = .ok tokens ∧ ofTokens tokens = .ok diagram := by
  cases scanned : Token.scan source with
  | error error =>
    rw [ofSource_of_scan_error scanned] at read
    cases read
  | ok tokens =>
    cases parsed : ofTokens tokens with
    | error error =>
      rw [ofSource_of_parse_error scanned parsed] at read
      cases read
    | ok found =>
      rw [ofSource_of_ofTokens scanned parsed] at read
      exact ⟨tokens, rfl, by rw [parsed, Except.ok.inj read]⟩

theorem constructs_ordered {source : String} {diagram : Diagram} (read : ofSource source = .ok diagram) :
    (diagram.constructs.map Construct.start).Pairwise fun first second => first.offset < second.offset := by
  obtain ⟨tokens, scanned, parsed⟩ := tokens_of_ofSource read
  have document := document_of_ofTokens (Token.stream_of_scan scanned) parsed
  refine List.Pairwise.sublist (starts_of_document document) ?_
  have ordered := (Token.places_of_scanFrom scanned).2
  refine List.pairwise_map.2 (List.Pairwise.imp_of_mem ?_ (ordered.sublist List.filter_sublist))
  intro t u isFirst _ before
  rcases before with isLabel | behind
  · have isStart := (List.mem_filter.1 isFirst).2
    simp [Token.isStart, isLabel] at isStart
  · exact behind

end Diagram
end Flowchart
