import Flowchart.Proofs.Diagram.Outline
import Flowchart.Proofs.Diagram.SourceOrder
import Flowchart.Proofs.Text.Trimming

/-!
Where the texts of a diagram come from. A token has no character that its source does not have, an identifier is made
of the characters of words, and whatever stands in a diagram is the text of one of its tokens.
-/
namespace Flowchart

theorem unquote_subset (cs : List Char) : unquote cs ⊆ cs := by
  unfold unquote
  split
  · split
    · exact List.subset_cons_of_subset _ (List.dropLast_subset _)
    · exact List.Subset.refl _
  · exact List.Subset.refl _

namespace Lexeme

theorem subset_of_tokens {lexeme : Lexeme} {at_ : Position} {t : Token} (mem : t ∈ lexeme.tokens at_) :
    t.text.toList ⊆ lexeme.chars := by
  intro c
  cases lexeme with
  | terminator | word | arrow => simp_all [tokens, chars]
  | inlineLabel style inner head =>
    have label := Text.trimChars_subset inner (a := c)
    simp only [tokens, List.mem_cons, List.not_mem_nil, or_false] at mem
    rcases mem with rfl | rfl | rfl <;> simp +contextual [chars, label]
  | pipeLabel inner =>
    have label := List.Subset.trans (unquote_subset _) (Text.trimChars_subset inner) (a := c)
    simp only [tokens, List.mem_cons, List.not_mem_nil, or_false] at mem
    rcases mem with rfl | rfl | rfl <;> simp +contextual [chars, label]
  | bareLabel shape lead inner =>
    have label := Text.trimChars_subset inner (a := c)
    simp only [tokens, List.mem_cons, List.not_mem_nil, or_false] at mem
    rcases mem with rfl | rfl | rfl <;> simp +contextual [chars, label]
  | quotedLabel shape lead inner trail =>
    simp only [tokens, List.mem_cons, List.not_mem_nil, or_false] at mem
    rcases mem with rfl | rfl | rfl <;> simp +contextual [chars]

/-- A word goes as far as its characters do. -/
theorem eq_of_read_word {c : Char} {cs rest word : List Char} (h : read c cs = .ok (.word word, rest)) :
    word = (c :: cs).takeWhile isWordChar ∧ rest = (c :: cs).dropWhile isWordChar := by
  unfold read at h
  split at h
  · cases h
  split at h
  · unfold readPipeLabel at h
    split at h <;> cases h
  split at h
  · simp only [readLabel, readQuoted, readBare] at h
    repeat' split at h
    all_goals cases h
  split at h
  · rename_i isArrow
    obtain ⟨arrow, -, isArrow⟩ := List.exists_of_findSome?_eq_some isArrow
    cases h
    simp at isArrow
  split at h
  · unfold readInlineLabel at h
    split at h <;> cases h
  split at h
  · cases h
    exact ⟨rfl, rfl⟩
  · cases h

theorem all_isWordChar_of_read {c : Char} {cs rest word : List Char} (h : read c cs = .ok (.word word, rest)) :
    word.all isWordChar = true := by
  rw [(eq_of_read_word h).1]
  exact List.all_takeWhile

theorem kind_ne_identifier {lexeme : Lexeme} (noWord : ∀ cs, lexeme ≠ .word cs) (at_ : Position) :
    ∀ t ∈ lexeme.tokens at_, t.kind ≠ .identifier := by
  cases lexeme with
  | word cs => exact absurd rfl (noWord cs)
  | _ => simp [tokens]

end Lexeme

/-- What a token may be used for: every token gives a text, and an identifier also an id. -/
def Token.Supplies (isId isText : String → Prop) (t : Token) : Prop :=
  isText t.text ∧ (t.kind = .identifier → isId t.text)

/-- Ids are words. -/
def IsWord (id : String) : Prop :=
  id.toList.all Lexeme.isWordChar = true

theorem Token.supplies_of_scanFrom {at_ : Position} {cs : List Char} {ts : List Token}
    (h : scanFrom at_ cs = .ok ts) : ∀ t ∈ ts, t.Supplies IsWord fun text => text.toList ⊆ cs := by
  fun_induction scanFrom at_ cs generalizing ts with
  | case1 =>
    cases h
    simp [Supplies]
  | case2 => cases h
  | case3 at_ cs split start c rest inside lexeme behind read =>
    rename_i ih
    obtain ⟨text, -⟩ := Lexeme.eq_append_of_read read
    have whole := splitBlanks_append false cs
    rw [show (splitBlanks false cs).2 = c :: rest from inside, text] at whole
    cases more : scanFrom (start.advance lexeme.chars) behind with
    | error e => simp [more, bind, Except.bind] at h
    | ok us =>
      simp only [more, bind, Except.bind, pure, Except.pure, Except.ok.injEq] at h
      subst h
      intro t mem
      rw [← whole]
      rcases List.mem_append.1 mem with here | further
      · refine ⟨List.Subset.trans (Lexeme.subset_of_tokens here) (by simp), fun isId => ?_⟩
        cases lexeme with
        | word cs =>
          cases List.mem_singleton.1 here
          simpa [IsWord] using Lexeme.all_isWordChar_of_read read
        | _ => exact absurd isId (Lexeme.kind_ne_identifier (by simp) start t here)
      · obtain ⟨isText, isId⟩ := ih more t further
        exact ⟨List.Subset.trans isText (by simp), isId⟩

variable {isId isText : String → Prop}

namespace NodeRef

/-- The id and the label may be used as such. -/
def Supplied (isId isText : String → Prop) (ref : NodeRef) : Prop :=
  isId ref.id ∧ isText ref.id ∧ ∀ label ∈ ref.label, isText label

end NodeRef

/-- The ids, labels and titles of a statement itself, not those of the statements inside it, may be used as such. -/
structure Statement.Supplied (isId isText : String → Prop) (statement : Statement) : Prop where
  refs : ∀ ref ∈ statement.refs, ref.Supplied isId isText
  links : ∀ link ∈ statement.links, ∀ label ∈ link.label, isText label
  heads : ∀ head ∈ statement.heads, isId head.1 ∧ isText head.1 ∧ ∀ title ∈ head.2, isText title

theorem Statement.outlineOfList_append (around : Option String) (front back : List Statement) :
    outlineOfList around (front ++ back) = outlineOfList around front ++ outlineOfList around back := by
  induction front with
  | nil => rfl
  | cons statement front ih => rw [List.cons_append, outlineOfList, ih, outlineOfList, List.append_assoc]

namespace Grammar

open Feed (Head Block)

variable {ts : List Token}

theorem supplied_of_mention {ref : NodeRef} (rule : Mention ts ref) (supply : ∀ t ∈ ts, t.Supplies isId isText) :
    ref.Supplied isId isText := by
  cases rule with
  | @bare id isIdentifier =>
    obtain ⟨text, word⟩ := supply id (by simp)
    exact ⟨word isIdentifier, text, by simp⟩
  | @declared id opener label closer shape isIdentifier =>
    obtain ⟨text, word⟩ := supply id (by simp)
    refine ⟨word isIdentifier, text, ?_⟩
    rintro _ ⟨⟩
    exact (supply label (by simp)).1

theorem supplied_of_joint {link : Link} (rule : Joint ts link) (supply : ∀ t ∈ ts, t.Supplies isId isText) :
    ∀ label ∈ link.label, isText label := by
  cases rule with
  | plain => simp
  | @barred arrow bar label =>
    rintro _ ⟨⟩
    exact (supply label (by simp)).1
  | @inner opener label =>
    rintro _ ⟨⟩
    exact (supply label (by simp)).1

theorem supplied_of_joints {more : List (Link × NodeRef)} (rule : Joints ts more)
    (supply : ∀ t ∈ ts, t.Supplies isId isText) :
    ∀ step ∈ more, (∀ label ∈ step.1.label, isText label) ∧ step.2.Supplied isId isText := by
  induction rule with
  | nil => exact List.forall_mem_nil _
  | cons joint mention _ ih =>
    simp only [List.forall_mem_append] at supply
    refine List.forall_mem_cons.2 ⟨⟨?_, ?_⟩, ih supply.2.2⟩
    · exact supplied_of_joint joint supply.1
    · exact supplied_of_mention mention supply.2.1

theorem supplied_of_chain {statement : Statement} (rule : Chain ts statement)
    (supply : ∀ t ∈ ts, t.Supplies isId isText) (around : Option String) :
    ∀ entry ∈ statement.outline around, entry.2.Supplied isId isText := by
  cases rule with
  | node mention =>
    have ref := supplied_of_mention mention supply
    rw [Statement.outline, List.forall_mem_singleton]
    exact ⟨by simpa [Statement.refs] using ref, List.forall_mem_nil _, List.forall_mem_nil _⟩
  | edges mention joints _ =>
    obtain ⟨first, further⟩ := List.forall_mem_append.1 supply
    have ref := supplied_of_mention mention first
    have steps := supplied_of_joints joints further
    rw [Statement.outline, List.forall_mem_singleton]
    refine ⟨?_, ?_, List.forall_mem_nil _⟩
    · exact List.forall_mem_cons.2 ⟨ref, List.forall_mem_map.2 fun step mem => (steps step mem).2⟩
    · exact List.forall_mem_map.2 fun step mem => (steps step mem).1

theorem supplied_of_header {head : Head} (rule : Header ts head) (supply : ∀ t ∈ ts, t.Supplies isId isText) :
    isId head.id ∧ isText head.id ∧ ∀ title ∈ head.title, isText title := by
  cases rule with
  | @untitled opener id _ isIdentifier =>
    obtain ⟨text, word⟩ := supply id (by simp)
    exact ⟨word isIdentifier, text, by simp⟩
  | @titled opener id left title right _ isIdentifier =>
    obtain ⟨text, word⟩ := supply id (by simp)
    refine ⟨word isIdentifier, text, fun shown isShown => ?_⟩
    obtain ⟨-, same⟩ := Option.ite_none_left_eq_some.1 isShown
    exact Option.some.inj same ▸ (supply title (by simp)).1

theorem supplied_of_rule (isId isText : String → Prop) :
    (∀ ts statement, Sentence ts statement → (∀ t ∈ ts, t.Supplies isId isText) → ∀ around,
      ∀ entry ∈ statement.outline around, entry.2.Supplied isId isText) ∧
    ∀ ts body, Lines ts body → (∀ t ∈ ts, t.Supplies isId isText) → ∀ around,
      ∀ entry ∈ Statement.outlineOfList around body, entry.2.Supplied isId isText := by
  refine sentence_lines_induction supplied_of_chain ?_ ?_ ?_ ?_
  · intro hs ts line close head body header _ inner _ supply around
    simp only [List.forall_mem_append, List.forall_mem_cons] at supply
    have block := supplied_of_header header supply.1
    rw [Statement.outline, List.forall_mem_cons]
    refine ⟨⟨List.forall_mem_nil _, List.forall_mem_nil _, ?_⟩, inner supply.2.2.1 _⟩
    exact List.forall_mem_singleton.2 block
  · intro _ _
    exact List.forall_mem_nil _
  · intro ts line body front _ supply around
    exact front (List.forall_mem_append.1 supply).1 around
  · intro ts us line body statement front last _ supply around
    simp only [List.forall_mem_append] at supply
    rw [Statement.outlineOfList_append]
    refine List.forall_mem_append.2 ⟨front supply.1 around, ?_⟩
    simpa [Statement.outlineOfList] using last supply.2.1 around

/-- The line end at the last place may be the end of the input, which is not among the tokens. -/
theorem supplied_of_opened {direction : Direction} {span : Span} {blocks : List Block} {done : List Statement}
    (opened : Opened direction span ts blocks done) (outside : blocks = [])
    (supply : ∀ t ∈ ts.dropLast, t.Supplies isId isText) :
    ∀ entry ∈ Statement.outlineOfList none done.reverse, entry.2.Supplied isId isText := by
  induction opened with
  | declared => exact List.forall_mem_nil _
  | blank _ _ ih =>
    rw [List.dropLast_concat] at supply
    exact ih outside fun t mem => supply t (List.dropLast_subset _ mem)
  | sentence _ sentence _ ih =>
    rw [← List.append_assoc, List.dropLast_concat, List.forall_mem_append] at supply
    have front := ih outside fun t mem => supply.1 t (List.dropLast_subset _ mem)
    have last := (supplied_of_rule isId isText).1 _ _ sentence supply.2 none
    rw [List.reverse_cons, Statement.outlineOfList_append]
    refine List.forall_mem_append.2 ⟨front, ?_⟩
    simpa [Statement.outlineOfList] using last
  | header => cases outside

theorem supplied_of_document {tokens : List Token} {diagram : Diagram} (rule : Document tokens diagram)
    (supply : ∀ t ∈ tokens, t.Supplies isId isText) :
    ∀ entry ∈ diagram.outline, entry.2.Supplied isId isText := by
  obtain ⟨opened, -, -⟩ := rule
  have inside := (List.forall_mem_append.1 supply).1
  have supplied := supplied_of_opened opened rfl (by rwa [List.dropLast_concat])
  rwa [List.reverse_reverse] at supplied

end Grammar

/-- Ids of a diagram are words, and ids, labels and titles have no character that the source does not have. -/
theorem Diagram.supplied_of_ofSource {source : String} {diagram : Diagram} (read : ofSource source = .ok diagram) :
    ∀ entry ∈ diagram.outline, entry.2.Supplied IsWord fun text => text.toList ⊆ source.toList := by
  obtain ⟨tokens, scanned, parsed⟩ := tokens_of_ofSource read
  have document := document_of_ofTokens (Token.stream_of_scan scanned) parsed
  exact Grammar.supplied_of_document document (Token.supplies_of_scanFrom scanned)

end Flowchart
