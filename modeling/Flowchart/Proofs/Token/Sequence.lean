import Mathlib.Data.List.Basic
import Flowchart.Proofs.Text.Trimming
import Flowchart.Proofs.Token.Places
import Flowchart.Proofs.Token.Stream

/-!
How the tokens of a source follow one another. Between two of them lie blanks and comments only; a token stands where
its place says and repeats what the source says there, and a label leaves out no more than blanks and quotes on its way
to its delimiters.
-/
namespace Flowchart

namespace Position

/-- The place behind the given characters. Each line feed among them starts a new line, and the characters behind the
last one count as columns. -/
def behind (front : List Char) : Position :=
  ⟨1 + front.count '\n', 1 + (front.reverse.takeWhile (· ≠ '\n')).length, front.length⟩

theorem step_behind (front : List Char) (c : Char) : (behind front).step c = behind (front ++ [c]) := by
  by_cases feed : c = '\n'
  · simp [step, behind, feed, Int.add_assoc]
  · simp [step, behind, feed, Int.add_assoc]

theorem advance_behind (front cs : List Char) : (behind front).advance cs = behind (front ++ cs) := by
  induction cs generalizing front with
  | nil => rw [advance_nil, List.append_nil]
  | cons c cs ih => rw [advance_cons, step_behind, ih, List.append_assoc, List.singleton_append]

/-- The places of a text are those behind its prefixes. -/
theorem within_start {cs : List Char} {place : Position} (inside : Within .start cs place) :
    ∃ front, front <+: cs ∧ place = behind front := by
  obtain ⟨front, isPrefix, rfl⟩ := inside
  exact ⟨front, isPrefix, advance_behind [] front⟩

end Position

/-- A character of one part of a text or of the other. -/
theorem append_eq_append_cons {α : Type} {first second front back : List α} {c : α}
    (split : first ++ second = front ++ c :: back) :
    (∃ more, first = front ++ c :: more ∧ back = more ++ second) ∨
      ∃ less, front = first ++ less ∧ second = less ++ c :: back := by
  rcases List.append_eq_append_iff.1 split with ⟨less, isFront, isSecond⟩ | ⟨more, isFirst, isBack⟩
  · exact .inr ⟨less, isFront, isSecond⟩
  · cases more with
    | nil => exact .inr ⟨[], by simpa using isFirst.symm, by simpa using isBack.symm⟩
    | cons d more =>
      rw [List.cons_append, List.cons.injEq] at isBack
      exact .inl ⟨more, by rw [isFirst, isBack.1], isBack.2⟩

namespace Token

open Position

/-- The characters between tokens, comments apart. -/
def IsGap (c : Char) : Prop :=
  c = ' ' ∨ c = '\t' ∨ c = '\r'

/-- A character is part of a comment that starts at the beginning of what leads up to it. -/
def InComment (lead : List Char) (c : Char) (back : List Char) : Prop :=
  ['%', '%'] <+: lead ++ c :: back ∧ '\n' ∉ lead ++ [c]

/-- Nothing but blanks and comments. -/
def Skipped (gap : List Char) : Prop :=
  ∀ front c back, gap = front ++ c :: back →
    IsGap c ∨ ∃ before lead, front = before ++ lead ∧ InComment lead c back

theorem splitBlanks_comment {cs : List Char} (opens : cs.head? = some '%') :
    ∃ more, (splitBlanks true cs).1 = '%' :: more := by
  obtain ⟨rest, rfl⟩ := List.head?_eq_some_iff.1 opens
  exact ⟨_, rfl⟩

/-- What is split off is skipped; the comment that it starts in goes on to its first line feed. -/
theorem skipped_splitBlanks (inComment : Bool) (cs : List Char) {front back : List Char} {c : Char}
    (split : (splitBlanks inComment cs).1 = front ++ c :: back) :
    IsGap c ∨ (∃ before lead, front = before ++ lead ∧ InComment lead c back) ∨
      (inComment = true ∧ '\n' ∉ front ++ [c]) := by
  fun_induction splitBlanks inComment cs generalizing front with
  | case1 => cases front <;> cases split
  | case2 inComment first cs opens skips blanks rest eq =>
    rename_i ih
    rw [eq] at ih
    -- Where a comment opens, its second percent sign is split off as well.
    have starts (isOpening : opens = true) : ∃ more, first :: blanks = '%' :: '%' :: more := by
      obtain ⟨rfl, next⟩ : first = '%' ∧ cs.head? = some '%' := by simpa [opens] using isOpening
      rw [isOpening, Bool.or_true] at eq
      obtain ⟨more, isBlanks⟩ := splitBlanks_comment next
      exact ⟨more, by rw [← isBlanks, eq]⟩
    cases front with
    | nil =>
      obtain ⟨rfl, rfl⟩ := List.cons.inj split
      cases inComment with
      | true => exact .inr (.inr ⟨rfl, by simpa using Ne.symm skips⟩)
      | false =>
        by_cases isOpening : opens = true
        · obtain ⟨more, text⟩ := starts isOpening
          obtain ⟨rfl, -⟩ := List.cons.inj text
          exact .inr (.inl ⟨[], [], rfl, ⟨more, text.symm⟩, by decide⟩)
        · exact .inl (by simpa [IsGap, isOpening, or_assoc] using skips)
    | cons d front =>
      obtain ⟨rfl, behind⟩ := List.cons.inj split
      rcases ih behind with isGap | ⟨before, lead, rfl, comment⟩ | ⟨isOpen, free⟩
      · exact .inl isGap
      · exact .inr (.inl ⟨first :: before, lead, rfl, comment⟩)
      · cases inComment with
        | true =>
          refine .inr (.inr ⟨rfl, ?_⟩)
          rw [List.cons_append]
          exact List.not_mem_cons_of_ne_of_not_mem (Ne.symm skips) free
        | false =>
          obtain ⟨more, text⟩ := starts isOpen
          refine .inr (.inl ⟨[], first :: front, rfl, ⟨more, ?_⟩, ?_⟩)
          · exact (split.symm.trans text).symm
          · obtain ⟨rfl, -⟩ := List.cons.inj text
            rw [List.cons_append]
            exact List.not_mem_cons_of_ne_of_not_mem (by decide) free
  | case3 => cases front <;> cases split

theorem skipped_of_splitBlanks (cs : List Char) : Skipped (splitBlanks false cs).1 := by
  intro front c back split
  simpa using skipped_splitBlanks false cs split

end Token

/-- What a label leaves out on one side: blanks, and a double quote at most. -/
def Margin (cs : List Char) : Prop :=
  (∀ c ∈ cs, Text.isBlank c = true ∨ c = '"') ∧ cs.count '"' ≤ 1

theorem margin_of_blank {cs : List Char} (blank : ∀ c ∈ cs, Text.isBlank c = true) : Margin cs := by
  have none : '"' ∉ cs := fun mem => by simpa [Text.isBlank] using blank _ mem
  refine ⟨fun c mem => .inl (blank c mem), ?_⟩
  rw [List.count_eq_zero.2 none]
  exact Nat.zero_le 1

/-- The quote of a quoted label may stand at either end of a margin. -/
theorem margin_cons {cs quote : List Char} (blank : ∀ c ∈ cs, Text.isBlank c = true)
    (isQuote : quote = [] ∨ quote = ['"']) : Margin (quote ++ cs) := by
  rcases isQuote with rfl | rfl
  · exact margin_of_blank blank
  · have none : '"' ∉ cs := fun mem => by simpa [Text.isBlank] using blank _ mem
    refine ⟨List.forall_mem_cons.2 ⟨.inr rfl, (margin_of_blank blank).1⟩, ?_⟩
    rw [List.singleton_append, List.count_cons_self, List.count_eq_zero.2 none]

theorem margin_concat {cs quote : List Char} (blank : ∀ c ∈ cs, Text.isBlank c = true)
    (isQuote : quote = [] ∨ quote = ['"']) : Margin (cs ++ quote) := by
  have reversed := margin_cons blank isQuote
  refine ⟨fun c mem => reversed.1 c (List.mem_append.2 (List.mem_append.1 mem).symm), ?_⟩
  rw [List.count_append, Nat.add_comm, ← List.count_append]
  exact reversed.2

theorem unquote_split (cs : List Char) : ∃ left right, cs = left ++ unquote cs ++ right ∧
    (left = [] ∨ left = ['"']) ∧ (right = [] ∨ right = ['"']) := by
  unfold unquote
  split
  · rename_i rest
    split
    · rename_i closes
      refine ⟨['"'], ['"'], ?_, .inr rfl, .inr rfl⟩
      rw [List.append_assoc, List.dropLast_append_getLast? _ closes]
      rfl
    · exact ⟨[], [], by simp, .inl rfl, .inl rfl⟩
  · exact ⟨[], [], by simp, .inl rfl, .inl rfl⟩

namespace Token

open Position

/-- A label between its delimiters, the first of which stands behind the given characters. The delimiters have just the
given characters between them, and the label starts at its place or behind blanks that follow there. -/
structure Enclosed (front inside : List Char) (opener label closer : Token) : Prop where
  delimiters : (opener.kind, closer.kind) ∈
    [(Kind.openBracket, Kind.closeBracket), (Kind.pipe, Kind.pipe), (Kind.linkStart, Kind.arrow)]
  kind : label.kind = .label
  openerAt : opener.position = .behind front
  closerAt : closer.position = .behind (front ++ opener.text.toList ++ inside)
  text : ∃ lead left right, inside = left ++ label.text.toList ++ right ∧ Margin left ∧ Margin right ∧
    lead <+: left ∧ label.position = .behind (front ++ opener.text.toList ++ lead)

/-- The tokens of what follows the given characters of a source, with nothing but blanks and comments between them. -/
inductive Laid (source : List Char) : List Char → List Token → Prop where
  | done {front gap : List Char} : source = front ++ gap → Skipped gap →
      Laid source front [⟨.endOfInput, "", .behind source⟩]
  | mark {front gap back : List Char} {token : Token} {more : List Token} :
      source = front ++ gap ++ token.text.toList ++ back → Skipped gap → token.kind ≠ .label →
      token.kind ≠ .endOfInput → token.position = .behind (front ++ gap) →
      Laid source (front ++ gap ++ token.text.toList) more → Laid source front (token :: more)
  | label {front gap inside back : List Char} {opener label closer : Token} {more : List Token} :
      source = front ++ gap ++ opener.text.toList ++ inside ++ closer.text.toList ++ back → Skipped gap →
      Enclosed (front ++ gap) inside opener label closer →
      Laid source (front ++ gap ++ opener.text.toList ++ inside ++ closer.text.toList) more →
      Laid source front (opener :: label :: closer :: more)

end Token

namespace Lexeme

/-- The characters next to a label in brackets are spaces and tabs. -/
def Neat : Lexeme → Prop
  | bareLabel _ lead _ => ∀ c ∈ lead, isSpace c = true
  | quotedLabel _ lead _ trail => (∀ c ∈ lead, isSpace c = true) ∧ ∀ c ∈ trail, isSpace c = true
  | _ => True

variable {cs rest : List Char} {lexeme : Lexeme} {shape : Shape}

theorem neat_of_readLabel (h : readLabel shape cs = .ok (lexeme, rest)) : lexeme.Neat := by
  have lead : ∀ c ∈ cs.takeWhile isSpace, isSpace c = true := fun c mem => List.mem_takeWhile_imp mem
  simp only [readLabel] at h
  split at h
  · simp only [readQuoted] at h
    split at h
    · cases h
    · split at h
      · cases h
        exact ⟨lead, fun c mem => List.mem_takeWhile_imp mem⟩
      · split at h <;> cases h
  · simp only [readBare] at h
    split at h
    · cases h
      exact lead
    · cases h

theorem neat_of_read {c : Char} (h : read c cs = .ok (lexeme, rest)) : lexeme.Neat := by
  simp only [read] at h
  split at h
  · cases h
    exact trivial
  · split at h
    · simp only [readPipeLabel] at h
      split at h <;> cases h
      exact trivial
    · split at h
      · exact neat_of_readLabel h
      · split at h
        · rename_i arrow
          cases h
          obtain ⟨⟨style, head⟩, -, isArrow⟩ := List.exists_of_findSome?_eq_some arrow
          obtain ⟨rest, -, eq⟩ := Option.map_eq_some_iff.1 isArrow
          cases eq
          exact trivial
        · split at h
          · simp only [readInlineLabel] at h
            split at h <;> cases h
            exact trivial
          · split at h <;> cases h
            exact trivial

end Lexeme

namespace Token

open Position

variable {source front gap inside rest : List Char} {lexeme : Lexeme} {tokens more : List Token}

theorem isBlank_of_isSpace {c : Char} (isSpace : Lexeme.isSpace c = true) : Text.isBlank c = true := by
  simp only [Lexeme.isSpace, Bool.or_eq_true, decide_eq_true_eq] at isSpace
  rcases isSpace with rfl | rfl <;> rfl

/-- A label is laid with its delimiters and the characters that it leaves out on its way to them. -/
theorem laid_enclosed (opener closer : Kind) (opening lead closing : List Char) {left text right : List Char}
    (delimiters : (opener, closer) ∈ [(.openBracket, .closeBracket), (.pipe, .pipe), (.linkStart, .arrow)])
    (isInside : inside = left ++ text ++ right) (before : Margin left) (behind : Margin right) (isLead : lead <+: left)
    (split : source = front ++ gap ++ (opening ++ inside ++ closing) ++ rest) (skipped : Skipped gap)
    (laid : Laid source (front ++ gap ++ (opening ++ inside ++ closing)) more) :
    Laid source front (⟨opener, String.ofList opening, .behind (front ++ gap)⟩ ::
      ⟨.label, String.ofList text, .behind (front ++ gap ++ opening ++ lead)⟩ ::
      ⟨closer, String.ofList closing, .behind (front ++ gap ++ opening ++ inside)⟩ :: more) := by
  have whole : source = front ++ gap ++ (String.ofList opening).toList ++ inside ++
      (String.ofList closing).toList ++ rest := by simpa using split
  refine .label whole skipped ⟨delimiters, rfl, rfl, ?_, ?_⟩ ?_
  · simp
  · exact ⟨lead, left, right, by simpa using isInside, before, behind, isLead, by simp⟩
  · simpa using laid

/-- A lexeme is laid as a mark of its own or as a label with its delimiters. -/
theorem laid_lexeme (neat : lexeme.Neat) (split : source = front ++ gap ++ lexeme.chars ++ rest)
    (skipped : Skipped gap) (laid : Laid source (front ++ gap ++ lexeme.chars) more) :
    Laid source front (lexeme.tokens (.behind (front ++ gap)) ++ more) := by
  have mark (kind : Kind) (text : List Char) (isText : lexeme.chars = text) (noLabel : kind ≠ .label)
      (noEnd : kind ≠ .endOfInput) :
      Laid source front (⟨kind, String.ofList text, .behind (front ++ gap)⟩ :: more) := by
    have whole : source = front ++ gap ++ (String.ofList text).toList ++ rest := by simpa [isText] using split
    exact .mark whole skipped noLabel noEnd rfl (by simpa [isText] using laid)
  cases lexeme with
  | terminator c => exact mark .newline [c] rfl nofun nofun
  | word cs =>
    have kinds := kindOfWord_cases (String.ofList cs)
    exact mark _ cs rfl (by grind) (by grind)
  | arrow style head => exact mark .arrow (style.arrow head) rfl nofun nofun
  | inlineLabel style inner head =>
    obtain ⟨left, right, isInner, blankLeft, blankRight⟩ := Text.trimChars_split inner
    have whole := laid_enclosed .linkStart .arrow style.opener [] (style.closer head) (by simp) isInner
      (margin_of_blank blankLeft) (margin_of_blank blankRight) List.nil_prefix split skipped laid
    simpa [Lexeme.tokens, advance_behind] using whole
  | pipeLabel inner =>
    obtain ⟨left, right, isInner, blankLeft, blankRight⟩ := Text.trimChars_split inner
    obtain ⟨opening, closing, isTrimmed, isOpening, isClosing⟩ := unquote_split (Text.trimChars inner)
    have isInside : inner = (left ++ opening) ++ unquote (Text.trimChars inner) ++ (closing ++ right) := by
      rw [isTrimmed] at isInner
      simpa using isInner
    have whole := laid_enclosed .pipe .pipe ['|'] [] ['|'] (by simp) isInside (margin_concat blankLeft isOpening)
      (margin_cons blankRight isClosing) List.nil_prefix split skipped laid
    simpa [Lexeme.tokens, step_behind, advance_behind] using whole
  | bareLabel shape lead inner =>
    obtain ⟨left, right, isInner, blankLeft, blankRight⟩ := Text.trimChars_split inner
    have blankLead : ∀ c ∈ lead, Text.isBlank c = true := fun c mem => isBlank_of_isSpace (neat c mem)
    have isInside : lead ++ inner = (lead ++ left) ++ Text.trimChars inner ++ right := by
      simpa using isInner
    have whole := laid_enclosed .openBracket .closeBracket shape.opener lead shape.closer (by simp) isInside
      (margin_of_blank (List.forall_mem_append.2 ⟨blankLead, blankLeft⟩)) (margin_of_blank blankRight)
      (List.prefix_append lead left) (by simpa [Lexeme.chars] using split) skipped
      (by simpa [Lexeme.chars] using laid)
    simpa [Lexeme.tokens, advance_behind] using whole
  | quotedLabel shape lead inner trail =>
    have blankLead : ∀ c ∈ lead, Text.isBlank c = true := fun c mem => isBlank_of_isSpace (neat.1 c mem)
    have blankTrail : ∀ c ∈ trail, Text.isBlank c = true := fun c mem => isBlank_of_isSpace (neat.2 c mem)
    have isInside : lead ++ '"' :: inner ++ '"' :: trail = (lead ++ ['"']) ++ inner ++ (['"'] ++ trail) := by simp
    have whole := laid_enclosed .openBracket .closeBracket shape.opener lead shape.closer (by simp) isInside
      (margin_concat blankLead (.inr rfl)) (margin_cons blankTrail (.inr rfl)) (List.prefix_append lead _)
      (by simpa [Lexeme.chars] using split) skipped (by simpa [Lexeme.chars] using laid)
    simpa [Lexeme.tokens, step_behind, advance_behind] using whole

theorem laid_of_scanFrom {at_ : Position} {cs : List Char} (isAt : at_ = .behind front)
    (scanned : scanFrom at_ cs = .ok tokens) : Laid (front ++ cs) front tokens := by
  fun_induction scanFrom at_ cs generalizing front tokens with
  | case1 at_ cs blanks =>
    rename_i start inside
    cases scanned
    have whole := splitBlanks_append false cs
    rw [show (splitBlanks false cs).2 = [] from inside, List.append_nil] at whole
    have isEnd : start = .behind (front ++ cs) := by
      show at_.advance (splitBlanks false cs).1 = _
      rw [whole, isAt, advance_behind]
    have skipped : Skipped cs := whole ▸ skipped_of_splitBlanks cs
    rw [isEnd]
    exact .done rfl skipped
  | case2 => cases scanned
  | case3 at_ cs split start c rest inside lexeme behind =>
    rename_i read ih
    obtain ⟨text, -⟩ := Lexeme.eq_append_of_read read
    have whole := splitBlanks_append false cs
    rw [show (splitBlanks false cs).2 = c :: rest from inside, text] at whole
    have isStart : start = .behind (front ++ (splitBlanks false cs).1) := by
      show at_.advance (splitBlanks false cs).1 = _
      rw [isAt, advance_behind]
    have source : front ++ cs = front ++ (splitBlanks false cs).1 ++ lexeme.chars ++ behind := by
      rw [List.append_assoc, List.append_assoc, whole]
    cases after : scanFrom (start.advance lexeme.chars) behind with
    | error e => simp [after, bind, Except.bind] at scanned
    | ok us =>
      simp only [after, bind, Except.bind, pure, Except.pure, Except.ok.injEq] at scanned
      subst scanned
      have more := ih (by rw [isStart, advance_behind]) after
      rw [← source] at more
      rw [isStart]
      exact laid_lexeme (Lexeme.neat_of_read read) source (skipped_of_splitBlanks cs) more

end Token
end Flowchart
