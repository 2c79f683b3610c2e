import Flowchart.Token.Lexer

/-!
The places of tokens and of scanning errors. Each one is reached from the start of the source by passing
over characters that stand there, and two tokens stand at different places unless the first is a label.
-/
namespace Flowchart

namespace Position

theorem offset_step (at_ : Position) (c : Char) : (at_.step c).offset = at_.offset + 1 := by
  rw [step]
  split <;> rfl

theorem offset_advance (at_ : Position) (cs : List Char) :
    (at_.advance cs).offset = at_.offset + cs.length := by
  induction cs generalizing at_ with
  | nil => simp
  | cons c cs ih =>
    rw [advance_cons, ih, offset_step, List.length_cons]
    omega

/-- Characters that start no new line count as columns. -/
theorem advance_of_not_mem (at_ : Position) {cs : List Char} (oneLine : '\n' ∉ cs) :
    at_.advance cs = ⟨at_.line, at_.column + cs.length, at_.offset + cs.length⟩ := by
  induction cs generalizing at_ with
  | nil => simp
  | cons c cs ih =>
    obtain ⟨notFeed, oneLine⟩ := List.ne_and_not_mem_of_not_mem_cons oneLine
    rw [advance_cons, ih _ oneLine, step, if_neg notFeed.symm, List.length_cons]
    simp only [mk.injEq, true_and]
    omega

/-- The place lies in the text or at its end. -/
def Within (at_ : Position) (cs : List Char) (place : Position) : Prop :=
  ∃ front, front <+: cs ∧ place = at_.advance front

variable {at_ place : Position} {cs ds : List Char}

theorem within_append_left (inside : Within (at_.advance cs) ds place) : Within at_ (cs ++ ds) place := by
  obtain ⟨front, isPrefix, rfl⟩ := inside
  exact ⟨cs ++ front, (List.prefix_append_right_inj cs).2 isPrefix, (advance_append ..).symm⟩

theorem within_append_right (inside : Within at_ cs place) : Within at_ (cs ++ ds) place := by
  obtain ⟨front, isPrefix, rfl⟩ := inside
  exact ⟨front, isPrefix.trans (List.prefix_append cs ds), rfl⟩

theorem offset_of_within (inside : Within at_ cs place) :
    at_.offset ≤ place.offset ∧ place.offset ≤ at_.offset + cs.length := by
  obtain ⟨front, isPrefix, rfl⟩ := inside
  have size := isPrefix.length_le
  rw [offset_advance]
  omega

end Position

namespace Lexeme

open Position

variable {cs before : List Char} {fault : LexFault} {shape : Shape}

theorem prefix_of_readQuoted_error {lead : List Char} (h : readQuoted shape lead cs = .error (fault, before)) :
    before <+: shape.opener ++ lead ++ '"' :: cs := by
  simp only [readQuoted] at h
  split at h
  · cases h
    exact List.prefix_append _ _
  · rename_i inner _ behind found
    obtain ⟨closing, rfl, closes⟩ := Text.eq_append_of_scanTo? found
    obtain ⟨rest, stripped, eq⟩ := Option.map_eq_some_iff.1 closes
    cases eq
    have quote := Text.stripPrefix?_eq_some_iff.1 stripped
    have spaces := @List.takeWhile_append_dropWhile _ isSpace behind
    split at h
    · cases h
    · split at h
      · cases h
        exact List.nil_prefix
      · cases h
        refine ⟨behind.dropWhile isSpace, ?_⟩
        rw [quote]
        simp only [List.append_assoc, List.cons_append, List.nil_append, spaces]

theorem prefix_of_readLabel_error (h : readLabel shape cs = .error (fault, before)) :
    before <+: shape.opener ++ cs := by
  have spaces := @List.takeWhile_append_dropWhile _ isSpace cs
  simp only [readLabel] at h
  split at h
  · rename_i rest isQuote
    have isPrefix := prefix_of_readQuoted_error h
    rwa [List.append_assoc, ← isQuote, spaces] at isPrefix
  · simp only [readBare] at h
    split at h
    · cases h
    · cases h
      exact List.nil_prefix

/-- What is reported of a failed reading was read. -/
theorem prefix_of_read_error {c : Char} (h : read c cs = .error (fault, before)) : before <+: c :: cs := by
  simp only [read] at h
  split at h
  · cases h
  · split at h
    · simp only [readPipeLabel] at h
      split at h
      · cases h
      · cases h
        exact List.nil_prefix
    · split at h
      · rename_i shape rest opens
        rw [eq_append_of_readBracket? opens]
        exact prefix_of_readLabel_error h
      · split at h
        · cases h
        · split at h
          · simp only [readInlineLabel] at h
            split at h
            · cases h
            · cases h
              exact List.nil_prefix
          · split at h
            · cases h
            · cases h
              exact List.nil_prefix

theorem closer_ne_nil (style : EdgeStyle) (head : Bool) : style.closer head ≠ [] := by
  cases style <;> cases head <;> simp [EdgeStyle.closer]

theorem shape_closer_ne_nil (shape : Shape) : shape.closer ≠ [] := by
  cases shape <;> simp [Shape.closer]

/-- A token starts in the characters of its lexeme, and not behind them. -/
theorem places_of_tokens (lexeme : Lexeme) (at_ : Position) :
    ∀ t ∈ lexeme.tokens at_, ∃ front back, lexeme.chars = front ++ back ∧
      (lexeme.chars ≠ [] → back ≠ []) ∧ t.position = at_.advance front := by
  have first (lexeme : Lexeme) : ∃ front back, lexeme.chars = front ++ back ∧
      (lexeme.chars ≠ [] → back ≠ []) ∧ at_ = at_.advance front :=
    ⟨[], lexeme.chars, rfl, id, rfl⟩
  intro t mem
  cases lexeme with
  | terminator c =>
    cases List.mem_singleton.1 mem
    exact first _
  | word cs =>
    cases List.mem_singleton.1 mem
    exact first _
  | arrow style head =>
    cases List.mem_singleton.1 mem
    exact first _
  | inlineLabel style inner head =>
    simp only [tokens, List.mem_cons, List.not_mem_nil, or_false] at mem
    rcases mem with rfl | rfl | rfl
    · exact first _
    · exact ⟨style.opener, inner ++ style.closer head, by simp [chars], by simp [closer_ne_nil], rfl⟩
    · exact ⟨style.opener ++ inner, style.closer head, rfl, by simp [closer_ne_nil],
        (advance_append ..).symm⟩
  | pipeLabel inner =>
    simp only [tokens, List.mem_cons, List.not_mem_nil, or_false] at mem
    rcases mem with rfl | rfl | rfl
    · exact first _
    · exact ⟨['|'], inner ++ ['|'], rfl, by simp, rfl⟩
    · exact ⟨'|' :: inner, ['|'], rfl, by simp, rfl⟩
  | bareLabel shape lead inner =>
    simp only [tokens, List.mem_cons, List.not_mem_nil, or_false] at mem
    rcases mem with rfl | rfl | rfl
    · exact first _
    · exact ⟨shape.opener ++ lead, inner ++ shape.closer, by simp [chars], by simp [shape_closer_ne_nil], rfl⟩
    · exact ⟨shape.opener ++ lead ++ inner, shape.closer, rfl, by simp [shape_closer_ne_nil],
        (advance_append ..).symm⟩
  | quotedLabel shape lead inner trail =>
    simp only [tokens, List.mem_cons, List.not_mem_nil, or_false] at mem
    rcases mem with rfl | rfl | rfl
    · exact first _
    · exact ⟨shape.opener ++ lead, '"' :: inner ++ '"' :: trail ++ shape.closer, by simp [chars], by simp, rfl⟩
    · exact ⟨shape.opener ++ lead ++ ('"' :: inner ++ '"' :: trail), shape.closer, by simp [chars],
        by simp [shape_closer_ne_nil], (advance_append ..).symm⟩

end Lexeme

namespace Token

open Position

/-- The first token does not stand behind the second, and only a label may stand at its place. -/
def Before (t u : Token) : Prop :=
  t.kind = .label ∨ t.position.offset < u.position.offset

theorem tokens_ordered (lexeme : Lexeme) (at_ : Position) : (lexeme.tokens at_).Pairwise Before := by
  have opener (place : Position) {cs : List Char} (some : cs ≠ []) (behind : List Char) :
      place.offset < ((place.advance cs).advance behind).offset := by
    have := List.length_pos_iff.2 some
    rw [offset_advance, offset_advance]
    omega
  cases lexeme with
  | terminator c => exact List.pairwise_singleton _ _
  | word cs => exact List.pairwise_singleton _ _
  | arrow style head => exact List.pairwise_singleton _ _
  | inlineLabel style inner head =>
    have label := opener at_ style.opener_ne_nil []
    have arrow := opener at_ style.opener_ne_nil inner
    simp_all [Lexeme.tokens, Before]
  | pipeLabel inner =>
    have label := opener at_ (List.cons_ne_nil '|' []) []
    have close := opener at_ (List.cons_ne_nil '|' []) inner
    simp_all [Lexeme.tokens, Before]
  | bareLabel shape lead inner =>
    have some : shape.opener ++ lead ≠ [] := by simp [shape.opener_ne_nil]
    have label := opener at_ some []
    have close := opener at_ some inner
    simp_all [Lexeme.tokens, Before]
  | quotedLabel shape lead inner trail =>
    have some : shape.opener ++ lead ≠ [] := by simp [shape.opener_ne_nil]
    have label := opener at_ some []
    have close := opener at_ some ('"' :: inner ++ '"' :: trail)
    simp_all [Lexeme.tokens, Before]

variable {at_ : Position} {cs : List Char} {ts : List Token}

/-- Each token starts in the text, and the tokens stand in the order of the text. -/
theorem places_of_scanFrom (h : scanFrom at_ cs = .ok ts) :
    (∀ t ∈ ts, Within at_ cs t.position) ∧ ts.Pairwise Before := by
  fun_induction scanFrom at_ cs generalizing ts with
  | case1 at_ cs blanks start =>
    rename_i inside
    cases h
    have whole := splitBlanks_append false cs
    rw [show (splitBlanks false cs).2 = [] from inside, List.append_nil] at whole
    refine ⟨?_, List.pairwise_singleton _ _⟩
    intro t mem
    cases List.mem_singleton.1 mem
    exact ⟨cs, List.prefix_rfl, by rw [← whole]⟩
  | case2 => cases h
  | case3 at_ cs split start c rest inside lexeme behind read =>
    rename_i ih
    obtain ⟨text, some⟩ := Lexeme.eq_append_of_read read
    have whole := splitBlanks_append false cs
    rw [show (splitBlanks false cs).2 = c :: rest from inside, text] at whole
    cases more : scanFrom (start.advance lexeme.chars) behind with
    | error e => simp [more, bind, Except.bind] at h
    | ok us =>
      simp only [more, bind, Except.bind, pure, Except.pure, Except.ok.injEq] at h
      subst h
      obtain ⟨inBehind, ordered⟩ := ih more
      rw [← whole]
      have here : ∀ t ∈ lexeme.tokens start, ∃ front back, lexeme.chars = front ++ back ∧ back ≠ [] ∧
          t.position = start.advance front := by
        intro t mem
        obtain ⟨front, back, split, notEnd, place⟩ := lexeme.places_of_tokens start t mem
        exact ⟨front, back, split, notEnd some, place⟩
      constructor
      · intro t mem
        rcases List.mem_append.1 mem with mem | mem
        · obtain ⟨front, back, split, -, place⟩ := here t mem
          refine within_append_left (within_append_right ⟨front, ?_, place⟩)
          exact ⟨back, split.symm⟩
        · exact within_append_left (within_append_left (inBehind t mem))
      · refine List.pairwise_append.2 ⟨tokens_ordered lexeme start, ordered, ?_⟩
        intro t isHere u isBehind
        obtain ⟨front, back, split, notEnd, place⟩ := here t isHere
        have bound := (offset_of_within (inBehind u isBehind)).1
        have size := congrArg List.length split
        have := List.length_pos_iff.2 notEnd
        rw [offset_advance] at bound
        rw [List.length_append] at size
        right
        rw [place, offset_advance]
        omega

/-- A scanning error is reported in the text. -/
theorem place_of_scanFrom_error {error : LexError} (h : scanFrom at_ cs = .error error) :
    Within at_ cs error.position := by
  fun_induction scanFrom at_ cs with
  | case1 => cases h
  | case2 at_ cs split start c rest inside fault before read =>
    cases h
    have whole := splitBlanks_append false cs
    rw [show (splitBlanks false cs).2 = c :: rest from inside] at whole
    rw [← whole]
    exact within_append_left ⟨before, Lexeme.prefix_of_read_error read, rfl⟩
  | case3 at_ cs split start c rest inside lexeme behind read =>
    rename_i ih
    obtain ⟨text, -⟩ := Lexeme.eq_append_of_read read
    have whole := splitBlanks_append false cs
    rw [show (splitBlanks false cs).2 = c :: rest from inside, text] at whole
    rw [← whole]
    cases more : scanFrom (start.advance lexeme.chars) behind with
    | ok us => simp [more, bind, Except.bind, pure, Except.pure] at h
    | error e =>
      simp only [more, bind, Except.bind, Except.error.injEq] at h
      subst h
      exact within_append_left (within_append_left (ih more))

end Token
end Flowchart
