import Flowchart.Proofs.Diagram.Excerpts
import Mathlib.Data.List.Forall2

/-!
Sources with blanks, carriage returns and comments put in. Where a token starts or ends, outside labels, any run of
blanks may be put in, and in front of a line end a comment behind it. No lexeme goes on with them, so the scanner reads
the same tokens on the same lines.
-/
namespace Flowchart

namespace Token

open Position

variable {cs gap rest : List Char} {next : Option Char} {ts us tokens : List Token}
  {pads : Nat → List Char} {n place : Nat} {at_ at' : Position}

/-- Not inside the piece from the opener of a label to its closer. -/
def Outside (tokens : List Token) (place : Nat) : Prop :=
  ∀ front opener label closer back, tokens = front ++ opener :: label :: closer :: back → label.kind = .label →
    (place : Int) ≤ opener.position.offset ∨ closer.stop.offset ≤ (place : Int)

/-- A place outside labels where a token starts or ends. -/
@[mk_iff]
structure IsSeam (tokens : List Token) (place : Nat) : Prop where
  edge : ∃ token ∈ tokens, token.position.offset = place ∨ token.stop.offset = place
  outside : Outside tokens place

/-- What is put in at each place of a source, which is nothing where no token starts or ends. -/
structure IsSpacing (source : List Char) (tokens : List Token) (pads : Nat → List Char) : Prop where
  seams : ∀ place, pads place ≠ [] → IsSeam tokens place
  padding : ∀ place, IsPadding (pads place) (source.drop place).head?

/-- What is put in is carriage returns in front of line feeds outside labels. -/
def IsLineEnds (source : List Char) (tokens : List Token) (pads : Nat → List Char) : Prop :=
  ∀ place, pads place = [] ∨ pads place = ['\r'] ∧ source[place]? = some '\n' ∧ Outside tokens place

/-- The tokens are the same up to their columns and offsets. -/
@[mk_iff]
structure Alike (first second : Token) : Prop where
  kind : second.kind = first.kind
  text : second.text = first.text
  line : second.position.line = first.position.line

/-- The source with what is put in. -/
def spaced (pads : Nat → List Char) (source : String) : String :=
  String.ofList (padded pads 0 source.toList)

/-- Whether a place is outside labels, by one pass over the tokens. -/
def isOutside (place : Nat) : List Token → Bool
  | opener :: label :: closer :: back =>
    (label.kind ≠ .label || (place : Int) ≤ opener.position.offset || closer.stop.offset ≤ (place : Int)) &&
      isOutside place (label :: closer :: back)
  | _ => true

theorem isOutside_iff : isOutside place tokens = true ↔ Outside tokens place := by
  constructor
  · rintro outside front opener label closer back rfl isLabel
    induction front with
    | nil =>
      simp only [List.nil_append, isOutside, Bool.and_eq_true] at outside
      simpa [isLabel] using outside.1
    | cons t front ih =>
      refine ih ?_
      obtain _ | ⟨u, _ | ⟨v, front⟩⟩ := front <;>
        simp only [List.cons_append, List.nil_append, isOutside, Bool.and_eq_true] at outside ⊢ <;>
        exact outside.2
  · intro outside
    fun_induction isOutside place tokens with
    | case1 opener label closer back ih =>
      have first := outside [] opener label closer back rfl
      have behind := ih fun front t u v more split => outside (opener :: front) t u v more (by rw [split]; rfl)
      rw [behind, Bool.and_true]
      simpa [imp_iff_not_or, or_assoc] using first
    | case2 => rfl

instance (tokens : List Token) (place : Nat) : Decidable (Outside tokens place) :=
  decidable_of_iff _ isOutside_iff

instance (tokens : List Token) (place : Nat) : Decidable (IsSeam tokens place) :=
  decidable_of_iff _ (isSeam_iff tokens place).symm

/-! ### The tokens of one lexeme -/

theorem line_advance (at_ : Position) (cs : List Char) : (at_.advance cs).line = at_.line + cs.count '\n' := by
  induction cs generalizing at_ with
  | nil => simp
  | cons c cs ih =>
    rw [advance_cons, ih, step]
    by_cases feed : c = '\n'
    · simp only [feed, if_true, List.count_cons_self]
      omega
    · simp [feed]

theorem line_congr (sameLine : at'.line = at_.line) (cs : List Char) :
    (at'.advance cs).line = (at_.advance cs).line := by
  rw [line_advance, line_advance, sameLine]

theorem alike_tokens (lexeme : Lexeme) (sameLine : at'.line = at_.line) :
    List.Forall₂ Alike (lexeme.tokens at_) (lexeme.tokens at') := by
  cases lexeme <;> simp [Lexeme.tokens, alike_iff, line_advance, sameLine, step]

theorem position_le_stop (t : Token) : t.position.offset ≤ t.stop.offset := by
  simp only [stop]
  omega

/-- The tokens of a lexeme are one, or those of a label between its delimiters. -/
theorem tokens_cases (lexeme : Lexeme) (at_ : Position) : ∃ first, first.position = at_ ∧
    (lexeme.tokens at_ = [first] ∨
      ∃ label closer, lexeme.tokens at_ = [first, label, closer] ∧ label.kind = .label) := by
  cases lexeme <;> simp [Lexeme.tokens]

/-- A text that leaves out something of another one is not longer. -/
theorem length_le_of_split {left text right : List Char} (split : cs = left ++ text ++ right) :
    text.length ≤ cs.length := by
  simp only [split, List.length_append]
  omega

theorem le_position_of_tokens (lexeme : Lexeme) (at_ : Position) :
    ∀ t ∈ lexeme.tokens at_, at_.offset ≤ t.position.offset := by
  intro t mem
  obtain ⟨front, -, -, -, place⟩ := lexeme.places_of_tokens at_ t mem
  rw [place, offset_advance]
  omega

theorem stop_le_of_tokens (lexeme : Lexeme) (at_ : Position) :
    ∀ t ∈ lexeme.tokens at_, t.stop.offset ≤ at_.offset + lexeme.chars.length := by
  have bar : "|".length = 1 := rfl
  have trimmed (inner : List Char) : (Text.trimChars inner).length ≤ inner.length := by
    obtain ⟨left, right, split, -, -⟩ := Text.trimChars_split inner
    exact length_le_of_split split
  have unquoted (inner : List Char) : (unquote inner).length ≤ inner.length := by
    obtain ⟨left, right, split, -, -⟩ := unquote_split inner
    exact length_le_of_split split
  cases lexeme
  all_goals
    simp only [Lexeme.tokens, Lexeme.chars, List.mem_cons, List.not_mem_nil, or_false, forall_eq_or_imp, forall_eq,
      stop, offset_advance, offset_step, String.length_ofList, String.length_singleton, bar, List.length_append,
      List.length_cons, List.length_nil]
  case inlineLabel inner _ =>
    have := trimmed inner
    omega
  case pipeLabel inner =>
    have := trimmed inner
    have := unquoted (Text.trimChars inner)
    omega
  case bareLabel inner =>
    have := trimmed inner
    omega
  all_goals omega

/-- In a lexeme there is no seam. -/
theorem outside_of_isSeam {lexeme : Lexeme} (seam : IsSeam (lexeme.tokens at_ ++ us) place)
    (behind : ∀ t ∈ us, at_.offset + lexeme.chars.length ≤ t.position.offset) :
    (place : Int) ≤ at_.offset ∨ at_.offset + lexeme.chars.length ≤ (place : Int) := by
  have ends := stop_of_last lexeme at_
  obtain ⟨first, isFirst, one | ⟨label, closer, three, isLabel⟩⟩ := tokens_cases lexeme at_
  · rw [one] at ends seam
    have stop := ends first rfl
    obtain ⟨t, mem, edge⟩ := seam.edge
    have size := position_le_stop t
    rcases List.mem_cons.1 mem with rfl | mem
    · rw [isFirst, stop] at edge
      omega
    · have := behind t mem
      omega
  · rw [three] at ends seam
    have stop := ends closer rfl
    have outside := seam.outside [] first label closer us rfl isLabel
    rwa [isFirst, stop] at outside

theorem outside_behind (outside : Outside (ts ++ us) place) : Outside us place :=
  fun front opener label closer back split isLabel =>
    outside (ts ++ front) opener label closer back (by rw [split, List.append_assoc]) isLabel

/-- A seam that no token in front touches is one of the tokens behind. -/
theorem isSeam_behind (seam : IsSeam (ts ++ us) place) (far : ∀ t ∈ ts, t.stop.offset < (place : Int)) :
    IsSeam us place := by
  obtain ⟨t, mem, edge⟩ := seam.edge
  rcases List.mem_append.1 mem with mem | mem
  · have := far t mem
    have := position_le_stop t
    omega
  · exact ⟨⟨t, mem, edge⟩, outside_behind seam.outside⟩

/-! ### Scanning -/

/-- A lexeme is read behind padding. -/
theorem scanFrom_lexeme_behind {c : Char} {tail : List Char} {lexeme : Lexeme} (isChars : lexeme.chars = c :: tail)
    (padding : IsPadding gap (some c)) (read : Lexeme.read c (tail ++ rest) = .ok (lexeme, rest)) (at_ : Position) :
    scanFrom at_ (gap ++ (lexeme.chars ++ rest)) =
      (scanFrom ((at_.advance gap).advance lexeme.chars) rest).bind fun more =>
        .ok (lexeme.tokens (at_.advance gap) ++ more) := by
  have visible : ∀ d ∈ (c :: (tail ++ rest)).head?, Lexeme.Visible d := by
    rintro d ⟨⟩
    exact (Lexeme.visible_of_read read).1
  have split : splitBlanks false (gap ++ c :: (tail ++ rest)) = (gap, c :: (tail ++ rest)) :=
    splitBlanks_append_of_isPadding padding visible
  rw [scanFrom_step, isChars, List.cons_append, split]
  simp only [read, isChars]

/-- One round of a scanner that finds no fault. -/
theorem scanFrom_cases (scanned : scanFrom at_ cs = .ok ts) :
    (IsPadding cs none ∧ ts = [⟨.endOfInput, "", at_.advance cs⟩]) ∨
      ∃ gap c tail lexeme rest us, cs = gap ++ c :: tail ∧ IsPadding gap (some c) ∧
        Lexeme.read c tail = .ok (lexeme, rest) ∧
        scanFrom ((at_.advance gap).advance lexeme.chars) rest = .ok us ∧
        ts = lexeme.tokens (at_.advance gap) ++ us := by
  have whole := splitBlanks_append false cs
  rw [scanFrom_step] at scanned
  cases split : splitBlanks false cs with | mk gap behind => ?_
  have isGap : IsPadding gap behind.head? := isPadding_of_splitBlanks split
  rw [split] at scanned whole
  cases behind with
  | nil =>
    obtain rfl : gap = cs := by simpa using whole
    cases scanned
    exact .inl ⟨isGap, rfl⟩
  | cons c tail =>
    dsimp only at scanned
    split at scanned
    · cases scanned
    · rename_i lexeme rest read
      cases after : scanFrom ((at_.advance gap).advance lexeme.chars) rest with
      | error => simp [after, Except.bind] at scanned
      | ok us =>
        simp only [after, Except.bind, Except.ok.injEq] at scanned
        exact .inr ⟨gap, c, tail, lexeme, rest, us, whole.symm, isGap, read, after, scanned.symm⟩

/-- A lexeme and the text behind it, if that can be scanned as well, do not go on with each other. -/
theorem follows_of_scanFrom {c : Char} {lexeme : Lexeme} (read : Lexeme.read c cs = .ok (lexeme, rest))
    (scanned : scanFrom at_ rest = .ok ts) : lexeme.Follows rest := by
  have noHead : ∀ d ∈ rest.head?, d ≠ '>' := by
    intro d isFirst
    rcases scanFrom_cases scanned with ⟨padding, -⟩ | ⟨gap, e, tail, _, _, _, rfl, padding, behind, -⟩
    · rw [← List.append_nil rest] at isFirst
      exact (padding.free (by rintro rfl; cases isFirst) [] d isFirst).2
    · cases gap with
      | nil =>
        cases isFirst
        exact (Lexeme.visible_of_read behind).2
      | cons => exact (padding.free (List.cons_ne_nil _ _) _ d isFirst).2
  cases lexeme with
  | word word =>
    intro d isFirst
    refine ⟨?_, noHead d isFirst⟩
    rw [(Lexeme.eq_of_read_word read).2] at isFirst
    have := List.head?_dropWhile_not Lexeme.isWordChar (c :: cs)
    simpa [Option.mem_def.1 isFirst] using this
  | _ => exact noHead

/-- Nor do they if padding is put in behind the lexeme. -/
theorem follows_padded {lexeme : Lexeme} (follows : lexeme.Follows rest) (padding : IsPadding (pads n) next) :
    lexeme.Follows (padded pads n rest) := by
  by_cases none : pads n = []
  · refine Lexeme.follows_congr ?_ follows
    rw [head?_padded, none, List.nil_append]
  · refine Lexeme.follows_of_free lexeme fun c isFirst => ?_
    rw [head?_padded] at isFirst
    exact padding.free none rest c isFirst

/-- What is put in from a place on, where a text starts that the tokens are read off. -/
structure Fits (pads : Nat → List Char) (n : Nat) (cs : List Char) (ts : List Token) : Prop where
  seams : ∀ place, n ≤ place → pads place ≠ [] → place = n ∨ IsSeam ts place
  padding : ∀ i, IsPadding (pads (n + i)) (cs.drop i).head?

namespace Fits

/-- Nothing is put in in a gap. -/
theorem inGap (fits : Fits pads n cs ts) (starts : ∀ t ∈ ts, (n + gap.length : Int) ≤ t.position.offset) :
    ∀ place, n < place → place < n + gap.length → pads place = [] := by
  intro place above below
  by_contra some
  rcases fits.seams place (by omega) some with same | seam
  · omega
  · obtain ⟨t, mem, edge⟩ := seam.edge
    have := starts t mem
    have := position_le_stop t
    omega

variable {lexeme : Lexeme}

/-- Nothing is put in in a lexeme. -/
theorem inLexeme (fits : Fits pads n cs (lexeme.tokens at_ ++ us)) (isAt : at_.offset = n + gap.length)
    (behind : ∀ t ∈ us, at_.offset + lexeme.chars.length ≤ t.position.offset) :
    ∀ place, n + gap.length < place → place < n + gap.length + lexeme.chars.length → pads place = [] := by
  intro place above below
  by_contra some
  rcases fits.seams place (by omega) some with same | seam
  · omega
  · have := outside_of_isSeam seam behind
    omega

/-- The rest fits behind a gap and a lexeme. -/
theorem behind (fits : Fits pads n (gap ++ (lexeme.chars ++ rest)) (lexeme.tokens at_ ++ us))
    (isAt : at_.offset = n + gap.length) : Fits pads (n + gap.length + lexeme.chars.length) rest us := by
  constructor
  · intro place above some
    rcases fits.seams place (by omega) some with same | seam
    · left
      omega
    · rcases above.eq_or_lt with same | above
      · exact .inl same.symm
      · refine .inr (isSeam_behind seam fun t mem => ?_)
        have := stop_le_of_tokens lexeme at_ t mem
        omega
  · intro i
    have padding := fits.padding (gap.length + (lexeme.chars.length + i))
    rwa [List.drop_length_add_append, List.drop_length_add_append, ← Nat.add_assoc, ← Nat.add_assoc] at padding

/-- The padding of a gap and a lexeme stands in front of the lexeme. -/
theorem padded_lexeme (fits : Fits pads n (gap ++ (lexeme.chars ++ rest)) (lexeme.tokens at_ ++ us))
    (isAt : at_.offset = n + gap.length)
    (behind : ∀ t ∈ us, at_.offset + lexeme.chars.length ≤ t.position.offset) (some : lexeme.chars ≠ []) :
    padded pads n (gap ++ (lexeme.chars ++ rest)) =
      filled pads n gap ++ (lexeme.chars ++ padded pads (n + gap.length + lexeme.chars.length) rest) := by
  refine padded_piece (fits.inGap fun t mem => ?_) (fits.inLexeme isAt behind) some
  rw [← isAt]
  rcases List.mem_append.1 mem with mem | mem
  · exact le_position_of_tokens lexeme at_ t mem
  · have := behind t mem
    omega

end Fits

/-- Padding between the tokens of a text moves them, and leaves each one on its line. -/
theorem scanFrom_padded (scanned : scanFrom at_ cs = .ok ts) (isAt : at_.offset = n) (fits : Fits pads n cs ts)
    (sameLine : at'.line = at_.line) :
    ∃ us, scanFrom at' (padded pads n cs) = .ok us ∧ List.Forall₂ Alike ts us := by
  -- The place of the padding counts on with the scanner, over the gap and the lexeme of each round.
  induction size : cs.length using Nat.strong_induction_on generalizing at_ at' n cs ts with | _ total ih => ?_
  rcases scanFrom_cases scanned with ⟨isGap, rfl⟩ | ⟨gap, c, tail, lexeme, rest, more, rfl, isGap, read, behind, rfl⟩
  · have inGap : ∀ place, n < place → place < n + cs.length → pads place = [] :=
      fits.inGap (by simp [offset_advance, isAt])
    have isFilled : IsPadding (filled pads n cs) none := isPadding_filled (List.append_nil cs).symm fits.padding isGap
    have split : splitBlanks false (filled pads n cs ++ []) = (filled pads n cs, []) :=
      splitBlanks_append_of_isPadding isFilled nofun
    rw [List.append_nil] at split
    refine ⟨[⟨.endOfInput, "", at'.advance (filled pads n cs)⟩], ?_, ?_⟩
    · rw [padded_gap inGap, scanFrom_step, split]
    · exact .cons ⟨rfl, rfl, by rw [isFilled.line_advance, isGap.line_advance, sameLine]⟩ .nil
  · obtain ⟨tail, isChars, rfl, reads⟩ := Lexeme.read_append read
    rw [← List.cons_append, ← isChars] at fits size ⊢
    have isStart : (at_.advance gap).offset = n + gap.length := by rw [offset_advance, isAt]
    have starts : ∀ t ∈ more, (at_.advance gap).offset + lexeme.chars.length ≤ t.position.offset := fun t mem => by
      have inside := (offset_of_within ((places_of_scanFrom behind).1 t mem)).1
      rwa [offset_advance] at inside
    have notNil : lexeme.chars ≠ [] := isChars ▸ List.cons_ne_nil c tail
    have isFilled : IsPadding (filled pads n gap) (c :: (tail ++ rest)).head? :=
      isPadding_filled (by rw [isChars, List.cons_append]) fits.padding isGap
    have lines : (at'.advance (filled pads n gap)).line = (at_.advance gap).line := by
      rw [isFilled.line_advance, isGap.line_advance, sameLine]
    rw [fits.padded_lexeme isStart starts notNil]
    have fitsBehind := fits.behind isStart
    generalize isPlace : n + gap.length + lexeme.chars.length = place at fitsBehind ⊢
    have shorter : rest.length < total := by
      have := List.length_pos_iff.2 notNil
      simp only [List.length_append] at size
      omega
    have follows : lexeme.Follows (padded pads place rest) :=
      follows_padded (follows_of_scanFrom read behind) (fitsBehind.padding 0)
    have isBehind : ((at_.advance gap).advance lexeme.chars).offset = place := by
      rw [offset_advance, isStart]
      omega
    obtain ⟨others, again, alike⟩ :=
      ih rest.length shorter behind isBehind fitsBehind (line_congr lines lexeme.chars) rfl
    refine ⟨lexeme.tokens (at'.advance (filled pads n gap)) ++ others, ?_, ?_⟩
    · rw [scanFrom_lexeme_behind isChars isFilled (reads _ follows), again]
      rfl
    · exact List.rel_append (alike_tokens lexeme lines) alike

/-- A source can be scanned with padding between its tokens as well. -/
theorem scan_spaced {source : String} (scanned : scan source = .ok tokens)
    (spacing : IsSpacing source.toList tokens pads) :
    ∃ others, scan (spaced pads source) = .ok others ∧ List.Forall₂ Alike tokens others := by
  have fits : Fits pads 0 source.toList tokens := by
    refine ⟨fun place _ some => .inr (spacing.seams place some), fun i => ?_⟩
    rw [Nat.zero_add]
    exact spacing.padding i
  rw [scan, spaced, String.toList_ofList]
  exact scanFrom_padded scanned rfl fits rfl

/-! ### Line ends -/

/-- A lexeme of one token has no line feed behind its first character. -/
theorem not_mem_of_read {c d : Char} {tail : List Char} {lexeme : Lexeme} {t : Token}
    (read : Lexeme.read c cs = .ok (lexeme, rest)) (isChars : lexeme.chars = d :: tail)
    (one : lexeme.tokens at_ = [t]) : '\n' ∉ tail := by
  cases lexeme with
  | word word =>
    have isWord := List.all_eq_true.1 (Lexeme.all_isWordChar_of_read read)
    intro mem
    have mem : '\n' ∈ word := by
      rw [show word = d :: tail from isChars]
      exact List.mem_cons_of_mem d mem
    exact absurd (isWord _ mem) (by decide)
  | terminator =>
    cases isChars
    exact List.not_mem_nil
  | arrow style head =>
    have oneLine : '\n' ∉ style.arrow head := by cases style <;> cases head <;> decide
    rw [show style.arrow head = d :: tail from isChars] at oneLine
    exact List.not_mem_of_not_mem_cons oneLine
  | _ => simp [Lexeme.tokens] at one

/-- A line feed in a lexeme outside labels is the lexeme. -/
theorem eq_nil_of_feed {c : Char} {lexeme : Lexeme} {less after : List Char}
    (read : Lexeme.read c cs = .ok (lexeme, rest)) (split : lexeme.chars = less ++ '\n' :: after)
    (outside : Outside (lexeme.tokens at_ ++ us) place) (isPlace : (place : Int) = at_.offset + less.length) :
    less = [] := by
  cases less with
  | nil => rfl
  | cons d less =>
    obtain ⟨first, isFirst, one | ⟨label, closer, three, isLabel⟩⟩ := tokens_cases lexeme at_
    · exact absurd (List.mem_append_right less List.mem_cons_self) (not_mem_of_read read split one)
    · have ends := stop_of_last lexeme at_
      rw [three] at ends outside
      have stop := ends closer rfl
      have apart := outside [] first label closer us rfl isLabel
      rw [isFirst, stop, isPlace, split] at apart
      simp only [List.length_cons, List.length_append] at apart
      omega

/-- A line feed that stands in no label is a token. -/
theorem starts_of_feed {front back : List Char} (scanned : scanFrom at_ cs = .ok ts) (isAt : at_.offset = n)
    (split : cs = front ++ '\n' :: back) (outside : Outside ts (n + front.length)) :
    ∃ t ∈ ts, t.position.offset = n + front.length := by
  induction size : cs.length using Nat.strong_induction_on generalizing at_ n cs ts front with | _ total ih => ?_
  rcases scanFrom_cases scanned with ⟨isGap, rfl⟩ | ⟨gap, c, tail, lexeme, rest, more, rfl, isGap, read, behind, rfl⟩
  · exact absurd (split ▸ List.mem_append_right front List.mem_cons_self) isGap.oneLine
  obtain ⟨text, some⟩ := Lexeme.eq_append_of_read read
  rw [text] at split size
  have isStart : (at_.advance gap).offset = n + gap.length := by rw [offset_advance, isAt]
  rcases append_eq_append_cons split with ⟨after, rfl, -⟩ | ⟨less, rfl, inText⟩
  · exact absurd (List.mem_append_right front List.mem_cons_self) isGap.oneLine
  rcases append_eq_append_cons inText with ⟨after, inLexeme, -⟩ | ⟨lead, rfl, inRest⟩
  · obtain rfl := eq_nil_of_feed read inLexeme outside (by rw [isStart, List.length_append]; omega)
    obtain ⟨first, isFirst, one | ⟨label, closer, three, -⟩⟩ := tokens_cases lexeme (at_.advance gap)
    · exact ⟨first, by simp [one], by simp [isFirst, isStart]⟩
    · exact ⟨first, by simp [three], by simp [isFirst, isStart]⟩
  · rw [List.length_append, List.length_append, ← Nat.add_assoc, ← Nat.add_assoc] at outside
    have shorter : rest.length < total := by
      have := List.length_pos_iff.2 some
      simp only [List.length_append] at size
      omega
    obtain ⟨t, mem, isPlace⟩ := ih rest.length shorter behind (by rw [offset_advance, isStart]; omega) inRest
      (outside_behind outside) rfl
    refine ⟨t, List.mem_append_right _ mem, ?_⟩
    rw [isPlace, List.length_append, List.length_append]
    omega

/-- Line ends outside labels may be those of another system. -/
theorem isSpacing_of_isLineEnds {source : List Char} (scanned : scanFrom .start source = .ok tokens)
    (lineEnds : IsLineEnds source tokens pads) : IsSpacing source tokens pads := by
  constructor
  · intro place some
    obtain ⟨-, feed, outside⟩ := (lineEnds place).resolve_left some
    obtain ⟨inside, isFeed⟩ := List.getElem?_eq_some_iff.1 feed
    have split : source = source.take place ++ '\n' :: source.drop (place + 1) := by
      rw [← isFeed, List.getElem_cons_drop, List.take_append_drop]
    have size : (source.take place).length = place := List.length_take_of_le (Nat.le_of_lt inside)
    obtain ⟨t, mem, isPlace⟩ := starts_of_feed (n := 0) scanned rfl split (by rwa [size, Nat.zero_add])
    refine ⟨⟨t, mem, .inl ?_⟩, outside⟩
    rw [isPlace, size]
    omega
  · intro place
    rcases lineEnds place with none | ⟨isReturn, -⟩
    · rw [none]
      exact isPadding_nil _
    · rw [isReturn]
      exact isPadding_run (List.forall_mem_singleton.2 (.inr (.inr rfl))) _

end Token
end Flowchart
