import Flowchart.Proofs.Token.Sequence
import Flowchart.Proofs.Token.Writing

/-!
Blanks and comments between tokens. The scanner passes over a run of blanks, and over a comment behind it if a line end
follows, and whatever is put in at the ends of such a gap makes one gap again.
-/
namespace Flowchart

namespace Token

open Position

variable {cs ds gap rest more text : List Char} {next : Option Char} {pads : Nat → List Char} {n : Nat}

/-- A comment up to the end of its line. -/
def IsComment (cs : List Char) : Prop :=
  ['%', '%'] <+: cs ∧ '\n' ∉ cs

/-- A run of blanks, and behind it perhaps a comment if the next character is a line feed or the end of the text. -/
def IsPadding (text : List Char) (next : Option Char) : Prop :=
  ∃ run comment, text = run ++ comment ∧ (∀ c ∈ run, IsGap c) ∧
    (comment = [] ∨ IsComment comment ∧ ∀ c ∈ next, c = '\n')

/-- A text that starts at a given place, with what is put in in front of each character and behind the last one. -/
def padded (pads : Nat → List Char) (place : Nat) : List Char → List Char
  | [] => pads place
  | c :: cs => pads place ++ c :: padded pads (place + 1) cs

theorem isGap_ne {c : Char} (isGap : IsGap c) : c ≠ '\n' ∧ Lexeme.isWordChar c = false ∧ c ≠ '>' := by
  rcases isGap with rfl | rfl | rfl <;> decide

theorem isPadding_run (blanks : ∀ c ∈ text, IsGap c) (next : Option Char) : IsPadding text next :=
  ⟨text, [], (List.append_nil text).symm, blanks, .inl rfl⟩

theorem isPadding_nil (next : Option Char) : IsPadding [] next :=
  isPadding_run (List.forall_mem_nil _) next

namespace IsPadding

theorem oneLine (padding : IsPadding text next) : '\n' ∉ text := by
  obtain ⟨run, comment, rfl, isRun, isComment⟩ := padding
  refine List.not_mem_append (fun mem => (isGap_ne (isRun _ mem)).1 rfl) ?_
  rcases isComment with rfl | ⟨isComment, -⟩
  · exact List.not_mem_nil
  · exact isComment.2

theorem line_advance (padding : IsPadding text next) (at_ : Position) : (at_.advance text).line = at_.line := by
  rw [advance_of_not_mem _ padding.oneLine]

/-- A comment goes on to the end of its line, so that there is none in front of anything else. -/
theorem isGap (padding : IsPadding text next) {c : Char} (isNext : next = some c) (notFeed : c ≠ '\n') :
    ∀ d ∈ text, IsGap d := by
  obtain ⟨run, comment, rfl, isRun, rfl | ⟨-, isFeed⟩⟩ := padding
  · rwa [List.append_nil]
  · exact absurd (isFeed c isNext) notFeed

theorem append (padding : IsPadding text next) (behind : IsPadding more next) : IsPadding (text ++ more) next := by
  have moreLine := behind.oneLine
  obtain ⟨run, comment, rfl, isRun, rfl | ⟨⟨opens, oneLine⟩, isFeed⟩⟩ := padding
  · obtain ⟨run', comment, rfl, isRun', isComment⟩ := behind
    refine ⟨run ++ run', comment, by simp, List.forall_mem_append.2 ⟨isRun, isRun'⟩, isComment⟩
  · refine ⟨run, comment ++ more, by simp, isRun, .inr ⟨⟨?_, List.not_mem_append oneLine moreLine⟩, isFeed⟩⟩
    exact opens.trans (List.prefix_append _ _)

/-- No lexeme goes on with a blank or a comment. -/
theorem free (padding : IsPadding text next) (some : text ≠ []) (cs : List Char) : Lexeme.Free (text ++ cs) := by
  obtain ⟨run, comment, rfl, isRun, isComment⟩ := padding
  intro c isFirst
  cases run with
  | cons d run =>
    obtain rfl : d = c := by simpa using isFirst
    exact (isGap_ne (isRun d List.mem_cons_self)).2
  | nil =>
    rcases isComment with rfl | ⟨⟨⟨body, rfl⟩, -⟩, -⟩
    · exact absurd rfl some
    · obtain rfl : '%' = c := by simpa using isFirst
      decide

end IsPadding

/-- What the scanner passes over is padding, or the rest of the comment that it starts in. -/
theorem isPadding_of_splitBlanks {inComment : Bool} (split : splitBlanks inComment cs = (gap, rest)) :
    if inComment = true then '\n' ∉ gap ∧ ∀ c ∈ rest.head?, c = '\n' else IsPadding gap rest.head? := by
  fun_induction splitBlanks inComment cs generalizing gap with
  | case1 inComment =>
    cases split
    cases inComment
    · exact isPadding_nil _
    · exact ⟨List.not_mem_nil, fun c mem => by cases mem⟩
  | case2 inComment c cs opens skips blanks behind eq =>
    rename_i ih
    cases split
    have ih := ih eq
    cases inComment with
    | true =>
      simp only [Bool.true_or, if_true] at ih skips
      exact ⟨List.not_mem_cons_of_ne_of_not_mem (Ne.symm skips) ih.1, ih.2⟩
    | false =>
      cases isOpening : opens with
      | true =>
        obtain ⟨rfl, next⟩ : c = '%' ∧ cs.head? = some '%' := by simpa [opens] using isOpening
        rw [isOpening, Bool.or_true] at eq ih
        obtain ⟨more, isBlanks⟩ := splitBlanks_comment next
        rw [eq] at isBlanks
        obtain rfl : blanks = '%' :: more := isBlanks
        have oneLine : '\n' ∉ '%' :: '%' :: more := List.not_mem_cons_of_ne_of_not_mem (by decide) ih.1
        exact ⟨[], '%' :: '%' :: more, rfl, List.forall_mem_nil _, .inr ⟨⟨⟨more, rfl⟩, oneLine⟩, ih.2⟩⟩
      | false =>
        rw [isOpening] at ih
        obtain ⟨run, comment, rfl, isRun, isComment⟩ := ih
        have isGap : IsGap c := by simpa [IsGap, isOpening, or_assoc] using skips
        exact ⟨c :: run, comment, rfl, List.forall_mem_cons.2 ⟨isGap, isRun⟩, isComment⟩
  | case3 inComment c cs opens =>
    rename_i stops
    cases split
    cases inComment with
    | false => exact isPadding_nil _
    | true => exact ⟨List.not_mem_nil, by simpa using stops⟩

theorem splitBlanks_comment_append (oneLine : '\n' ∉ gap) (feed : ∀ c ∈ rest.head?, c = '\n') :
    splitBlanks true (gap ++ rest) = (gap, rest) := by
  induction gap with
  | nil =>
    cases rest with
    | nil => rfl
    | cons c rest => simp [splitBlanks, feed c rfl]
  | cons c gap ih =>
    obtain ⟨notFeed, oneLine⟩ := List.ne_and_not_mem_of_not_mem_cons oneLine
    simp [splitBlanks, notFeed.symm, ih oneLine]

/-- Padding in front of a visible character is split off as a whole. -/
theorem splitBlanks_append_of_isPadding (padding : IsPadding gap rest.head?)
    (visible : ∀ c ∈ rest.head?, Lexeme.Visible c) : splitBlanks false (gap ++ rest) = (gap, rest) := by
  obtain ⟨run, comment, rfl, isRun, isComment⟩ := padding
  have behindRun : splitBlanks false (comment ++ rest) = (comment, rest) := by
    rcases isComment with rfl | ⟨⟨⟨body, rfl⟩, oneLine⟩, feed⟩
    · cases rest with
      | nil => rfl
      | cons c rest => exact splitBlanks_visible (visible c rfl) rest
    · have oneLine : '\n' ∉ '%' :: body := List.not_mem_of_not_mem_cons oneLine
      have commented := splitBlanks_comment_append oneLine feed
      rw [List.cons_append] at commented
      simp [splitBlanks.eq_2 false '%', commented]
  rw [List.append_assoc]
  induction run with
  | nil => exact behindRun
  | cons c run ih =>
    obtain ⟨isFirst, isRun⟩ := List.forall_mem_cons.1 isRun
    have behind := ih isRun
    rcases isFirst with rfl | rfl | rfl <;> simp [splitBlanks, behind]

/-! ### Putting padding in -/

theorem padded_append (free : ∀ place, n < place → place < n + cs.length → pads place = []) (some : cs ≠ []) :
    padded pads n (cs ++ ds) = pads n ++ cs ++ padded pads (n + cs.length) ds := by
  induction cs generalizing n with
  | nil => exact absurd rfl some
  | cons c cs ih =>
    rw [List.cons_append, padded]
    cases cs with
    | nil => simp
    | cons d cs =>
      have none : pads (n + 1) = [] := free _ (by omega) (by simp)
      have behind : padded pads (n + 1) (d :: cs ++ ds) = _ :=
        ih (fun place above below => free place (by omega) (by simp only [List.length_cons] at below ⊢; omega))
          (List.cons_ne_nil d cs)
      rw [behind, none, List.length_cons, Nat.add_assoc, Nat.add_comm 1]
      simp

/-- The first character of a padded text is one of the padding or of the text. -/
theorem head?_padded (pads : Nat → List Char) (n : Nat) (cs : List Char) :
    (padded pads n cs).head? = (pads n ++ cs).head? := by
  cases cs with
  | nil => rw [padded, List.append_nil]
  | cons c cs =>
    rw [padded]
    cases pads n <;> rfl

/-- A gap with what is put in at its ends. -/
def filled (pads : Nat → List Char) (n : Nat) (gap : List Char) : List Char :=
  if gap = [] then pads n else pads n ++ gap ++ pads (n + gap.length)

theorem padded_gap (free : ∀ place, n < place → place < n + gap.length → pads place = []) :
    padded pads n gap = filled pads n gap := by
  rw [filled]
  split
  · simp [padded, *]
  · have whole : padded pads n (gap ++ []) = _ := padded_append free ‹_›
    rwa [List.append_nil] at whole

/-- Characters without padding among them are kept together. -/
theorem padded_piece (inGap : ∀ place, n < place → place < n + gap.length → pads place = [])
    (inText : ∀ place, n + gap.length < place → place < n + gap.length + cs.length → pads place = []) (some : cs ≠ []) :
    padded pads n (gap ++ (cs ++ ds)) =
      filled pads n gap ++ (cs ++ padded pads (n + gap.length + cs.length) ds) := by
  rw [filled]
  split
  · rename_i none
    subst none
    have whole : padded pads n (cs ++ ds) = _ := padded_append (fun place above below => inText place above below) some
    simpa using whole
  · rw [padded_append inGap ‹_›, padded_append inText some]
    simp

/-- What fills a gap is padding again. -/
theorem isPadding_filled (split : ds = gap ++ cs) (padding : ∀ i, IsPadding (pads (n + i)) (ds.drop i).head?)
    (isGap : IsPadding gap cs.head?) : IsPadding (filled pads n gap) cs.head? := by
  subst split
  have start := padding 0
  rw [filled]
  split
  · rename_i none
    simpa [none] using start
  · obtain ⟨c, gap, rfl⟩ := List.exists_cons_of_ne_nil ‹gap ≠ []›
    have notFeed : c ≠ '\n' := fun feed => isGap.oneLine (feed ▸ List.mem_cons_self)
    have stop := padding (c :: gap).length
    rw [List.drop_left] at stop
    exact ((isPadding_run (start.isGap rfl notFeed) _).append isGap).append stop

end Token
end Flowchart
