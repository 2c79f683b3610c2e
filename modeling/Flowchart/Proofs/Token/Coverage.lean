import Flowchart.Proofs.Token.Sequence

/-!
The tokens of a source account for every character of it. Each one repeats the source at its place, each label is a
piece of what stands between its delimiters, and what lies in no token and in no label is a blank or belongs to a
comment.
-/
namespace Flowchart.Token

open Position

/-- The stretches of the source that the tokens take up, as offsets. A label takes up all there is between its
delimiters, and these. -/
def extents : List Token → List (Int × Int)
  | opener :: label :: closer :: rest =>
    if label.kind = .label then (opener.position.offset, closer.stop.offset) :: extents rest
    else (opener.position.offset, opener.stop.offset) :: extents (label :: closer :: rest)
  | token :: rest => (token.position.offset, token.stop.offset) :: extents rest
  | [] => []

/-- The character at an offset lies in a token or between the delimiters of a label. -/
def Held (tokens : List Token) (place : Nat) : Prop :=
  ∃ extent ∈ extents tokens, extent.1 ≤ place ∧ place < extent.2

/-- The tokens account for every character of a source. -/
structure Accounts (source : List Char) (tokens : List Token) : Prop where
  ends : ∃ body, tokens = body ++ [⟨.endOfInput, "", .behind source⟩] ∧ ∀ token ∈ body, token.kind ≠ .endOfInput
  ordered : tokens.Pairwise fun first second => first.position.offset ≤ second.position.offset
  placed : ∀ token ∈ tokens, ∃ front, front <+: source ∧ token.position = .behind front
  verbatim : ∀ token ∈ tokens, token.kind ≠ .label →
    ∃ front back, source = front ++ token.text.toList ++ back ∧ token.position = .behind front
  labels : ∀ before label after, tokens = before ++ label :: after → label.kind = .label →
    ∃ outer opener closer rest, before = outer ++ [opener] ∧ after = closer :: rest ∧
      ∃ front inside back, source = front ++ opener.text.toList ++ inside ++ closer.text.toList ++ back ∧
        Enclosed front inside opener label closer
  covered : ∀ front c back, source = front ++ c :: back → Held tokens front.length ∨ IsGap c ∨
    ∃ before lead, front = before ++ lead ∧ InComment lead c back ∧
      ∀ place, before.length ≤ place → place ≤ front.length → ¬Held tokens place

theorem extents_cons {token : Token} {rest : List Token} (noLabel : ∀ next ∈ rest.head?, next.kind ≠ .label) :
    extents (token :: rest) = (token.position.offset, token.stop.offset) :: extents rest := by
  match rest with
  | [] => rfl
  | [next] => rfl
  | label :: closer :: rest => rw [extents, if_neg (noLabel label rfl)]

theorem extents_label {opener label closer : Token} {rest : List Token} (isLabel : label.kind = .label) :
    extents (opener :: label :: closer :: rest) = (opener.position.offset, closer.stop.offset) :: extents rest := by
  rw [extents, if_pos isLabel]

/-- An extent starts where one of the tokens does. -/
theorem start_of_mem_extents {tokens : List Token} {extent : Int × Int} (mem : extent ∈ extents tokens) :
    ∃ token ∈ tokens, extent.1 = token.position.offset := by
  fun_induction extents tokens with
  | case1 opener label closer rest _ ih =>
    rcases List.mem_cons.1 mem with rfl | mem
    · exact ⟨opener, List.mem_cons_self, rfl⟩
    · obtain ⟨token, isToken, start⟩ := ih mem
      exact ⟨token, by simp [isToken], start⟩
  | case2 opener label closer rest _ ih | case3 opener rest _ ih =>
    rcases List.mem_cons.1 mem with rfl | mem
    · exact ⟨opener, List.mem_cons_self, rfl⟩
    · obtain ⟨token, isToken, start⟩ := ih mem
      exact ⟨token, List.mem_cons_of_mem _ isToken, start⟩
  | case4 => cases mem

theorem held_iff {extent : Int × Int} {tokens more : List Token} (isFirst : extents tokens = extent :: extents more)
    {place : Nat} : Held tokens place ↔ (extent.1 ≤ place ∧ place < extent.2) ∨ Held more place := by
  simp only [Held, isFirst, List.mem_cons, exists_eq_or_imp]

theorem offset_stop {token : Token} {front : List Char} (place : token.position = .behind front) :
    token.stop.offset = ((front ++ token.text.toList).length : Int) := by
  simp [stop, place, behind, String.length_toList]

section enclosed

variable {front inside : List Char} {opener label closer : Token}

theorem kinds_of_enclosed (enclosed : Enclosed front inside opener label closer) :
    ∀ token ∈ [opener, closer], token.kind ≠ .label ∧ token.kind ≠ .endOfInput := by
  have delimiters := enclosed.delimiters
  simp only [List.mem_cons, List.not_mem_nil, or_false, Prod.mk.injEq, forall_eq_or_imp, forall_eq] at delimiters ⊢
  rcases delimiters with ⟨opens, closes⟩ | ⟨opens, closes⟩ | ⟨opens, closes⟩ <;> simp [opens, closes]

/-- A label does not start in front of its opener or behind its closer. -/
theorem offsets_of_enclosed (enclosed : Enclosed front inside opener label closer) :
    opener.position.offset = front.length ∧ opener.position.offset ≤ label.position.offset ∧
      label.position.offset ≤ closer.position.offset := by
  obtain ⟨lead, left, right, isInside, -, -, isLead, labelAt⟩ := enclosed.text
  have size := isLead.length_le
  rw [enclosed.openerAt, enclosed.closerAt, labelAt, isInside]
  simp only [behind, List.length_append]
  refine ⟨trivial, ?_, ?_⟩ <;> omega

end enclosed

section laid

variable {source front : List Char} {tokens : List Token}

/-- A label does not come first, so no extent reaches over from the tokens in front. -/
theorem head_of_laid (laid : Laid source front tokens) : ∀ token ∈ tokens.head?, token.kind ≠ .label := by
  cases laid with
  | done => simp
  | mark _ _ noLabel => simpa using noLabel
  | label _ _ enclosed => simpa using (kinds_of_enclosed enclosed _ List.mem_cons_self).1

theorem ends_of_laid (laid : Laid source front tokens) :
    ∃ body, tokens = body ++ [⟨.endOfInput, "", .behind source⟩] ∧ ∀ token ∈ body, token.kind ≠ .endOfInput := by
  induction laid with
  | done => exact ⟨[], rfl, nofun⟩
  | @mark _ _ _ token _ _ _ _ noEnd _ _ ih =>
    obtain ⟨body, rfl, others⟩ := ih
    exact ⟨token :: body, rfl, List.forall_mem_cons.2 ⟨noEnd, others⟩⟩
  | @label _ _ _ _ opener label closer _ _ _ enclosed _ ih =>
    obtain ⟨body, rfl, others⟩ := ih
    have kinds := kinds_of_enclosed enclosed
    refine ⟨opener :: label :: closer :: body, rfl, ?_⟩
    simp only [List.forall_mem_cons]
    exact ⟨(kinds opener (by simp)).2, by simp [enclosed.kind], (kinds closer (by simp)).2, others⟩

theorem ordered_of_laid (laid : Laid source front tokens) :
    (∀ token ∈ tokens, (front.length : Int) ≤ token.position.offset) ∧
      tokens.Pairwise fun first second => first.position.offset ≤ second.position.offset := by
  induction laid with
  | @done _ _ split =>
    refine ⟨?_, List.pairwise_singleton _ _⟩
    simp only [split, behind, List.length_append, List.mem_singleton, forall_eq]
    omega
  | @mark front gap _ token _ _ _ _ _ place _ ih =>
    obtain ⟨behind, ordered⟩ := ih
    have start : token.position.offset = ((front ++ gap).length : Int) := by rw [place]; rfl
    simp only [List.length_append] at start behind
    refine ⟨List.forall_mem_cons.2 ⟨by omega, ?_⟩, List.pairwise_cons.2 ⟨?_, ordered⟩⟩
    · intro other mem
      have := behind other mem
      omega
    · intro other mem
      have := behind other mem
      omega
  | @label front gap inside _ opener label closer more _ _ enclosed _ ih =>
    obtain ⟨behind, ordered⟩ := ih
    obtain ⟨start, first, second⟩ := offsets_of_enclosed enclosed
    have close : closer.position.offset = ((front ++ gap ++ opener.text.toList ++ inside).length : Int) := by
      rw [enclosed.closerAt]
      rfl
    simp only [List.length_append] at start close behind
    have later (other : Token) (mem : other ∈ more) : closer.position.offset ≤ other.position.offset := by
      have := behind other mem
      omega
    simp only [List.forall_mem_cons, List.pairwise_cons]
    refine ⟨⟨by omega, by omega, by omega, ?_⟩, ⟨first, by omega, ?_⟩, ⟨second, ?_⟩, later, ordered⟩
    all_goals
      intro other mem
      have := later other mem
      omega

theorem verbatim_of_laid (laid : Laid source front tokens) : ∀ token ∈ tokens, token.kind ≠ .label →
    ∃ front back, source = front ++ token.text.toList ++ back ∧ token.position = .behind front := by
  induction laid with
  | done =>
    intro token mem _
    cases List.mem_singleton.1 mem
    exact ⟨source, [], by simp, rfl⟩
  | @mark front gap back _ _ split _ _ _ place _ ih =>
    exact List.forall_mem_cons.2 ⟨fun _ => ⟨front ++ gap, back, split, place⟩, ih⟩
  | @label front gap inside back opener label closer _ split _ enclosed _ ih =>
    simp only [List.forall_mem_cons]
    refine ⟨fun _ => ⟨front ++ gap, inside ++ closer.text.toList ++ back, ?_, enclosed.openerAt⟩,
      fun noLabel => absurd enclosed.kind noLabel,
      fun _ => ⟨front ++ gap ++ opener.text.toList ++ inside, back, split, enclosed.closerAt⟩, ih⟩
    simpa using split

/-- A label is found in the one place of its piece where a label may stand. -/
theorem labels_of_laid (laid : Laid source front tokens) {before after : List Token} {label : Token}
    (isLabel : label.kind = .label) (split : tokens = before ++ label :: after) :
    ∃ outer opener closer rest, before = outer ++ [opener] ∧ after = closer :: rest ∧
      ∃ front inside back, source = front ++ opener.text.toList ++ inside ++ closer.text.toList ++ back ∧
        Enclosed front inside opener label closer := by
  induction laid generalizing before with
  | done =>
    cases before with
    | nil =>
      obtain ⟨rfl, -⟩ := List.cons.inj split
      cases isLabel
    | cons => simp at split
  | @mark _ _ _ token _ _ _ noLabel _ _ _ ih =>
    cases before with
    | nil =>
      obtain ⟨rfl, -⟩ := List.cons.inj split
      exact absurd isLabel noLabel
    | cons first before =>
      obtain ⟨outer, opener, closer, rest, rfl, isAfter, enclosed⟩ := ih (List.cons.inj split).2
      exact ⟨first :: outer, opener, closer, rest, rfl, isAfter, enclosed⟩
  | @label front gap inside back opener inner closer more text _ enclosed _ ih =>
    have kinds := kinds_of_enclosed enclosed
    match before with
    | [] =>
      obtain ⟨rfl, -⟩ := List.cons.inj split
      exact absurd isLabel (kinds opener (by simp)).1
    | [first] =>
      simp only [List.cons_append, List.nil_append, List.cons.injEq] at split
      obtain ⟨rfl, rfl, rfl⟩ := split
      exact ⟨[], opener, closer, more, rfl, rfl, front ++ gap, inside, back, text, enclosed⟩
    | [first, second] =>
      simp only [List.cons_append, List.nil_append, List.cons.injEq] at split
      obtain ⟨rfl, rfl, rfl, rfl⟩ := split
      exact absurd isLabel (kinds closer (by simp)).1
    | first :: second :: third :: before =>
      simp only [List.cons_append, List.cons.injEq] at split
      obtain ⟨-, -, -, split⟩ := split
      obtain ⟨outer, opener, closer, rest, rfl, isAfter, enclosed⟩ := ih split
      exact ⟨first :: second :: third :: outer, opener, closer, rest, rfl, isAfter, enclosed⟩

/-- Every character behind the given ones is held, or skipped with all of the comment that leads up to it. -/
def Covers (source front : List Char) (tokens : List Token) : Prop :=
  ∀ before c after, source = front ++ before ++ c :: after → Held tokens (front ++ before).length ∨ IsGap c ∨
    ∃ outer lead, before = outer ++ lead ∧ InComment lead c after ∧
      ∀ place, (front ++ outer).length ≤ place → place ≤ (front ++ before).length → ¬Held tokens place

/-- What stands in front of the tokens is free. -/
theorem not_held_of_laid {place : Nat} (laid : Laid source front tokens) (isBefore : place < front.length) :
    ¬Held tokens place := by
  rintro ⟨extent, mem, start, -⟩
  obtain ⟨token, isToken, isStart⟩ := start_of_mem_extents mem
  have := (ordered_of_laid laid).1 token isToken
  omega

/-- Where no token starts in a gap, what the gap skips is covered. -/
theorem covered_of_gap {gap before after more behind : List Char} {c : Char} (skipped : Skipped gap)
    (free : ∀ place, place < (front ++ gap).length → ¬Held tokens place) (isGap : gap = before ++ c :: more)
    (isAfter : after = more ++ behind) : IsGap c ∨ ∃ outer lead, before = outer ++ lead ∧ InComment lead c after ∧
      ∀ place, (front ++ outer).length ≤ place → place ≤ (front ++ before).length → ¬Held tokens place := by
  rcases skipped before c more isGap with blank | ⟨outer, lead, isBefore, opens, open_⟩
  · exact .inl blank
  · refine .inr ⟨outer, lead, isBefore, ⟨?_, open_⟩, ?_⟩
    · rw [isAfter, ← List.cons_append, ← List.append_assoc]
      exact opens.trans (List.prefix_append _ _)
    · intro place _ bound
      refine free place ?_
      simp only [isGap, List.length_append, List.length_cons] at bound ⊢
      omega

/-- One gap and one extent behind it carry the covering on from what follows them. -/
theorem covers_of_extent {gap text rest : List Char} {more : List Token} (split : source = front ++ gap ++ text ++ rest)
    (skipped : Skipped gap) (isFirst : extents tokens =
      (((front ++ gap).length : Int), ((front ++ gap ++ text).length : Int)) :: extents more)
    (laid : Laid source (front ++ gap ++ text) more) (covers : Covers source (front ++ gap ++ text) more) :
    Covers source front tokens := by
  intro before c after isPlace
  rw [isPlace] at split
  -- The place lies in the gap, in the extent or behind both.
  have behindFront : gap ++ (text ++ rest) = before ++ c :: after := by simpa using split.symm
  rcases append_eq_append_cons behindFront with ⟨inGap, isGap, isAfter⟩ | ⟨within, rfl, behindGap⟩
  · refine .inr (covered_of_gap skipped ?_ isGap isAfter)
    intro place isBefore
    rw [held_iff isFirst, not_or]
    refine ⟨by omega, not_held_of_laid laid ?_⟩
    simp only [List.length_append] at isBefore ⊢
    omega
  · rcases append_eq_append_cons behindGap with ⟨inText, isText, -⟩ | ⟨less, rfl, -⟩
    · refine .inl ((held_iff isFirst).2 (.inl ?_))
      simp only [isText, List.length_append, List.length_cons]
      omega
    · rcases covers less c after (by simpa using isPlace) with held | blank | ⟨outer, lead, rfl, comment, free⟩
      · exact .inl ((held_iff isFirst).2 (.inr (by simpa using held)))
      · exact .inr (.inl blank)
      · refine .inr (.inr ⟨gap ++ (text ++ outer), lead, by simp, comment, ?_⟩)
        intro place start stop
        rw [held_iff isFirst, not_or]
        refine ⟨?_, free place (by simpa using start) (by simpa using stop)⟩
        simp only [List.length_append] at start ⊢
        omega

theorem covers_of_laid (laid : Laid source front tokens) : Covers source front tokens := by
  induction laid with
  | @done front gap split skipped =>
    intro before c after isPlace
    have isGap : gap = before ++ c :: after := by simpa [split] using isPlace
    refine .inr (covered_of_gap skipped ?_ isGap (List.append_nil _).symm)
    rintro place isBefore ⟨extent, mem, start, stop⟩
    rw [← split] at isBefore
    cases List.mem_singleton.1 mem
    simp only [behind] at start
    omega
  | mark split skipped _ _ place laid ih =>
    refine covers_of_extent split skipped ?_ laid ih
    rw [extents_cons (head_of_laid laid), offset_stop place, place]
    rfl
  | @label front gap inside back opener label closer more split skipped enclosed laid ih =>
    have whole : source = front ++ gap ++ (opener.text.toList ++ inside ++ closer.text.toList) ++ back := by
      simpa using split
    simp only [List.append_assoc (front ++ gap)] at laid ih
    refine covers_of_extent whole skipped ?_ laid ih
    rw [extents_label enclosed.kind, offset_stop enclosed.closerAt, enclosed.openerAt]
    simp [behind]

end laid

/-- A source is accounted for by its tokens, or the error lies at one of its places. -/
theorem accounts_of_scan (source : String) :
    match scan source with
    | .ok tokens => Accounts source.toList tokens
    | .error error => ∃ front, front <+: source.toList ∧ error.position = .behind front := by
  cases scanned : scan source with
  | error error => exact within_start (place_of_scanFrom_error scanned)
  | ok tokens =>
    have isStart : Position.start = .behind [] := rfl
    have laid : Laid source.toList [] tokens := laid_of_scanFrom isStart scanned
    constructor
    · exact ends_of_laid laid
    · exact (ordered_of_laid laid).2
    · exact fun token mem => within_start ((places_of_scanFrom scanned).1 token mem)
    · exact verbatim_of_laid laid
    · exact fun before label after split isLabel => labels_of_laid laid isLabel split
    · exact covers_of_laid laid

end Flowchart.Token
