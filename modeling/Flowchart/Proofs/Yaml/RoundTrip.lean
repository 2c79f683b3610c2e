import Flowchart.Proofs.Yaml.Entry
import Flowchart.Text.Alphanumeric
import Flowchart.Yaml.Value

/-!
From the characters of a mapping with a single entry back to its data: the tokens, the tree and the data.
-/
namespace Flowchart.Yaml

open Text (CodePoint codePoints)

/-- A word that needs no quotes as a key. -/
structure IsKey (key : String) : Prop where
  ne_nil : key.toList ≠ []
  chars : ∀ c ∈ key.toList, c.isAlphanum = true ∨ c = '_'
  short : key.toList.length ≤ 1024
  isText : Form.ofPlain key = .text

/-- The characters of keys lie between the blank and the tilde. -/
theorem visible_of_isAlphanum {c : Char} (h : c.isAlphanum = true ∨ c = '_') : ' ' < c ∧ c ≤ '~' := by
  obtain h | rfl := h
  · obtain ⟨least, most⟩ := Text.bounds_of_isAlphanum h
    have bounds : 32 < c.toNat ∧ c.toNat ≤ 126 := by omega
    exact bounds
  · decide

theorem IsKey.isPlainWord {key : String} (isKey : IsKey key) : Scalar.IsPlainWord key.toList where
  ne_nil := isKey.ne_nil
  noGap c mem := by
    obtain ⟨least, most⟩ := visible_of_isAlphanum (isKey.chars c mem)
    exact isGap_of_visible least most
  noMark c mem := by
    rintro rfl
    exact absurd (isKey.chars _ mem) (by decide)
  noHash first := absurd (isKey.chars _ (List.mem_of_mem_head? first)) (by decide)
  noColon last := absurd (isKey.chars _ (List.mem_of_mem_getLast? last)) (by decide)

namespace Lexer

/-- Behind the colon of the only entry. -/
structure AwaitsValue (lexer : Lexer) (rest : List Char) : Prop where
  rest : lexer.cursor.rest = rest
  flow : lexer.flow = 0
  indents : lexer.indents = [0]
  keys : lexer.keys = []
  allowKey : lexer.allowKey = false

variable {lexer : Lexer}

theorem skipIgnored_of_solid {c : Char} {more : List Char} (fuel : Nat) (noGap : isGap c = false) (noHash : c ≠ '#')
    (eq : lexer.cursor.rest = c :: more) : lexer.skipIgnored (fuel + 1) = lexer := by
  have differs : c ≠ ' ' := by
    rintro rfl
    simp [isGap, isSpaceOrEnd] at noGap
  simp [skipIgnored, Cursor.skip, Cursor.span, eq, differs, Cursor.forward, Cursor.skipComment, Cursor.peek, noHash,
    isBreak_of_not_isGap noGap]

theorem skipIgnored_of_space {c : Char} {more : List Char} (fuel : Nat) (noGap : isGap c = false) (noHash : c ≠ '#')
    (eq : lexer.cursor.rest = ' ' :: c :: more) :
    lexer.skipIgnored (fuel + 1) = { lexer with cursor := lexer.cursor.step } := by
  have differs : c ≠ ' ' := by
    rintro rfl
    simp [isGap, isSpaceOrEnd] at noGap
  have stepped : lexer.cursor.step.rest = c :: more := Cursor.rest_step eq
  simp [skipIgnored, Cursor.skip, Cursor.span, eq, differs, Cursor.forward, Cursor.skipComment, Cursor.peek, noHash,
    isBreak_of_not_isGap noGap, stepped]

theorem dropStale_nil (keys : lexer.keys = []) : lexer.dropStale = .ok lexer := by
  obtain ⟨cursor, tokens, flow, indents, allowKey, keys'⟩ := lexer
  obtain rfl : keys' = [] := keys
  rfl

theorem unwind_column (column : Nat) (indents : lexer.indents = [0]) : lexer.unwind column = lexer := by
  obtain ⟨cursor, tokens, flow, indents', allowKey, keys'⟩ := lexer
  obtain rfl : indents' = [0] := indents
  simp [unwind]

/-- A last line end is ignored. -/
theorem skipIgnored_end (rest : lexer.cursor.rest = [] ∨ lexer.cursor.rest = ['\n']) : ∃ cursor allowKey,
    cursor.rest = [] ∧
      lexer.skipIgnored (lexer.cursor.rest.length + 1) = { lexer with cursor := cursor, allowKey := allowKey } := by
  obtain ⟨cursor, tokens, flow, indents, allowKey, keys⟩ := lexer
  obtain ⟨chars, index, line, column⟩ := cursor
  obtain rfl | rfl : chars = [] ∨ chars = ['\n'] := rest
  · exact ⟨⟨[], index, line, column⟩, allowKey, rfl, rfl⟩
  · refine ⟨⟨[], index + 1, line + 1, 0⟩, allowKey || flow = 0, rfl, ?_⟩
    simp [skipIgnored, Cursor.skip, Cursor.span, Cursor.forward, Cursor.skipComment, Cursor.peek, isBreak,
      Cursor.lineBreak, Cursor.step]

/-- One round of the lexer, once it is known what is ignored and that nothing is forgotten or closed. -/
theorem turn_eq {next : Lexer} (skipped : lexer.skipIgnored (lexer.cursor.rest.length + 1) = next)
    (fresh : next.dropStale = .ok next) (unwound : next.unwind next.cursor.column = next) :
    lexer.turn =
      match next.cursor.rest with
      | [] => next.closeAll.map fun closed => (false, closed.push .streamEnd)
      | c :: _ => (next.next c).map (true, ·) := by
  rw [turn, skipped, fresh]
  simp only [bind, Except.bind, unwound]
  cases next.cursor.rest with
  | nil => cases next.closeAll <;> rfl
  | cons c more => cases next.next c <;> rfl

/-- One round in front of a token. -/
theorem run_read {next behind : Lexer} {c : Char} {more : List Char} (fuel : Nat)
    (skipped : lexer.skipIgnored (lexer.cursor.rest.length + 1) = next) (fresh : next.dropStale = .ok next)
    (unwound : next.unwind next.cursor.column = next) (rest : next.cursor.rest = c :: more)
    (read : next.next c = .ok behind) : lexer.run (fuel + 1) = behind.run fuel := by
  simp [run, turn_eq skipped fresh unwound, rest, read, Except.map, resume]

/-- The end of the text closes the mapping. -/
theorem run_end (fuel : Nat) (flow : lexer.flow = 0) (indents : lexer.indents = [0]) (keys : lexer.keys = [])
    (rest : lexer.cursor.rest = [] ∨ lexer.cursor.rest = ['\n']) :
    lexer.run (fuel + 1) = lexer.tokens.toList ++ [.blockEnd, .streamEnd] := by
  obtain ⟨cursor, allowKey, atEnd, skipped⟩ := skipIgnored_end rest
  rw [run, turn_eq skipped (dropStale_nil keys) (unwind_column _ indents)]
  simp [atEnd, closeAll, unwind, flow, indents, dropKey, key?, keys, push, Except.map, resume]

/-- The value is read as a single scalar. -/
theorem run_value {c : Char} {written : List Char} {text : List CodePoint} {plain : Bool} (fuel : Nat)
    (noGap : isGap c = false) (noHash : c ≠ '#') (awaits : AwaitsValue lexer (' ' :: c :: written))
    (read : ∀ inside : Lexer, AwaitsValue inside (c :: written) → inside.cursor.column ≠ 0 →
      ∃ (behind : Cursor) (allowKey : Bool), (behind.rest = [] ∨ behind.rest = ['\n']) ∧
        inside.next c = .ok (inside.content (.scalar text plain) behind allowKey)) :
    lexer.run (fuel + 2) = lexer.tokens.toList ++ [.scalar text plain, .blockEnd, .streamEnd] := by
  have stepped := Cursor.rest_step awaits.rest
  have inLine : lexer.cursor.step.column ≠ 0 := by
    simp [Cursor.step, awaits.rest]
  obtain ⟨behind, allowKey, atEnd, next⟩ := read { lexer with cursor := lexer.cursor.step }
    ⟨stepped, awaits.flow, awaits.indents, awaits.keys, awaits.allowKey⟩ inLine
  rw [run_read (fuel + 1) (skipIgnored_of_space _ noGap noHash awaits.rest) (dropStale_nil awaits.keys)
    (unwind_column _ awaits.indents) stepped next,
    run_end fuel (by exact awaits.flow) (by exact awaits.indents) (by exact awaits.keys) (by exact atEnd)]
  simp [content, push]

/-- Where no key is allowed, none is noted. -/
theorem saveKey_of_not_allowKey (allowKey : lexer.allowKey = false) : lexer.saveKey = .ok lexer := by
  simp [saveKey, allowKey, pure, Except.pure]

theorem next_quoted {text : String} {quote : Char} {written : List Char}
    (stands : Entry.StandsQuoted text quote written) (awaits : AwaitsValue lexer (quote :: written ++ ['\n']))
    (inLine : lexer.cursor.column ≠ 0) : ∃ behind : Cursor, behind.rest = ['\n'] ∧
    lexer.next quote = .ok (lexer.content (.scalar (codePoints text.toList) false) behind false) := by
  obtain ⟨behind, there, read⟩ := stands.reads lexer.cursor.step (lexer.cursor.rest.length + 1)
    (Cursor.rest_step awaits.rest) (by simp [awaits.rest])
  refine ⟨behind, there, ?_⟩
  have scalar : lexer.quotedScalar = .ok (lexer.content (.scalar (codePoints text.toList) false) behind false) := by
    rw [quotedScalar, saveKey_of_not_allowKey awaits.allowKey]
    simp only [bind, Except.bind, Scalar.quoted, Cursor.peek_of_rest awaits.rest, read]
    rfl
  obtain rfl | rfl := stands.isQuote <;> simp [next, inLine, scalar]

theorem next_plain {text : String} {c : Char} {written : List Char} (stands : Entry.StandsPlain text c written)
    (awaits : AwaitsValue lexer (c :: written ++ ['\n'])) (inLine : lexer.cursor.column ≠ 0) : ∃ behind : Cursor,
    behind.rest = [] ∧ lexer.next c = .ok (lexer.content (.scalar (codePoints text.toList) true) behind true) := by
  obtain ⟨behind, there, read⟩ := stands.reads lexer.cursor (lexer.cursor.rest.length + 1) [] false awaits.rest
    (by simp [awaits.rest])
  refine ⟨behind, there, ?_⟩
  have scalar : lexer.plainScalar = .ok (lexer.content (.scalar (codePoints text.toList) true) behind true) := by
    rw [plainScalar, saveKey_of_not_allowKey awaits.allowKey]
    simp [bind, Except.bind, Scalar.plain, awaits.flow, indent, awaits.indents, read]
    rfl
  have gapMark : Entry.isGapMark c = true → isGap (lexer.cursor.peek 1) = false := by
    rw [Cursor.peek_one awaits.rest]
    exact stands.noGapMark
  have noMark := stands.noMark
  have noGap := stands.noGap
  simp [Entry.isStartMark] at noMark
  cases mark : Entry.isGapMark c with
  | true =>
    have noGapBehind := gapMark mark
    simp only [Entry.isGapMark, Bool.or_eq_true, decide_eq_true_eq] at mark
    have starts : startsPlain false c (lexer.cursor.peek 1) = true := by
      obtain (rfl | rfl) | rfl := mark <;> simp [startsPlain, noGapBehind]
    simp [next, inLine, noMark, noGapBehind, starts, scalar, awaits.flow]
  | false =>
    simp only [Entry.isGapMark, Bool.or_eq_false_iff, decide_eq_false_iff_not] at mark
    simp [next, inLine, noMark, startsPlain, mark, scalar, awaits.flow, noGap, isIndicator]

/-- The lexer in front of an entry, behind its key and behind the colon. -/
def atKey (key : String) (written : List Char) : Lexer :=
  { cursor := ⟨key.toList ++ ':' :: ' ' :: written, 0, 0, 0⟩ }

def behindKey (key : String) (written : List Char) : Lexer where
  cursor := ⟨':' :: ' ' :: written, key.toList.length, 0, key.toList.length⟩
  tokens := #[.scalar (codePoints key.toList) true]
  allowKey := false
  keys := [(0, ⟨0, false, 0, 0, 0⟩)]

def behindColon (key : String) (written : List Char) : Lexer where
  cursor := ⟨' ' :: written, key.toList.length + 1, 0, key.toList.length + 1⟩
  tokens := #[.blockMappingStart, .key, .scalar (codePoints key.toList) true, .value]
  indents := [0]
  allowKey := false

theorem atSeparator_key {c : Char} {more : List Char} (noHyphen : c ≠ '-') (noPoint : c ≠ '.') :
    (⟨c :: more, 0, 0, 0⟩ : Cursor).atSeparator = false := by
  simp [Cursor.atSeparator, noHyphen, noPoint]

theorem plain_key {key : String} (isKey : IsKey key) (written : List Char) :
    (atKey key written).plainScalar = .ok (behindKey key written) := by
  have read : Scalar.plain false 0 (atKey key written).cursor =
      (key.toList, false, (behindKey key written).cursor) := by
    have stops : Scalar.plainWord false (':' :: ' ' :: written) = [] := by
      simp [Scalar.plainWord, isGap, isSpaceOrEnd]
    rw [Scalar.plain, atKey, Scalar.plainFrom_word 0 _ _ _ isKey.isPlainWord stops rfl, isKey.isPlainWord.forward rfl]
    simp [Scalar.plainSpaces, Cursor.span, Cursor.forward, Cursor.peek, isBreak, behindKey]
  simp only [atKey, behindKey] at read
  simp [atKey, behindKey, plainScalar, saveKey, dropKey, key?, indent, bind, Except.bind, pure, Except.pure, read,
    content, push]

/-- A key at the head of the text is read as a plain scalar, and its place is noted. -/
theorem next_key {key : String} (isKey : IsKey key) {c : Char} {more : List Char} (written : List Char)
    (eq : key.toList = c :: more) : (atKey key written).next c = .ok (behindKey key written) := by
  have isKeyChar := isKey.chars c (by simp [eq])
  have noMark : isIndicator c = false := by
    have none : ("-?:,[]\x7b\x7d#&*!|>'\"%@\x60".toList.all fun d => !(d.isAlphanum || d == '_')) = true := by decide
    rw [isIndicator, ← Bool.not_eq_true, List.contains_iff_mem]
    intro mem
    have isNone := List.all_eq_true.1 none c mem
    rcases isKeyChar with isAlphanum | rfl
    · simp [isAlphanum] at isNone
    · simp at isNone
  have starts (next : Char) : startsPlain false c next = true := by
    simp [startsPlain, noMark, isKey.isPlainWord.noGap c (by simp [eq])]
  have noPoint : c ≠ '.' := by
    rintro rfl
    exact absurd isKeyChar (by decide)
  have scalar := plain_key isKey written
  simp [isIndicator] at noMark
  simp only [atKey, eq, List.cons_append] at scalar ⊢
  simp [next, atSeparator_key noMark.1 noPoint, starts, scalar, noMark]

/-- The colon behind a key puts the marks of a mapping and of a key in front of it. -/
theorem next_colon {key : String} (written : List Char) (ne : key.toList ≠ []) :
    (behindKey key written).next ':' = .ok (behindColon key written) := by
  have inLine : key.toList.length ≠ 0 := by simpa using ne
  have gap : isGap ((behindKey key written).cursor.peek 1) = true := rfl
  have column : (behindKey key written).cursor.column ≠ 0 := inLine
  simp [next, column, gap]
  simp [value, behindKey, key?, openBlock, indent, mark, push, Cursor.forward, Cursor.step, behindColon,
    Array.insertIdxIfInBounds, pure, Except.pure]

/-- The lexer comes to the value. -/
theorem run_key {key : String} (isKey : IsKey key) (fuel : Nat) (written : List Char) :
    (atKey key written).run (fuel + 2) = (behindColon key written).run fuel := by
  obtain ⟨c, more, eq⟩ := List.exists_cons_of_ne_nil isKey.ne_nil
  have noGap := isKey.isPlainWord.noGap c (by simp [eq])
  have noHash : c ≠ '#' := by
    rintro rfl
    exact isKey.isPlainWord.noHash (by simp [eq])
  have start : (atKey key written).cursor.rest = c :: (more ++ ':' :: ' ' :: written) := by simp [atKey, eq]
  have colon : (behindKey key written).cursor.rest = ':' :: ' ' :: written := rfl
  have fresh : (behindKey key written).dropStale = .ok (behindKey key written) := by
    simpa [dropStale, behindKey, isStale] using isKey.short
  rw [run_read (fuel + 1) (skipIgnored_of_solid _ noGap noHash start) rfl rfl start (next_key isKey written eq),
    run_read fuel (skipIgnored_of_solid _ rfl (by decide) colon) fresh rfl colon (next_colon written isKey.ne_nil)]

end Lexer

theorem isAllowed_of_isWritten {c : Char} (isWritten : Entry.IsWritten c) : Token.isAllowed c = true := by
  obtain visible | rfl := isWritten
  · simp only [Entry.isVisible, Bool.and_eq_true, decide_eq_true_eq] at visible
    have bounds : 32 ≤ c.toNat ∧ c.toNat ≤ 126 := visible
    simp [Token.isAllowed, bounds]
  · rfl

/-- A text that begins with a key and a colon is read from the key on. -/
theorem scan_entry {key : String} (isKey : IsKey key) {written : List Char}
    (isWritten : ∀ c ∈ written, Entry.IsWritten c) :
    Token.scan (key.toList ++ ':' :: ' ' :: written) =
      (Lexer.atKey key written).run ((key.toList ++ ':' :: ' ' :: written).length + 1) := by
  have allowed : ∀ c ∈ key.toList ++ ':' :: ' ' :: written, Token.isAllowed c = true := by
    refine List.forall_mem_append.2 ⟨fun c mem => isAllowed_of_isWritten (.inl ?_), ?_⟩
    · obtain ⟨least, most⟩ := visible_of_isAlphanum (isKey.chars c mem)
      simp [Entry.isVisible, Std.le_of_lt least, most]
    · simp only [List.forall_mem_cons]
      exact ⟨rfl, rfl, fun c mem => isAllowed_of_isWritten (isWritten c mem)⟩
  obtain ⟨c, more, eq⟩ := List.exists_cons_of_ne_nil isKey.ne_nil
  have noMark : (Lexer.atKey key written).cursor.peek ≠ '\uFEFF' := by
    have start : (Lexer.atKey key written).cursor.rest = c :: (more ++ ':' :: ' ' :: written) := by
      simp [Lexer.atKey, eq]
    rw [Cursor.peek_of_rest start]
    exact isKey.isPlainWord.noMark c (by simp [eq])
  simp only [Lexer.atKey] at noMark ⊢
  simp only [Token.scan, List.all_eq_true.2 allowed, Bool.not_true, Bool.false_eq_true, if_false, noMark]

/-- An entry whose value is read as a single scalar. -/
theorem scan_scalar {key : String} {text : List CodePoint} {c : Char} {written : List Char} {plain : Bool}
    (isKey : IsKey key) (noGap : isGap c = false) (noHash : c ≠ '#')
    (isWritten : ∀ d ∈ c :: written, Entry.IsWritten d)
    (read : ∀ lexer : Lexer, lexer.AwaitsValue (c :: written ++ ['\n']) → lexer.cursor.column ≠ 0 →
      ∃ (behind : Cursor) (allowKey : Bool), (behind.rest = [] ∨ behind.rest = ['\n']) ∧
        lexer.next c = .ok (lexer.content (.scalar text plain) behind allowKey)) :
    Token.scan (key.toList ++ ':' :: ' ' :: c :: written ++ ['\n']) =
      [.blockMappingStart, .key, .scalar (codePoints key.toList) true, .value, .scalar text plain, .blockEnd,
        .streamEnd] := by
  have ended : ∀ d ∈ c :: (written ++ ['\n']), Entry.IsWritten d := by
    rw [← List.cons_append]
    exact List.forall_mem_append.2 ⟨isWritten, by simp [Entry.IsWritten]⟩
  obtain ⟨n, enough⟩ : ∃ n, (key.toList ++ ':' :: ' ' :: c :: (written ++ ['\n'])).length + 1 = n + 4 :=
    ⟨key.toList.length + written.length + 1, by simp; omega⟩
  rw [show key.toList ++ ':' :: ' ' :: c :: written ++ ['\n'] =
      key.toList ++ ':' :: ' ' :: c :: (written ++ ['\n']) by simp,
    scan_entry isKey ended, enough, Lexer.run_key isKey]
  exact Lexer.run_value n noGap noHash ⟨rfl, rfl, rfl, rfl, rfl⟩ read

theorem scan_render {key : String} (isKey : IsKey key) (text : String) : ∃ plain,
    (plain = true → Form.ofPlain text = .text) ∧ Token.scan (Entry.render key text).toList =
      [.blockMappingStart, .key, .scalar (codePoints key.toList) true, .value,
        .scalar (codePoints text.toList) plain, .blockEnd, .streamEnd] := by
  rw [Entry.render, String.toList_ofList]
  obtain ⟨quote, written, eq, stands⟩ | ⟨c, written, eq, stands⟩ := Entry.value_cases (key.length + 1) text
  · refine ⟨false, by simp, ?_⟩
    have isQuote : isGap quote = false ∧ quote ≠ '#' ∧ Entry.IsWritten quote := by
      obtain rfl | rfl := stands.isQuote
      · exact ⟨rfl, by decide, .inl rfl⟩
      · exact ⟨rfl, by decide, .inl rfl⟩
    rw [eq]
    refine scan_scalar isKey isQuote.1 isQuote.2.1
      (List.forall_mem_cons.2 ⟨isQuote.2.2, stands.isWritten⟩) fun lexer here inLine => ?_
    obtain ⟨behind, there, next⟩ := Lexer.next_quoted stands here inLine
    exact ⟨behind, false, .inr there, next⟩
  · refine ⟨true, fun _ => stands.isText, ?_⟩
    have noHash : c ≠ '#' := by
      rintro rfl
      exact absurd stands.noMark (by decide)
    rw [eq]
    refine scan_scalar isKey stands.noGap noHash stands.isWritten fun lexer here inLine => ?_
    obtain ⟨behind, there, next⟩ := Lexer.next_plain stands here inLine
    exact ⟨behind, true, .inl there, next⟩

/-- Entries are written with visible characters and line feeds. -/
theorem isWritten_render {key : String} (isKey : IsKey key) (text : String) :
    ∀ c ∈ (Entry.render key text).toList, Entry.IsWritten c := by
  have isWritten : ∀ c ∈ Entry.value (key.length + 1) text, Entry.IsWritten c := by
    have space : Entry.IsWritten ' ' := .inl rfl
    obtain ⟨quote, written, eq, stands⟩ | ⟨c, written, eq, stands⟩ := Entry.value_cases (key.length + 1) text
    · have isQuote : Entry.IsWritten quote := by
        obtain rfl | rfl := stands.isQuote <;> exact .inl rfl
      rw [eq]
      exact List.forall_mem_cons.2 ⟨space, List.forall_mem_cons.2 ⟨isQuote, stands.isWritten⟩⟩
    · rw [eq]
      exact List.forall_mem_cons.2 ⟨space, stands.isWritten⟩
  rw [Entry.render, String.toList_ofList]
  simp only [List.forall_mem_append, List.forall_mem_cons]
  refine ⟨⟨fun c mem => .inl ?_, .inl rfl, isWritten⟩, .inr rfl, by simp⟩
  obtain ⟨least, most⟩ := visible_of_isAlphanum (isKey.chars c mem)
  simp [Entry.isVisible, Std.le_of_lt least, most]

theorem ofTokens_entry (key text : List CodePoint) (plain : Bool) :
    Node.ofTokens [.blockMappingStart, .key, .scalar key true, .value, .scalar text plain, .blockEnd, .streamEnd] =
      .ok (some (.mapping none [(.scalar none true key, .scalar none plain text)])) := by
  rfl

/-- Text is plain data, and holds nothing. -/
theorem inside_text {text : String} {plain : Bool} (fuel : Nat) (isText : plain = true → Form.ofPlain text = .text) :
    (Node.scalar none plain (codePoints text.toList)).kind? = some (.form .text) ∧
      Value.outside (fuel + 1) (.scalar none plain (codePoints text.toList)) = .ok (.text text) ∧
      Value.inside (fuel + 1) (.scalar none plain (codePoints text.toList)) = .ok (.text text, []) := by
  have kind : (Node.scalar none plain (codePoints text.toList)).kind? = some (.form .text) := by
    cases plain <;> simp [Node.kind?, isText]
  have outside : Value.outside (fuel + 1) (.scalar none plain (codePoints text.toList)) = .ok (.text text) := by
    simp [Value.outside, kind, Node.text, Value.ofText, bind, Except.bind, pure, Except.pure]
  exact ⟨kind, outside, by simp [Value.inside, kind, outside, bind, Except.bind, pure, Except.pure]⟩

theorem exhaust_leaf {node : Node} {value : Data} (fuel : Nat) (leaf : Value.inside (fuel + 1) node = .ok (value, [])) :
    Value.exhaust (fuel + 2) [node] = .ok () := by
  rw [Value.exhaust]
  simp [leaf, Value.exhaust, bind, Except.bind, pure, Except.pure]

/-- An entry is looked into in two rounds: the mapping, then its value. -/
theorem ofNode_entry {key text : String} {plain : Bool} (fuel : Nat) (isKey : Form.ofPlain key = .text)
    (isText : plain = true → Form.ofPlain text = .text) :
    Value.ofNode (fuel + 2)
        (.mapping none [(.scalar none true (codePoints key.toList), .scalar none plain (codePoints text.toList))]) =
      .ok (.mapping [(.text key, .text text)]) := by
  obtain ⟨kindKey, ofKey, -⟩ := inside_text (fuel + 1) fun (_ : true = true) => isKey
  obtain ⟨-, ofText, -⟩ := inside_text (fuel + 1) isText
  obtain ⟨-, -, inText⟩ := inside_text fuel isText
  have entries : Value.entriesOf (fuel + 2)
      (.mapping none [(.scalar none true (codePoints key.toList), .scalar none plain (codePoints text.toList))]) =
      .ok ([(.text key, .text text)], [.scalar none plain (codePoints text.toList)]) := by
    simp [Value.entriesOf, Value.flatten, kindKey, ofKey, ofText, Value.isKey, Value.put, pure, Except.pure, bind,
      Except.bind]
  simp [Value.ofNode, Value.inside, Node.kind?, entries, exhaust_leaf fuel inText, bind, Except.bind, pure, Except.pure]

/-- **A mapping with a single entry is read back as it was written**, whatever the text of its value. -/
theorem load_render {key : String} (isKey : IsKey key) (text : String) :
    load (Entry.render key text) = .ok (.mapping [(.text key, .text text)]) := by
  obtain ⟨plain, isText, scanned⟩ := scan_render isKey text
  simp only [load, scanned, bind, Except.bind, ofTokens_entry]
  exact ofNode_entry (4 * (Entry.render key text).toList.length + 14) isKey.isText isText

end Flowchart.Yaml
