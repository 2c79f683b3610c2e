import Flowchart.Editor
import Flowchart.Proofs.CommandLine.Acceptance
import Flowchart.Proofs.Diagram.Texts
import Flowchart.Proofs.Render
import Flowchart.Proofs.Token.Coverage

/-!
About which texts the repair service is asked. Picture and repair come from one run over the text, so the service is
told the very error that is shown. They part at blank texts: those show no error, but they have no diagram either, and
the service is asked about them too.
-/
namespace Flowchart

section declaration

open Grammar

variable {source : String} {diagram : Diagram}

theorem Grammar.declares_of_opened {direction : Direction} {span : Span} {tokens : List Token}
    {blocks : List Feed.Block} {done : List Statement} (opened : Opened direction span tokens blocks done) :
    ∃ word ∈ tokens, word.Declares := by
  induction opened with
  | declared _ declaration =>
    cases declaration with
    | plain declares => exact ⟨_, by simp, declares⟩
    | directed declares => exact ⟨_, by simp, declares⟩
  | blank _ _ ih | sentence _ _ _ ih | header _ _ _ ih =>
    obtain ⟨word, mem, declares⟩ := ih
    exact ⟨word, List.mem_append_left _ mem, declares⟩

theorem Grammar.declares_of_document {tokens : List Token} (rule : Document tokens diagram) :
    ∃ word ∈ tokens, word.Declares := by
  cases rule with
  | intro opened isLine isFinal =>
    obtain ⟨word, mem, declares⟩ := declares_of_opened opened
    refine ⟨word, ?_, declares⟩
    -- The end of the input stands for the last line end, which declares nothing.
    rcases List.mem_append.1 mem with inside | isLast
    · exact List.mem_append_left _ inside
    · obtain rfl := List.mem_singleton.1 isLast
      rcases declares with ⟨isKind, -⟩ | ⟨isKind, -⟩ <;> cases isLine.symm.trans isKind

/-- Every diagram is declared by a word of its source. -/
theorem Diagram.declared_of_ofSource (read : ofSource source = .ok diagram) :
    "graph".toList <:+: source.toList ∨ "flowchart".toList <:+: source.toList := by
  obtain ⟨tokens, scanned, parsed⟩ := tokens_of_ofSource read
  have isStart : Position.start = .behind [] := rfl
  have laid : Token.Laid source.toList [] tokens := Token.laid_of_scanFrom isStart scanned
  obtain ⟨word, mem, declares⟩ := declares_of_document (document_of_ofTokens (Token.stream_of_scan scanned) parsed)
  have verbatim (noLabel : word.kind ≠ .label) : word.text.toList <:+: source.toList := by
    obtain ⟨front, back, split, -⟩ := Token.verbatim_of_laid laid word mem noLabel
    exact ⟨front, back, split.symm⟩
  rcases declares with ⟨isKind, isText⟩ | ⟨isKind, isText⟩
  · exact .inl (isText ▸ verbatim (by rw [isKind]; decide))
  · exact .inr (isText ▸ verbatim (by rw [isKind]; decide))

theorem Rendering.fails_of_blank (blank : Text.isBlankText source = true) (settings : Settings) (renderer : Renderer) :
    ∃ failure, (draw source settings renderer).error = some failure := by
  cases read : Diagram.ofSource source with
  | error failure =>
    refine ⟨failure, ?_⟩
    rw [draw, ofSource, graphOf_of_read_error read]
  | ok diagram =>
    have visible {word : List Char} (stands : word <:+: source.toList) : word.all Text.isBlank = true := by
      rw [List.all_eq_true]
      exact fun c mem => List.all_eq_true.1 blank c (stands.subset mem)
    rcases Diagram.declared_of_ofSource read with stands | stands
    · exact absurd (visible stands) (by decide)
    · exact absurd (visible stands) (by decide)

end declaration

namespace Editor

variable {settings : Settings} {keyPath : Path} {account : String → Repair.Account} {code key : String}
  {before : World}

/-- The text that a panel shows below its title. -/
def told? : Widget → Option String
  | .group _ _ [.label _ _ _, .label _ _ text] => some text
  | _ => none

/-- What the service is asked about a text, if it is asked at all. -/
def question? (settings : Settings) (account : Repair.Account) (code : String) : Option Repair.Request :=
  (Rendering.draw code settings .svg).error.map fun failure => account.request code failure.describe

/-- A key is stored, and there is an account for it. -/
structure Keyed (keyPath : Path) (account : String → Repair.Account) (world : World) (key : String) : Prop where
  stored : CommandLine.credentialsAt Yaml.load keyPath world = .ok (some key)
  usable : (account key).key ≠ ""

/-- A key that is stored is good enough for the account that the settings choose. -/
theorem keyed_of_stored {world : World} (stored : CommandLine.credentialsAt Yaml.load keyPath world = .ok (some key))
    (settings : Settings) : Keyed keyPath (Editor.account settings) world key :=
  ⟨stored, CommandLine.ne_empty_of_credentialsAt stored⟩

/-- Whether and what the service is asked, beside what is shown. -/
structure Asks (settings : Settings) (account : Repair.Account) (code : String) (before after : World) : Prop where
  /-- The service is asked about the texts that show an error, and about blank ones. -/
  asked_iff : after.requests ≠ before.requests ↔
    (view settings code).panel.isSome = true ∨ Text.isBlankText code = true
  /-- It is asked once, by the text that is shown. -/
  shown : ∀ panel, (view settings code).panel = some panel → ∃ message, told? panel = some message ∧
    after.requests = before.requests ++ [account.request code message]
  /-- A blank text has an error, which is not shown. -/
  blank : Text.isBlankText code = true → (view settings code).panel = none ∧
    ∃ failure, (Rendering.draw code settings .svg).error = some failure ∧
      after.requests = before.requests ++ [account.request code failure.describe]

/-- A file in which a key is kept. -/
def keyFile : Path := ⟨"/", ["key.yaml"]⟩

/-- Surroundings with a key, and a service that always has the same answer. -/
def surroundings : World where
  disk := { entries := [(["key.yaml"], .file "flowdraw_api_key: secret".toUTF8 0o600)] }
  outside := { service := fun _ _ => .ok (some "graph TD\nA") }

theorem keyed_surroundings : Keyed keyFile (Editor.account .standard) surroundings "secret" := by
  have found : Credentials.ofRead Yaml.load keyFile (.ok "flowdraw_api_key: secret") = .ok (some "secret") :=
    ok_of_toOption (by decide +kernel)
  have isText : surroundings.readText keyFile = .ok "flowdraw_api_key: secret" :=
    Disk.readText_of_read rfl (by decide)
  have isPresent : surroundings.isPresent keyFile = .ok true := rfl
  refine keyed_of_stored ?_ .standard
  rw [CommandLine.credentialsAt, isPresent, isText]
  exact found

theorem run_bind_of_run {α β : Type} {first : Machine α} {next : α → Machine β} {a : α} {between : World}
    (runs : first.run before = (a, between)) : (first >>= next).run before = (next a).run between := by
  rw [StateT.run_bind, runs]
  rfl

theorem requests_fix (keyed : Keyed keyPath account before key) (settings : Settings) (code : String) :
    ((fix settings keyPath account code : Machine _).run before).2.requests =
      before.requests ++ (question? settings (account key) code).toList := by
  obtain ⟨between, loads, untouched⟩ := CommandLine.run_load Yaml.load keyPath before
  rw [fix, question?]
  cases (Rendering.draw code settings .svg).error with
  | none => exact (List.append_nil _).symm
  | some failure =>
    have asked := CommandLine.run_correct keyed.usable code failure between
    rw [keyed.stored] at loads
    dsimp only
    rw [run_bind_of_run loads, run_bind_of_run asked, ← untouched.requests]
    cases Except.map (Suggestion.ofTexts code) (Repair.ofAnswer _) <;> rfl

theorem panel_view (settings : Settings) (code : String) : (view settings code).panel =
    if Text.isBlankText code then none else (Rendering.draw code settings .svg).error.map errorPanel := by
  rw [view]
  split
  · rfl
  · dsimp only
    cases (Rendering.draw code settings .svg).error <;> rfl

theorem asks_of_requests {after : World} {account : Repair.Account}
    (requests : after.requests = before.requests ++ (question? settings account code).toList) :
    Asks settings account code before after := by
  have panel := panel_view settings code
  cases error : (Rendering.draw code settings .svg).error with
  | none =>
    have visible : Text.isBlankText code = false := by
      refine Bool.eq_false_iff.2 fun blank => ?_
      obtain ⟨failure, fails⟩ := Rendering.fails_of_blank blank settings .svg
      rw [error] at fails
      cases fails
    rw [question?, error] at requests
    rw [visible, error] at panel
    refine ⟨?_, ?_, ?_⟩
    · simp [requests, panel, visible]
    · simp [panel]
    · simp [visible]
  | some failure =>
    rw [question?, error] at requests
    have asked : after.requests = before.requests ++ [account.request code failure.describe] := requests
    refine ⟨?_, ?_, fun blank => ⟨?_, failure, error, asked⟩⟩
    · cases blank : Text.isBlankText code <;> simp [asked, panel, blank, error]
    · intro shown isShown
      rw [panel] at isShown
      split at isShown
      · cases isShown
      · rw [error] at isShown
        obtain rfl := Option.some.inj isShown
        exact ⟨failure.describe, rfl, asked⟩
    · rw [panel, if_pos blank]

/-- With a key that can be used, the service is asked about just the texts that show an error and the blank ones, once,
and by the very error that is shown. -/
theorem asks_fix (keyed : Keyed keyPath account before key) (settings : Settings) (code : String) :
    Asks settings (account key) code before ((fix settings keyPath account code : Machine _).run before).2 :=
  asks_of_requests (requests_fix keyed settings code)

/-- A text with an error that is shown. -/
theorem asks_fix_bracket : ∃ message,
    ((view .standard "graph TD\nA[").panel.bind told?) = some message ∧
      ((fix .standard keyFile (Editor.account .standard) "graph TD\nA[" : Machine _).run surroundings).2.requests =
        [(Editor.account .standard "secret").request "graph TD\nA[" message] := by
  have asks := asks_fix keyed_surroundings .standard "graph TD\nA["
  have isShown : (view .standard "graph TD\nA[").panel.isSome = true := by decide +kernel
  obtain ⟨panel, isPanel⟩ := Option.isSome_iff_exists.1 isShown
  obtain ⟨message, told, asked⟩ := asks.shown panel isPanel
  exact ⟨message, by rw [isPanel]; exact told, asked⟩

/-- The service is asked about the errors that are shown, and about no others. -/
structure AsksShown (settings : Settings) (account : Repair.Account) (code : String) (before after : World) :
    Prop where
  asked_iff : after.requests ≠ before.requests ↔ (view settings code).panel.isSome = true
  told : ∀ panel, (view settings code).panel = some panel → ∃ message, told? panel = some message ∧
    after.requests = before.requests ++ [account.request code message]

/-- On the empty text nothing is shown, and the service is asked about a declaration that is missing. -/
theorem not_asksShown_fix_empty :
    let after := ((fix .standard keyFile (Editor.account .standard) "" : Machine _).run surroundings).2
    Keyed keyFile (Editor.account .standard) surroundings "secret" ∧
      ¬AsksShown .standard (Editor.account .standard "secret") "" surroundings after := by
  intro after
  refine ⟨keyed_surroundings, fun asksShown => ?_⟩
  have asks : Asks .standard (Editor.account .standard "secret") "" surroundings after :=
    asks_of_requests (requests_fix keyed_surroundings .standard "")
  have isBlank : Text.isBlankText "" = true := by decide
  have shown := asksShown.asked_iff.1 (asks.asked_iff.2 (.inr isBlank))
  rw [(asks.blank isBlank).1] at shown
  cases shown

end Editor
end Flowchart
