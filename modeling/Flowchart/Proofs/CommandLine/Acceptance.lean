import Flowchart.Proofs.CommandLine.Findings
import Flowchart.Proofs.Files.Disk
import Flowchart.Proofs.Related

/-!
What the repair of a file leaves on the disk: a suggestion takes the place of the file if it is accepted and there is
one that can be written, and in all other cases everything stays as it is, unless the write was cut off on its way.
-/
namespace Flowchart.CommandLine

variable {α β : Type} {context : Context} {config : Option Path} {input : Path} {before between after : World}

/-- A text is suggested for a file: there are settings, the file fails with them, there is a key, and the service
answers with a text that is not blank and not that of the file. -/
inductive Proposes (context : Context) (config : Option Path) (input : Path) (world : World) : String → Prop where
  | intro {settings : Settings} {source key answer : String} {failure : Failure} :
      settingsIn context config world = .ok settings →
      world.readText input = .ok source →
      (Rendering.draw source settings .svg).error = some failure →
      keyIn context world = .ok key →
      world.outside.service world.requests (Repair.Account.request
        { key, model := settings.aiModel, temperature := settings.aiTemperature } source failure.describe) =
        .ok (some answer) →
      Repair.clean answer ≠ "" → Repair.clean answer ≠ source →
      Proposes context config input world (Repair.clean answer)

section parts

theorem clean_empty : Repair.clean "" = "" := by
  decide

/-- The answers that come to a text. -/
theorem ofAnswer_eq_ok {answer : Except String (Option String)} {text : String}
    (isText : Repair.ofAnswer answer = .ok text) :
    ∃ said, answer = .ok (some said) ∧ Repair.clean said = text ∧ text ≠ "" := by
  cases answer with
  | error reason => cases isText
  | ok said =>
    rw [Repair.ofAnswer] at isText
    by_cases blank : Repair.clean (said.getD "") = ""
    · rw [if_pos blank] at isText
      cases isText
    · rw [if_neg blank] at isText
      cases said with
      | none => exact absurd clean_empty blank
      | some said =>
        obtain rfl := Except.ok.inj isText
        exact ⟨said, rfl, rfl, blank⟩

/-- That there is no suggestion is told, and logged if the service failed. -/
theorem finds_repairError (context : Context) (error : Repair.Error) (before : World) : Finds (do
    if let .failed reason := error then
      log context ⟨.error, repairOrigin, s!"Repair request failed: {reason}"⟩
    fail error.message : Step Machine Suggestion) before (.error (.code 1)) := by
  cases error with
  | failed reason => exact (finds_log context _ before).bind fun between _ => finds_fail _ between
  | _ => exact finds_fail _ before

/-- A service is asked once about a failure, by the text of the failure. -/
theorem run_correct {account : Repair.Account} (isKey : account.key ≠ "") (source : String) (failure : Failure)
    (world : World) : (Repair.suggest (Repair.correct account) source failure : Machine _).run world =
      ((Repair.ofAnswer (world.outside.service world.requests (account.request source failure.describe))).map
        (Suggestion.ofTexts source),
        { world with requests := world.requests ++ [account.request source failure.describe] }) := by
  rw [Repair.suggest, Repair.correct, if_neg isKey]
  rfl

/-- Asking leaves the files as they are. -/
theorem run_suggest (context : Context) (settings : Settings) {key : String} (isKey : key ≠ "") (source : String)
    (failure : Failure) (before : World) : ∃ after,
      StateT.run (ExceptT.run (suggest context settings key source failure : Step Machine Suggestion)) before =
        (((Repair.ofAnswer (before.outside.service before.requests (Repair.Account.request
          { key, model := settings.aiModel, temperature := settings.aiTemperature } source failure.describe))).map
            (Suggestion.ofTexts source)).mapError fun _ => .code 1, after) ∧ Steady before after := by
  let account : Repair.Account := { key, model := settings.aiModel, temperature := settings.aiTemperature }
  obtain ⟨between, runs, untouched⟩ :=
    finds_log context ⟨.debug, repairOrigin, s!"Requesting repair from {account.model}"⟩ before
  unfold suggest
  dsimp only
  rw [run_bind, runs]
  dsimp only
  rw [run_lift, run_correct isKey, untouched.outside, untouched.requests]
  generalize Repair.ofAnswer _ = answer
  cases answer with
  | ok text => exact ⟨_, rfl, untouched.disk, rfl, untouched.now⟩
  | error error =>
    obtain ⟨after, told, still⟩ := finds_repairError context error _
    exact ⟨after, told, still.disk.trans untouched.disk, still.outside, still.now.trans untouched.now⟩

end parts

section fix

variable {accept : Bool} {text : String}

/-- That a text could not be written. -/
def unwritable (path : Path) (error : FileError) : String :=
  s!"cannot write '{path}': {error.message}"

/-- The last line on the error output tells why a text could not be written. -/
def ToldUnwritable (path : Path) (error : FileError) (world : World) : Prop :=
  world.errors.getLast? = some (Colour.red.paint s!"Error: {unwritable path error}" ++ "\n")

/-- What the repair of a file leaves: the suggestion in its place, as far as it was written, or all as it was. -/
inductive Leaves (context : Context) (config : Option Path) (input : Path) (accept : Bool) (before : World) :
    Except Outcome Unit × World → Prop where
  | applied {text : String} {after : World} : accept = true → Proposes context config input before text →
      before.written input (text ++ "\n") = (.ok (), after.disk) →
      Leaves context config input accept before (.ok (), after)
  | failed {text : String} {error : FileError} {after : World} : accept = true →
      Proposes context config input before text → before.written input (text ++ "\n") = (.error error, after.disk) →
      ToldUnwritable input error after → Leaves context config input accept before (.error (.code 1), after)
  | kept {result : Except Outcome Unit} {after : World} : after.disk = before.disk →
      (accept = true → ∀ text, ¬Proposes context config input before text) →
      Leaves context config input accept before (result, after)

theorem Proposes.settings (proposes : Proposes context config input before text) :
    ∃ settings, settingsIn context config before = .ok settings := by
  cases proposes with
  | intro chosen => exact ⟨_, chosen⟩

theorem Proposes.source (proposes : Proposes context config input before text) :
    ∃ source, before.readText input = .ok source := by
  cases proposes with
  | intro _ read => exact ⟨_, read⟩

theorem Proposes.failure (proposes : Proposes context config input before text) {settings : Settings} {source : String}
    (chosen : settingsIn context config before = .ok settings) (read : before.readText input = .ok source) :
    ∃ failure, (Rendering.draw source settings .svg).error = some failure := by
  cases proposes with
  | intro isChosen isRead fails =>
    obtain rfl := Except.ok.inj (chosen.symm.trans isChosen)
    obtain rfl := Except.ok.inj (read.symm.trans isRead)
    exact ⟨_, fails⟩

theorem Proposes.key (proposes : Proposes context config input before text) :
    ∃ key, keyIn context before = .ok key := by
  cases proposes with
  | intro _ _ _ stored => exact ⟨_, stored⟩

/-- The answer about a file of which all that is asked is known. -/
theorem proposes_iff {settings : Settings} {source key : String} {failure : Failure}
    (chosen : settingsIn context config before = .ok settings) (read : before.readText input = .ok source)
    (fails : (Rendering.draw source settings .svg).error = some failure)
    (stored : keyIn context before = .ok key) :
    Proposes context config input before text ↔
      Repair.ofAnswer (before.outside.service before.requests (Repair.Account.request
        { key, model := settings.aiModel, temperature := settings.aiTemperature } source failure.describe)) =
          .ok text ∧ text ≠ source := by
  constructor
  · rintro ⟨isChosen, isRead, isFailure, isStored, answered, notBlank, differs⟩
    obtain rfl := Except.ok.inj (chosen.symm.trans isChosen)
    obtain rfl := Except.ok.inj (read.symm.trans isRead)
    obtain rfl := Option.some.inj (fails.symm.trans isFailure)
    obtain rfl := Except.ok.inj (stored.symm.trans isStored)
    rw [answered, Repair.ofAnswer, Option.getD_some, if_neg notBlank]
    exact ⟨rfl, differs⟩
  · rintro ⟨isAnswer, differs⟩
    obtain ⟨said, answered, rfl, notBlank⟩ := ofAnswer_eq_ok isAnswer
    exact .intro chosen read fails stored answered notBlank differs

theorem Proposes.unique {other : String} (proposes : Proposes context config input before text)
    (isOther : Proposes context config input before other) : text = other := by
  have isText := proposes
  obtain ⟨chosen, read, fails, stored, -, -, -⟩ := proposes
  have first := ((proposes_iff chosen read fails stored).1 isText).1
  have second := ((proposes_iff chosen read fails stored).1 isOther).1
  exact Except.ok.inj (first.symm.trans second)

/-- A step ends the command where there is no suggestion. -/
theorem Finds.leaves {step : Step Machine Unit} {result : Except Outcome Unit} (finds : Finds step between result)
    (disk : between.disk = before.disk) (none : ∀ text, ¬Proposes context config input before text) :
    Leaves context config input accept before (StateT.run (ExceptT.run step) between) := by
  obtain ⟨after, runs, still⟩ := finds
  rw [runs]
  exact .kept (still.disk.trans disk) fun _ => none

theorem Finds.leaves_bind {first : Step Machine α} {next : α → Step Machine Unit} {a : α}
    (finds : Finds first between (.ok a)) (untouched : Untouched before between)
    (goesOn : ∀ later, Untouched before later →
      Leaves context config input accept before (StateT.run (ExceptT.run (next a)) later)) :
    Leaves context config input accept before (StateT.run (ExceptT.run (first >>= next)) between) := by
  obtain ⟨later, runs, still⟩ := finds
  rw [run_bind, runs]
  exact goesOn later (untouched.trans still)

/-- The command ends at a step that does not find what every suggestion takes. -/
theorem Reads.leaves_bind {ε : Type} {first : Step Machine α} {next : α → Step Machine Unit} {there : Except ε α}
    (reads : Reads first between there) (untouched : Untouched before between)
    (takes : ∀ text, Proposes context config input before text → ∃ a, there = .ok a)
    (goesOn : ∀ a later, there = .ok a → Untouched before later →
      Leaves context config input accept before (StateT.run (ExceptT.run (next a)) later)) :
    Leaves context config input accept before (StateT.run (ExceptT.run (first >>= next)) between) := by
  cases there with
  | ok a => exact Finds.leaves_bind reads untouched fun later still => goesOn a later rfl still
  | error error =>
    obtain ⟨outcome, finds⟩ := reads
    refine (finds.stop next).leaves untouched.disk fun text proposes => ?_
    obtain ⟨a, isThere⟩ := takes text proposes
    cases isThere

/-- A suggestion that is accepted is written to the file. -/
theorem leaves_write (steady : Steady before between) (proposes : Proposes context config input before text) :
    Leaves context config input true before (StateT.run (ExceptT.run (do
      match ← (liftM (Files.write input (text ++ "\n") : Machine _) : Step Machine _) with
      | .ok () => Console.success (m := Machine) s!"Applied suggestion to '{input}'."
      | .error error => fail s!"cannot write '{input}': {error.message}" : Step Machine Unit)) between) := by
  have writes : (Files.write input (text ++ "\n") : Machine _).run between =
      ((before.written input (text ++ "\n")).1, { between with disk := (before.written input (text ++ "\n")).2 }) := by
    rw [← steady.written]
    rfl
  rw [run_lift, writes]
  cases written : before.written input (text ++ "\n") with
  | mk result disk =>
    cases result with
    | ok => exact .applied rfl proposes written
    | error error => exact .failed rfl proposes written List.getLast?_concat

/-- The service is asked about a file that fails: without a text in its answer nothing is suggested, and with one the
text itself is, if it is not that of the file. -/
theorem leaves_suggest {settings : Settings} {source key : String} {failure : Failure}
    {next : Suggestion → Step Machine Unit} (untouched : Untouched before between)
    (chosen : settingsIn context config before = .ok settings) (read : before.readText input = .ok source)
    (fails : (Rendering.draw source settings .svg).error = some failure)
    (stored : keyIn context before = .ok key)
    (goesOn : ∀ text later, Steady before later →
      (∀ other, Proposes context config input before other ↔ text = other ∧ other ≠ source) →
      Leaves context config input accept before
        (StateT.run (ExceptT.run (next (Suggestion.ofTexts source text))) later)) :
    Leaves context config input accept before (StateT.run (ExceptT.run
      ((suggest context settings key source failure : Step Machine Suggestion) >>= next)) between) := by
  have proposal := fun text => (proposes_iff chosen read fails stored : Proposes context config input before text ↔ _)
  obtain ⟨asked, runs, steady⟩ := run_suggest context settings (ne_empty_of_keyIn stored) source failure between
  have steady := untouched.toSteady.trans steady
  rw [run_bind, runs, untouched.outside, untouched.requests]
  generalize Repair.ofAnswer _ = answer at proposal
  cases answer with
  | error error =>
    refine .kept steady.disk fun _ text proposes => ?_
    cases ((proposal text).1 proposes).1
  | ok text =>
    refine goesOn text asked steady fun other => ?_
    rw [proposal, Except.ok.injEq]

theorem leaves_fix (context : Context) (config : Option Path) (input : Path) (accept : Bool) (before : World) :
    Leaves context config input accept before
      (StateT.run (ExceptT.run (fix context config input accept : Step Machine Unit)) before) := by
  unfold fix
  refine (reads_settings context config before).leaves_bind (.refl before) (fun _ => Proposes.settings)
    fun settings between chosen untouched => ?_
  refine Reads.leaves_bind (untouched.readText input ▸ reads_readSource input between) untouched
    (fun _ => Proposes.source) fun source between read untouched => ?_
  refine (finds_draw context source settings between).leaves_bind untouched fun between untouched => ?_
  cases drawn : (Rendering.draw source settings .svg).error with
  | none =>
    refine (finds_print _ between).leaves untouched.disk fun text proposes => ?_
    obtain ⟨failure, fails⟩ := proposes.failure chosen read
    cases drawn.symm.trans fails
  | some failure =>
    refine (finds_print _ between).leaves_bind untouched fun between untouched => ?_
    refine Reads.leaves_bind (untouched.keyIn context ▸ reads_readKey context between) untouched (fun _ => Proposes.key)
      fun key between stored untouched => ?_
    refine leaves_suggest untouched chosen read drawn stored fun text asked steady proposal => ?_
    by_cases same : text = source
    · have unchanged : (Suggestion.ofTexts source text).changed = false := by
        rw [same]
        exact bne_self_eq_false _
      rw [unchanged, Bool.not_false, if_pos rfl]
      refine Finds.leaves ((finds_print _ asked).bind fun between _ => finds_throw (.code 1) between) steady.disk
        fun other proposes => ?_
      obtain ⟨rfl, differs⟩ := (proposal other).1 proposes
      exact differs same
    · have changed : (Suggestion.ofTexts source text).changed = true := bne_iff_ne.2 (Ne.symm same)
      have proposes := (proposal text).2 ⟨rfl, same⟩
      rw [changed, Bool.not_true, if_neg Bool.false_ne_true]
      cases accept with
      | false => exact .kept steady.disk nofun
      | true =>
        rw [if_pos rfl, run_lift]
        exact leaves_write (steady.trans ⟨rfl, rfl, rfl⟩) proposes

/-- How a command that repairs a file deals with the files. -/
structure Careful (context : Context) (config : Option Path) (input : Path) (accept : Bool) (before : World)
    (outcome : Outcome) (after : World) : Prop where
  unaccepted : accept = false → after.disk = before.disk
  elsewhere : ∀ place, before.disk.place input ≠ .ok place → after.disk.entry? place = before.disk.entry? place
  accepted : accept = true → ∀ text disk, Proposes context config input before text →
    before.written input (text ++ "\n") = (.ok (), disk) →
    after.disk = disk ∧ after.disk.read input = .ok (text ++ "\n").toUTF8 ∧ outcome = .code 0
  /-- A write that fails is told. It changes nothing unless it was cut off: then the file holds a beginning of the
  suggestion. -/
  failed : accept = true → ∀ text error disk, Proposes context config input before text →
    before.written input (text ++ "\n") = (.error error, disk) →
    outcome = .code 1 ∧ ToldUnwritable input error after ∧ (after.disk = before.disk ∨
      ∃ length, before.outside.cutOff before.now input (text ++ "\n") = some (length, error) ∧
        after.disk.read input = .ok ((text ++ "\n").toUTF8.extract 0 length))
  otherwise : (∀ text, ¬Proposes context config input before text) → after.disk = before.disk

theorem careful_of_applied (isAccepted : accept = true) (proposes : Proposes context config input before text)
    (written : before.written input (text ++ "\n") = (.ok (), after.disk)) :
    Careful context config input accept before (.code 0) after where
  unaccepted refused := by
    rw [isAccepted] at refused
    cases refused
  elsewhere place away := Disk.entry?_write (World.write_of_written written) away
  accepted _ other disk isOther isWritten := by
    obtain rfl := proposes.unique isOther
    exact ⟨(Prod.mk.inj (written.symm.trans isWritten)).2, Disk.read_write (World.write_of_written written), rfl⟩
  failed _ other error disk isOther fails := by
    obtain rfl := proposes.unique isOther
    cases (Prod.mk.inj (written.symm.trans fails)).1
  otherwise none := (none text proposes).elim

theorem careful_of_failed {error : FileError} (isAccepted : accept = true)
    (proposes : Proposes context config input before text)
    (fails : before.written input (text ++ "\n") = (.error error, after.disk))
    (told : ToldUnwritable input error after) :
    Careful context config input accept before (.code 1) after where
  unaccepted refused := by
    rw [isAccepted] at refused
    cases refused
  elsewhere place away := by
    rcases World.kept_or_cutOff fails with kept | ⟨length, -, written⟩
    · rw [kept]
    · exact Disk.entry?_write written away
  accepted _ other disk isOther isWritten := by
    obtain rfl := proposes.unique isOther
    cases (Prod.mk.inj (fails.symm.trans isWritten)).1
  failed _ other reason disk isOther isReason := by
    obtain rfl := proposes.unique isOther
    obtain rfl := Except.error.inj (Prod.mk.inj (fails.symm.trans isReason)).1
    exact ⟨rfl, told, (World.kept_or_cutOff fails).imp_right fun ⟨length, isCutOff, written⟩ =>
      ⟨length, isCutOff, Disk.read_write written⟩⟩
  otherwise none := (none text proposes).elim

theorem careful_of_kept {outcome : Outcome} (kept : after.disk = before.disk)
    (none : accept = true → ∀ text, ¬Proposes context config input before text) :
    Careful context config input accept before outcome after where
  unaccepted _ := kept
  elsewhere place _ := by rw [kept]
  accepted isAccepted text disk proposes _ := (none isAccepted text proposes).elim
  failed isAccepted text error disk proposes _ := (none isAccepted text proposes).elim
  otherwise _ := kept

/-- Whatever is on the disk and whatever the system refuses or cuts off, whichever key is stored and whatever the
service answers: without acceptance no file is changed, and with it none but the file that is repaired. That one is
changed only where there is a suggestion, which takes its place with code 0 if it can be written. Otherwise the command
ends with code 1 and tells why, and of the suggestion a beginning is there if the write was cut off. -/
theorem fix_careful (context : Context) (config : Option Path) (input : Path) (accept : Bool) (before : World) :
    let run := (Command.run (m := Machine) context (.fix config input accept)).run before
    Careful context config input accept before run.1 run.2 := by
  have leaves : Leaves context config input accept before
      (StateT.run (ExceptT.run (Command.step context (.fix config input accept) : Step Machine Unit)) before) :=
    leaves_fix context config input accept before
  rw [run_command]
  generalize StateT.run (ExceptT.run (Command.step context (.fix config input accept) : Step Machine Unit)) before =
    result at leaves ⊢
  cases leaves with
  | applied isAccepted proposes written => exact careful_of_applied isAccepted proposes written
  | failed isAccepted proposes fails told => exact careful_of_failed isAccepted proposes fails told
  | kept kept none => exact careful_of_kept kept none

/-- A disk with a key, and with a file that names no kind of diagram. -/
def unnamed : Disk where
  entries := [([".config"], .directory), ([".config", "flowdraw"], .directory),
    ([".config", "flowdraw", "credentials.yaml"], .file "flowdraw_api_key: secret".toUTF8 0o600),
    (["a.mmd"], .file "A".toUTF8 0o644)]

/-- The answer to every request stands between fences. -/
def fenced : Surroundings where
  service _ _ := .ok (some "\x60\x60\x60mermaid\nflowchart TD\n\x60\x60\x60")

/-- What is suggested for the file, as long as nothing is refused. -/
theorem proposes_fenced (cutOff : Rat → Path → String → Option (Nat × FileError)) :
    Proposes {} none ⟨"", ["a.mmd"]⟩ { disk := unnamed, outside := { fenced with cutOff } } "flowchart TD" := by
  have read : unnamed.readText ⟨"", ["a.mmd"]⟩ = .ok "A" := Disk.readText_of_read rfl (by decide)
  have failing : (Rendering.draw "A" .standard .svg).error.isSome = true := by decide +kernel
  obtain ⟨failure, fails⟩ := Option.isSome_iff_exists.1 failing
  let world : World := { disk := unnamed, outside := { fenced with cutOff } }
  have stored : keyIn {} world = .ok "secret" := by
    have isPath : ({} : Environment).credentialsPath = ⟨"/", [".config", "flowdraw", "credentials.yaml"]⟩ := by
      decide +kernel
    have found : Credentials.ofRead Yaml.load ⟨"/", [".config", "flowdraw", "credentials.yaml"]⟩
        (.ok "flowdraw_api_key: secret") = .ok (some "secret") := ok_of_toOption (by decide +kernel)
    have isText : world.readText ⟨"/", [".config", "flowdraw", "credentials.yaml"]⟩ = .ok "flowdraw_api_key: secret" :=
      Disk.readText_of_read rfl (by decide)
    have isPresent : world.isPresent ⟨"/", [".config", "flowdraw", "credentials.yaml"]⟩ = .ok true := rfl
    have kept : credentialsAt Yaml.load ⟨"/", [".config", "flowdraw", "credentials.yaml"]⟩ world =
        .ok (some "secret") := by
      rw [credentialsAt, isPresent, isText]
      exact found
    rw [keyIn, isPath, kept]
  have cleaned : Repair.clean "\x60\x60\x60mermaid\nflowchart TD\n\x60\x60\x60" = "flowchart TD" := by decide +kernel
  exact cleaned ▸ .intro rfl read fails stored rfl (by rw [cleaned]; decide) (by rw [cleaned]; decide)

/-- The suggestion takes the place of the file. -/
theorem fix_careful_fenced :
    let run := (Command.run (m := Machine) {} (.fix none ⟨"", ["a.mmd"]⟩ true)).run
      { disk := unnamed, outside := fenced }
    run.1 = .code 0 ∧ run.2.disk.read ⟨"", ["a.mmd"]⟩ = .ok "flowchart TD\n".toUTF8 := by
  intro run
  obtain ⟨-, held, code⟩ :=
    (fix_careful {} none ⟨"", ["a.mmd"]⟩ true _).accepted rfl _ _ (proposes_fenced fenced.cutOff) rfl
  exact ⟨code, held⟩

/-- The disk is full behind nine bytes: the suggestion is not written, and the file holds a beginning of it. -/
theorem fix_changes_cutOff :
    let full : FileError := .other "[Errno 28] No space left on device"
    let before : World := { disk := unnamed, outside := { fenced with cutOff := fun _ _ _ => some (9, full) } }
    let run := (Command.run (m := Machine) {} (.fix none ⟨"", ["a.mmd"]⟩ true)).run before
    (before.written ⟨"", ["a.mmd"]⟩ "flowchart TD\n").1 = .error full ∧ run.1 = .code 1 ∧
      before.disk.read ⟨"", ["a.mmd"]⟩ = .ok "A".toUTF8 ∧
      run.2.disk.read ⟨"", ["a.mmd"]⟩ = .ok "flowchart".toUTF8 := by
  intro full before run
  have leaves : Leaves {} none ⟨"", ["a.mmd"]⟩ true before
      (StateT.run (ExceptT.run (Command.step {} (.fix none ⟨"", ["a.mmd"]⟩ true) : Step Machine Unit)) before) :=
    leaves_fix {} none ⟨"", ["a.mmd"]⟩ true before
  have proposes := proposes_fenced fun _ _ _ => some (9, full)
  have runs : run = _ := run_command {} (.fix none ⟨"", ["a.mmd"]⟩ true) before
  rw [runs]
  refine ⟨rfl, ?_⟩
  generalize StateT.run (ExceptT.run (Command.step {} (.fix none ⟨"", ["a.mmd"]⟩ true) : Step Machine Unit)) before =
    result at leaves
  cases leaves with
  | @applied text after _ isProposed written =>
    obtain rfl := proposes.unique isProposed
    cases written
  | @failed text error after _ isProposed fails _ =>
    obtain rfl := proposes.unique isProposed
    obtain ⟨-, isDisk⟩ := Prod.mk.inj fails
    refine ⟨rfl, rfl, ?_⟩
    rw [← isDisk]
    rfl
  | kept _ none => exact absurd proposes (none rfl _)

end fix

end Flowchart.CommandLine
