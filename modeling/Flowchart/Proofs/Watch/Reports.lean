import Flowchart.Proofs.Files.Disk
import Flowchart.Proofs.Svg.Legality
import Flowchart.Proofs.Watch.Timing

/-!
What a watch leaves of the texts that it reads: a picture of each one that is delivered and has one, in the place of the
picture before, and a complaint about each one that fails.
-/
namespace Flowchart

/-- The surroundings of a watch: the contents of the watched file at the looks to come, the other files, and a record
of what was done and said, and when. -/
structure Lookout where
  contents : List ByteArray
  disk : Disk
  now : Rat := 0
  looks : List (Rat × Path) := []
  writes : List (Rat × Path × String) := []
  output : List (Rat × String) := []
  errors : List (Rat × String) := []

/-- A look was taken at a file, and its next content is there. -/
def Lookout.look (lookout : Lookout) (path : Path) : Lookout :=
  { lookout with
    contents := lookout.contents.tail
    looks := lookout.looks ++ [(lookout.now, path)] }

/-- Runs of watches as functions of their surroundings. -/
abbrev Vigil := StateM Lookout

namespace Vigil

/-- Does something with the files and leaves the rest as it is. -/
def onDisk {α : Type} (action : StateM Disk α) : Vigil α :=
  fun lookout => ((action.run lookout.disk).1, { lookout with disk := (action.run lookout.disk).2 })

instance : Files (Vigil) where
  isPresent path := onDisk (Files.isPresent path)
  readText path := fun lookout =>
    let text := match lookout.contents with
      | [] => .error (.file (.missing path))
      | content :: _ => Files.decode content
    (text, lookout.look path)
  write path text := fun lookout =>
    match lookout.disk.write path text.toUTF8 with
    | .ok disk => (.ok (), { lookout with disk, writes := lookout.writes ++ [(lookout.now, path, text)] })
    | .error error => (.error error, lookout)
  createDirectories path := onDisk (Files.createDirectories path)
  setMode path mode := onDisk (Files.setMode path mode)
  remove path := onDisk (Files.remove path)

instance : Console (Vigil) where
  print text := modify fun lookout => { lookout with output := lookout.output ++ [(lookout.now, text)] }
  report text := modify fun lookout => { lookout with errors := lookout.errors ++ [(lookout.now, text)] }

instance : Clock (Vigil) where
  waitUntil time := modify fun lookout => { lookout with now := max lookout.now time }

end Vigil

namespace Watch

open Preview (shownAs? Edited Tallied)

variable {watch : Watch} {before between after : Lookout}

/-- The picture of a text that is rendered without an error. -/
def picture? (watch : Watch) (text : String) : Option String := do
  let rendering ← shownAs? watch.settings .svg text
  if rendering.ok then rendering.svg else none

/-- What is said of a text that fails. -/
def complaint? (watch : Watch) (text : String) : Option String := do
  let failure ← (← shownAs? watch.settings .svg text).error
  return s!"{watch.input}: {failure.describe}"

/-- What is left of the texts that are delivered at some moments. -/
structure Reports (watch : Watch) (calls : List (Rat × String)) (before after : Lookout) : Prop where
  writes : after.writes = before.writes ++ calls.filterMap fun (moment, text) =>
    (watch.picture? text).map fun picture => (moment, watch.output, picture)
  output : after.output = before.output ++ calls.filterMap fun (moment, text) =>
    (watch.picture? text).map fun _ => (moment, Colour.green.paint s!"Wrote '{watch.output}'." ++ "\n")
  errors : after.errors = before.errors ++ calls.filterMap fun (moment, text) =>
    (watch.complaint? text).map fun complaint => (moment, Colour.red.paint s!"Error: {complaint}" ++ "\n")
  /-- The file holds the last picture, or what it held before. -/
  content : after.disk.read watch.output =
    ((calls.filterMap fun call => watch.picture? call.2).getLast?.elim (before.disk.read watch.output) fun picture =>
      .ok picture.toUTF8)
  place : after.disk.place watch.output = before.disk.place watch.output
  elsewhere : ∀ place, before.disk.place watch.output ≠ .ok place →
    after.disk.entry? place = before.disk.entry? place
  writable : before.disk.Writable watch.output → after.disk.Writable watch.output

namespace Reports

variable {calls more : List (Rat × String)}

theorem refl (disk : after.disk = before.disk) (writes : after.writes = before.writes)
    (output : after.output = before.output) (errors : after.errors = before.errors) :
    Reports watch [] before after where
  writes := by rw [writes]; exact (List.append_nil _).symm
  output := by rw [output]; exact (List.append_nil _).symm
  errors := by rw [errors]; exact (List.append_nil _).symm
  content := by rw [disk]; rfl
  place := by rw [disk]
  elsewhere _ _ := by rw [disk]
  writable writable := by rwa [disk]

theorem trans (first : Reports watch calls before between) (second : Reports watch more between after) :
    Reports watch (calls ++ more) before after where
  writes := by rw [second.writes, first.writes, List.filterMap_append, List.append_assoc]
  output := by rw [second.output, first.output, List.filterMap_append, List.append_assoc]
  errors := by rw [second.errors, first.errors, List.filterMap_append, List.append_assoc]
  content := by
    rw [second.content, first.content, List.filterMap_append, List.getLast?_append]
    cases (more.filterMap fun call => watch.picture? call.2).getLast? <;> rfl
  place := second.place.trans first.place
  elsewhere place away := (second.elsewhere place (first.place ▸ away)).trans (first.elsewhere place away)
  writable writable := second.writable (first.writable writable)

end Reports

/-- What a text is shown as: nothing, a failure that is complained of, or a picture. -/
inductive Shows (watch : Watch) (text : String) : Option Rendering → Prop where
  | blank : watch.picture? text = none → watch.complaint? text = none → Shows watch text none
  | failure {rendering : Rendering} {failure : Failure} : rendering.error = some failure →
      watch.picture? text = none → watch.complaint? text = some s!"{watch.input}: {failure.describe}" →
      Shows watch text (some rendering)
  | picture {rendering : Rendering} {picture : String} : rendering.error = none → rendering.svg = some picture →
      watch.picture? text = some picture → watch.complaint? text = none → Shows watch text (some rendering)

theorem shows (watch : Watch) (text : String) : Shows watch text (shownAs? watch.settings .svg text) := by
  by_cases blank : Text.isBlankText text = true
  · have isNone : shownAs? watch.settings .svg text = none := if_pos blank
    rw [isNone]
    exact .blank (by rw [picture?, isNone]; rfl) (by rw [complaint?, isNone]; rfl)
  · have isSome : shownAs? watch.settings .svg text = some (Rendering.draw text watch.settings .svg) := if_neg blank
    have consistent := Rendering.consistent_of_course (Rendering.course_draw text watch.settings .svg)
    rw [isSome]
    cases error : (Rendering.draw text watch.settings .svg).error with
    | some failure =>
      refine .failure error ?_ ?_
      · simp [picture?, isSome, Rendering.ok, error]
      · simp [complaint?, isSome, error]
    | none =>
      obtain ⟨picture, drawn⟩ := Option.isSome_iff_exists.1 (consistent.drawn.2 ⟨rfl, error⟩)
      refine .picture error drawn ?_ ?_
      · simp [picture?, isSome, Rendering.ok, error, drawn]
      · simp [complaint?, isSome, error]

theorem reports_of_picture {text picture : String} {disk : Disk} (isPicture : watch.picture? text = some picture)
    (quiet : watch.complaint? text = none) (written : before.disk.write watch.output picture.toUTF8 = .ok disk) :
    Reports watch [(before.now, text)] before { before with
      disk
      writes := before.writes ++ [(before.now, watch.output, picture)]
      output := before.output ++ [(before.now, Colour.green.paint s!"Wrote '{watch.output}'." ++ "\n")] } where
  writes := by simp [isPicture]
  output := by simp [isPicture]
  errors := by simp [quiet]
  content := by
    rw [Disk.read_write written]
    simp [isPicture]
  place := Disk.place_write written
  elsewhere place away := Disk.entry?_write written away
  writable _ := Disk.writable_of_write written

theorem reports_of_complaint {text complaint : String} (noPicture : watch.picture? text = none)
    (isComplaint : watch.complaint? text = some complaint) :
    Reports watch [(before.now, text)] before { before with
      errors := before.errors ++ [(before.now, Colour.red.paint s!"Error: {complaint}" ++ "\n")] } where
  writes := by simp [noPicture]
  output := by simp [noPicture]
  errors := by simp [isComplaint]
  content := by simp [noPicture]
  place := rfl
  elsewhere _ _ := rfl
  writable := id

theorem reports_of_blank {text : String} (noPicture : watch.picture? text = none)
    (quiet : watch.complaint? text = none) : Reports watch [(before.now, text)] before before where
  writes := by simp [noPicture]
  output := by simp [noPicture]
  errors := by simp [quiet]
  content := by simp [noPicture]
  place := rfl
  elsewhere _ _ := rfl
  writable := id

theorem run_writePicture {path : Path} {picture : String} {disk : Disk}
    (written : before.disk.write path picture.toUTF8 = .ok disk) :
    (writePicture (m := Vigil) path picture true).run before = (.ok true, { before with
      disk
      writes := before.writes ++ [(before.now, path, picture)]
      output := before.output ++ [(before.now, Colour.green.paint s!"Wrote '{path}'." ++ "\n")] }) := by
  have done : (Files.write path picture : Vigil _).run before =
      (.ok (), { before with disk, writes := before.writes ++ [(before.now, path, picture)] }) := by
    show (match before.disk.write path picture.toUTF8 with | .ok disk => _ | .error error => _) = _
    rw [written]
  rw [writePicture, if_pos rfl, StateT.run_bind, done]
  rfl

/-- No time passes, and no look is taken. -/
structure Still (before after : Lookout) : Prop where
  now : after.now = before.now
  contents : after.contents = before.contents
  looks : after.looks = before.looks

/-- What is shown of a text is written, complained of or left alone. -/
theorem reports_deliver (text : String) (encodable : watch.settings.isEncodable = true)
    (writable : before.disk.Writable watch.output) :
    let after := ((watch.deliver (m := Vigil) (shownAs? watch.settings .svg text)).run before).2
    Reports watch [(before.now, text)] before after ∧ Still before after := by
  have isShown := shows watch text
  generalize shownAs? watch.settings .svg text = shown at isShown ⊢
  cases isShown with
  | blank noPicture quiet => exact ⟨reports_of_blank noPicture quiet, rfl, rfl, rfl⟩
  | failure error noPicture complaint =>
    rw [deliver]
    simp only [error]
    exact ⟨reports_of_complaint noPicture complaint, rfl, rfl, rfl⟩
  | @picture rendering picture error drawn isPicture quiet =>
    obtain ⟨disk, written⟩ := writable picture.toUTF8
    rw [deliver]
    simp only [error, drawn, Option.getD_some, encodable]
    rw [StateT.run_bind, run_writePicture written]
    exact ⟨reports_of_picture isPicture quiet written, rfl, rfl, rfl⟩

/-- The preview of a watch, whose clock is that of the surroundings. -/
structure Ready (watch : Watch) (preview : Preview) (known : List String) (lookout : Lookout) : Prop where
  edited : Edited preview.edits known
  tallied : Tallied preview
  settings : preview.settings = watch.settings
  renderer : preview.renderer = .svg
  now : lookout.now = watch.moment preview.edits.now
  encodable : watch.settings.isEncodable = true
  writable : lookout.disk.Writable watch.output

/-- Some calls with their moments in place of their ticks. -/
def timed (watch : Watch) (calls : List (Nat × String)) : List (Rat × String) :=
  calls.map fun (tick, text) => (watch.moment tick, text)

theorem run_pass_of_none {preview : Preview} {ticks : Nat}
    (none : (preview.advance ticks).shownSince preview.count = []) :
    (watch.pass (m := Vigil) preview ticks).run before = (preview.advance ticks,
      { before with now := max before.now (watch.moment (preview.advance ticks).edits.now) }) := by
  rw [pass]
  simp only [none]
  rfl

theorem run_pass_of_one {preview : Preview} {ticks tick : Nat} {shown : Option Rendering}
    (one : (preview.advance ticks).shownSince preview.count = [(tick, shown)]) :
    (watch.pass (m := Vigil) preview ticks).run before =
      let start := { before with now := max before.now (watch.moment tick) }
      let after := ((watch.deliver (m := Vigil) shown).run start).2
      (preview.advance ticks,
        { after with now := max after.now (watch.moment (preview.advance ticks).edits.now) }) := by
  rw [pass]
  simp only [one]
  rfl

section ready

variable {preview : Preview} {known : List String}

theorem edits_advance (preview : Preview) (time : Nat) :
    (preview.advance time).edits = preview.edits.advance false time :=
  (preview.parts_step (.advance time)).1

theorem Ready.now_advance (ready : Ready watch preview known before) (time : Nat) :
    (preview.advance time).edits.now = preview.edits.now + time := by
  rw [edits_advance]
  exact ready.edited.now_step (.advance time)

theorem Ready.advance (ready : Ready watch preview known before) {time : Nat}
    (now : after.now = watch.moment (preview.edits.now + time)) (writable : after.disk.Writable watch.output) :
    Ready watch (preview.advance time) known after where
  edited := by
    rw [edits_advance, ← List.append_nil known]
    exact ready.edited.step (.advance time)
  tallied := ready.tallied.step (.advance time)
  settings := (preview.parts_step (.advance time)).2.1.trans ready.settings
  renderer := (preview.parts_step (.advance time)).2.2.trans ready.renderer
  now := now.trans (congrArg watch.moment (ready.now_advance time).symm)
  encodable := ready.encodable
  writable := writable

theorem Ready.show?_eq (ready : Ready watch preview known before) (source : String) :
    preview.show? source = shownAs? watch.settings .svg source := by
  rw [Preview.show?, ready.settings, ready.renderer]
  rfl

/-- What is executed while time passes is delivered at its moment. -/
theorem Ready.pass (ready : Ready watch preview known before) (ticks : Nat) :
    ∃ calls after, (watch.pass (m := Vigil) preview ticks).run before = (preview.advance ticks, after) ∧
      (preview.advance ticks).edits.calls = preview.edits.calls ++ calls ∧
      Reports watch (watch.timed calls) before after ∧ after.contents = before.contents ∧
      after.looks = before.looks ∧ Ready watch (preview.advance ticks) known after := by
  have shown := Preview.shownSince_advance ready.tallied ticks
  have calls := Debouncer.calls_advance preview.edits ticks
  rw [← edits_advance] at calls
  rcases ready.edited.acts_advance ticks with acts | ⟨number, due, source, awaits, late, acts⟩
  · rw [acts] at shown calls
    refine ⟨[], _, run_pass_of_none shown, calls, .refl rfl rfl rfl rfl, rfl, rfl, ready.advance ?_ ready.writable⟩
    show max before.now (watch.moment (preview.advance ticks).edits.now) = _
    rw [ready.now_advance, ready.now]
    exact max_eq_right (watch.moment_le_iff.2 (Nat.le_add_right ..))
  · rw [acts, awaits.executions_late] at shown calls
    let start := { before with now := max before.now (watch.moment due) }
    have isStart : start.now = watch.moment due := by
      show max before.now (watch.moment due) = watch.moment due
      rw [ready.now]
      exact max_eq_right (watch.moment_le_iff.2 awaits.now_le)
    obtain ⟨reports, still⟩ :=
      reports_deliver source ready.encodable (show start.disk.Writable watch.output from ready.writable)
    rw [← ready.show?_eq] at reports still
    refine ⟨[(due, source)], _, run_pass_of_one shown, calls, ?_, still.contents, still.looks, ready.advance ?_ ?_⟩
    · rw [isStart] at reports
      have moved : Reports watch [] before start := .refl rfl rfl rfl rfl
      exact (moved.trans reports).trans (.refl rfl rfl rfl rfl)
    · show max _ (watch.moment (preview.advance ticks).edits.now) = _
      rw [still.now, isStart, ready.now_advance]
      exact max_eq_right (watch.moment_le_iff.2 late)
    · exact reports.writable ready.writable

/-- The edits of a preview behind what happens between two looks. -/
theorem Ready.rest (ready : Ready watch preview known before) (edited : Bool) :
    ∃ later calls after, (watch.rest (m := Vigil) preview edited).run before = (later, after) ∧
      later.edits = (if edited && watch.wait = 0 then preview.edits else preview.edits.advance false watch.wait) ∧
      later.edits.calls = preview.edits.calls ++ calls ∧ Reports watch (watch.timed calls) before after ∧
      after.contents = before.contents ∧ after.looks = before.looks ∧
      after.now = before.now + watch.moment watch.wait ∧ Ready watch later known after := by
  rw [Watch.rest]
  by_cases waits : (edited && watch.wait = 0) = true
  · simp only [waits, if_true]
    obtain ⟨-, none⟩ : edited = true ∧ watch.wait = 0 := by simpa using waits
    have noTime : watch.moment watch.wait = 0 := by
      rw [none, moment, Nat.cast_zero, zero_div]
    exact ⟨preview, [], before, rfl, rfl, (List.append_nil _).symm, .refl rfl rfl rfl rfl, rfl, rfl,
      by rw [noTime, add_zero], ready⟩
  · simp only [waits, if_false, Bool.false_eq_true]
    obtain ⟨calls, after, runs, isCalls, reports, kept, looks, passed⟩ := ready.pass watch.wait
    refine ⟨_, calls, after, runs, edits_advance .., isCalls, reports, kept, looks, ?_, passed⟩
    rw [passed.now, ready.now_advance, moment_add, ← ready.now]

/-- A look is taken, and its text is an edit if it is a new one. -/
theorem Ready.read (ready : Ready watch preview known before) (path : Path) (edited : Bool) (text : String) :
    ∃ known, Ready watch (if edited then preview.update text else preview) known (before.look path) := by
  cases edited with
  | false =>
    exact ⟨known, ready.edited, ready.tallied, ready.settings, ready.renderer, ready.now, ready.encodable,
      ready.writable⟩
  | true =>
    have now : before.now = watch.moment (preview.update text).edits.now :=
      ready.now.trans (congrArg watch.moment (Debouncer.now_schedule _ _).symm)
    exact ⟨_, ready.edited.step (.update text), ready.tallied.step (.update text), ready.settings, ready.renderer, now,
      ready.encodable, ready.writable⟩

end ready

theorem run_look_zero (watch : Watch) (preview : Preview) (last : Option String) :
    (watch.look (m := Vigil) preview last 0).run before =
      (.code 0, ((watch.pass (m := Vigil) preview watch.delay).run before).2) := rfl

theorem run_look_succ (watch : Watch) (preview : Preview) (last : Option String) {content : ByteArray}
    {coming : List ByteArray} {text : String} (contents : before.contents = content :: coming)
    (isText : Files.decode content = .ok text) (looks : Nat) :
    (watch.look (m := Vigil) preview last (looks + 1)).run before =
      let edited := decide (last ≠ some text)
      let rested := (watch.rest (m := Vigil) (if edited then preview.update text else preview) edited).run
        (before.look watch.input)
      (watch.look (m := Vigil) rested.1 (some text) looks).run rested.2 := by
  have read : (Files.readText watch.input : Vigil _).run before = (.ok text, before.look watch.input) := by
    show (match before.contents with | [] => _ | content :: _ => _, before.look watch.input) = _
    rw [contents]
    simp only [isText]
  rw [look, StateT.run_bind, read]
  rfl

/-- Some looks from a moment on. -/
def looksFrom (watch : Watch) (now : Rat) (count : Nat) : List (Rat × Path) :=
  (List.range count).map fun look => (now + watch.looksAt look, watch.input)

theorem looksFrom_succ (watch : Watch) (now : Rat) (count : Nat) : watch.looksFrom now (count + 1) =
    (now, watch.input) :: watch.looksFrom (now + watch.moment watch.wait) count := by
  rw [looksFrom, List.range_succ_eq_map, List.map_cons, List.map_map, ← moment_look, Nat.zero_mul]
  have start : watch.moment 0 = 0 := by rw [moment, Nat.cast_zero, zero_div]
  rw [start, add_zero]
  refine congrArg _ (List.map_congr_left fun look _ => ?_)
  rw [Function.comp_apply, ← moment_look, ← moment_look, Nat.succ_mul, Nat.add_comm, moment_add, add_assoc]

/-- One look and the time until the next one: what is left of the edits that are executed by then. -/
theorem Ready.turn {preview : Preview} {known : List String} (ready : Ready watch preview known before)
    (last : Option String) {content : ByteArray} {coming : List ByteArray} {text : String}
    (contents : before.contents = content :: coming) (isText : Files.decode content = .ok text) :
    ∃ (later : Preview) (known : List String) (calls : List (Nat × String)) (after : Lookout),
      (∀ looks, (watch.look (m := Vigil) preview last (looks + 1)).run before =
        (watch.look (m := Vigil) later (some text) looks).run after) ∧
      later.edits = preview.edits.run false ((watch.turn last text).map Preview.Step.edit) ∧
      later.edits.calls = preview.edits.calls ++ calls ∧ Reports watch (watch.timed calls) before after ∧
      after.contents = coming ∧ after.looks = before.looks ++ [(before.now, watch.input)] ∧
      after.now = before.now + watch.moment watch.wait ∧ Ready watch later known after := by
  have looksOn := watch.run_look_succ preview last contents isText
  dsimp only at looksOn
  obtain ⟨known, read⟩ := ready.read watch.input (decide (last ≠ some text)) text
  have edits : (if decide (last ≠ some text) then preview.update text else preview).edits =
      if last = some text then preview.edits else preview.edits.schedule (.once text) := by
    by_cases same : last = some text <;> simp [same, Preview.update]
  have quiet : (if decide (last ≠ some text) then preview.update text else preview).edits.calls =
      preview.edits.calls := by
    rw [edits]
    split
    · rfl
    · exact Debouncer.calls_schedule _ _
  generalize (if decide (last ≠ some text) then preview.update text else preview) = edited at *
  obtain ⟨later, calls, after, runs, isEdits, isCalls, reports, kept, looks, now, passed⟩ :=
    read.rest (decide (last ≠ some text))
  refine ⟨later, known, calls, after, fun looks => ?_, ?_, quiet ▸ isCalls, ?_, ?_, looks, now, passed⟩
  · rw [looksOn, runs]
  · rw [isEdits, edits, run_turn]
    by_cases same : last = some text <;> simp [same]
  · have looked : Reports watch [] before (before.look watch.input) := .refl rfl rfl rfl rfl
    exact looked.trans reports
  · rw [kept, Lookout.look, contents]
    rfl

/-- What is left of some texts that are read behind others, one at each look. -/
theorem Ready.look {preview : Preview} {known : List String} (ready : Ready watch preview known before)
    (last : Option String) {texts : List String} (areTexts : before.contents.map Files.decode = texts.map .ok) :
    ∃ calls after, (watch.look (m := Vigil) preview last texts.length).run before = (.code 0, after) ∧
      (preview.edits.run false ((watch.steps last texts).map Preview.Step.edit)).calls =
        preview.edits.calls ++ calls ∧ Reports watch (watch.timed calls) before after ∧
      after.looks = before.looks ++ watch.looksFrom before.now texts.length := by
  induction texts generalizing preview known before last with
  | nil =>
    obtain ⟨calls, after, runs, isCalls, reports, -, looks, -⟩ := ready.pass watch.delay
    refine ⟨calls, after, ?_, ?_, reports, looks.trans (List.append_nil _).symm⟩
    · rw [List.length_nil, run_look_zero, runs]
    · rw [← isCalls, edits_advance]
      rfl
  | cons text texts ih =>
    obtain ⟨content, coming, contents, isText, areMore⟩ := List.map_eq_cons_iff.1 areTexts
    obtain ⟨later, known, first, between, looksOn, edits, isFirst, reports, isComing, looks, now, passed⟩ :=
      ready.turn last contents isText
    obtain ⟨rest, after, runs, isRest, more, moreLooks⟩ := ih passed (some text) (isComing ▸ areMore)
    refine ⟨first ++ rest, after, ?_, ?_, ?_, ?_⟩
    · rw [List.length_cons, looksOn]
      exact runs
    · rw [run_steps_cons, ← edits, isRest, isFirst, List.append_assoc]
    · rw [timed, List.map_append]
      exact reports.trans more
    · rw [moreLooks, looks, now, List.length_cons, looksFrom_succ]
      exact List.append_assoc ..

/-- The texts that are delivered, by the looks at which they were read first, with the moments at which they are. -/
def calls (watch : Watch) (delivered : List (Nat × String)) : List (Rat × String) :=
  delivered.map fun (look, text) => (watch.dueAt look, text)

/-- What a watch does while its file has some texts at the looks: it looks in time, the preview shows what is to be
delivered, and all of that is reported. -/
structure Faithful (watch : Watch) (texts : List String) (before after : Lookout) (delivered : List (Nat × String)) :
    Prop where
  looks : after.looks = watch.looksFrom 0 texts.length
  delivers : Delivers watch texts delivered
  shown : ((watch.onTicks (Preview.start watch.settings)).run (watch.steps none texts)).shown.map
      (fun (tick, shown) => (watch.moment tick, shown)) =
    (watch.calls delivered).map fun (moment, text) => (moment, shownAs? watch.settings .svg text)
  reports : Reports watch (watch.calls delivered) before after

end Watch
end Flowchart
