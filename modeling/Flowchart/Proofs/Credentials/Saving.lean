import Flowchart.Credentials
import Flowchart.Proofs.Files.Disk
import Mathlib.Logic.Function.Basic

/-!
What the files are while a key is saved. Any operation may fail and then changes nothing. The file holds the key before
its mode is set: until then it has the mode that it had before, or that of new files, and if the mode cannot be set the
saving fails with the key in the file.
-/
namespace Flowchart

namespace Disk

variable {disk after : Disk} {path : Path} {place : List String}

def Entry.file? : Entry → Option (ByteArray × Nat)
  | .file content mode => some (content, mode)
  | .directory => none

/-- The content and the mode of the file at each place. -/
def files (disk : Disk) (place : List String) : Option (ByteArray × Nat) :=
  (disk.entry? place).bind Entry.file?

/-- The mode of a file after it is written: the one that it had, or that of new files. -/
def keptMode (file? : Option (ByteArray × Nat)) : Nat :=
  (file?.map Prod.snd).getD defaultMode

theorem files_put (entry : Entry) (noRoot : place ≠ []) :
    files (disk.put place entry) = Function.update disk.files place entry.file? := by
  funext other
  rw [files, entry?_put _ noRoot, Function.update_apply]
  by_cases same : other = place
  · rw [if_pos same, if_pos same, Option.bind_some]
  · rw [if_neg same, if_neg same, files]

theorem files_createDirectory (created : disk.createDirectory path = .ok after) : after.files = disk.files := by
  unfold createDirectory at created
  cases leads : disk.place path with
  | error error => simp [leads, bind, Except.bind] at created
  | ok place =>
    simp only [leads, bind, Except.bind] at created
    split at created
    · rename_i absent
      obtain rfl := Except.ok.inj created
      have noFile : disk.files place = none := by rw [files, absent, Option.bind_none]
      have noDirectory : disk.entry? place ≠ some .directory := by simp [absent]
      rw [files_put _ (ne_nil_of_noDirectory noDirectory), Entry.file?, ← noFile, Function.update_eq_self]
    · rw [Except.ok.inj created]
    · cases created

theorem files_createFrom {root : String} {steps : List String} (created : disk.createFrom root steps = .ok after) :
    after.files = disk.files := by
  induction steps generalizing disk after with
  | nil =>
    obtain rfl := Except.ok.inj created
    rfl
  | cons step outer ih =>
    simp only [createFrom] at created
    split at created
    · cases inner : disk.createFrom root outer with
      | error error => simp [inner, bind, Except.bind] at created
      | ok inside =>
        simp only [inner, bind, Except.bind] at created
        rw [files_createDirectory created, ih inner]
    · exact files_createDirectory created

/-- Making directories changes no file. -/
theorem files_createDirectories (created : disk.createDirectories path = .ok after) : after.files = disk.files :=
  files_createFrom created

/-- Writing changes the file at one place, whose mode stays. -/
theorem files_write {content : ByteArray} (written : disk.write path content = .ok after) :
    ∃ place, after.place path = .ok place ∧
      after.files = Function.update disk.files place (some (content, keptMode (disk.files place))) := by
  unfold write at written
  cases leads : disk.place path with
  | error error => simp [leads, bind, Except.bind] at written
  | ok place =>
    simp only [leads, bind, Except.bind] at written
    have result {mode : Nat} (noDirectory : disk.entry? place ≠ some .directory)
        (isKept : mode = keptMode (disk.files place)) (put : disk.put place (.file content mode) = after) :
        ∃ place, after.place path = .ok place ∧
          after.files = Function.update disk.files place (some (content, keptMode (disk.files place))) := by
      subst put
      refine ⟨place, place_put _ noDirectory leads, ?_⟩
      rw [files_put _ (ne_nil_of_noDirectory noDirectory), isKept, Entry.file?]
    split at written
    · rename_i here
      exact result (by simp [here]) (by simp [keptMode, files, here, Entry.file?]) (Except.ok.inj written)
    · cases written
    · rename_i here
      exact result (by simp [here]) (by simp [keptMode, files, here]) (Except.ok.inj written)

/-- Setting the mode of a file keeps its content. -/
theorem files_setMode {content : ByteArray} {before mode : Nat} (leads : disk.place path = .ok place)
    (isFile : disk.files place = some (content, before)) (set : disk.setMode path mode = .ok after) :
    after.files = Function.update disk.files place (some (content, mode)) := by
  unfold setMode at set
  simp only [leads, bind, Except.bind] at set
  split at set
  · rename_i here
    obtain ⟨rfl, rfl⟩ : _ = content ∧ _ = before := by simpa [files, here, Entry.file?] using isFile
    obtain rfl := Except.ok.inj set
    have noDirectory : disk.entry? place ≠ some .directory := by simp [here]
    exact files_put _ (ne_nil_of_noDirectory noDirectory)
  · rename_i here
    simp [files, here, Entry.file?] at isFile
  · cases set

/-- What has just been written may be given any mode. -/
theorem exists_setMode {content : ByteArray} {before : Nat} (leads : disk.place path = .ok place)
    (isFile : disk.files place = some (content, before)) (mode : Nat) :
    ∃ after, disk.setMode path mode = .ok after := by
  unfold setMode
  simp only [leads, bind, Except.bind]
  split
  · exact ⟨_, rfl⟩
  · exact ⟨_, rfl⟩
  · rename_i here
    simp [files, here] at isFile

end Disk

/-- A disk on which operations may fail. -/
structure Trial where
  disk : Disk
  /-- The failures of the coming operations, if they fail. -/
  faults : Nat → Option FileError
  /-- The disk before the first operation and behind each one so far, the latest first. -/
  states : List Disk

namespace Trial

/-- An operation fails as planned, or does what it does by itself. -/
def outcome (fault? : Option FileError) (result : Except FileError Disk) : Except FileError Disk :=
  match fault? with
  | some error => .error error
  | none => result

/-- Tries an operation. A failed one changes nothing. -/
def attempt (operation : Disk → Except FileError Disk) : StateM Trial (Except FileError Unit) := fun trial =>
  let result := outcome (trial.faults 0) (operation trial.disk)
  let disk := result.toOption.getD trial.disk
  (result.map fun _ => (), ⟨disk, fun n => trial.faults (n + 1), disk :: trial.states⟩)

instance : Files (StateM Trial) where
  isPresent path := do return .ok ((← get).disk.find? path).isSome
  readText path := do return (← get).disk.readText path
  write path text := attempt fun disk => disk.write path text.toUTF8
  createDirectories path := attempt fun disk => disk.createDirectories path
  setMode path mode := attempt fun disk => disk.setMode path mode
  remove path := attempt fun disk => disk.remove path

/-- What an operation that succeeds leaves is what it leaves by itself. -/
theorem eq_ok_of_outcome {fault? : Option FileError} {result : Except FileError Disk} {after : Disk}
    (done : outcome fault? result = .ok after) : fault? = none ∧ result = .ok after := by
  cases fault? with
  | none => exact ⟨rfl, done⟩
  | some error => cases done

section

variable {α : Type} {disk after : Disk} {error : FileError} (faults : Nat → Option FileError)
  (operation : Disk → Except FileError Disk) (states : List Disk) (next : Except FileError Unit → StateM Trial α)

theorem run_attempt_error (failed : outcome (faults 0) (operation disk) = .error error) :
    (attempt operation >>= next).run ⟨disk, faults, states⟩ =
      (next (.error error)).run ⟨disk, fun n => faults (n + 1), disk :: states⟩ := by
  have tried : (attempt operation).run ⟨disk, faults, states⟩ =
      (.error error, ⟨disk, fun n => faults (n + 1), disk :: states⟩) := by
    simp only [attempt, StateT.run, failed]
    rfl
  rw [StateT.run_bind, tried]
  rfl

theorem run_attempt_ok (done : outcome (faults 0) (operation disk) = .ok after) :
    (attempt operation >>= next).run ⟨disk, faults, states⟩ =
      (next (.ok ())).run ⟨after, fun n => faults (n + 1), after :: states⟩ := by
  have tried : (attempt operation).run ⟨disk, faults, states⟩ =
      (.ok (), ⟨after, fun n => faults (n + 1), after :: states⟩) := by
    simp only [attempt, StateT.run, done]
    rfl
  rw [StateT.run_bind, tried]
  rfl

end

end Trial

namespace Credentials

open Trial

/-- What is written for a key. -/
def written (key : String) : ByteArray :=
  (render (Text.trim key)).toUTF8

/-- The files with a key at one place. -/
def holding (disk : Disk) (place : List String) (key : String) (mode : Nat) :
    List String → Option (ByteArray × Nat) :=
  Function.update disk.files place (some (written key, mode))

/-- The key is written at a place: it is not blank, and the first two operations succeed. -/
def WritesAt (disk : Disk) (path : Path) (key : String) (faults : Nat → Option FileError) (place : List String) :
    Prop :=
  Text.trim key ≠ "" ∧ ∃ inside after, outcome (faults 0) (disk.createDirectories path.parent) = .ok inside ∧
    outcome (faults 1) (inside.write path (written key)) = .ok after ∧ after.place path = .ok place

/-- What the files are before saving a key and behind each operation, and how the saving ends. -/
inductive Course (disk : Disk) (path : Path) (key : String) (faults : Nat → Option FileError) :
    List (List String → Option (ByteArray × Nat)) → Except CredentialError Unit → Prop where
  | blank : Text.trim key = "" → Course disk path key faults [disk.files] (.error .blankKey)
  | noDirectory {error : FileError} : Text.trim key ≠ "" →
      outcome (faults 0) (disk.createDirectories path.parent) = .error error →
      Course disk path key faults [disk.files, disk.files] (.error (.unwritable path error))
  | notWritten {inside : Disk} {error : FileError} : Text.trim key ≠ "" →
      outcome (faults 0) (disk.createDirectories path.parent) = .ok inside →
      outcome (faults 1) (inside.write path (written key)) = .error error →
      Course disk path key faults [disk.files, disk.files, disk.files] (.error (.unwritable path error))
  /-- If the mode cannot be set, the file keeps the key and the mode that it had. -/
  | notPrivate {place : List String} {error : FileError} : WritesAt disk path key faults place →
      faults 2 = some error →
      Course disk path key faults
        [disk.files, disk.files, holding disk place key (Disk.keptMode (disk.files place)),
          holding disk place key (Disk.keptMode (disk.files place))] (.error (.unwritable path error))
  /-- Between its writing and the setting of its mode, the file has the mode that it had. -/
  | saved {place : List String} : WritesAt disk path key faults place → faults 2 = none →
      Course disk path key faults
        [disk.files, disk.files, holding disk place key (Disk.keptMode (disk.files place)),
          holding disk place key privateMode] (.ok ())

/-- The files before saving a key and behind each operation, and how the saving ends. -/
def course (disk : Disk) (path : Path) (key : String) (faults : Nat → Option FileError) :
    List (List String → Option (ByteArray × Nat)) × Except CredentialError Unit :=
  let (result, trial) := (save path key : StateM Trial _).run ⟨disk, faults, [disk]⟩
  (trial.states.reverse.map Disk.files, result)

theorem course_eq {disk : Disk} {path : Path} {key : String} {faults : Nat → Option FileError}
    {result : Except CredentialError Unit} {trial : Trial}
    (run : (save path key : StateM Trial _).run ⟨disk, faults, [disk]⟩ = (result, trial)) :
    course disk path key faults = (trial.states.reverse.map Disk.files, result) := by
  rw [course, run]

/-- Saving a key takes one of these courses, whatever was there before and whichever operation fails. -/
theorem course_of_save (disk : Disk) (path : Path) (key : String) (faults : Nat → Option FileError) :
    Course disk path key faults (course disk path key faults).1 (course disk path key faults).2 := by
  by_cases isBlank : Text.trim key = ""
  · have run : (save path key : StateM Trial _).run ⟨disk, faults, [disk]⟩ =
        (.error .blankKey, ⟨disk, faults, [disk]⟩) := by
      simp [save, isBlank]
      rfl
    rw [course_eq run]
    exact .blank isBlank
  let mkdir (disk : Disk) := disk.createDirectories path.parent
  let write (disk : Disk) := disk.write path (written key)
  let chmod (disk : Disk) := disk.setMode path privateMode
  -- The run is followed operation by operation until one fails.
  cases created : outcome (faults 0) (mkdir disk) with
  | error error =>
    have run : (save path key : StateM Trial _).run ⟨disk, faults, [disk]⟩ =
        (.error (.unwritable path error), ⟨disk, fun n => faults (n + 1), [disk, disk]⟩) := by
      simp only [save, isBlank, if_false]
      exact run_attempt_error faults mkdir [disk] _ created
    rw [course_eq run]
    exact .noDirectory isBlank created
  | ok inside =>
    have same : inside.files = disk.files := Disk.files_createDirectories (eq_ok_of_outcome created).2
    cases wrote : outcome (faults 1) (write inside) with
    | error error =>
      have run : (save path key : StateM Trial _).run ⟨disk, faults, [disk]⟩ =
          (.error (.unwritable path error), ⟨inside, fun n => faults (n + 2), [inside, inside, disk]⟩) := by
        simp only [save, isBlank, if_false]
        apply (run_attempt_ok faults mkdir [disk] _ created).trans
        exact run_attempt_error (fun n => faults (n + 1)) write [inside, disk] _ wrote
      simp only [course_eq run, List.reverse_cons, List.reverse_nil, List.nil_append, List.cons_append, List.map_cons,
        List.map_nil, same]
      exact .notWritten isBlank created wrote
    | ok after =>
      obtain ⟨place, leads, holds⟩ := Disk.files_write (eq_ok_of_outcome wrote).2
      rw [same] at holds
      have isFile : after.files place = some (written key, Disk.keptMode (disk.files place)) := by
        rw [holds, Function.update_self]
      have holds : after.files = holding disk place key (Disk.keptMode (disk.files place)) := holds
      have writes : WritesAt disk path key faults place := ⟨isBlank, inside, after, created, wrote, leads⟩
      cases fault : faults 2 with
      | some error =>
        have failed : outcome (faults 2) (chmod after) = .error error := by rw [fault]; rfl
        have run : (save path key : StateM Trial _).run ⟨disk, faults, [disk]⟩ =
            (.error (.unwritable path error), ⟨after, fun n => faults (n + 3), [after, after, inside, disk]⟩) := by
          simp only [save, isBlank, if_false]
          apply (run_attempt_ok faults mkdir [disk] _ created).trans
          apply (run_attempt_ok (fun n => faults (n + 1)) write [inside, disk] _ wrote).trans
          exact run_attempt_error (fun n => faults (n + 2)) chmod [after, inside, disk] _ failed
        simp only [course_eq run, List.reverse_cons, List.reverse_nil, List.nil_append, List.cons_append,
          List.map_cons, List.map_nil, same, holds]
        exact .notPrivate writes fault
      | none =>
        obtain ⟨closed, set⟩ := Disk.exists_setMode leads isFile privateMode
        have done : outcome (faults 2) (chmod after) = .ok closed := by rw [fault]; exact set
        have run : (save path key : StateM Trial _).run ⟨disk, faults, [disk]⟩ =
            (.ok (), ⟨closed, fun n => faults (n + 3), [closed, after, inside, disk]⟩) := by
          simp only [save, isBlank, if_false]
          apply (run_attempt_ok faults mkdir [disk] _ created).trans
          apply (run_attempt_ok (fun n => faults (n + 1)) write [inside, disk] _ wrote).trans
          exact run_attempt_ok (fun n => faults (n + 2)) chmod [after, inside, disk] _ done
        have isClosed : closed.files = holding disk place key privateMode := by
          rw [Disk.files_setMode leads isFile set, holds, holding, holding, Function.update_idem]
        simp only [course_eq run, List.reverse_cons, List.reverse_nil, List.nil_append, List.cons_append,
          List.map_cons, List.map_nil, same, holds, isClosed]
        exact .saved writes fault

/-- Whatever file holds the key before, while and after it is saved, only its owner may read it. -/
def IsPrivate (key : String) (states : List (List String → Option (ByteArray × Nat))) : Prop :=
  ∀ files ∈ states, ∀ place mode, files place = some (written key, mode) → mode = privateMode

/-- A saving that fails leaves every file with the content that it had. -/
def IsAllOrNothing (states : List (List String → Option (ByteArray × Nat))) (result : Except CredentialError Unit) :
    Prop :=
  result ≠ .ok () → ∀ first ∈ states.head?, ∀ last ∈ states.getLast?, ∀ place,
    (last place).map Prod.fst = (first place).map Prod.fst

section

variable {disk : Disk} {path : Path} {key : String} {faults : Nat → Option FileError}
  {states : List (List String → Option (ByteArray × Nat))} {result : Except CredentialError Unit}
  {place : List String}

theorem WritesAt.unique {other : List String} (writes : WritesAt disk path key faults place)
    (writesOther : WritesAt disk path key faults other) : place = other := by
  obtain ⟨-, inside, after, created, wrote, leads⟩ := writes
  obtain ⟨-, inside', after', created', wrote', leads'⟩ := writesOther
  cases created.symm.trans created'
  cases wrote.symm.trans wrote'
  cases leads.symm.trans leads'
  rfl

theorem not_writesAt_of_noDirectory {error : FileError}
    (failed : outcome (faults 0) (disk.createDirectories path.parent) = .error error) :
    ¬WritesAt disk path key faults place := by
  rintro ⟨-, inside, after, created, -⟩
  cases failed.symm.trans created

theorem not_writesAt_of_notWritten {inside : Disk} {error : FileError}
    (created : outcome (faults 0) (disk.createDirectories path.parent) = .ok inside)
    (failed : outcome (faults 1) (inside.write path (written key)) = .error error) :
    ¬WritesAt disk path key faults place := by
  rintro ⟨-, inside', after, created', wrote, -⟩
  cases created.symm.trans created'
  cases failed.symm.trans wrote

theorem mode_of_holding (before : ∀ place mode, disk.files place = some (written key, mode) → mode = privateMode)
    {other : List String} {mode : Nat} (holds : holding disk place key privateMode other = some (written key, mode)) :
    mode = privateMode := by
  rw [holding, Function.update_apply] at holds
  split at holds
  · cases holds
    rfl
  · exact before other mode holds

/-- The files are as before in the beginning, then one holds the key with the mode that it had, and at last with the
mode of a private file. -/
theorem mem_states_iff (course : Course disk path key faults states result)
    {files : List String → Option (ByteArray × Nat)} :
    files ∈ states ↔ files = disk.files ∨ ∃ place, WritesAt disk path key faults place ∧
      (files = holding disk place key (Disk.keptMode (disk.files place)) ∨
        faults 2 = none ∧ files = holding disk place key privateMode) := by
  have unwritten (all : ∀ place, ¬WritesAt disk path key faults place) :
      files = disk.files ↔ files = disk.files ∨ ∃ place, WritesAt disk path key faults place ∧
        (files = holding disk place key (Disk.keptMode (disk.files place)) ∨
          faults 2 = none ∧ files = holding disk place key privateMode) := by
    simp [all]
  cases course with
  | blank isBlank =>
    rw [List.mem_singleton]
    exact unwritten fun place writes => writes.1 isBlank
  | noDirectory _ failed =>
    simp only [List.mem_cons, List.not_mem_nil, or_false, or_self]
    exact unwritten fun place => not_writesAt_of_noDirectory failed
  | notWritten _ created failed =>
    simp only [List.mem_cons, List.not_mem_nil, or_false, or_self]
    exact unwritten fun place => not_writesAt_of_notWritten created failed
  | @notPrivate place error writes fault =>
    simp only [List.mem_cons, List.not_mem_nil, or_false, or_self, ← or_assoc]
    apply or_congr_right
    constructor
    · intro isHolding
      exact ⟨place, writes, .inl isHolding⟩
    · rintro ⟨other, writesOther, isHolding | ⟨none, -⟩⟩
      · rwa [writes.unique writesOther]
      · rw [fault] at none
        cases none
  | @saved place writes fault =>
    simp only [List.mem_cons, List.not_mem_nil, or_false, or_self, ← or_assoc]
    rw [or_assoc]
    apply or_congr_right
    constructor
    · intro isHolding
      exact ⟨place, writes, isHolding.imp_right fun same => ⟨fault, same⟩⟩
    · rintro ⟨other, writesOther, isHolding⟩
      rw [writes.unique writesOther]
      exact isHolding.imp_right And.right

theorem isPrivate_iff (course : Course disk path key faults states result) :
    IsPrivate key states ↔ (∀ place mode, disk.files place = some (written key, mode) → mode = privateMode) ∧
      ∀ place, WritesAt disk path key faults place → Disk.keptMode (disk.files place) = privateMode := by
  constructor
  · intro isPrivate
    refine ⟨isPrivate _ ((mem_states_iff course).2 (.inl rfl)), ?_⟩
    intro place writes
    apply isPrivate _ ((mem_states_iff course).2 (.inr ⟨place, writes, .inl rfl⟩)) place
    exact Function.update_self ..
  · rintro ⟨before, kept⟩ files mem place mode holds
    rcases (mem_states_iff course).1 mem with rfl | ⟨other, writes, rfl | ⟨-, rfl⟩⟩
    · exact before place mode holds
    · rw [kept other writes] at holds
      exact mode_of_holding before holds
    · exact mode_of_holding before holds

theorem isAllOrNothing_iff (course : Course disk path key faults states result) :
    IsAllOrNothing states result ↔ ∀ place, WritesAt disk path key faults place → faults 2 ≠ none →
      (disk.files place).map Prod.fst = some (written key) := by
  have unchanged (first : states.head? = some disk.files) (last : states.getLast? = some disk.files) :
      IsAllOrNothing states result := by
    rintro - files isFirst others isLast place
    cases first.symm.trans isFirst
    cases last.symm.trans isLast
    rfl
  cases course with
  | blank isBlank => exact iff_of_true (unchanged rfl rfl) fun place writes => absurd isBlank writes.1
  | noDirectory _ failed =>
    refine iff_of_true (unchanged rfl rfl) ?_
    intro place writes
    exact absurd writes (not_writesAt_of_noDirectory failed)
  | notWritten _ created failed =>
    refine iff_of_true (unchanged rfl rfl) ?_
    intro place writes
    exact absurd writes (not_writesAt_of_notWritten created failed)
  | @notPrivate place error writes fault =>
    constructor
    · intro kept other writesOther _
      rw [← writes.unique writesOther]
      have same : (holding disk place key _ place).map Prod.fst = (disk.files place).map Prod.fst :=
        kept (by simp) _ rfl _ rfl place
      simpa only [holding, Function.update_self, Option.map_some] using same.symm
    · rintro before - files isFirst others isLast other
      obtain rfl := Option.some.inj isFirst
      obtain rfl : holding disk place key (Disk.keptMode (disk.files place)) = others := Option.some.inj isLast
      rw [holding, Function.update_apply]
      split
      · rename_i here
        rw [here, before place writes (by simp [fault]), Option.map_some]
      · rfl
  | saved writes fault =>
    refine iff_of_true (fun failed => absurd rfl failed) ?_
    intro place _ failed
    exact absurd fault failed

end

/-- Saving a key takes its course whatever was there before and whichever operation fails. So the key is private all
along just if it was where it was before and the file that it is written to had the mode of a private file already; and
a saving that fails keeps all contents just if it is not the mode that cannot be set, or the key was there before. -/
theorem save_course (disk : Disk) (path : Path) (key : String) (faults : Nat → Option FileError) :
    Course disk path key faults (course disk path key faults).1 (course disk path key faults).2 ∧
    (IsPrivate key (course disk path key faults).1 ↔
      (∀ place mode, disk.files place = some (written key, mode) → mode = privateMode) ∧
      ∀ place, WritesAt disk path key faults place → Disk.keptMode (disk.files place) = privateMode) ∧
    (IsAllOrNothing (course disk path key faults).1 (course disk path key faults).2 ↔
      ∀ place, WritesAt disk path key faults place → faults 2 ≠ none →
        (disk.files place).map Prod.fst = some (written key)) := by
  have taken := course_of_save disk path key faults
  exact ⟨taken, isPrivate_iff taken, isAllOrNothing_iff taken⟩

/-- A key is written to a new file, and then its mode cannot be set. -/
def stuck : Nat → Option FileError
  | 2 => some (.other "[Errno 1] Operation not permitted")
  | _ => none

theorem writesAt_new {faults : Nat → Option FileError} (first : faults 0 = none) (second : faults 1 = none) :
    WritesAt {} ⟨"", ["keys"]⟩ "secret" faults ["keys"] := by
  refine ⟨by decide, {}, Disk.put {} ["keys"] (.file (written "secret") Disk.defaultMode), ?_, ?_, rfl⟩
  · rw [first]
    rfl
  · rw [second]
    rfl

/-- In a new file the key is readable for others at first, and it stays if its mode cannot be set. -/
theorem not_isPrivate_new :
    ¬IsPrivate "secret" (course {} ⟨"", ["keys"]⟩ "secret" fun _ => none).1 ∧
      ¬IsAllOrNothing (course {} ⟨"", ["keys"]⟩ "secret" stuck).1
        (course {} ⟨"", ["keys"]⟩ "secret" stuck).2 := by
  constructor
  · intro isPrivate
    have kept := ((isPrivate_iff (course_of_save ..)).1 isPrivate).2 ["keys"] (writesAt_new rfl rfl)
    cases kept
  · intro kept
    have before := (isAllOrNothing_iff (course_of_save ..)).1 kept ["keys"] (writesAt_new rfl rfl) (by decide)
    cases before

end Credentials
end Flowchart
