import Flowchart.Credentials
import Flowchart.Proofs.Files.Disk
import Flowchart.Proofs.Yaml.RoundTrip

/-!
The stored key as a cell: whatever has been saved, loaded and cleared, the key that is loaded is the last one
that was saved since the last clear, whatever text it is. Blank keys are refused and change nothing.
-/
namespace Flowchart.Credentials

theorem isKey_keyName : Yaml.IsKey keyName where
  ne_nil := by decide
  chars := by
    have all : (keyName.toList.all fun c => c.isAlphanum || c == '_') = true := by decide
    simpa using all
  short := by decide
  isText := by decide

/-- The text of the file for a key is read as that key. -/
theorem ofYaml_render (path : Path) {key : String} (ne : key ≠ "") : ofYaml path (render key) = .ok (some key) := by
  have found : Data.get? keyName [(.text keyName, .text key)] = some (.text key) := by
    simp [Data.get?]
  have read : ofData (.mapping [(.text keyName, .text key)]) = .ok (some key) := by
    have taken : asOptionalText (.text key) = .ok (some key) := rfl
    simp [ofData, Data.Reader.field, found, taken, Data.Reader.finish, ne]
  rw [ofYaml, render, Yaml.load_render isKey_keyName, ofLoaded, read]
  rfl

theorem noReturn_render (key : String) : '\r' ∉ (render key).toList := fun mem => by
  have isWritten := Yaml.isWritten_render isKey_keyName key '\r' mem
  simp [Yaml.Entry.IsWritten, Yaml.Entry.isVisible] at isWritten

/-- What can be asked of the store. -/
inductive Request where
  | save (key : String)
  | load
  | clear

/-- The outcome of a request: the key that is loaded, and none where no key is asked for. -/
abbrev Answer := Except CredentialError (Option String)

def perform (path : Path) : Request → StateM Disk Answer
  | .save key => do return (← save path key).map fun () => none
  | .load => load path
  | .clear => do return (← clear path).map fun () => none

/-- An operation on a file failed. -/
def HasFileError : Answer → Prop
  | .error (.unreadable _ _) | .error (.unwritable _ _) | .error (.notRemovable _ _) => True
  | _ => False

instance : DecidablePred HasFileError
  | .error (.unreadable _ _) | .error (.unwritable _ _) | .error (.notRemovable _ _) => .isTrue trivial
  | .error .blankKey | .error (.unreachable _) | .error (.notText _) | .error (.badYaml _ _)
  | .error (.badEntries _ _) | .ok _ => .isFalse id

/-- The key that is kept after some requests, the latest first: the last one that was saved and is not blank,
unless the store was cleared since then. -/
def kept : List Request → Option String
  | [] => none
  | .save key :: earlier => if Text.trim key = "" then kept earlier else some (Text.trim key)
  | .load :: earlier => kept earlier
  | .clear :: _ => none

/-- A disk with a key in the file at a path, or without that file. -/
def Holds (path : Path) (disk : Disk) : Option String → Prop
  | none => disk.find? path = none
  | some key => key ≠ "" ∧ disk.read path = .ok (render key).toUTF8

variable {path : Path} {disk : Disk} {key? : Option String}

/-- Loading finds the key that is there, and changes nothing. -/
theorem perform_load (holds : Holds path disk key?) : (perform path .load).run disk = (.ok key?, disk) := by
  cases key? with
  | none =>
    have absent : disk.find? path = none := holds
    simp [perform, load, Files.isPresent, absent]
    rfl
  | some key =>
    obtain ⟨ne, held⟩ := holds
    have text := Disk.readText_of_read held (noReturn_render key)
    have there := Disk.isSome_find?_of_read held
    have read : ofRead Yaml.load path (.ok (render key)) = .ok (some key) := ofYaml_render path ne
    simp [perform, load, Files.isPresent, there, Files.readText, text, read]
    rfl

/-- Saving a blank key changes nothing. -/
theorem perform_save_blank {key : String} (blank : Text.trim key = "") (disk : Disk) :
    (perform path (.save key)).run disk = (.error .blankKey, disk) := by
  simp [perform, save, blank]
  rfl

/-- A key that is not blank is in the file afterwards, unless an operation on a file failed. -/
theorem perform_save {key : String} (ne : Text.trim key ≠ "") (disk : Disk) :
    HasFileError ((perform path (.save key)).run disk).1 ∨
      ∃ after, (perform path (.save key)).run disk = (.ok none, after) ∧ Holds path after (some (Text.trim key)) := by
  simp only [perform, save, ne, if_false, Files.createDirectories, Files.write, Files.setMode]
  cases created : disk.createDirectories path.parent with
  | error error =>
    left
    simp [Disk.commit, created]
    trivial
  | ok inside =>
    cases written : inside.write path (render (Text.trim key)).toByteArray with
    | error error =>
      left
      simp [Disk.commit, created, written]
      trivial
    | ok holding =>
      cases set : holding.setMode path privateMode with
      | error error =>
        left
        simp [Disk.commit, created, written, set]
        trivial
      | ok after =>
        refine .inr ⟨after, ?_, ne, Disk.read_setMode set (Disk.read_write written)⟩
        simp [Disk.commit, created, written, set]
        rfl

theorem perform_clear (disk : Disk) :
    HasFileError ((perform path .clear).run disk).1 ∨
      ∃ after, (perform path .clear).run disk = (.ok none, after) ∧ Holds path after none := by
  cases removed : disk.remove path with
  | error error =>
    left
    simp [perform, clear, Files.remove, Disk.commit, removed]
    trivial
  | ok after =>
    refine .inr ⟨after, ?_, Disk.find?_remove removed⟩
    simp [perform, clear, Files.remove, Disk.commit, removed]
    rfl

/-- What a request whose file operations succeed leaves. -/
theorem holds_perform {earlier : List Request} (request : Request) (holds : Holds path disk (kept earlier))
    (succeeds : ¬ HasFileError ((perform path request).run disk).1) :
    Holds path ((perform path request).run disk).2 (kept (request :: earlier)) := by
  cases request with
  | save key =>
    by_cases blank : Text.trim key = ""
    · rw [perform_save_blank blank]
      simpa [kept, blank] using holds
    · obtain failed | ⟨after, eq, held⟩ := perform_save blank disk
      · exact absurd failed succeeds
      · rw [eq]
        simpa [kept, blank] using held
  | load =>
    rw [perform_load holds]
    exact holds
  | clear =>
    obtain failed | ⟨after, eq, held⟩ := perform_clear disk
    · exact absurd failed succeeds
    · rw [eq]
      exact held

/-- The first of some requests, and the others on the disk that it leaves. -/
theorem run_mapM_cons (request : Request) (history : List Request) (disk : Disk) :
    ((request :: history).mapM (perform path)).run disk =
      let first := (perform path request).run disk
      let others := (history.mapM (perform path)).run first.2
      (first.1 :: others.1, others.2) := by
  rw [List.mapM_cons]
  rfl

theorem holds_mapM {earlier : List Request} (history : List Request) (holds : Holds path disk (kept earlier))
    (succeed : ∀ answer ∈ ((history.mapM (perform path)).run disk).1, ¬ HasFileError answer) :
    Holds path ((history.mapM (perform path)).run disk).2 (kept (history.reverse ++ earlier)) := by
  induction history generalizing disk earlier with
  | nil => exact holds
  | cons request history ih =>
    rw [run_mapM_cons] at succeed ⊢
    obtain ⟨succeeds, succeed⟩ := List.forall_mem_cons.1 succeed
    simpa using ih (holds_perform request holds succeeds) succeed

/-- **The key is kept.** After any requests whose file operations succeed, on a disk that had no file at the
start, loading answers the last key that was saved and is not blank, without the blanks around it, unless the
store was cleared since; and saving a blank key is refused. Neither changes the disk. -/
theorem load_history (path : Path) (start : Disk) (history : List Request) (absent : start.find? path = none)
    (succeed : ∀ answer ∈ ((history.mapM (perform path)).run start).1, ¬ HasFileError answer) :
    let disk := ((history.mapM (perform path)).run start).2
    (perform path .load).run disk = (.ok (kept history.reverse), disk) ∧
      ∀ key, Text.trim key = "" → (perform path (.save key)).run disk = (.error .blankKey, disk) := by
  intro disk
  have holds : Holds path disk (kept (history.reverse ++ [])) := holds_mapM history absent succeed
  rw [List.append_nil] at holds
  exact ⟨perform_load holds, fun key blank => perform_save_blank blank disk⟩

/-- Keys that look like a number and like a comment, a blank one, and directories that are missing. -/
theorem load_history_marks :
    let path : Path := ⟨"", ["flowdraw", "credentials.yaml"]⟩
    let history : List Request := [.save "007", .clear, .save " # key: 'null'\n\u2028 no\t", .save " \n"]
    let disk := ((history.mapM (perform path)).run {}).2
    ({} : Disk).find? path = none ∧ (∀ answer ∈ ((history.mapM (perform path)).run {}).1, ¬ HasFileError answer) ∧
      (perform path .load).run disk = (.ok (some "# key: 'null'\n\u2028 no"), disk) := by
  intro path history disk
  have absent : ({} : Disk).find? path = none := by decide
  have succeed : ∀ answer ∈ ((history.mapM (perform path)).run {}).1, ¬ HasFileError answer := by decide
  have last : kept history.reverse = some "# key: 'null'\n\u2028 no" := by decide
  exact ⟨absent, succeed, last ▸ (load_history path {} history absent succeed).1⟩

end Flowchart.Credentials
