import Flowchart.Files.Disk

/-!
What operations on a disk leave at a path. An operation changes what is at one place that is no directory, so
every path that led through directories still leads where it led.
-/
namespace Flowchart.Disk

variable {disk after : Disk} {path : Path} {place : List String}

/-- Without the entries of a place, nothing is found there, and elsewhere the same as before. -/
theorem lookup_filter_ne (entries : List (List String × Entry)) (place other : List String) :
    (entries.filter fun entry => !decide (entry.1 = place)).lookup other =
      if other = place then none else entries.lookup other := by
  induction entries with
  | nil => simp
  | cons entry entries ih =>
    obtain ⟨key, content⟩ := entry
    simp only [List.filter_cons, List.lookup_cons]
    by_cases here : key = place
    · simp only [here, decide_true, Bool.not_true, Bool.false_eq_true, if_false]
      rw [ih]
      split
      · rfl
      · rename_i apart
        simp [show (other == place) = false by simpa using apart]
    · simp only [here, decide_false, Bool.not_false, if_true, List.lookup_cons]
      rw [ih]
      split <;> split <;> simp_all

theorem entry?_put (entry : Entry) (noRoot : place ≠ []) (other : List String) :
    Disk.entry? (disk.put place entry) other = if other = place then some entry else disk.entry? other := by
  by_cases root : other = []
  · simp [ entry?, root, Ne.symm noRoot]
  by_cases same : other = place
  · simp [ entry?, put, List.lookup_append, lookup_filter_ne, same, noRoot]
  · have apart : (other == place) = false := by simpa using same
    simp [ entry?, put, root, List.lookup_append, lookup_filter_ne, same, List.lookup_cons, apart]

theorem entry?_erase (noRoot : place ≠ []) (other : List String) :
    Disk.entry? (disk.erase place) other = if other = place then none else disk.entry? other := by
  by_cases root : other = []
  · simp [ entry?, root, Ne.symm noRoot]
  · simp [ entry?, erase, root, lookup_filter_ne]

/-- Everything but the root may be no directory. -/
theorem ne_nil_of_noDirectory (noDirectory : disk.entry? place ≠ some .directory) : place ≠ [] := by
  rintro rfl
  exact noDirectory rfl

theorem foldlM_enter_of_directories {start : List String} (steps : List String)
    (stay : ∀ place, disk.entry? place = some .directory → after.entry? place = some .directory)
    (leads : steps.foldlM (disk.enter path) start = .ok place) : steps.foldlM (after.enter path) start = .ok place := by
  induction steps generalizing start with
  | nil => exact leads
  | cons step steps ih =>
    simp only [List.foldlM_cons] at leads ⊢
    cases here : disk.entry? start with
    | none => simp [enter, here, bind, Except.bind] at leads
    | some entry =>
      cases entry with
      | file content mode => simp [enter, here, bind, Except.bind] at leads
      | directory =>
        simp only [enter, here, stay start here, bind, Except.bind] at leads ⊢
        exact ih leads

/-- A path leads where it led as long as the directories and the working directory stay. -/
theorem place_of_directories (disk : Disk) (home : after.home = disk.home)
    (stay : ∀ place, disk.entry? place = some .directory → after.entry? place = some .directory)
    (leads : disk.place path = .ok place) : after.place path = .ok place := by
  unfold Disk.place at leads ⊢
  rw [home]
  exact foldlM_enter_of_directories path.parts stay leads

theorem place_put {other : List String} (entry : Entry) (noDirectory : disk.entry? place ≠ some .directory)
    (leads : disk.place path = .ok other) : (disk.put place entry).place path = .ok other := by
  refine place_of_directories disk rfl (fun directory is => ?_) leads
  rw [entry?_put entry (ne_nil_of_noDirectory noDirectory), if_neg ?_, is]
  rintro rfl
  exact noDirectory is

theorem place_erase {other : List String} (noDirectory : disk.entry? place ≠ some .directory)
    (leads : disk.place path = .ok other) : (disk.erase place).place path = .ok other := by
  refine place_of_directories disk rfl (fun directory is => ?_) leads
  rw [entry?_erase (ne_nil_of_noDirectory noDirectory), if_neg ?_, is]
  rintro rfl
  exact noDirectory is

theorem read_put {content : ByteArray} {mode : Nat} (noDirectory : disk.entry? place ≠ some .directory)
    (leads : disk.place path = .ok place) : (disk.put place (.file content mode)).read path = .ok content := by
  simp [read, place_put _ noDirectory leads, entry?_put _ (ne_nil_of_noDirectory noDirectory), bind, Except.bind]

/-- What a write comes to: one place, which is no directory, holds the content. -/
theorem write_cases {content : ByteArray} (written : disk.write path content = .ok after) :
    ∃ place mode, disk.place path = .ok place ∧ disk.entry? place ≠ some .directory ∧
      after = disk.put place (.file content mode) := by
  unfold write at written
  cases leads : disk.place path with
  | error error => simp [leads, bind, Except.bind] at written
  | ok place =>
    simp only [leads, bind, Except.bind] at written
    split at written
    · rename_i mode here
      exact ⟨place, mode, rfl, by simp [here], (Except.ok.inj written).symm⟩
    · cases written
    · rename_i here
      exact ⟨place, defaultMode, rfl, by simp [here], (Except.ok.inj written).symm⟩

/-- What is written is read. -/
theorem read_write {content : ByteArray} (written : disk.write path content = .ok after) :
    after.read path = .ok content := by
  obtain ⟨place, mode, leads, noDirectory, rfl⟩ := write_cases written
  exact read_put noDirectory leads

/-- A path leads where it led before something was written there. -/
theorem place_write {content : ByteArray} (written : disk.write path content = .ok after) :
    after.place path = disk.place path := by
  obtain ⟨place, mode, leads, noDirectory, rfl⟩ := write_cases written
  rw [leads, place_put _ noDirectory leads]

/-- Nothing but what the path leads to is changed. -/
theorem entry?_write {content : ByteArray} {other : List String} (written : disk.write path content = .ok after)
    (elsewhere : disk.place path ≠ .ok other) : after.entry? other = disk.entry? other := by
  obtain ⟨place, mode, leads, noDirectory, rfl⟩ := write_cases written
  rw [entry?_put _ (ne_nil_of_noDirectory noDirectory), if_neg]
  rintro rfl
  exact elsewhere leads

/-- Any content may be written at a path. -/
def Writable (disk : Disk) (path : Path) : Prop :=
  ∀ content, ∃ after, disk.write path content = .ok after

theorem writable_of_write {content : ByteArray} (written : disk.write path content = .ok after) :
    after.Writable path := by
  obtain ⟨place, mode, leads, noDirectory, rfl⟩ := write_cases written
  have isFile : Disk.entry? (disk.put place (.file content mode)) place = some (.file content mode) := by
    rw [entry?_put _ (ne_nil_of_noDirectory noDirectory), if_pos rfl]
  intro next
  simp [write, place_put _ noDirectory leads, isFile, bind, Except.bind]

/-- The mode of a file has no part in its content. -/
theorem read_setMode {content : ByteArray} {mode : Nat} (set : disk.setMode path mode = .ok after)
    (held : disk.read path = .ok content) : after.read path = .ok content := by
  unfold setMode at set
  cases leads : disk.place path with
  | error error => simp [leads, bind, Except.bind] at set
  | ok place =>
    simp only [read, leads, bind, Except.bind] at set held
    split at set
    · rename_i here
      obtain rfl := Except.ok.inj set
      rw [here] at held
      obtain rfl := Except.ok.inj held
      exact read_put (by simp [here]) leads
    · rename_i here
      rw [here] at held
      cases held
    · cases set

theorem isSome_find?_of_read {content : ByteArray} (held : disk.read path = .ok content) :
    (disk.find? path).isSome = true := by
  unfold read at held
  cases leads : disk.place path with
  | error error => simp [leads, bind, Except.bind] at held
  | ok place =>
    simp only [leads, bind, Except.bind] at held
    split at held
    · rename_i here
      simp [find?, leads, here]
    · cases held
    · cases held

/-- What is removed is not there. -/
theorem find?_remove (removed : disk.remove path = .ok after) : after.find? path = none := by
  unfold remove at removed
  split at removed
  · rename_i leads
    obtain rfl := Except.ok.inj removed
    simp [find?, leads]
  · cases removed
  · rename_i place leads
    split at removed
    · rename_i here
      obtain rfl := Except.ok.inj removed
      have noDirectory : disk.entry? place ≠ some .directory := by simp [here]
      simp [find?, place_erase noDirectory leads, entry?_erase (ne_nil_of_noDirectory noDirectory)]
    · cases removed
    · rename_i here
      obtain rfl := Except.ok.inj removed
      simp [find?, leads, here]

/-- Text without carriage returns is read as it is written. -/
theorem decode_toUTF8 {text : String} (noReturn : '\r' ∉ text.toList) : Files.decode text.toUTF8 = .ok text := by
  have decoded : String.fromUTF8? text.toUTF8 = some text := by
    simp only [String.fromUTF8?, String.toUTF8_eq_toByteArray, dif_pos text.isValidUTF8]
    rfl
  simp only [Files.decode, decoded, Text.unifyNewlines_of_not_mem noReturn, String.ofList_toList]

theorem readText_of_read {text : String} (held : disk.read path = .ok text.toUTF8) (noReturn : '\r' ∉ text.toList) :
    disk.readText path = .ok text := by
  rw [readText, held]
  exact decode_toUTF8 noReturn

end Flowchart.Disk
