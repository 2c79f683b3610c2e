import Flowchart.Proofs.CommandLine.Endings

/-!
What a command finds on its way: settings, a source and a key, as far as the system does not refuse them. Looking for
them touches nothing.
-/
namespace Flowchart.CommandLine

variable {α β : Type} {context : Context} {before between after : World}

/-- The file that a command takes settings from: the one that is given, or the usual one if it is there. -/
def settingsFile (context : Context) (config : Option Path) (world : World) : Except FileError (Option Path) :=
  match config with
  | some path => .ok path
  | none =>
    let usual := context.workingDirectory.child settingsName
    (world.isPresent usual).map fun isPresent => if isPresent then some usual else none

/-- The settings that a command takes, or what is wrong with their file, if it can be told which one it is. -/
def settingsIn (context : Context) (config : Option Path) (world : World) :
    Except (Option SettingsError) Settings :=
  match settingsFile context config world with
  | .ok (some path) => (Settings.ofRead context.loader path (world.readText path)).mapError some
  | .ok none => .ok Settings.standard
  | .error _ => .error none

/-- The key in a file of credentials if it is there. -/
def credentialsAt (loader : Yaml.Loader) (path : Path) (world : World) : Except CredentialError (Option String) :=
  match world.isPresent path with
  | .ok true => Credentials.ofRead loader path (world.readText path)
  | .ok false => .ok none
  | .error error => .error (.unreachable error)

/-- The key that is stored in the files, or what is wrong with its file if it has one. -/
def keyIn (context : Context) (world : World) : Except (Option CredentialError) String :=
  match credentialsAt context.loader context.environment.credentialsPath world with
  | .ok (some key) => .ok key
  | .ok none => .error none
  | .error error => .error (some error)

/-- The files are as before, and so are the system and the others. -/
structure Steady (before after : World) : Prop where
  disk : after.disk = before.disk
  outside : after.outside = before.outside
  now : after.now = before.now

/-- Nothing was changed or asked. -/
structure Untouched (before after : World) : Prop extends Steady before after where
  requests : after.requests = before.requests

namespace Steady

theorem trans (first : Steady before between) (second : Steady between after) : Steady before after :=
  ⟨second.disk.trans first.disk, second.outside.trans first.outside, second.now.trans first.now⟩

theorem isPresent (steady : Steady before after) (path : Path) : after.isPresent path = before.isPresent path := by
  rw [World.isPresent, World.isPresent, World.refusal?, World.refusal?, steady.disk, steady.outside, steady.now]

theorem readText (steady : Steady before after) (path : Path) : after.readText path = before.readText path := by
  rw [World.readText, World.readText, World.refusal?, World.refusal?, steady.disk, steady.outside, steady.now]

theorem written (steady : Steady before after) (path : Path) (text : String) :
    after.written path text = before.written path text := by
  simp only [World.written, World.tried, World.refusal?, steady.disk, steady.outside, steady.now]

theorem keyIn (steady : Steady before after) (context : Context) : keyIn context after = keyIn context before := by
  rw [CommandLine.keyIn, CommandLine.keyIn, credentialsAt, credentialsAt, steady.isPresent, steady.readText]

end Steady

namespace Untouched

theorem refl (world : World) : Untouched world world :=
  ⟨⟨rfl, rfl, rfl⟩, rfl⟩

theorem trans (first : Untouched before between) (second : Untouched between after) : Untouched before after :=
  ⟨first.toSteady.trans second.toSteady, second.requests.trans first.requests⟩

end Untouched

/-- A step comes to a result and touches nothing. -/
def Finds (step : Step Machine α) (before : World) (result : Except Outcome α) : Prop :=
  ∃ after, StateT.run (ExceptT.run step) before = (result, after) ∧ Untouched before after

section parts

theorem Finds.follow {first : Step Machine α} {next : α → Step Machine β} {a : α} {result : Except Outcome β}
    (runs : StateT.run (ExceptT.run first) before = (.ok a, between)) (untouched : Untouched before between)
    (finds : Finds (next a) between result) : Finds (first >>= next) before result := by
  obtain ⟨after, runsOn, still⟩ := finds
  refine ⟨after, ?_, untouched.trans still⟩
  rw [run_bind, runs]
  exact runsOn

theorem Finds.bind {first : Step Machine α} {next : α → Step Machine β} {a : α} {result : Except Outcome β}
    (finds : Finds first before (.ok a))
    (goesOn : ∀ between, Untouched before between → Finds (next a) between result) :
    Finds (first >>= next) before result := by
  obtain ⟨between, runs, untouched⟩ := finds
  exact (goesOn between untouched).follow runs untouched

theorem Finds.stop {first : Step Machine α} {outcome : Outcome} (finds : Finds first before (.error outcome))
    (next : α → Step Machine β) : Finds (first >>= next) before (.error outcome) := by
  obtain ⟨after, runs, untouched⟩ := finds
  refine ⟨after, ?_, untouched⟩
  rw [run_bind, runs]

theorem finds_pure (a : α) (before : World) : Finds (pure a) before (.ok a) :=
  ⟨before, rfl, .refl before⟩

theorem finds_throw (outcome : Outcome) (before : World) :
    Finds (throw outcome : Step Machine α) before (.error outcome) :=
  ⟨before, rfl, .refl before⟩

theorem finds_fail (message : String) (before : World) :
    Finds (fail message : Step Machine α) before (.error (.code 1)) :=
  ⟨_, rfl, ⟨rfl, rfl, rfl⟩, rfl⟩

/-- What is wrong with a file ends the command, with a line or without one. -/
theorem finds_stop (cause? : Option Abort) (message : String) (before : World) :
    Finds (match cause? with | some cause => abort cause | none => fail message : Step Machine α) before
      (.error (cause?.elim (.code 1) .aborted)) := by
  cases cause? with
  | none => exact finds_fail message before
  | some cause => exact finds_throw (.aborted cause) before

theorem finds_lift {action : Machine α} {a : α} (runs : action.run before = (a, after))
    (untouched : Untouched before after) : Finds (liftM action : Step Machine α) before (.ok a) := by
  refine ⟨after, ?_, untouched⟩
  show (Except.ok (action.run before).1, (action.run before).2) = _
  rw [runs]

theorem finds_print (text : String) (before : World) :
    Finds (liftM (Console.print text : Machine Unit) : Step Machine Unit) before (.ok ()) :=
  ⟨_, rfl, ⟨rfl, rfl, rfl⟩, rfl⟩

theorem finds_log (context : Context) (entry : LogEntry) (before : World) :
    Finds (log context entry : Step Machine Unit) before (.ok ()) := by
  unfold log LogEntry.write
  split
  · exact ⟨_, rfl, ⟨rfl, rfl, rfl⟩, rfl⟩
  · exact finds_pure () before

theorem finds_forM {items : List α} {body : α → Step Machine PUnit}
    (finds : ∀ item before, Finds (body item) before (.ok ())) (before : World) :
    Finds (items.forM body) before (.ok ()) := by
  induction items generalizing before with
  | nil => exact finds_pure _ before
  | cons item items ih => exact (finds item before).bind fun between _ => ih between

/-- A step finds what is there, or ends the command; it touches nothing. -/
def Reads {ε : Type} (step : Step Machine α) (before : World) : Except ε α → Prop
  | .ok a => Finds step before (.ok a)
  | .error _ => ∃ outcome, Finds step before (.error outcome)

theorem Reads.bind {ε : Type} {first : Step Machine α} {next : α → Step Machine β} {a : α} {there : Except ε β}
    (finds : Finds first before (.ok a))
    (goesOn : ∀ between, Untouched before between → Reads (next a) between there) :
    Reads (first >>= next) before there := by
  obtain ⟨between, runs, untouched⟩ := finds
  have rest := goesOn between untouched
  cases there with
  | ok b => exact Finds.follow runs untouched rest
  | error error =>
    obtain ⟨outcome, finds⟩ := rest
    exact ⟨outcome, finds.follow runs untouched⟩

theorem Reads.mapError {ε δ : Type} {step : Step Machine α} {there : Except ε α} (reads : Reads step before there)
    (change : ε → δ) : Reads step before (there.mapError change) := by
  cases there <;> exact reads

theorem Reads.stop {ε δ : Type} {first : Step Machine α} {error : ε} (reads : Reads first before (.error error))
    (next : α → Step Machine β) {reason : δ} : Reads (first >>= next) before (.error reason) := by
  obtain ⟨outcome, finds⟩ := reads
  exact ⟨outcome, finds.stop next⟩

theorem reads_readSettings (context : Context) (path : Path) (before : World) :
    Reads (readSettings context path : Step Machine Settings) before
      (Settings.ofRead context.loader path (before.readText path)) := by
  have loads : (Settings.load path context.loader : Machine _).run before =
      (Settings.ofRead context.loader path (before.readText path),
        { before with reads := before.reads ++ [(path, before.readText path)] }) := rfl
  have finds := finds_lift loads ⟨⟨rfl, rfl, rfl⟩, rfl⟩
  unfold readSettings
  generalize Settings.ofRead context.loader path (before.readText path) = read at finds ⊢
  cases read with
  | ok settings => exact finds.bind fun between _ => finds_pure settings between
  | error error => exact ⟨_, finds.bind fun between _ => finds_stop error.abort? error.message between⟩

theorem reads_isPresent (path : Path) (before : World) :
    Reads (CommandLine.isPresent path : Step Machine Bool) before (before.isPresent path) := by
  have runs : (Files.isPresent path : Machine _).run before = (before.isPresent path, before) := rfl
  have finds := finds_lift runs (.refl before)
  unfold CommandLine.isPresent
  generalize before.isPresent path = present at finds ⊢
  cases present with
  | ok isPresent => exact finds.bind fun between _ => finds_pure isPresent between
  | error error => exact ⟨_, finds.bind fun between _ => finds_throw _ between⟩

theorem reads_settings (context : Context) (config : Option Path) (before : World) :
    Reads (settings context config : Step Machine Settings) before (settingsIn context config before) := by
  cases config with
  | some path => exact (reads_readSettings context path before).mapError some
  | none =>
    let usual := context.workingDirectory.child settingsName
    have reads := reads_isPresent usual before
    unfold settings settingsIn settingsFile
    dsimp only
    generalize before.isPresent usual = present at reads ⊢
    match present with
    | .error error => exact reads.stop _
    | .ok false => exact Reads.bind reads fun between _ => finds_pure _ between
    | .ok true =>
      refine Reads.bind reads fun between untouched => ?_
      refine Reads.bind (finds_log context _ between) fun later still => ?_
      show Reads _ later ((Settings.ofRead context.loader usual (before.readText usual)).mapError some)
      rw [← (untouched.trans still).readText]
      exact (reads_readSettings context usual later).mapError some

theorem reads_readSource (path : Path) (before : World) :
    Reads (readSource path : Step Machine String) before (before.readText path) := by
  have reads : (Files.readText path : Machine _).run before = (before.readText path,
      { before with reads := before.reads ++ [(path, before.readText path)] }) := rfl
  have finds := finds_lift reads ⟨⟨rfl, rfl, rfl⟩, rfl⟩
  unfold readSource
  generalize before.readText path = read at finds ⊢
  match read with
  | .ok source => exact finds.bind fun between _ => finds_pure source between
  | .error .notText => exact ⟨_, finds.bind fun between _ => finds_throw _ between⟩
  | .error (.file error) =>
    refine ⟨.code 1, finds.bind fun between _ => ?_⟩
    cases error <;> exact finds_fail _ between

/-- A key that is there is not empty. -/
theorem ne_empty_of_ofRead {loader : Yaml.Loader} {path : Path} {read : Except ReadError String} {key : String}
    (found : Credentials.ofRead loader path read = .ok (some key)) : key ≠ "" := by
  match read with
  | .error (.file _) => cases found
  | .error .notText => cases found
  | .ok text =>
    rw [Credentials.ofRead] at found
    cases loaded : loader text with
    | error fault =>
      rw [loaded] at found
      cases found
    | ok data =>
      rw [loaded] at found
      cases data with
      | mapping entries =>
        simp only [Credentials.ofLoaded, Credentials.ofData] at found
        split at found
        · have kept := Option.filter_eq_some_iff.1 (Except.ok.inj found)
          simpa using kept.2
        · cases found
      | _ => cases found

theorem ne_empty_of_credentialsAt {loader : Yaml.Loader} {path : Path} {world : World} {key : String}
    (found : credentialsAt loader path world = .ok (some key)) : key ≠ "" := by
  unfold credentialsAt at found
  split at found
  · exact ne_empty_of_ofRead found
  · cases found
  · cases found

theorem ne_empty_of_keyIn {world : World} {key : String} (stored : keyIn context world = .ok key) : key ≠ "" := by
  unfold keyIn at stored
  split at stored
  · rename_i found
    exact Except.ok.inj stored ▸ ne_empty_of_credentialsAt found
  · cases stored
  · cases stored

/-- Looking for the key touches nothing. -/
theorem run_load (loader : Yaml.Loader) (path : Path) (before : World) : ∃ between,
    (Credentials.load path loader : Machine _).run before = (credentialsAt loader path before, between) ∧
      Untouched before between := by
  have isPresent : StateT.run (Files.isPresent path : Machine _) before = (before.isPresent path, before) := rfl
  rw [Credentials.load, StateT.run_bind, isPresent, credentialsAt]
  match before.isPresent path with
  | .error error => exact ⟨_, rfl, .refl before⟩
  | .ok false => exact ⟨_, rfl, .refl before⟩
  | .ok true => exact ⟨_, rfl, ⟨rfl, rfl, rfl⟩, rfl⟩

/-- The key to ask with, if one is stored. -/
theorem reads_readKey (context : Context) (before : World) :
    Reads (readKey context : Step Machine String) before (keyIn context before) := by
  let path := context.environment.credentialsPath
  obtain ⟨between, loads, untouched⟩ := run_load context.loader path before
  have finds := finds_lift loads untouched
  unfold readKey keyIn
  generalize credentialsAt context.loader path before = found at finds ⊢
  match found with
  | .ok (some key) => exact finds.bind fun between _ => finds_pure key between
  | .ok none => exact ⟨_, finds.bind fun between _ => finds_fail _ between⟩
  | .error error => exact ⟨_, finds.bind fun between _ => finds_stop error.abort? error.message between⟩

theorem finds_draw (context : Context) (source : String) (settings : Settings) (before : World) :
    Finds (draw context source settings : Step Machine Rendering) before
      (.ok (Rendering.draw source settings .svg)) := by
  unfold draw
  exact (finds_forM (finds_log context) before).bind fun between _ => finds_pure _ between

end parts

/-- How a command ends whose step came to a result. -/
def outcomeOf : Except Outcome Unit → Outcome
  | .ok () => .code 0
  | .error outcome => outcome

theorem run_command (context : Context) (command : Command) (before : World) :
    (Command.run (m := Machine) context command).run before =
      (outcomeOf (StateT.run (ExceptT.run (command.step context : Step Machine Unit)) before).1,
        (StateT.run (ExceptT.run (command.step context : Step Machine Unit)) before).2) := by
  rw [Command.run, StateT.run_bind]
  generalize StateT.run (ExceptT.run (command.step context : Step Machine Unit)) before = result
  obtain ⟨_ | _, after⟩ := result <;> rfl

end Flowchart.CommandLine
