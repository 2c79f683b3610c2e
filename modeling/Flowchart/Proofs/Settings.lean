import Flowchart.Proofs.Number.Limits
import Flowchart.Settings.File

/-!
Settings that are accepted. A field keeps what its default and all values that are read for it have in common, so that
the measures of every file are admissible; nothing bounds them from above.
-/
namespace Flowchart

namespace Data

variable {α : Type} {P : α → Prop} {read : Data → Except Fault α} {default : α} {data : Data} {x : Float}

theorem Reader.field_holds {key name : String} {reader rest : Reader} {value : α}
    (entry : reader.field read key name default = (value, rest)) (start : P default)
    (reads : ∀ data value, read data = .ok value → P value) : P value := by
  rw [field] at entry
  split at entry
  · cases entry
    exact start
  · dsimp only at entry
    split at entry
    · rename_i isRead
      cases entry
      exact reads _ _ isRead
    · cases entry
      exact start

/-- A number that was read passed its check. -/
theorem holds_of_check {P : Float → Prop} [DecidablePred P] {fault : Fault}
    (isRead : (asFloat data >>= fun value => if P value then pure value else throw fault) = .ok x) : P x := by
  cases number : asFloat data with
  | error =>
    rw [number] at isRead
    cases isRead
  | ok value =>
    rw [number] at isRead
    change (if P value then Except.ok value else Except.error fault) = .ok x at isRead
    split at isRead
    · rename_i passed
      exact Except.ok.inj isRead ▸ passed
    · cases isRead

theorem Reader.pos_of_field {key name : String} {default : Float} {reader rest : Reader}
    (entry : reader.field asPositive key name default = (x, rest)) (start : 0.0 < default) : 0.0 < x :=
  field_holds (P := fun x => 0.0 < x) entry start fun _ _ => holds_of_check

theorem Reader.nonneg_of_field {key name : String} {default : Float} {reader rest : Reader}
    (entry : reader.field asNonNegative key name default = (x, rest)) (start : 0.0 ≤ default) : 0.0 ≤ x :=
  field_holds (P := fun x => 0.0 ≤ x) entry start fun _ _ => holds_of_check

end Data

namespace Settings

variable {data : Data} {settings : Settings} {path : Path} {text : String}

theorem admissible_standard : standard.metrics.Admissible := by
  constructor <;> decide +kernel

theorem admissible_ofData (accepted : ofData data = .ok settings) : settings.metrics.Admissible := by
  have base := admissible_standard
  unfold ofData at accepted
  extract_lets at accepted
  split at accepted
  · extract_lets at accepted
    -- The fields are read one after another; only those of the measures matter here.
    iterate 4 split at accepted
    rename_i fontSize
    iterate 2 split at accepted
    rename_i nodeWidth
    split at accepted
    rename_i nodeHeight
    split at accepted
    rename_i nodeGap
    split at accepted
    rename_i rankGap
    split at accepted
    rename_i padding
    split at accepted
    rename_i labelPadding
    iterate 3 split at accepted
    · cases accepted
      exact {
        fontSize := Data.Reader.pos_of_field fontSize base.fontSize
        nodeWidth := Data.Reader.pos_of_field nodeWidth base.nodeWidth
        nodeHeight := Data.Reader.pos_of_field nodeHeight base.nodeHeight
        nodeGap := Data.Reader.nonneg_of_field nodeGap base.nodeGap
        rankGap := Data.Reader.nonneg_of_field rankGap base.rankGap
        padding := Data.Reader.nonneg_of_field padding base.padding
        labelPadding := Data.Reader.nonneg_of_field labelPadding base.labelPadding }
    · cases accepted
  · cases accepted

/-- The measures in all data that are accepted are admissible, whatever loads them. -/
theorem admissible_ofLoaded {loaded : Except Yaml.Fault Data} (accepted : ofLoaded path loaded = .ok settings) :
    settings.metrics.Admissible := by
  unfold ofLoaded at accepted
  split at accepted
  · cases accepted
  · cases accepted
    exact admissible_standard
  · rename_i entries
    cases described : ofData (.mapping entries) with
    | error problems =>
      rw [described] at accepted
      cases accepted
    | ok found =>
      rw [described] at accepted
      cases accepted
      exact admissible_ofData described
  · cases accepted

theorem admissible_ofYaml (accepted : ofYaml path text = .ok settings) : settings.metrics.Admissible :=
  admissible_ofLoaded accepted

/-- Settings that were accepted and checked. -/
theorem exists_of_any {check : Settings → Bool} (run : (ofYaml path text).toOption.any check = true) :
    ∃ settings, ofYaml path text = .ok settings ∧ check settings = true := by
  cases result : ofYaml path text with
  | error error =>
    rw [result] at run
    cases run
  | ok settings =>
    rw [result] at run
    exact ⟨settings, rfl, run⟩

end Settings
end Flowchart
