import Flowchart.Proofs.Xml.Writing
import Flowchart.Svg

/-!
The characters of a picture: those of its numbers are always such as a document may have, and those of the texts that
are drawn come from the labels.
-/
namespace Flowchart

namespace Xml

variable {c : Char} {front behind separator : String}

theorem legal_append (legal : Legal front) (legalBehind : Legal behind) : Legal (front ++ behind) := by
  rw [Legal, String.toList_append, List.all_append, legal, legalBehind]
  rfl

theorem legal_ofList {cs : List Char} (legal : cs.all isLegal = true) : Legal (String.ofList cs) := by
  rwa [Legal, String.toList_ofList]

/-- A text whose characters all come from another one is legal with it. -/
theorem all_isLegal_of_subset {cs ds : List Char} (subset : cs ⊆ ds) (legal : ds.all isLegal = true) :
    cs.all isLegal = true :=
  List.all_eq_true.2 fun c mem => List.all_eq_true.1 legal c (subset mem)

theorem legal_intercalate (legal : Legal separator) {texts : List String} (each : ∀ text ∈ texts, Legal text) :
    Legal (separator.intercalate texts) := by
  induction texts with
  | nil => rfl
  | cons text texts ih =>
    obtain ⟨first, each⟩ := List.forall_mem_cons.1 each
    cases texts with
    | nil => simpa using first
    | cons next texts =>
      rw [String.intercalate_cons_cons]
      exact legal_append (legal_append first legal) (ih each)

theorem isLegal_of_isDigit (isDigit : c.isDigit = true) : isLegal c = true := by
  simp only [Char.isDigit, ge_iff_le, UInt32.le_iff_toNat_le, Bool.and_eq_true, decide_eq_true_eq] at isDigit
  simp only [isLegal, isAmong, List.any_cons, Char.toNat, Bool.or_eq_true, Bool.and_eq_true, decide_eq_true_eq]
  simp only [Char.reduceVal, UInt32.reduceToNat] at isDigit
  omega

theorem legal_toDigits (n : Nat) : (Nat.toDigits 10 n).all isLegal = true := by
  apply List.all_eq_true.2
  intro c mem
  apply isLegal_of_isDigit
  exact Nat.isDigit_of_mem_toDigits (by decide) (by decide) mem

theorem legal_toString (n : Int) : Legal (toString n) := by
  cases n with
  | ofNat n => exact legal_ofList (legal_toDigits n)
  | negSucc n => exact legal_append (by decide) (legal_ofList (legal_toDigits (n + 1)))

end Xml

open Xml (Legal isLegal)

namespace Number

theorem legal_placesText (places units : Nat) : (placesText places units).all isLegal = true := by
  have padded (width n : Nat) : (paddedDigits width n).all isLegal = true := by
    rw [paddedDigits, List.all_append, Xml.legal_toDigits, List.all_replicate]
    simp [show isLegal '0' = true by decide]
  rw [placesText]
  split
  · exact Xml.legal_toDigits _
  · rw [List.all_append, Xml.legal_toDigits, List.all_cons, padded]
    decide

theorem legal_fixedChars (places : Nat) (x : Float) : (fixedChars places x).all isLegal = true := by
  have sign (negative : Bool) : (if negative then ['-'] else []).all isLegal = true := by
    cases negative <;> decide
  rw [fixedChars]
  split
  · decide
  · rw [List.all_append, sign]
    decide
  · rw [List.all_append, sign, legal_placesText]
    rfl

end Number

namespace Svg

theorem dropLast_subset (c : Char) (cs : List Char) : dropLast c cs ⊆ cs := by
  intro d mem
  rw [dropLast, List.mem_reverse] at mem
  exact List.mem_reverse.1 ((List.dropWhile_sublist _).subset mem)

theorem legal_numeral (x : Float) : Legal (numeral x) := by
  refine Xml.legal_ofList (Xml.all_isLegal_of_subset ?_ (Number.legal_fixedChars 2 x))
  exact List.Subset.trans (dropLast_subset _ _) (dropLast_subset _ _)

theorem legal_pointList (points : List (Point Float)) : Legal (pointList points) := by
  apply Xml.legal_intercalate (by decide)
  intro text mem
  obtain ⟨point, -, rfl⟩ := List.mem_map.1 mem
  exact Xml.legal_append (Xml.legal_append (legal_numeral point.x) (by decide)) (legal_numeral point.y)

theorem subset_of_behindTag? {cs rest : List Char} (found : behindTag? cs = some rest) : rest ⊆ cs := by
  fun_induction behindTag? cs with
  | case1 => cases found
  | case2 cs =>
    cases found
    exact List.subset_cons_self _ _
  | case3 c cs _ ih => exact List.subset_cons_of_subset c (ih found)

theorem dropTags_subset (cs : List Char) : dropTags cs ⊆ cs := by
  fun_induction dropTags cs with
  | case1 => exact List.Subset.refl []
  | case2 cs rest found ih => exact List.subset_cons_of_subset _ (List.Subset.trans ih (subset_of_behindTag? found))
  | case3 cs => exact List.Subset.refl _
  | case4 c cs _ ih => exact List.cons_subset_cons c ih

theorem legal_sanitize (security : Security) {label : String} (legal : Legal label) :
    Legal (sanitize security label) := by
  cases security with
  | strict => exact Xml.legal_ofList (Xml.all_isLegal_of_subset (dropTags_subset _) legal)
  | loose => exact legal

end Svg
end Flowchart
