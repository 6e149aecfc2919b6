import KeyholeMarkup.Schema.Validation
import Mathlib.Data.List.Nodup
import Mathlib.Data.List.Pairwise

/-! Reports of missing components. A component is reported where it is missed first and not again;
all other issues remain as they are. -/
namespace KeyholeMarkup.Schema

def Violation.isUnresolved : Violation → Bool
  | .unresolved .. => true
  | _ => false

variable {issues : List Issue} (reported : List Violation)

theorem firstReports_cons (issue : Issue) (issues : List Issue) :
    Components.firstReports reported (issue :: issues) =
      if issue.violation.isUnresolved = true then
        if issue.violation ∈ reported then Components.firstReports reported issues
        else issue :: Components.firstReports (issue.violation :: reported) issues
      else issue :: Components.firstReports reported issues := by
  rw [Components.firstReports]
  split
  · rename_i unresolved
    simp only [unresolved, Violation.isUnresolved, if_true, List.contains_iff_mem]
  · rename_i other
    rw [if_neg]
    cases violation : issue.violation with
    | unresolved kind name => exact absurd violation (other kind name)
    | _ => simp [Violation.isUnresolved]

/-- What is read of issues other than reports of missing components is read of all that remain. -/
theorem filterMap_firstReports {α : Type} {read : Issue → Option α}
    (blind : ∀ issue ∈ issues, issue.violation.isUnresolved = true → read issue = none) :
    (Components.firstReports reported issues).filterMap read = issues.filterMap read := by
  induction issues generalizing reported with
  | nil => rfl
  | cons issue issues ih =>
    obtain ⟨here, later⟩ := List.forall_mem_cons.mp blind
    rw [firstReports_cons]
    split
    · rename_i unresolved
      rw [List.filterMap_cons_none (here unresolved)]
      split
      · exact ih reported later
      · rw [List.filterMap_cons_none (here unresolved), ih _ later]
    · rw [List.filterMap_cons, List.filterMap_cons, ih reported later]

theorem firstReports_subset : Components.firstReports reported issues ⊆ issues := by
  induction issues generalizing reported with
  | nil => exact List.Subset.refl _
  | cons issue issues ih =>
    rw [firstReports_cons]
    split
    · split
      · exact List.subset_cons_of_subset issue (ih _)
      · exact List.cons_subset_cons issue (ih _)
    · exact List.cons_subset_cons issue (ih _)

variable {reported}

theorem notMem_of_mem_firstReports {issue : Issue}
    (member : issue ∈ Components.firstReports reported issues)
    (unresolved : issue.violation.isUnresolved = true) : issue.violation ∉ reported := by
  induction issues generalizing reported with
  | nil => cases member
  | cons first issues ih =>
    rw [firstReports_cons] at member
    split at member
    · split at member
      · exact ih member
      · rename_i fresh
        rcases List.mem_cons.mp member with rfl | later
        · exact fresh
        · exact fun known => ih later (List.mem_cons_of_mem _ known)
    · rename_i other
      rcases List.mem_cons.mp member with rfl | later
      · exact absurd unresolved other
      · exact ih later

/-- No component is reported twice. -/
theorem pairwise_firstReports : (Components.firstReports reported issues).Pairwise
    fun first second => first.violation.isUnresolved = true → first.violation ≠ second.violation := by
  induction issues generalizing reported with
  | nil => exact .nil
  | cons issue issues ih =>
    rw [firstReports_cons]
    split
    · rename_i unresolved
      split
      · exact ih
      · refine List.pairwise_cons.mpr ⟨fun later member _ same => ?_, ih⟩
        exact notMem_of_mem_firstReports member (same ▸ unresolved) (same ▸ List.mem_cons_self)
    · rename_i other
      exact List.pairwise_cons.mpr ⟨fun _ _ unresolved => absurd unresolved other, ih⟩

/-- What is to be reported is reported, if it has not been before. -/
theorem exists_mem_firstReports {issue : Issue} (member : issue ∈ issues)
    (fresh : issue.violation.isUnresolved = true → issue.violation ∉ reported) :
    ∃ report ∈ Components.firstReports reported issues, report.violation = issue.violation := by
  induction issues generalizing reported with
  | nil => cases member
  | cons first issues ih =>
    have behind {reported : List Violation} (later : issue ∈ issues)
        (fresh : issue.violation.isUnresolved = true → issue.violation ∉ reported) :
        ∃ report ∈ first :: Components.firstReports reported issues,
          report.violation = issue.violation := by
      obtain ⟨report, reports, same⟩ := ih later fresh
      exact ⟨report, List.mem_cons_of_mem _ reports, same⟩
    rw [firstReports_cons]
    split
    · rename_i unresolved
      split
      · rename_i known
        rcases List.mem_cons.mp member with rfl | later
        · exact absurd known (fresh unresolved)
        · exact ih later fresh
      · by_cases same : first.violation = issue.violation
        · exact ⟨first, List.mem_cons_self, same⟩
        · rcases List.mem_cons.mp member with rfl | later
          · exact absurd rfl same
          refine behind later fun missing known => ?_
          rcases List.mem_cons.mp known with repeated | known
          · exact same repeated.symm
          · exact fresh missing known
    · rcases List.mem_cons.mp member with rfl | later
      · exact ⟨_, List.mem_cons_self, rfl⟩
      · exact behind later fresh

/-- Something is reported twice only if it is found twice and is not a missing component. -/
theorem nodup_firstReports_iff : (Components.firstReports reported issues).Nodup ↔
    (issues.filter fun issue => !issue.violation.isUnresolved).Nodup := by
  have same : (Components.firstReports reported issues).filter
      (fun issue => !issue.violation.isUnresolved) =
        issues.filter fun issue => !issue.violation.isUnresolved := by
    simp only [← List.filterMap_eq_filter]
    apply filterMap_firstReports
    intro issue _ unresolved
    simp [Option.guard, unresolved]
  rw [← same]
  refine ⟨List.Nodup.filter _, fun distinct => ?_⟩
  rw [List.Nodup, List.pairwise_filter] at distinct
  refine distinct.imp₂ ?_ pairwise_firstReports
  rintro first second others distinct rfl
  cases unresolved : first.violation.isUnresolved with
  | true => exact distinct unresolved rfl
  | false => exact others (by simp [unresolved]) (by simp [unresolved]) rfl

end KeyholeMarkup.Schema
