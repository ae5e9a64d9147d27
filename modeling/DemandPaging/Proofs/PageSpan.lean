import DemandPaging.PageSpan
import Mathlib.Data.List.Nodup

namespace DemandPaging.PageSpan

variable {start length page : Nat} {span : PageSpan}

theorem exists_covering (user : IsUserRange start length) :
    ∃ span, covering start length = .ok span := by
  obtain ⟨-, inside⟩ := user
  simp only [kernelBase] at inside
  unfold covering
  split
  · exact ⟨_, rfl⟩
  · rw [if_neg (by simp only [wordLimit]; omega)]
    have fits : start + length + pageSize < wordLimit := by
      simp only [pageSize, wordLimit]
      omega
    simp only [roundUp, fits, if_true]
    exact ⟨_, rfl⟩

theorem covering_eq (covered : covering start length = .ok span) :
    span.first = pageOf start ∧ (length = 0 ∧ span.count = 0 ∨ 0 < length ∧
      start + length ≤ span.nth span.count ∧ span.nth span.count < start + length + pageSize) := by
  unfold covering at covered
  split at covered
  · rename_i empty
    cases covered
    exact ⟨rfl, .inl ⟨empty, rfl⟩⟩
  · split at covered
    · cases covered
    · unfold roundUp at covered
      split at covered
      · cases covered
        refine ⟨rfl, .inr ⟨by omega, ?_⟩⟩
        simp only [nth, pageOf, pageSize]
        omega
      · cases covered

theorem contains_covering_iff (covered : covering start length = .ok span)
    (aligned : Aligned page) :
    span.contains page = true ↔
      0 < length ∧ start < page + pageSize ∧ page < start + length := by
  obtain ⟨first, count⟩ := covering_eq covered
  simp only [contains, Bool.and_eq_true, decide_eq_true_eq, beq_iff_eq]
  simp only [nth, first, pageOf, pageSize, Aligned, pageOffset] at aligned count ⊢
  omega

theorem aligned_of_contains (covered : covering start length = .ok span)
    (member : span.contains page = true) : Aligned page := by
  obtain ⟨first, -⟩ := covering_eq covered
  simp only [contains, Bool.and_eq_true, decide_eq_true_eq, beq_iff_eq, first] at member
  simp only [pageOf, pageSize, Aligned, pageOffset] at member ⊢
  omega

theorem ascending_pages (span : PageSpan) : span.pages.Pairwise (· < ·) := by
  refine List.pairwise_map.mpr (List.pairwise_lt_range.imp fun less => ?_)
  simp only [nth, pageSize]
  omega

theorem nodup_pages (span : PageSpan) : span.pages.Nodup :=
  span.ascending_pages.imp Nat.ne_of_lt

end DemandPaging.PageSpan
