import DemandPaging.Address

namespace DemandPaging

structure PageSpan where
  first : Nat
  count : Nat
  deriving DecidableEq, Repr

namespace PageSpan

def nth (span : PageSpan) (i : Nat) : Nat := span.first + pageSize * i

def pages (span : PageSpan) : List Nat := (List.range span.count).map span.nth

def contains (span : PageSpan) (page : Nat) : Bool :=
  span.first ≤ page && page < span.nth span.count && (page - span.first) % pageSize == 0

def covering (start length : Nat) : Except Panic PageSpan :=
  if length = 0 then .ok ⟨pageOf start, 0⟩
  else if wordLimit ≤ start + length then .error .overflow
  else do
    let stop ← roundUp (start + length)
    return ⟨pageOf start, (stop - pageOf start) / pageSize⟩

theorem mem_pages_iff (span : PageSpan) (page : Nat) :
    page ∈ span.pages ↔ span.contains page = true := by
  simp only [pages, contains, List.mem_map, List.mem_range, Bool.and_eq_true, decide_eq_true_eq,
    beq_iff_eq]
  simp only [nth, pageSize]
  constructor
  · rintro ⟨i, small, rfl⟩
    omega
  · intro inside
    exact ⟨(page - span.first) / 4096, by omega, by omega⟩

end PageSpan

end DemandPaging
