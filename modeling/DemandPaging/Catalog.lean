import Std.Data.ExtTreeMap
import DemandPaging.Action
import DemandPaging.PageSpan

namespace DemandPaging

structure Catalog where
  records : Std.ExtTreeMap Nat PageRecord := ∅

namespace Catalog

def find? (catalog : Catalog) (page : Nat) : Option PageRecord := catalog.records[page]?

def size (catalog : Catalog) : Nat := catalog.records.size

def pages (catalog : Catalog) : List Nat := catalog.records.keys

def put (catalog : Catalog) (page : Nat) (record : PageRecord) : Catalog :=
  ⟨catalog.records.insert page record⟩

def replace (catalog : Catalog) (page : Nat) (record : PageRecord) : Except Panic Catalog :=
  if (catalog.find? page).isSome then .ok (catalog.put page record)
  else .error (.unrecordedPage page)

def remove (catalog : Catalog) (page : Nat) : Catalog := ⟨catalog.records.erase page⟩

def frame? (catalog : Catalog) (page : Nat) : Option Nat := do
  (← catalog.find? page).residence.frame?

def within (catalog : Catalog) (span : PageSpan) : List Nat := catalog.pages.filter span.contains

def isFree (catalog : Catalog) (start length : Nat) : Except Panic Bool := do
  return (catalog.within (← PageSpan.covering start length)).isEmpty

def install (page : Nat) (residence : Residence) : Action PagingError Catalog Unit := do
  Action.require (Aligned page ∧ IsUser page) .badAddress
  Action.require ((← Action.look).find? page).isNone .alreadyMapped
  Action.emit (.pageInstalled page residence)
  Action.update (·.put page ⟨residence, false⟩)

theorem find?_put (catalog : Catalog) (page : Nat) (record : PageRecord) (other : Nat) :
    (catalog.put page record).find? other =
      if other = page then some record else catalog.find? other := by
  simp only [find?, put, Std.ExtTreeMap.getElem?_insert, Nat.compare_eq_eq, eq_comm (a := other)]

theorem find?_remove (catalog : Catalog) (page other : Nat) :
    (catalog.remove page).find? other = if other = page then none else catalog.find? other := by
  simp only [find?, remove, Std.ExtTreeMap.getElem?_erase, Nat.compare_eq_eq, eq_comm (a := other)]

theorem mem_pages_iff (catalog : Catalog) (page : Nat) :
    page ∈ catalog.pages ↔ (catalog.find? page).isSome := by
  simp [pages, find?]

end Catalog

end DemandPaging
