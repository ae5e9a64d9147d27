import Std.Data.ExtTreeMap
import DemandPaging.Directory.Table
import DemandPaging.Faults

namespace DemandPaging

structure Directory where
  tables : Std.ExtTreeMap Nat Table := ∅
  /-- No table is added once there are this many. -/
  limit : Option Nat := none
  refusals : Faults := {}

namespace Directory

def find? (directory : Directory) (page : Nat) : Option Entry := do
  let table ← directory.tables[directoryIndex page]?
  let entry := table.entryAt (tableIndex page)
  if entry.has .present then some entry else none

def check (page : Nat) : Except Panic Unit :=
  if ¬ Aligned page then .error (.unalignedPage page)
  else if ¬ IsUser page then .error (.kernelPage page)
  else .ok ()

def tableCount (directory : Directory) : Nat := directory.tables.size

def full (directory : Directory) : Bool := directory.limit.any (· ≤ directory.tableCount)

def putEntry (directory : Directory) (table : Table) (page : Nat) (entry : Entry) : Directory :=
  { directory with
    tables := directory.tables.insert (directoryIndex page) (table.putAt (tableIndex page) entry) }

/-- The table that holds the entry of a page, or an empty one if it can still be added. -/
def tableFor? (directory : Directory) (page : Nat) : Option Table :=
  match directory.tables[directoryIndex page]? with
  | some table => some table
  | none => if directory.full then none else some {}

def map (directory : Directory) (page frame : Nat) (writable : Bool) :
    Except Panic (Bool × Directory) := do
  let tried := { directory with refusals := directory.refusals.next }
  if directory.refusals.failsNext then return (false, tried)
  check page
  match directory.tableFor? page with
  | none => return (false, tried)
  | some table =>
    if (table.entryAt (tableIndex page)).has .present then throw (.pageAlreadyMapped page)
    let entry ← Entry.userPage (frame % halfWordLimit) writable
    return (true, tried.putEntry table page entry)

def unmap (directory : Directory) (page : Nat) : Except Panic Directory := do
  check page
  match directory.tables[directoryIndex page]? with
  | none => return directory
  | some table =>
    let rest := table.putAt (tableIndex page) {}
    if rest.vacant then
      return { directory with tables := directory.tables.erase (directoryIndex page) }
    return { directory with tables := directory.tables.insert (directoryIndex page) rest }

def frame? (directory : Directory) (page : Nat) : Except Panic (Option Nat) := do
  check page
  return (directory.find? page).map (·.frame.toNat)

def has (directory : Directory) (page : Nat) (flag : Flag) : Except Panic Bool := do
  check page
  return (directory.find? page).any (·.has flag)

def put (directory : Directory) (page : Nat) (flag : Flag) (on : Bool) :
    Except Panic Directory := do
  check page
  match directory.tables[directoryIndex page]? with
  | none => return directory
  | some table =>
    let entry := table.entryAt (tableIndex page)
    if entry.has .present then return directory.putEntry table page (entry.put flag on)
    return directory

def takeAccessed (directory : Directory) (page : Nat) : Except Panic (Bool × Directory) := do
  let accessed ← directory.has page .accessed
  return (accessed, ← directory.put page .accessed false)

theorem check_ok_iff (page : Nat) : check page = .ok () ↔ Aligned page ∧ IsUser page := by
  by_cases aligned : Aligned page <;> by_cases user : IsUser page <;> simp [check, aligned, user]

theorem tableIndex_lt (page : Nat) : tableIndex page < Table.length :=
  Nat.mod_lt _ (by decide)

theorem find?_putEntry_self (directory : Directory) (table : Table) (page : Nat) (entry : Entry)
    (present : entry.has .present = true) :
    (directory.putEntry table page entry).find? page = some entry := by
  simp [find?, putEntry, Table.entryAt_putAt _ _ _ (tableIndex_lt page), present]

theorem find?_putEntry_of_ne (directory : Directory) {table : Table} {page other : Nat}
    (entry : Entry) (user : IsUser page) (otherUser : IsUser other) (aligned : Aligned page)
    (otherAligned : Aligned other) (found : directory.tableFor? page = some table)
    (distinct : other ≠ page) :
    (directory.putEntry table page entry).find? other = directory.find? other := by
  by_cases region : directoryIndex page = directoryIndex other
  · have place : tableIndex other ≠ tableIndex page := fun same =>
      distinct (eq_of_indices user otherUser aligned otherAligned region same.symm).symm
    simp only [find?, putEntry, region, Std.ExtTreeMap.getElem?_insert_self,
      Option.bind_eq_bind, Option.bind_some, Table.entryAt_putAt _ _ _ (tableIndex_lt page), place,
      if_false]
    simp only [tableFor?, region] at found
    cases old : directory.tables[directoryIndex other]? with
    | some kept =>
        simp only [old, Option.some.injEq] at found
        simp [found]
    | none =>
        simp only [old, Option.ite_none_left_eq_some, Option.some.injEq] at found
        rw [← found.2, Table.entryAt_empty]
        rfl
  · simp [find?, putEntry, Std.ExtTreeMap.getElem?_insert, region]

end Directory

end DemandPaging
