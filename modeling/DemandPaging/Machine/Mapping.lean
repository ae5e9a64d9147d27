import DemandPaging.Machine.Eviction

namespace DemandPaging.Machine

def addPage (id page : Nat) (residence : Residence) : Action PagingError Machine Unit :=
  onCatalog id (Catalog.install page residence)

/-- The window onto `file` of page `i` of a mapping of `length` bytes from `offset` on. It ends with
the mapping, or with a file of `size` bytes. -/
def cutWindow (file size offset length i : Nat) : Except Panic FileWindow := do
  let start ← mulWord i pageSize
  let position ← addWord offset start
  let rest ← subWord length start
  FileWindow.make file position (min (min pageSize rest) (size - position))

def mapFile (id start file offset length : Nat) : Action PagingError Machine Nat := do
  Action.require (0 < length ∧ Aligned start ∧ Aligned offset ∧ IsUserRange start length ∧
    offset + length < wordLimit) .badAddress
  let size := (← Action.orPanic ((← look).store.storage.file file)).length
  Action.require (← Action.orPanic ((← space id).catalog.isFree start length)) .alreadyMapped
  let span ← Action.orPanic (PageSpan.covering start length)
  (List.range span.count).forM fun i => do
    let window ← Action.orPanic (cutWindow file size offset length i)
    addPage id (span.nth i) (.inFile window)
  let number ← onSpace id (Space.enterRegion ⟨start, length⟩)
  Action.emit (.fileMapped id number start length)
  return number

def dropPage (id page : Nat) (record : PageRecord) : Action PagingError Machine Unit := do
  match record.residence with
  | .inFrame frame window =>
    let dirty := (← isModified id page frame) || record.dirty
    let contents ← contents frame
    let flushed ← match window with
      | some window =>
        if dirty then (onStorage (Storage.save window contents)).attempt else pure (.ok ())
      | none => pure (.ok ())
    vacate id page frame
    Action.orFail flushed
  | .inSwap slot => onSwap (SwapArea.release slot)
  | _ => return

def removePage (id page : Nat) : Action PagingError Machine Unit := do
  if let some record := (← space id).catalog.find? page then
    onCatalog id (Action.update (·.remove page))
    dropPage id page record

/-- Removes all of `pages`, and then fails if one of them did, as the first of them did. -/
def removeAll (id : Nat) : List Nat → Action PagingError Machine Unit
  | [] => return
  | page :: rest => do
    let first ← (removePage id page).attempt
    let later ← (removeAll id rest).attempt
    Action.orFail first
    Action.orFail later

def unmapRange (id start length : Nat) : Action PagingError Machine Unit := do
  Action.require (Aligned start ∧ IsUserRange start length) .badAddress
  let span ← Action.orPanic (PageSpan.covering start length)
  let catalog := (← space id).catalog
  let pool := (← look).pool
  let pages := catalog.within span
  Action.require (∀ page ∈ pages, ¬ (catalog.frame? page).any pool.isPinned) .busy
  removeAll id pages

/-- Unmaps what a mapping covers. The mapping is forgotten unless one of its pages is pinned. -/
def unmapFile (id number : Nat) : Action PagingError Machine Unit := do
  match (← space id).regions[number]? with
  | none => Action.fail .notMapped
  | some region =>
    match ← (unmapRange id region.start region.length).attempt with
    | .error .busy => Action.fail .busy
    | outcome =>
      onSpace id (Action.update (·.removeRegion number))
      Action.orFail outcome

end DemandPaging.Machine
