import DemandPaging.Proofs.View

namespace DemandPaging.Directory

variable {directory after : Directory} {page frame : Nat}

theorem translation_of_find? (aligned : Aligned page) (user : IsUser page) :
    directory.translation page =
      (directory.find? page).map fun entry => ⟨entry.frame.toNat, entry.has .dirty⟩ :=
  if_pos ⟨aligned, user⟩

theorem translation_eq_update (directory : Directory) (aligned : Aligned page) (user : IsUser page)
    (others : ∀ other, Aligned other → IsUser other → other ≠ page →
      after.find? other = directory.find? other) :
    after.translation = Function.update directory.translation page
      ((after.find? page).map fun entry => ⟨entry.frame.toNat, entry.has .dirty⟩) := by
  funext other
  rw [Function.update_apply]
  split
  · rename_i same
    subst same
    exact translation_of_find? aligned user
  · rename_i distinct
    unfold translation
    split
    · rename_i proper
      rw [others other proper.1 proper.2 distinct]
    · rfl

theorem distinct_places {other : Nat} (aligned : Aligned page) (user : IsUser page)
    (otherAligned : Aligned other) (otherUser : IsUser other) (distinct : other ≠ page)
    (region : directoryIndex other = directoryIndex page) : tableIndex other ≠ tableIndex page :=
  fun place => distinct (eq_of_indices otherUser user otherAligned aligned region place)

/-! ## Tables -/

/-- Every table is there for a user page that is mapped. -/
def Tight (directory : Directory) : Prop :=
  ∀ index ∈ directory.tables, ∃ page, directoryIndex page = index ∧
    (directory.translation page).isSome

theorem tight_of_fresh (fresh : directory.tables = ∅) : directory.Tight := by
  intro index member
  rw [fresh] at member
  exact absurd member Std.ExtTreeMap.not_mem_empty

theorem Tight.rewrite (tight : directory.Tight) (aligned : Aligned page) (user : IsUser page)
    (others : ∀ other, Aligned other → IsUser other → other ≠ page →
      after.find? other = directory.find? other)
    (tables : ∀ index ∈ after.tables, index = directoryIndex page ∨ index ∈ directory.tables)
    (kept : directoryIndex page ∈ after.tables →
      ∃ other, directoryIndex other = directoryIndex page ∧ (after.translation other).isSome) :
    after.Tight := by
  intro index member
  by_cases same : index = directoryIndex page
  · subst same
    exact kept member
  · obtain ⟨other, region, mapped⟩ := tight index ((tables index member).resolve_left same)
    have distinct : other ≠ page := by
      rintro rfl
      exact same region.symm
    rw [← Function.update_of_ne distinct _ directory.translation,
      ← translation_eq_update directory aligned user others] at mapped
    exact ⟨other, region, mapped⟩

theorem mem_of_putEntry {table : Table} {entry : Entry} {index : Nat}
    (member : index ∈ (directory.putEntry table page entry).tables) :
    index = directoryIndex page ∨ index ∈ directory.tables :=
  (Std.ExtTreeMap.mem_insert.mp member).imp_left fun same => (Nat.compare_eq_eq.mp same).symm

theorem tableCount_of_tight (tight : directory.Tight)
    (unmapped : ∀ page, directory.translation page = none) : directory.tableCount = 0 := by
  refine Std.ExtTreeMap.eq_empty_iff_size_eq_zero.mp
    (Std.ExtTreeMap.eq_empty_iff_forall_not_mem.mpr ?_)
  intro index member
  obtain ⟨page, -, mapped⟩ := tight index member
  simp [unmapped page] at mapped

/-! ## Operations -/

structure Rewritten (directory : Directory) (page : Nat) (entry : Option Entry)
    (after : Directory) : Prop where
  limit : after.limit = directory.limit
  fails : after.refusals.fails = directory.refusals.fails
  here : after.find? page = entry
  others : ∀ other, Aligned other → IsUser other → other ≠ page →
    after.find? other = directory.find? other
  tight : directory.Tight → after.Tight

theorem Rewritten.same (directory : Directory) (page : Nat) :
    directory.Rewritten page (directory.find? page) directory :=
  ⟨rfl, rfl, rfl, fun _ _ _ _ => rfl, id⟩

theorem Rewritten.translation {entry : Option Entry}
    (rewritten : directory.Rewritten page entry after) (aligned : Aligned page)
    (user : IsUser page) : after.translation = Function.update directory.translation page
      (entry.map fun entry => ⟨entry.frame.toNat, entry.has .dirty⟩) := by
  rw [translation_eq_update directory aligned user rewritten.others, rewritten.here]

theorem rewritten_putEntry {table : Table} {entry : Entry} (aligned : Aligned page)
    (user : IsUser page) (found : directory.tableFor? page = some table)
    (present : entry.has .present = true) :
    directory.Rewritten page (some entry) (directory.putEntry table page entry) := by
  have here := find?_putEntry_self directory table page entry present
  have others (other : Nat) (otherAligned : Aligned other) (otherUser : IsUser other)
      (distinct : other ≠ page) :
      (directory.putEntry table page entry).find? other = directory.find? other :=
    find?_putEntry_of_ne directory entry user otherUser aligned otherAligned found distinct
  refine ⟨rfl, rfl, here, others, fun tight =>
    tight.rewrite aligned user others (fun _ => mem_of_putEntry) fun _ => ⟨page, rfl, ?_⟩⟩
  rw [translation_of_find? aligned user, here]
  rfl

theorem tableFor?_eq_none_iff :
    directory.tableFor? page = none ↔
      directoryIndex page ∉ directory.tables ∧ directory.full = true := by
  rw [tableFor?, Std.ExtTreeMap.mem_iff_isSome_getElem?]
  cases directory.tables[directoryIndex page]? <;> simp

theorem map_refused (directory : Directory) (aligned : Aligned page) (user : IsUser page)
    (refused : directory.refusals.failsNext = true ∨ directory.tableFor? page = none)
    (frame : Nat) (writable : Bool) : directory.map page frame writable =
      .ok (false, { directory with refusals := directory.refusals.next }) := by
  have fine := (check_ok_iff page).mpr ⟨aligned, user⟩
  simp only [map, fine, bind, Except.bind]
  split
  · rfl
  · rename_i offered
    rw [refused.resolve_left offered]
    rfl

theorem map_eq (directory : Directory) (aligned : Aligned page) (user : IsUser page)
    (small : frame < Entry.frameLimit) (absent : directory.find? page = none) (writable : Bool)
    (offered : directory.refusals.failsNext = false) {table : Table}
    (found : directory.tableFor? page = some table) :
    ∃ entry after, directory.map page frame writable = .ok (true, after) ∧
      entry.frame.toNat = frame ∧ entry.has .accessed = false ∧ entry.has .dirty = false ∧
      directory.Rewritten page (some entry) after := by
  have fine := (check_ok_iff page).mpr ⟨aligned, user⟩
  have narrow : frame % halfWordLimit = frame :=
    Nat.mod_eq_of_lt (Nat.lt_trans small (by decide))
  obtain ⟨entry, made, leads, flags⟩ := Entry.userPage_ok writable small
  -- A table that was there has no entry for the page, and a new one has none at all.
  have vacant : (table.entryAt (tableIndex page)).has .present = false := by
    rw [find?] at absent
    unfold tableFor? at found
    split at found
    · rename_i kept there
      cases found
      simpa [there] using absent
    · split at found
      · cases found
      · cases found
        rw [Table.entryAt_empty]
        decide
  let tried : Directory := { directory with refusals := directory.refusals.next }
  have rewritten : tried.Rewritten page (some entry) (tried.putEntry table page entry) :=
    rewritten_putEntry aligned user found ((flags .present).trans rfl)
  refine ⟨entry, tried.putEntry table page entry, ?_, leads, (flags .accessed).trans rfl,
    (flags .dirty).trans rfl, { rewritten with }⟩
  simp only [map, fine, bind, Except.bind, offered, found, vacant, narrow, made]
  rfl

theorem map_spec (aligned : Aligned page) (user : IsUser page) (small : frame < Entry.frameLimit)
    (absent : directory.translation page = none) (writable : Bool) :
    (∃ after, directory.map page frame writable = .ok (true, after) ∧
        after.translation = Function.update directory.translation page (some ⟨frame, false⟩) ∧
        (directory.Tight → after.Tight)) ∨
      ∃ after, directory.map page frame writable = .ok (false, after) ∧
        after.translation = directory.translation ∧ (directory.Tight → after.Tight) := by
  rw [translation_of_find? aligned user, Option.map_eq_none_iff] at absent
  by_cases refused : directory.refusals.failsNext = true ∨ directory.tableFor? page = none
  · exact .inr ⟨_, directory.map_refused aligned user refused frame writable, rfl, id⟩
  · rw [not_or, Bool.not_eq_true, ← ne_eq, Option.ne_none_iff_exists'] at refused
    obtain ⟨offered, table, found⟩ := refused
    obtain ⟨entry, after, done, leads, -, clean, rewritten⟩ :=
      directory.map_eq aligned user small absent writable offered found
    refine .inl ⟨after, done, ?_, rewritten.tight⟩
    rw [rewritten.translation aligned user, Option.map_some, leads, clean]

theorem unmap_eq (directory : Directory) (aligned : Aligned page) (user : IsUser page) :
    ∃ after, directory.unmap page = .ok after ∧ directory.Rewritten page none after := by
  have fine := (check_ok_iff page).mpr ⟨aligned, user⟩
  simp only [unmap, fine, bind, Except.bind]
  split
  · rename_i missing
    refine ⟨directory, rfl, ?_⟩
    have absent : directory.find? page = none := by simp [find?, missing]
    exact absent ▸ .same directory page
  · rename_i table found
    have emptied (other : Nat) :
        (table.putAt (tableIndex page) {}).entryAt (tableIndex other) =
          if tableIndex other = tableIndex page then {} else table.entryAt (tableIndex other) :=
      Table.entryAt_putAt _ _ _ (tableIndex_lt page)
    generalize table.putAt (tableIndex page) {} = rest at emptied ⊢
    -- A table goes with its last entry.
    split
    · rename_i vacant
      have gone := (Table.vacant_iff _).mp vacant
      refine ⟨_, rfl, rfl, rfl, by simp [find?], ?others, fun tight =>
        tight.rewrite aligned user ?others (fun index member => ?_) fun member => ?_⟩
      case others =>
        intro other otherAligned otherUser distinct
        simp only [find?, Std.ExtTreeMap.getElem?_erase, Nat.compare_eq_eq]
        by_cases region : directoryIndex page = directoryIndex other
        · have place := distinct_places aligned user otherAligned otherUser distinct region.symm
          have absent := gone (tableIndex other)
          rw [emptied, if_neg place] at absent
          simp [region, region ▸ found, absent]
        · simp [region]
      · exact .inr (Std.ExtTreeMap.mem_erase.mp member).2
      · exact absurd Std.compare_self (Std.ExtTreeMap.mem_erase.mp member).1
    · rename_i occupied
      refine ⟨_, rfl, rfl, rfl, by simp [find?, emptied, Entry.has], ?others, fun tight =>
        tight.rewrite aligned user ?others (fun index member => ?_) fun _ => ?_⟩
      case others =>
        intro other otherAligned otherUser distinct
        simp only [find?, Std.ExtTreeMap.getElem?_insert, Nat.compare_eq_eq]
        by_cases region : directoryIndex page = directoryIndex other
        · have place := distinct_places aligned user otherAligned otherUser distinct region.symm
          simp [region, region ▸ found, emptied, place]
        · simp [region]
      · exact (Std.ExtTreeMap.mem_insert.mp member).imp_left fun same =>
          (Nat.compare_eq_eq.mp same).symm
      · -- The table is kept for another entry, which is that of a user page too.
        obtain ⟨index, small, present⟩ := Table.exists_present occupied
        obtain ⟨other, otherAligned, otherUser, region, place⟩ := exists_page_at user small
        refine ⟨other, region, ?_⟩
        rw [translation_of_find? otherAligned otherUser]
        simp [find?, region, place, present]

theorem unmap_spec (aligned : Aligned page) (user : IsUser page) :
    ∃ after, directory.unmap page = .ok after ∧
      after.translation = Function.update directory.translation page none ∧
      (directory.Tight → after.Tight) := by
  obtain ⟨after, done, rewritten⟩ := directory.unmap_eq aligned user
  exact ⟨after, done, rewritten.translation aligned user, rewritten.tight⟩

theorem has_eq (aligned : Aligned page) (user : IsUser page) (flag : Flag) :
    directory.has page flag = .ok ((directory.find? page).any (·.has flag)) := by
  simp only [has, (check_ok_iff page).mpr ⟨aligned, user⟩]
  rfl

theorem has_dirty_eq (aligned : Aligned page) (user : IsUser page) :
    directory.has page .dirty = .ok ((directory.translation page).any (·.dirty)) := by
  rw [has_eq aligned user, translation_of_find? aligned user, Option.any_map]

theorem frame?_eq (aligned : Aligned page) (user : IsUser page) :
    directory.frame? page = .ok ((directory.translation page).map (·.frame)) := by
  simp only [frame?, (check_ok_iff page).mpr ⟨aligned, user⟩, translation_of_find? aligned user,
    Option.map_map]
  rfl

def flagged (flag : Flag) (on : Bool) (translation : Translation) : Translation :=
  if flag = .dirty then { translation with dirty := on } else translation

theorem put_eq (directory : Directory) (aligned : Aligned page) (user : IsUser page) {flag : Flag}
    (kept : flag ≠ .present) (on : Bool) :
    ∃ after, directory.put page flag on = .ok after ∧
      directory.Rewritten page ((directory.find? page).map (·.put flag on)) after := by
  have fine := (check_ok_iff page).mpr ⟨aligned, user⟩
  have unchanged (absent : directory.find? page = none) :
      directory.Rewritten page ((directory.find? page).map (·.put flag on)) directory := by
    rw [absent, Option.map_none]
    exact absent ▸ .same directory page
  simp only [put, fine, bind, Except.bind]
  split
  · rename_i missing
    exact ⟨directory, rfl, unchanged (by simp [find?, missing])⟩
  · rename_i table found
    split
    · rename_i present
      have here : directory.find? page = some (table.entryAt (tableIndex page)) := by
        simp [find?, found, present]
      have still : ((table.entryAt (tableIndex page)).put flag on).has .present = true := by
        rw [Entry.has_put, if_neg kept.symm]
        exact present
      rw [here, Option.map_some]
      exact ⟨_, rfl, rewritten_putEntry aligned user (by simp [tableFor?, found]) still⟩
    · rename_i absent
      exact ⟨directory, rfl, unchanged (by simp [find?, found, absent])⟩

theorem put_spec (directory : Directory) (aligned : Aligned page) (user : IsUser page)
    {flag : Flag} (kept : flag ≠ .present) (on : Bool) :
    ∃ after, directory.put page flag on = .ok after ∧
      after.translation = Function.update directory.translation page
        ((directory.translation page).map (flagged flag on)) ∧
      (directory.Tight → after.Tight) := by
  obtain ⟨after, done, rewritten⟩ := directory.put_eq aligned user kept on
  refine ⟨after, done, ?_, rewritten.tight⟩
  rw [rewritten.translation aligned user, translation_of_find? aligned user, Option.map_map,
    Option.map_map]
  congr 2
  funext entry
  by_cases dirty : flag = .dirty
  · simp [flagged, dirty, Entry.has_put, Entry.frame_put]
  · simp [flagged, dirty, Entry.has_put, Entry.frame_put, Ne.symm dirty]

def accessed (directory : Directory) (page : Nat) : Bool :=
  decide (Aligned page ∧ IsUser page) && (directory.find? page).any (·.has .accessed)

theorem takeAccessed_eq (directory : Directory) (aligned : Aligned page) (user : IsUser page) :
    ∃ after, directory.takeAccessed page = .ok (directory.accessed page, after) ∧
      after.accessed = Function.update directory.accessed page false := by
  obtain ⟨after, done, rewritten⟩ := directory.put_eq aligned user
    (show Flag.accessed ≠ .present by decide) false
  refine ⟨after, ?_, funext fun other => ?_⟩
  · simp only [takeAccessed, has_eq aligned user, done, accessed, aligned, user]
    rfl
  · rw [Function.update_apply]
    split
    · rename_i same
      simp [accessed, same, rewritten.here, Option.any_map, Entry.has_put]
    · rename_i distinct
      by_cases proper : Aligned other ∧ IsUser other
      · rw [accessed, accessed, rewritten.others other proper.1 proper.2 distinct]
      · simp [accessed, proper]

theorem takeAccessed_spec (aligned : Aligned page) (user : IsUser page) :
    ∃ accessed after, directory.takeAccessed page = .ok (accessed, after) ∧
      after.translation = directory.translation ∧ (directory.Tight → after.Tight) := by
  obtain ⟨after, done, same, tight⟩ := put_spec directory aligned user
    (show Flag.accessed ≠ .present by decide) false
  refine ⟨_, after, by simp only [takeAccessed, has_eq aligned user, done]; rfl, same.trans ?_, tight⟩
  exact Function.update_eq_self_iff.mpr (by cases directory.translation page <;> rfl)

end DemandPaging.Directory
