import DemandPaging.Proofs.Directory
import Mathlib.Data.Finset.Card

/-!
# Directories as finite maps

A directory is asked to map, unmap and translate user pages and to test and set the marks that the
hardware leaves on them. Main statement: it answers as a finite map from pages to frames and marks
does, and has one table for each region of 4 MB in which a page is mapped
(`directory_refines_page_map`).
-/

namespace DemandPaging

inductive Mark where
  | accessed
  | dirty
  deriving DecidableEq

def Mark.flag : Mark → Flag
  | accessed => .accessed
  | dirty => .dirty

structure Mapped where
  frame : Nat
  accessed : Bool := false
  dirty : Bool := false
  deriving DecidableEq

namespace Mapped

def has (mapped : Mapped) : Mark → Bool
  | .accessed => mapped.accessed
  | .dirty => mapped.dirty

def put (mapped : Mapped) (mark : Mark) (on : Bool) : Mapped :=
  match mark with
  | .accessed => { mapped with accessed := on }
  | .dirty => { mapped with dirty := on }

def ofWord (word : BitVec 32) : Mapped where
  frame := (word.extractLsb' 12 20).toNat
  accessed := word.getLsbD 5
  dirty := word.getLsbD 6

def ofEntry (entry : Entry) : Mapped := ofWord entry.raw

theorem ofEntry_eq (entry : Entry) :
    ofEntry entry = ⟨entry.frame.toNat, entry.has .accessed, entry.has .dirty⟩ := by
  have frame : entry.raw.extractLsb' 12 20 = entry.frame := congrArg Entry.frame entry.ofRaw_raw
  have flag (place : Nat) (low : place < 12) :
      entry.raw.getLsbD place = entry.flags.getLsbD place := by
    rw [Entry.raw, BitVec.getLsbD_append, if_pos low]
  rw [ofEntry, ofWord, frame, flag 5 (by decide), flag 6 (by decide)]
  rfl

theorem has_ofEntry (entry : Entry) (mark : Mark) :
    (ofEntry entry).has mark = entry.has mark.flag := by
  rw [ofEntry_eq]
  cases mark <;> rfl

theorem ofEntry_put (entry : Entry) (mark : Mark) (on : Bool) :
    ofEntry (entry.put mark.flag on) = (ofEntry entry).put mark on := by
  rw [ofEntry_eq, ofEntry_eq, Entry.frame_put]
  cases mark <;> simp [put, Mark.flag, Entry.has_put]

end Mapped

abbrev PageMap := Std.ExtTreeMap Nat Mapped

/-! ## Requests -/

namespace Directory

inductive Request where
  | map (page frame : Nat) (writable : Bool)
  | unmap (page : Nat)
  | translate (page : Nat)
  | test (page : Nat) (mark : Mark)
  | set (page : Nat) (mark : Mark) (on : Bool)
  | takeAccessed (page : Nat)

inductive Reply where
  | done
  | mapped (done : Bool)
  | frame (found : Option Nat)
  | marked (on : Bool)
  deriving DecidableEq

def serve (directory : Directory) : Request → Except Panic (Reply × Directory)
  | .map page frame writable => do
    let (done, after) ← directory.map page frame writable
    return (.mapped done, after)
  | .unmap page => return (.done, ← directory.unmap page)
  | .translate page => return (.frame (← directory.frame? page), directory)
  | .test page mark => return (.marked (← directory.has page mark.flag), directory)
  | .set page mark on => return (.done, ← directory.put page mark.flag on)
  | .takeAccessed page => do
    let (accessed, after) ← directory.takeAccessed page
    return (.marked accessed, after)

def serveAll (directory : Directory) : List Request → Except Panic (List Reply × Directory)
  | [] => return ([], directory)
  | request :: rest => do
    let (reply, middle) ← directory.serve request
    let (replies, after) ← middle.serveAll rest
    return (reply :: replies, after)

end Directory

namespace PageMap

open Directory (Request Reply)

variable {limit : Option Nat} {pages next : PageMap} {page : Nat}

def regionOf (page : Nat) : Nat := page / (4 * megabyte)

def regions (pages : PageMap) : Finset Nat := (pages.keys.map regionOf).toFinset

/-- Another region would have to get a table, and there are as many tables as there may be. -/
def Refuses (limit : Option Nat) (pages : PageMap) (page : Nat) : Prop :=
  regionOf page ∉ pages.regions ∧ ∃ most ∈ limit, most ≤ pages.regions.card

instance : Decidable (Refuses limit pages page) :=
  inferInstanceAs (Decidable (_ ∧ ∃ most ∈ limit, _))

def serve (limit : Option Nat) (pages : PageMap) : Request → Reply × PageMap
  | .map page frame _ =>
    if pages.Refuses limit page then (.mapped false, pages)
    else (.mapped true, pages.insert page { frame })
  | .unmap page => (.done, pages.erase page)
  | .translate page => (.frame (pages[page]?.map (·.frame)), pages)
  | .test page mark => (.marked (pages[page]?.any (·.has mark)), pages)
  | .set page mark on => (.done, pages.modify page (·.put mark on))
  | .takeAccessed page =>
    (.marked (pages[page]?.any (·.accessed)), pages.modify page (·.put .accessed false))

def serveAll (limit : Option Nat) (pages : PageMap) : List Request → List Reply × PageMap
  | [] => ([], pages)
  | request :: rest =>
    let (reply, middle) := pages.serve limit request
    let (replies, after) := serveAll limit middle rest
    (reply :: replies, after)

def Allows (pages : PageMap) : Request → Prop
  | .map page frame _ =>
    Aligned page ∧ IsUser page ∧ frame < Entry.frameLimit ∧ page ∉ pages
  | .unmap page | .translate page | .test page _ | .set page _ _ | .takeAccessed page =>
    Aligned page ∧ IsUser page

instance (request : Request) : Decidable (pages.Allows request) := by
  cases request <;> exact inferInstanceAs (Decidable (_ ∧ _))

def AllowsAll (limit : Option Nat) (pages : PageMap) : List Request → Prop
  | [] => True
  | request :: rest =>
    pages.Allows request ∧ AllowsAll limit (pages.serve limit request).2 rest

instance AllowsAll.decidable : (requests : List Request) → (pages : PageMap) →
    Decidable (AllowsAll limit pages requests)
  | [], _ => isTrue trivial
  | _ :: rest, _ => @instDecidableAnd _ _ _ (decidable rest _)

/-! ## Regions -/

theorem mem_regions {index : Nat} : index ∈ pages.regions ↔ ∃ page ∈ pages, regionOf page = index := by
  simp only [regions, List.mem_toFinset, List.mem_map, Std.ExtTreeMap.mem_keys]

theorem directoryIndex_eq (user : IsUser page) : directoryIndex page = regionOf page := by
  simp only [IsUser, kernelBase] at user
  simp only [directoryIndex, regionOf, megabyte, kilobyte]
  omega

theorem card_regions_le (mapped : ∀ page ∈ next, page ∈ pages) :
    next.regions.card ≤ pages.regions.card := by
  apply Finset.card_le_card
  intro index member
  obtain ⟨page, there, same⟩ := mem_regions.mp member
  exact mem_regions.mpr ⟨page, mapped page there, same⟩

theorem card_regions_insert (mapped : Mapped) :
    (regions (pages.insert page mapped)).card ≤
      if regionOf page ∈ pages.regions then pages.regions.card else pages.regions.card + 1 := by
  have grown : regions (pages.insert page mapped) ⊆ insert (regionOf page) pages.regions := by
    intro index member
    obtain ⟨other, there, same⟩ := mem_regions.mp member
    rw [Finset.mem_insert]
    rcases Std.ExtTreeMap.mem_insert.mp there with here | earlier
    · rw [← Nat.compare_eq_eq.mp here] at same
      exact .inl same.symm
    · exact .inr (mem_regions.mpr ⟨other, earlier, same⟩)
  apply (Finset.card_le_card grown).trans
  split
  · rename_i member
    rw [Finset.insert_eq_of_mem member]
  · exact Finset.card_insert_le ..

/-! ## What a directory shows -/

structure Shows (limit : Option Nat) (pages : PageMap) (directory : Directory) : Prop where
  limited : directory.limit = limit
  calm : ∀ attempt, directory.refusals.fails attempt = false
  proper : ∀ page ∈ pages, Aligned page ∧ IsUser page
  entries : ∀ page, Aligned page → IsUser page →
    (directory.find? page).map Mapped.ofEntry = pages[page]?
  tight : directory.Tight
  within : ∀ most ∈ limit, pages.regions.card ≤ most

variable {directory after : Directory}

namespace Shows

theorem start (limit : Option Nat) : Shows limit ∅ { limit } where
  limited := rfl
  calm _ := rfl
  proper page member := absurd member Std.ExtTreeMap.not_mem_empty
  entries page _ _ := by simp [Directory.find?]
  tight := Directory.tight_of_fresh rfl
  within _ _ := Nat.zero_le _

theorem isSome_find? (shows : Shows limit pages directory) (aligned : Aligned page)
    (user : IsUser page) : (directory.find? page).isSome = true ↔ page ∈ pages := by
  rw [Std.ExtTreeMap.mem_iff_isSome_getElem?, ← shows.entries page aligned user,
    Option.isSome_map]

theorem mem_tables_iff (shows : Shows limit pages directory) {index : Nat} :
    index ∈ directory.tables ↔ index ∈ pages.regions := by
  rw [mem_regions]
  constructor
  · intro member
    obtain ⟨page, here, mapped⟩ := shows.tight index member
    rw [Directory.translation] at mapped
    split at mapped
    · rename_i proper
      rw [Option.isSome_map] at mapped
      rw [directoryIndex_eq proper.2] at here
      exact ⟨page, (shows.isSome_find? proper.1 proper.2).mp mapped, here⟩
    · cases mapped
  · rintro ⟨page, member, rfl⟩
    obtain ⟨aligned, user⟩ := shows.proper page member
    have mapped := (shows.isSome_find? aligned user).mpr member
    rw [← directoryIndex_eq user, Std.ExtTreeMap.mem_iff_isSome_getElem?]
    rw [Directory.find?] at mapped
    cases found : directory.tables[directoryIndex page]? with
    | none => simp [found] at mapped
    | some table => rfl

theorem tableCount (shows : Shows limit pages directory) :
    directory.tableCount = pages.regions.card := by
  have same : directory.tables.keys.toFinset = pages.regions := by
    ext index
    rw [List.mem_toFinset, Std.ExtTreeMap.mem_keys, shows.mem_tables_iff]
  rw [← same, List.toFinset_card_of_nodup Std.ExtTreeMap.nodup_keys, Std.ExtTreeMap.length_keys,
    Directory.tableCount]

theorem refuses_iff (shows : Shows limit pages directory) (user : IsUser page) :
    directory.tableFor? page = none ↔ pages.Refuses limit page := by
  rw [Directory.tableFor?_eq_none_iff, shows.mem_tables_iff, directoryIndex_eq user, Refuses,
    Directory.full, shows.limited, shows.tableCount]
  cases limit <;> simp

theorem rewritten (shows : Shows limit pages directory) (aligned : Aligned page)
    (user : IsUser page) {entry : Option Entry} (rewritten : directory.Rewritten page entry after)
    (same : ∀ other, next[other]? =
      if other = page then entry.map Mapped.ofEntry else pages[other]?)
    (within : ∀ most ∈ limit, next.regions.card ≤ most) : Shows limit next after where
  limited := rewritten.limit.trans shows.limited
  calm attempt := by rw [rewritten.fails, shows.calm]
  proper other member := by
    by_cases here : other = page
    · exact here ▸ ⟨aligned, user⟩
    · rw [Std.ExtTreeMap.mem_iff_isSome_getElem?, same, if_neg here] at member
      exact shows.proper other (Std.ExtTreeMap.mem_iff_isSome_getElem?.mpr member)
  entries other otherAligned otherUser := by
    rw [same]
    split
    · rename_i here
      rw [here, rewritten.here]
    · rename_i distinct
      rw [rewritten.others other otherAligned otherUser distinct,
        shows.entries other otherAligned otherUser]
  tight := rewritten.tight shows.tight
  within := within

theorem refuse (shows : Shows limit pages directory) (aligned : Aligned page) (user : IsUser page)
    (refuses : pages.Refuses limit page) (frame : Nat) (writable : Bool) :
    ∃ after, directory.map page frame writable = .ok (false, after) ∧ Shows limit pages after :=
  ⟨_, directory.map_refused aligned user (.inr ((shows.refuses_iff user).mpr refuses)) frame writable,
    { shows with }⟩

theorem add (shows : Shows limit pages directory) (aligned : Aligned page) (user : IsUser page)
    {frame : Nat} (small : frame < Entry.frameLimit) (absent : page ∉ pages) (writable : Bool)
    (offers : ¬ pages.Refuses limit page) :
    ∃ after, directory.map page frame writable = .ok (true, after) ∧
      Shows limit (pages.insert page { frame }) after := by
  have vacant : directory.find? page = none := by
    rw [← Option.not_isSome_iff_eq_none, shows.isSome_find? aligned user]
    exact absent
  obtain ⟨table, found⟩ := Option.ne_none_iff_exists'.mp ((shows.refuses_iff user).not.mpr offers)
  obtain ⟨entry, after, done, leads, accessed, dirty, rewritten⟩ :=
    directory.map_eq aligned user small vacant writable (shows.calm _) found
  refine ⟨after, done, shows.rewritten aligned user rewritten ?_ ?_⟩
  · intro other
    simp only [Std.ExtTreeMap.getElem?_insert, Nat.compare_eq_eq, eq_comm (a := page),
      Option.map_some, Mapped.ofEntry_eq, leads, accessed, dirty]
  · intro most here
    apply (card_regions_insert _).trans
    split
    · exact shows.within most here
    · rename_i outside
      exact Nat.lt_of_not_le fun full => offers ⟨outside, most, here, full⟩

theorem unmap (shows : Shows limit pages directory) (aligned : Aligned page)
    (user : IsUser page) :
    ∃ after, directory.unmap page = .ok after ∧ Shows limit (pages.erase page) after := by
  obtain ⟨after, done, rewritten⟩ := directory.unmap_eq aligned user
  refine ⟨after, done, shows.rewritten aligned user rewritten ?_ ?_⟩
  · intro other
    simp only [Std.ExtTreeMap.getElem?_erase, Nat.compare_eq_eq, eq_comm (a := page),
      Option.map_none]
  · intro most here
    apply (card_regions_le _).trans (shows.within most here)
    intro other member
    exact (Std.ExtTreeMap.mem_erase.mp member).2

theorem put (shows : Shows limit pages directory) (aligned : Aligned page) (user : IsUser page)
    (mark : Mark) (on : Bool) :
    ∃ after, directory.put page mark.flag on = .ok after ∧
      Shows limit (pages.modify page (·.put mark on)) after := by
  have kept : mark.flag ≠ .present := by cases mark <;> decide
  obtain ⟨after, done, rewritten⟩ := directory.put_eq aligned user kept on
  refine ⟨after, done, shows.rewritten aligned user rewritten ?_ ?_⟩
  · intro other
    simp only [Std.ExtTreeMap.getElem?_modify, Nat.compare_eq_eq, eq_comm (a := page),
      ← shows.entries page aligned user, Option.map_map, Function.comp_def, Mapped.ofEntry_put]
  · intro most here
    apply (card_regions_le _).trans (shows.within most here)
    intro other member
    exact Std.ExtTreeMap.mem_modify.mp member

theorem has (shows : Shows limit pages directory) (aligned : Aligned page) (user : IsUser page)
    (mark : Mark) :
    directory.has page mark.flag = .ok (pages[page]?.any (·.has mark)) := by
  rw [Directory.has_eq aligned user, ← shows.entries page aligned user, Option.any_map]
  simp only [Mapped.has_ofEntry]

theorem frame? (shows : Shows limit pages directory) (aligned : Aligned page)
    (user : IsUser page) : directory.frame? page = .ok (pages[page]?.map (·.frame)) := by
  rw [Directory.frame?_eq aligned user, Directory.translation_of_find? aligned user,
    ← shows.entries page aligned user, Option.map_map, Option.map_map]
  simp only [Function.comp_def, Mapped.ofEntry_eq]

theorem serve (shows : Shows limit pages directory) {request : Request}
    (allowed : pages.Allows request) :
    ∃ after, directory.serve request = .ok ((pages.serve limit request).1, after) ∧
      Shows limit (pages.serve limit request).2 after := by
  cases request with
  | map page frame writable =>
      obtain ⟨aligned, user, small, absent⟩ := allowed
      rw [PageMap.serve]
      by_cases refuses : pages.Refuses limit page
      · obtain ⟨after, done, still⟩ := shows.refuse aligned user refuses frame writable
        rw [if_pos refuses]
        exact ⟨after, by rw [Directory.serve, done]; rfl, still⟩
      · obtain ⟨after, done, still⟩ := shows.add aligned user small absent writable refuses
        rw [if_neg refuses]
        exact ⟨after, by rw [Directory.serve, done]; rfl, still⟩
  | unmap page =>
      obtain ⟨after, done, still⟩ := shows.unmap allowed.1 allowed.2
      exact ⟨after, by rw [Directory.serve, done]; rfl, still⟩
  | translate page =>
      exact ⟨directory, by rw [Directory.serve, shows.frame? allowed.1 allowed.2]; rfl, shows⟩
  | test page mark =>
      exact ⟨directory, by rw [Directory.serve, shows.has allowed.1 allowed.2]; rfl, shows⟩
  | set page mark on =>
      obtain ⟨after, done, still⟩ := shows.put allowed.1 allowed.2 mark on
      exact ⟨after, by rw [Directory.serve, done]; rfl, still⟩
  | takeAccessed page =>
      obtain ⟨after, done, still⟩ := shows.put allowed.1 allowed.2 .accessed false
      refine ⟨after, ?_, still⟩
      have taken : directory.takeAccessed page = .ok (pages[page]?.any (·.accessed), after) := by
        have marked := shows.has allowed.1 allowed.2 .accessed
        simp only [Mark.flag] at marked done
        rw [Directory.takeAccessed, marked, done]
        rfl
      rw [Directory.serve, taken]
      rfl

theorem serveAll (requests : List Request) (shows : Shows limit pages directory)
    (allowed : AllowsAll limit pages requests) :
    ∃ after, directory.serveAll requests = .ok ((pages.serveAll limit requests).1, after) ∧
      Shows limit (pages.serveAll limit requests).2 after := by
  induction requests generalizing pages directory with
  | nil => exact ⟨directory, rfl, shows⟩
  | cons request rest ih =>
      obtain ⟨middle, done, still⟩ := shows.serve allowed.1
      obtain ⟨after, last, holds⟩ := ih still allowed.2
      refine ⟨after, ?_, holds⟩
      rw [Directory.serveAll, done]
      change (do
        let (replies, after) ← middle.serveAll rest
        return ((pages.serve limit request).1 :: replies, after)) = _
      rw [last]
      rfl

end Shows

end PageMap

/-! ## The main statement -/

/-- After any number of requests a directory has given the replies that a map gives and holds the pages
that the map holds, with a table for each region they lie in. -/
theorem directory_refines_page_map {limit : Option Nat} {requests : List Directory.Request}
    (allowed : PageMap.AllowsAll limit ∅ requests) :
    ∃ after replies pages, Directory.serveAll { limit } requests = .ok (replies, after) ∧
      PageMap.serveAll limit ∅ requests = (replies, pages) ∧ PageMap.Shows limit pages after ∧
      after.tableCount = pages.regions.card ∧ (∀ most ∈ limit, after.tableCount ≤ most) ∧
      (pages = ∅ → after.tableCount = 0) := by
  obtain ⟨after, done, shows⟩ := (PageMap.Shows.start limit).serveAll requests allowed
  refine ⟨after, _, _, done, rfl, shows, shows.tableCount, ?_, ?_⟩
  · rw [shows.tableCount]
    exact shows.within
  · intro empty
    rw [shows.tableCount, empty]
    rfl

/-- A directory of one table has room for two pages of a region, and for a page of another only once
both are gone. -/
theorem directory_refines_page_map_of_one_table :
    let requests : List Directory.Request := [.map 0 7 true, .map 4096 8 false,
      .map 0x400000 9 true, .set 4096 .accessed true, .set 8192 .dirty true, .takeAccessed 4096,
      .test 4096 .accessed, .test 8192 .dirty, .translate 4096, .unmap 0, .unmap 4096,
      .map 0x400000 9 true]
    PageMap.AllowsAll (some 1) ∅ requests ∧ ∃ after, Directory.serveAll { limit := some 1 } requests =
      .ok ([.mapped true, .mapped true, .mapped false, .done, .done, .marked true, .marked false,
        .marked false, .frame (some 8), .done, .done, .mapped true], after) ∧
      after.tableCount ≤ 1 := by
  intro requests
  have allowed : PageMap.AllowsAll (some 1) ∅ requests := by decide +kernel
  obtain ⟨after, replies, pages, done, same, -, -, few, -⟩ := directory_refines_page_map allowed
  have given : (PageMap.serveAll (some 1) ∅ requests).1 = [.mapped true, .mapped true,
      .mapped false, .done, .done, .marked true, .marked false, .marked false, .frame (some 8),
      .done, .done, .mapped true] := by decide +kernel
  rw [same] at given
  exact ⟨allowed, after, given ▸ done, few 1 rfl⟩

end DemandPaging
