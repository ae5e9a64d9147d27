import DemandPaging.Proofs.PageSpan
import DemandPaging.Proofs.Run

/-!
# Pages and pieces

A range of user memory is listed page by page where pages are pinned, and cut into pieces where bytes
are copied. The two agree: there is one piece for each page, which is what of the range lies in it
(`pieces_eq_map`). Main statement: `pieces_match_pages`, which adds that a copy works on exactly
these pieces, in turn, until it comes to a page that cannot be faulted in.
-/

namespace DemandPaging

section Pieces

variable {start length page : Nat} {span : PageSpan}

def pieceIn (start length page : Nat) : Piece :=
  ⟨max start page, min (start + length) (page + pageSize) - max start page⟩

theorem pageOf_pieceIn (aligned : Aligned page) (meets : start < page + pageSize) :
    pageOf (pieceIn start length page).start = page := by
  simp only [pieceIn, pageOf, Aligned, pageOffset, pageSize] at aligned meets ⊢
  omega

namespace PageSpan

theorem meets_of_mem (covered : covering start length = .ok span) (member : page ∈ span.pages) :
    Aligned page ∧ 0 < length ∧ start < page + pageSize ∧ page < start + length := by
  rw [mem_pages_iff] at member
  have aligned := aligned_of_contains covered member
  exact ⟨aligned, (contains_covering_iff covered aligned).mp member⟩

theorem pages_of_empty (covered : covering start 0 = .ok span) : span.pages = [] := by
  obtain ⟨-, ⟨-, none⟩ | ⟨positive, -⟩⟩ := covering_eq covered
  · simp [pages, none]
  · exact absurd positive (Nat.lt_irrefl 0)

theorem exists_rest {room : Nat} (covered : covering start length = .ok span)
    (short : room ≤ length) : ∃ rest, covering (start + room) (length - room) = .ok rest := by
  unfold covering at covered ⊢
  have whole : start + room + (length - room) = start + length := by omega
  rw [whole]
  split
  · exact ⟨_, rfl⟩
  · rw [if_neg (by omega)] at covered
    split at covered
    · cases covered
    · rename_i bound
      rw [if_neg bound]
      cases rounded : roundUp (start + length) with
      | error cause =>
          rw [rounded] at covered
          cases covered
      | ok stop => exact ⟨_, rfl⟩

theorem pages_eq_cons {room : Nat} (covered : covering start length = .ok span)
    (positive : 0 < length) (cut : room = min (pageSize - start % pageSize) length) :
    ∃ rest, covering (start + room) (length - room) = .ok rest ∧
      span.pages = pageOf start :: rest.pages := by
  have short : room ≤ length := cut ▸ Nat.min_le_right ..
  obtain ⟨rest, covered'⟩ := exists_rest covered short
  obtain ⟨first, none | ⟨-, reaches, stops⟩⟩ := covering_eq covered
  · exact absurd none.1 (Nat.ne_of_gt positive)
  have counted : span.count = rest.count + 1 ∧
      ∀ i < rest.count, span.nth (i + 1) = rest.nth i := by
    obtain ⟨first', ⟨last, none⟩ | ⟨more, reaches', stops'⟩⟩ := covering_eq covered'
    · rw [none]
      simp only [nth, first, pageOf, pageSize] at cut reaches stops
      exact ⟨by omega, fun i small => absurd small (Nat.not_lt_zero i)⟩
    · simp only [nth, first, first', pageOf, pageSize] at cut reaches stops reaches' stops' ⊢
      exact ⟨by omega, fun i _ => by omega⟩
  refine ⟨rest, covered', ?_⟩
  rw [pages, counted.1, List.range_succ_eq_map, List.map_cons, List.map_map, pages]
  congr 1
  apply List.map_congr_left
  intro i small
  exact counted.2 i (List.mem_range.mp small)

theorem pieces_eq_map (covered : covering start length = .ok span) :
    pieces pageSize start length = span.pages.map (pieceIn start length) := by
  fun_induction pieces pageSize start length generalizing span with
  | case1 start length done =>
      obtain rfl : length = 0 := by simpa [pageSize] using done
      rw [pages_of_empty covered, List.map_nil]
  | case2 =>
      rename_i start length more room ih
      have positive : 0 < length := by omega
      have cut : room = min (pageSize - start % pageSize) length := rfl
      clear_value room
      obtain ⟨rest, covered', same⟩ := pages_eq_cons covered positive cut
      have first : pieceIn start length (pageOf start) = ⟨start, room⟩ := by
        simp only [pieceIn, pageOf, pageSize, Piece.mk.injEq] at cut ⊢
        omega
      rw [same, List.map_cons, first, ih covered']
      congr 1
      -- What lies in a later page is the same for the whole range as for the rest of it.
      apply List.map_congr_left
      intro page member
      obtain ⟨aligned, left, meets, -⟩ := meets_of_mem covered' member
      simp only [pieceIn, Aligned, pageOffset, pageSize, Piece.mk.injEq] at cut aligned meets ⊢
      omega

theorem pieceIn_mem (covered : covering start length = .ok span) (member : page ∈ span.pages) :
    pieceIn start length page ∈ pieces pageSize start length := by
  rw [pieces_eq_map covered]
  exact List.mem_map_of_mem member

end PageSpan

theorem Follow.flatten {base stop : Nat} {parts : List Piece} {data : Bytes}
    (follow : Follow start stop parts) (begun : base ≤ start) (ends : stop = base + data.length) :
    (parts.map fun piece => piece.of base data.toArray).flatten = data.drop (start - base) := by
  induction parts generalizing start with
  | nil =>
      obtain rfl : start = stop := follow
      rw [ends, Nat.add_sub_cancel_left, List.drop_length]
      rfl
  | cons piece rest ih =>
      obtain ⟨rfl, later⟩ := follow
      rw [List.map_cons, List.flatten_cons, ih later (Nat.le_add_right_of_le begun),
        Piece.of_toArray, Nat.sub_add_comm begun, ← List.drop_drop, List.take_append_drop]

end Pieces

/-! ## Copies -/

theorem Pool.edit_self (pool : Pool) (frame : Nat) : pool.edit frame (fun page => page) = pool := by
  have same : pool.frames.modify frame (fun old => old) = pool.frames := by
    apply Array.ext_getElem?
    intro i
    rw [Array.getElem?_modify]
    split <;> simp
  rw [edit, same]

namespace Machine

open DemandPaging.Action

variable {α : Type} {id start length : Nat} {write : Bool}
  {access : (frame : Nat) → Piece → Action PagingError Machine α}
  {before middle after : Traced Machine} {piece : Piece} {page : Nat} {pages : List Nat} {value : α}

def Visited (id : Nat) (write : Bool)
    (access : (frame : Nat) → Piece → Action PagingError Machine α) (piece : Piece)
    (before : Traced Machine) (value : α) (after : Traced Machine) : Prop :=
  ∃ frame resident touched, faultIn id piece.start before = .ok frame resident ∧
    access frame piece resident = .ok value touched ∧
    releasePin id (pageOf piece.start) frame (some write) touched = .ok () after

inductive Visits (id start length : Nat) (write : Bool)
    (access : (frame : Nat) → Piece → Action PagingError Machine α) :
    List Nat → Traced Machine → List α → Traced Machine → Prop where
  | nil {before : Traced Machine} : Visits id start length write access [] before [] before
  | cons {before middle after : Traced Machine} {page : Nat} {rest : List Nat} {value : α}
      {values : List α}
      (visited : Visited id write access (pieceIn start length page) before value middle)
      (later : Visits id start length write access rest middle values after) :
      Visits id start length write access (page :: rest) before (value :: values) after

/-- An access that stays within a frame, where it may read and write, whichever piece of a range it
is for. -/
def Harmless (start length : Nat)
    (access : (frame : Nat) → Piece → Action PagingError Machine α) : Prop :=
  ∀ frame, ∀ piece ∈ pieces pageSize start length, ∀ before : Traced Machine,
    frame < before.state.pool.size →
      ∃ value change log, access frame piece before =
        .ok value ⟨before.state.withPool (before.state.pool.edit frame change), log⟩

theorem visit_of_error {stop : Stop PagingError}
    (refused : faultIn id piece.start before = .error stop after) :
    visit id write access piece before = .error stop after :=
  bind_of_error refused _

theorem Visited.ran (visited : Visited id write access piece before value after)
    (small : piece.start + piece.length < wordLimit) :
    visit id write access piece before = .ok value after := by
  obtain ⟨frame, resident, touched, faulted, accessed, released⟩ := visited
  rw [visit, bind_of_ok faulted, bind_of_ok accessed, bind_of_ok released, addWord_eq small]
  rfl

theorem Sound.edited {machine : Machine} {frame : Nat} (sound : machine.Sound False)
    (inside : frame < machine.pool.size) (change : Page → Page) :
    (machine.withPool (machine.pool.edit frame change)).Sound False := by
  refine ⟨?_, False.elim, sound.shaped.edit change⟩
  rw [view_of_edit inside]
  exact sound.consistent.same (View.samePlaces_of_eq rfl rfl rfl rfl rfl)

theorem Sound.pinReleased {machine : Machine} {frame : Nat} {window : Option FileWindow}
    (sound : machine.Sound False) (log : Array Event)
    (live : machine.view.live id = true) (holds : machine.view.Holds (id, page) frame window)
    (write : Option Bool) : ∃ after, releasePin id page frame write ⟨machine, log⟩ = .ok () after ∧
      after.state.Sound False ∧ after.state.view.live id = true := by
  obtain ⟨pins, written, held⟩ := sound.consistent.exists_holder holds
  have released : (releasePin id page frame write).Ensures ⟨machine, log⟩ _ _ _ :=
    releasePin_spec sound.shaped live holds held write
  obtain ⟨_, after, ran, shaped, seen⟩ := released.exists_returned
  refine ⟨after, ran, ⟨?_, False.elim, shaped⟩, ?_⟩
  · have tenant : after.state.view.tenant = machine.view.tenant := by
      rw [seen, View.tenant_hold, Function.update_eq_self_iff, View.tenant, held]
      rfl
    rw [seen] at tenant ⊢
    exact sound.consistent.same (View.samePlaces_of_eq rfl rfl tenant rfl rfl)
  · rw [seen]
    exact live

theorem visit_ends (write : Bool) (harmless : Harmless start length access)
    (sound : before.state.Sound False) (live : before.state.view.live id = true)
    (member : piece ∈ pieces pageSize start length) :
    (∃ stop after, faultIn id piece.start before = .error stop after) ∨
      ∃ value after, Visited id write access piece before value after ∧
        after.state.Sound False ∧ after.state.view.live id = true := by
  cases ran : faultIn id piece.start before with
  | error stop after => exact .inl ⟨stop, after, rfl⟩
  | ok frame resident =>
      obtain ⟨-, faulted⟩ := (faultIn_spec sound live).returned ran
      have through := faulted.through
      have soundResident := sound.through through
      obtain ⟨window, holds⟩ := faulted.holds
      obtain ⟨pins, written, held⟩ := soundResident.consistent.exists_holder holds
      have inside : frame < resident.state.pool.size := Pool.lt_size_of_holder held
      obtain ⟨value, change, log, accessed⟩ := harmless frame piece member resident inside
      -- The access has changed nothing but the contents of the frame, so the page is still there.
      let touched := resident.state.withPool (resident.state.pool.edit frame change)
      have edited : touched.view = resident.state.view.fill frame _ := view_of_edit inside change
      have alive : touched.view.live id = true := by
        rw [edited]
        exact through.live ▸ live
      have still : touched.view.Holds (id, pageOf piece.start) frame window := by
        rw [edited]
        exact holds
      obtain ⟨after, released, kept⟩ :=
        (soundResident.edited inside change).pinReleased log alive still (some write)
      exact .inr ⟨value, after, ⟨frame, resident, _, ran, accessed, released⟩, kept⟩

section Listed

variable (user : IsUserRange start length)
  (listed : ∀ page ∈ pages, pieceIn start length page ∈ pieces pageSize start length)
include user listed

theorem mapM_of_visits {values : List α}
    (visits : Visits id start length write access pages before values after) :
    (pages.map (pieceIn start length)).mapM (visit id write access) before = .ok values after := by
  induction visits with
  | nil => rfl
  | cons visited later ih =>
      obtain ⟨here, others⟩ := List.forall_mem_cons.mp listed
      exact mapM_cons_ok (visited.ran (end_of_within (within_of_mem here) user)) (ih others)

/-- The pages before one that cannot be faulted in are the last to be worked on. -/
theorem mapM_of_stopped {values : List α} {stop : Stop PagingError} {k : Nat}
    (visits : Visits id start length write access (pages.take k) before values middle)
    (small : k < pages.length)
    (refused : faultIn id (pieceIn start length pages[k]).start middle = .error stop after) :
    (pages.map (pieceIn start length)).mapM (visit id write access) before =
      .error stop after := by
  induction pages generalizing k before values with
  | nil => cases small
  | cons page rest ih =>
      obtain ⟨here, others⟩ := List.forall_mem_cons.mp listed
      rw [List.map_cons, List.mapM_cons]
      cases k with
      | zero =>
          cases visits
          exact bind_of_error (visit_of_error refused) _
      | succ k =>
          cases visits with
          | cons visited later =>
              rw [bind_of_ok (visited.ran (end_of_within (within_of_mem here) user))]
              exact bind_of_error (ih others later (Nat.lt_of_succ_lt_succ small) refused) _

end Listed

theorem visits_end (harmless : Harmless start length access) (sound : before.state.Sound False)
    (live : before.state.view.live id = true) (pages : List Nat)
    (listed : ∀ page ∈ pages, pieceIn start length page ∈ pieces pageSize start length) :
    (∃ values after, Visits id start length write access pages before values after) ∨
      ∃ k values middle stop after, ∃ small : k < pages.length,
        Visits id start length write access (pages.take k) before values middle ∧
          faultIn id (pieceIn start length pages[k]).start middle = .error stop after := by
  induction pages generalizing before with
  | nil => exact .inl ⟨[], before, .nil⟩
  | cons page rest ih =>
      obtain ⟨here, others⟩ := List.forall_mem_cons.mp listed
      rcases visit_ends write harmless sound live here with
        ⟨stop, after, refused⟩ | ⟨value, middle, visited, soundMiddle, alive⟩
      · exact .inr ⟨0, [], before, stop, after, Nat.zero_lt_succ _, .nil, refused⟩
      · rcases ih soundMiddle alive others with
          ⟨values, after, later⟩ | ⟨k, values, last, stop, after, small, later, refused⟩
        · exact .inl ⟨_, after, .cons visited later⟩
        · exact .inr ⟨k + 1, _, last, stop, after, Nat.succ_lt_succ small, .cons visited later,
            refused⟩

/-- What becomes of a range of which the pages are listed, and what an action makes of the values
that its pieces gave. -/
structure Traverses {β : Type} (action : Action PagingError Machine β) (result : List α → β)
    (id start length : Nat) (write : Bool)
    (access : (frame : Nat) → Piece → Action PagingError Machine α) (pages : List Nat)
    (before : Traced Machine) : Prop where
  complete : (∀ k values middle, ∀ small : k < pages.length,
      Visits id start length write access (pages.take k) before values middle →
        ∃ frame resident, faultIn id pages[k] middle = .ok frame resident) →
    ∃ values after, action before = .ok (result values) after ∧
      Visits id start length write access pages before values after
  stopped : ∀ k values middle stop after, ∀ small : k < pages.length,
    Visits id start length write access (pages.take k) before values middle →
      faultIn id pages[k] middle = .error stop after → action before = .error stop after
  ends : (∃ values after, action before = .ok (result values) after ∧
      Visits id start length write access pages before values after) ∨
    ∃ k values middle stop after, ∃ small : k < pages.length,
      Visits id start length write access (pages.take k) before values middle ∧
        faultIn id pages[k] middle = .error stop after ∧ action before = .error stop after

section Covered

variable {span : PageSpan} (covered : PageSpan.covering start length = .ok span)
  (user : IsUserRange start length)
include covered user

theorem faultIn_pieceIn (member : page ∈ span.pages) :
    faultIn id (pieceIn start length page).start = faultIn id page := by
  obtain ⟨aligned, -, meets, below⟩ := PageSpan.meets_of_mem covered member
  obtain ⟨low, high⟩ := user
  simp only [IsUser] at low
  have there : IsUser page := by
    simp only [IsUser]
    omega
  have begun : IsUser (pieceIn start length page).start := by
    simp only [IsUser, pieceIn]
    omega
  rw [faultIn, faultIn, pageOf_pieceIn aligned meets, pageOf_eq_self aligned, require, require,
    if_pos begun, if_pos there]

theorem forPieces_eq_mapM : forPieces id start length write access =
    (span.pages.map (pieceIn start length)).mapM (visit id write access) := by
  rw [forPieces_eq user, PageSpan.pieces_eq_map covered]

theorem forPieces_stopped {values : List α} {stop : Stop PagingError} {k : Nat}
    (small : k < span.pages.length)
    (visits : Visits id start length write access (span.pages.take k) before values middle)
    (refused : faultIn id span.pages[k] middle = .error stop after) :
    forPieces id start length write access before = .error stop after := by
  rw [← faultIn_pieceIn covered user (List.getElem_mem small)] at refused
  rw [forPieces_eq_mapM covered user]
  exact mapM_of_stopped user (fun _ => PageSpan.pieceIn_mem covered) visits small refused

theorem forPieces_ends (sound : before.state.Sound False) (live : before.state.view.live id = true)
    (harmless : Harmless start length access) :
    (∃ values after, forPieces id start length write access before = .ok values after ∧
        Visits id start length write access span.pages before values after) ∨
      ∃ k values middle stop after, ∃ small : k < span.pages.length,
        Visits id start length write access (span.pages.take k) before values middle ∧
          faultIn id span.pages[k] middle = .error stop after ∧
          forPieces id start length write access before = .error stop after := by
  have listed (page : Nat) (member : page ∈ span.pages) :
      pieceIn start length page ∈ pieces pageSize start length :=
    PageSpan.pieceIn_mem covered member
  rcases visits_end harmless sound live span.pages listed with
    ⟨values, after, visits⟩ | ⟨k, values, middle, stop, after, small, visits, refused⟩
  · refine .inl ⟨values, after, ?_, visits⟩
    rw [forPieces_eq_mapM covered user]
    exact mapM_of_visits user listed visits
  · rw [faultIn_pieceIn covered user (List.getElem_mem small)] at refused
    exact .inr ⟨k, values, middle, stop, after, small, visits, refused,
      forPieces_stopped covered user small visits refused⟩

theorem forPieces_traverses (sound : before.state.Sound False)
    (live : before.state.view.live id = true) (harmless : Harmless start length access) :
    Traverses (forPieces id start length write access) (fun values => values) id start length write
      access span.pages before where
  complete all := by
    rcases forPieces_ends covered user sound live harmless with
      done | ⟨k, values, middle, stop, after, small, visits, refused, -⟩
    · exact done
    · obtain ⟨frame, resident, faulted⟩ := all k values middle small visits
      rw [faulted] at refused
      cases refused
  stopped k values middle stop after small visits refused :=
    forPieces_stopped covered user small visits refused
  ends := forPieces_ends covered user sound live harmless

end Covered

/-! ## Reads and writes -/

theorem takeSlice_harmless : Harmless start length takeSlice := by
  intro frame piece member before inside
  have read : takeSlice frame piece before = .ok _ before :=
    takeSlice_eq (within_of_mem member) inside
  exact ⟨_, fun page => page, before.log, by rw [Pool.edit_self]; exact read⟩

theorem putSlice_harmless (start : Nat) (data : Bytes) :
    Harmless start data.length (putSlice start data.toArray) :=
  fun _ _ member before inside =>
    ⟨(), _, before.log, putSlice_eq (within_of_mem member) inside⟩

structure Copied (id start length : Nat) (pages : List Nat) (before : Traced Machine) : Prop where
  reads : Traverses (readUser id start length) List.flatten id start length false takeSlice pages
    before
  writes : ∀ data : Bytes, data.length = length →
    Traverses (writeUser id start data) (fun _ => ()) id start length true
      (putSlice start data.toArray) pages before

theorem Traverses.finish {β : Type} {action : Action PagingError Machine (List α)}
    (traverses : Traverses action (fun values => values) id start length write access pages before)
    (result : List α → β) :
    Traverses (action >>= fun values => pure (result values)) result id start length write access
      pages before where
  complete all := by
    obtain ⟨values, after, ran, visits⟩ := traverses.complete all
    exact ⟨values, after, bind_of_ok ran _, visits⟩
  stopped k values middle stop after small visits refused :=
    bind_of_error (traverses.stopped k values middle stop after small visits refused) _
  ends := by
    rcases traverses.ends with
      ⟨values, after, ran, visits⟩ | ⟨k, values, middle, stop, after, small, visits, refused, ran⟩
    · exact .inl ⟨values, after, bind_of_ok ran _, visits⟩
    · exact .inr ⟨k, values, middle, stop, after, small, visits, refused, bind_of_error ran _⟩

/-- An action that returns has worked on all pages. -/
theorem Traverses.visits {β : Type} {action : Action PagingError Machine β} {result : List α → β}
    {value : β} (traverses : Traverses action result id start length write access pages before)
    (ran : action before = .ok value after) :
    ∃ values, Visits id start length write access pages before values after ∧
      value = result values := by
  rcases traverses.ends with ⟨values, _, ran', visits⟩ | ⟨_, _, _, _, _, _, _, _, refused⟩
  · rw [ran] at ran'
    cases ran'
    exact ⟨values, visits, rfl⟩
  · rw [ran] at refused
    cases refused

theorem copied_of_traverses (user : IsUserRange start length)
    (traverses : ∀ {α : Type} (write : Bool) (access : Nat → Piece → Action PagingError Machine α),
      Harmless start length access →
        Traverses (forPieces id start length write access) (fun values => values) id start length
          write access pages before) :
    Copied id start length pages before where
  reads := by
    have small : length < bufferLimit :=
      Nat.lt_of_le_of_lt (Nat.le_trans (Nat.le_add_left ..) user.2) (by decide)
    rw [readUser, insist, if_pos small, pure_bind]
    exact (traverses false _ takeSlice_harmless).finish List.flatten
  writes data size := by
    subst size
    exact (traverses true _ (putSlice_harmless start data)).finish fun _ => ()

end Machine

/-- The pages of a range and its pieces. -/
structure Cuts (start length : Nat) (pages : List Nat) : Prop where
  ascending : pages.Pairwise (· < ·)
  covers : ∀ page, page ∈ pages ↔ Aligned page ∧ ∃ address, page ≤ address ∧
    address < page + pageSize ∧ start ≤ address ∧ address < start + length
  pieces : pieces pageSize start length = pages.map (pieceIn start length)
  within : ∀ page ∈ pages, pageOf (pieceIn start length page).start = page ∧
    0 < (pieceIn start length page).length ∧
      pageOffset (pieceIn start length page).start + (pieceIn start length page).length ≤ pageSize
  follow : Follow start (start + length) (pages.map (pieceIn start length))
  slices : ∀ data : Bytes, data.length = length →
    (∀ page ∈ pages,
      (pieceIn start length page).start - start + (pieceIn start length page).length ≤ length) ∧
    (pages.map fun page => (pieceIn start length page).of start data.toArray).flatten = data

theorem cuts_of_covering {start length : Nat} {span : PageSpan}
    (covered : PageSpan.covering start length = .ok span) : Cuts start length span.pages where
  ascending := span.ascending_pages
  covers page := by
    constructor
    · intro member
      obtain ⟨aligned, positive, meets, below⟩ := PageSpan.meets_of_mem covered member
      refine ⟨aligned, max start page, ?_⟩
      simp only [pageSize] at meets ⊢
      omega
    · rintro ⟨aligned, address, begun, inside, first, last⟩
      rw [PageSpan.mem_pages_iff, PageSpan.contains_covering_iff covered aligned]
      omega
  pieces := PageSpan.pieces_eq_map covered
  within page member := by
    obtain ⟨aligned, -, meets, -⟩ := PageSpan.meets_of_mem covered member
    exact ⟨pageOf_pieceIn aligned meets, piece_within_block (PageSpan.pieceIn_mem covered member)⟩
  follow := by
    rw [← PageSpan.pieces_eq_map covered]
    exact pieces_follow (by decide) start length
  slices data size := by
    have follow : Follow start (start + length) (pieces pageSize start length) :=
      pieces_follow (by decide) start length
    have whole := follow.flatten (Nat.le_refl start) (congrArg (start + ·) size.symm)
    rw [PageSpan.pieces_eq_map covered, List.map_map, Nat.sub_self, List.drop_zero] at whole
    refine ⟨fun page member => ?_, whole⟩
    have inside := piece_within_range (PageSpan.pieceIn_mem covered member)
    omega

/-- A range of user memory is cut into one piece for each of its pages, and a loop over the pieces
works on those that come before a page that cannot be faulted in. -/
theorem pieces_match_pages {settings : Settings} {device : Device} {storage : Storage}
    {first now : Traced Machine} (started : Machine.start settings device storage = .ok first)
    (run : Run (fun before operation _ => operation.Addressed before) first now) {id : Nat}
    (live : now.state.view.live id = true) {start length : Nat} (user : IsUserRange start length) :
    ∃ span, PageSpan.covering start length = .ok span ∧ Cuts start length span.pages ∧
      (∀ {α : Type} (write : Bool) (access : Nat → Piece → Action PagingError Machine α),
        Machine.Harmless start length access →
          Machine.Traverses (Machine.forPieces id start length write access) (fun values => values)
            id start length write access span.pages now) ∧
      Machine.Copied id start length span.pages now := by
  obtain ⟨span, covered⟩ := PageSpan.exists_covering user
  have traverses {α : Type} (write : Bool) (access : Nat → Piece → Action PagingError Machine α)
      (harmless : Machine.Harmless start length access) :
      Machine.Traverses (Machine.forPieces id start length write access) (fun values => values)
        id start length write access span.pages now :=
    Machine.forPieces_traverses covered user (run.sound_of_started started) live harmless
  exact ⟨span, covered, cuts_of_covering covered, traverses,
    Machine.copied_of_traverses user traverses⟩

/-- Eight bytes are written, half of them at the end of a page and half at the start of the next. -/
theorem pieces_match_pages_of_two_pages : ∃ (device : Device) (first now after : Traced Machine)
    (data : Bytes) (parts : List Unit), Machine.start ⟨2⟩ device {} = .ok first ∧
      Run (fun before operation _ => operation.Addressed before) first now ∧
      now.state.view.live 1 = true ∧ IsUserRange 4092 8 ∧ Cuts 4092 8 [0, 4096] ∧
      [0, 4096].map (pieceIn 4092 8) = [⟨4092, 4⟩, ⟨4096, 4⟩] ∧
      Machine.writeUser 1 4092 data now = .ok () after ∧
      Machine.Visits 1 4092 8 true (Machine.putSlice 4092 data.toArray) [0, 4096] now parts after := by
  let data : Bytes := [1, 2, 3, 4, 5, 6, 7, 8]
  have ends : (Operation.trial 2 1 {} [.createSpace none {}, .addZeros 1 0, .addZeros 1 4096]).map
      (fun ends => (ends.2.state.view.live 1, (Machine.writeUser 1 4092 data).returned? ends.2)) =
      some (true, some ()) := by decide +kernel
  simp only [Option.map_eq_some_iff, Prod.exists, Prod.mk.injEq] at ends
  obtain ⟨first, now, tried, live, wrote⟩ := ends
  obtain ⟨device, started, run⟩ := Operation.trial_runs tried
  obtain ⟨after, ran⟩ := Action.exists_of_returned? wrote
  have user : IsUserRange 4092 8 := by decide
  obtain ⟨span, covered, cuts, -, copied⟩ := pieces_match_pages started run live user
  have pages : span.pages = [0, 4096] := by
    have known : PageSpan.covering 4092 8 = .ok ⟨0, 2⟩ := by decide
    rw [covered] at known
    cases known
    decide
  rw [pages] at cuts copied
  obtain ⟨parts, visits, -⟩ := (copied.writes data rfl).visits ran
  exact ⟨device, first, now, after, data, parts, started, run, live, user, cuts, by decide, ran,
    visits⟩

end DemandPaging
