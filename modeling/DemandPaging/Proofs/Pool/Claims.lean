import DemandPaging.Pool.Trial
import DemandPaging.Proofs.Pool.Requests

/-!
# Claims

Main statement: `claims_exact`, a claim takes the lowest free frame without asking the reclaimer, and
if none is free, the frame of a victim. No other frame is touched, and a claim that fails changes
nothing but accessed bits and the place of the hand.
-/

namespace DemandPaging

namespace Pool

variable {pool after : Pool} {frame : Nat}

def Tallied (size : Nat) (pool : Pool) : Prop := pool.Counted ∧ pool.size = size

theorem Tended.tallied {size : Nat} (tended : pool.Tended after) (tallied : pool.Tallied size) :
    after.Tallied size :=
  ⟨tended.counted tallied.1, tended.size.trans tallied.2⟩

theorem Tallied.amend {size : Nat} {f : Occupant → Except Panic Occupant}
    (tallied : pool.Tallied size) (done : pool.amend frame f = .ok after) : after.Tallied size := by
  obtain ⟨occupant, next, found, -, rfl⟩ := amend_ok done
  have amended : Amended pool _ frame fun _ => next.holder := amended_setOccupant found rfl
  exact amended.tallied tallied

theorem Tallied.vacate {size : Nat} (tallied : pool.Tallied size)
    (done : pool.vacate frame = .ok after) : after.Tallied size := by
  obtain ⟨⟨holder, held⟩, -⟩ := vacate_ok done
  obtain ⟨vacated, done', -, -, tended⟩ := vacate_spec tallied.1 held
  cases done.symm.trans done'
  exact tended.tallied tallied

theorem occupant?_lend (inside : frame < pool.size) (owner page : Nat) (clear : Bool) :
    (pool.lend frame owner page clear).occupant? frame = some { owner, page } := by
  have taken : (pool.setOccupant frame (some { owner, page })).occupant? frame =
      some { owner, page } := by
    rw [occupant?_setOccupant _ _ _ inside, if_pos rfl]
  unfold lend
  cases clear with
  | false => exact taken
  | true =>
      rw [if_pos rfl, occupant?_edit]
      exact taken

end Pool

namespace Paged

open DemandPaging.Action

variable {σ : Type} {reclaimer : Reclaimer σ} {before now : Traced (Paged σ)} {owner page : Nat}
  {clear : Bool}

/-- What has become of a pool in which a frame was claimed. -/
structure Claimed (reclaimer : Reclaimer σ) (owner page : Nat) (clear : Bool)
    (before : Traced (Paged σ)) (frame : Nat) (after : Traced (Paged σ)) : Prop where
  /-- If a frame was free, it does not matter who the reclaimer is. -/
  source : (before.state.pool.LowestFree frame ∧
      ∀ other, claim other owner page clear before = .ok frame after) ∨
    before.state.pool.Full ∧ ∃ victim chosen,
      selectVictim reclaimer before = .ok victim chosen ∧ victim.frame = frame ∧
      before.state.pool.Offers victim
  occupant : after.state.pool.occupant? frame = some { owner, page }
  contents : after.state.pool.page frame =
    if clear then Block.zero 4096 else before.state.pool.page frame
  others : ∀ other ≠ frame, after.state.pool.holder other = before.state.pool.holder other ∧
    after.state.pool.page other = before.state.pool.page other
  size : after.state.pool.size = before.state.pool.size
  counted : after.state.pool.Counted

theorem claim_of_free {frame : Nat} (free : before.state.pool.lowestFree? = some frame)
    (counted : before.state.pool.Counted) (small : before.state.pool.size < wordLimit) :
    claim reclaimer owner page clear before =
      .ok frame ⟨⟨before.state.pool.lend frame owner page clear, before.state.store⟩,
        before.log.push (.frameClaimed frame page owner)⟩ := by
  have lowest := Pool.lowestFree?_spec free
  have taken := Pool.occupy_eq lowest.inside
    (counted.countable lowest.inside lowest.free small) owner page clear
  apply Ensures.ran
  rw [claim, ensures_bind, ensures_pool, free, ensures_bind, ensures_pure, ensures_bind,
    ensures_changePool, taken]
  exact ⟨rfl, rfl⟩

theorem Claimed.of_lend {frame : Nat} {middle : Pool} {store : σ} {log : Array Event}
    (inside : frame < middle.size) (free : middle.holder frame = none)
    (others : ∀ other ≠ frame, middle.holder other = before.state.pool.holder other)
    (page' : middle.page = before.state.pool.page) (size' : middle.size = before.state.pool.size)
    (counted : middle.Counted)
    (source : (before.state.pool.LowestFree frame ∧ ∀ other, claim other owner page clear before =
        .ok frame ⟨⟨middle.lend frame owner page clear, store⟩, log⟩) ∨
      before.state.pool.Full ∧ ∃ victim chosen, selectVictim reclaimer before = .ok victim chosen ∧
        victim.frame = frame ∧ before.state.pool.Offers victim) :
    Claimed reclaimer owner page clear before frame
      ⟨⟨middle.lend frame owner page clear, store⟩, log⟩ := by
  obtain ⟨holder, contents, tended⟩ := Pool.lend_spec inside free owner page clear
  refine ⟨source, Pool.occupant?_lend inside .., ?_, fun other distinct => ?_,
    tended.size.trans size', tended.counted counted⟩
  · rw [← page']
    exact (congrFun contents frame).trans (Function.update_self ..)
  · rw [holder, contents, Function.update_of_ne distinct, Function.update_of_ne distinct, page']
    exact ⟨others other distinct, rfl⟩

theorem claim_claims (counted : before.state.pool.Counted)
    (small : before.state.pool.size < wordLimit) (frees : reclaimer.Frees before) :
    (claim reclaimer owner page clear).Ensures before
      (fun frame after => Claimed reclaimer owner page clear before frame after)
      (fun _ after => before.state.pool.Full ∧ before.state.pool.Alike after.state.pool)
      fun _ _ => before.state.pool.Full := by
  refine (claim_spec reclaimer owner page clear before).mono ?_ ?_ ?_
  · rintro frame after ⟨middle, rfl, ⟨found, rfl⟩ | ⟨refused, victim, chosen, selected, evicted, rfl, -⟩⟩
    · have lowest := Pool.lowestFree?_spec found
      exact .of_lend lowest.inside lowest.free (fun _ _ => rfl) rfl rfl counted
        (.inl ⟨lowest, fun other => claim_of_free found counted small⟩)
    · obtain ⟨alike, written, held⟩ := (selectVictim_spec before).returned selected
      have counted' := alike.tended.counted counted
      obtain ⟨pool, vacated, holder, page, tended⟩ :=
        Pool.vacate_spec counted' (alike.holder.symm ▸ held)
      cases ((frees victim chosen selected).returned evicted).symm.trans vacated
      -- The victim was all that the frame held, and `frees` says that it is gone.
      refine .of_lend ?_ ?_ (fun other distinct => ?_) (page.trans alike.page)
        (tended.size.trans alike.size) (tended.counted counted')
        (.inr ⟨counted.full refused, victim, chosen, selected, rfl, written, held⟩)
      · rw [tended.size, alike.size]
        exact Pool.lt_size_of_holder held
      · rw [holder, Function.update_self]
      · rw [holder, Function.update_of_ne distinct, alike.holder]
  · rintro cause after ⟨refused, stopped | ⟨victim, chosen, selected, failed⟩⟩
    · exact ⟨counted.full refused, (selectVictim_spec before).failed stopped⟩
    · have alike := ((selectVictim_spec before).returned selected).1
      have same := (frees victim chosen selected).failed failed
      exact ⟨counted.full refused, same ▸ alike⟩
  · rintro _ _ (refused | ⟨frame, cause, free, refused⟩)
    · exact counted.full refused
    · have lowest := Pool.lowestFree?_spec free
      have taken := Pool.occupy_eq lowest.inside
        (counted.countable lowest.inside lowest.free small) owner page clear
      cases refused.symm.trans taken

/-! ## Histories -/

section Histories

variable {size : Nat}

theorem tallied_changePool {f : Pool → Except Panic Pool}
    (kept : ∀ {pool}, f before.state.pool = .ok pool → pool.Tallied size) :
    (changePool f : Action PagingError (Paged σ) Unit).Ensures before
      (fun _ after => after.state.pool.Tallied size) (fun _ after => after.state.pool.Tallied size)
      fun _ _ => True := by
  rw [ensures_changePool]
  cases changed : f before.state.pool with
  | ok pool => exact kept changed
  | error cause => trivial

variable (small : size < wordLimit)
include small

theorem perform_tallied {request : Request σ} (tallied : before.state.pool.Tallied size)
    (lawful : request.Lawful before) :
    request.perform.Ensures before (fun _ after => after.state.pool.Tallied size)
      (fun _ after => after.state.pool.Tallied size) fun _ _ => True := by
  cases request with
  | select reclaimer =>
      rw [Request.perform, ensures_bind]
      exact (selectVictim_spec before).mono (fun _ _ known => known.1.tended.tallied tallied)
        (fun _ _ alike => alike.tended.tallied tallied) fun _ _ panicked => panicked
  | claim reclaimer owner page clear =>
      have small := tallied.2.symm ▸ small
      rw [Request.perform, ensures_bind]
      exact (claim_claims tallied.1 small (lawful _ _ _ _ rfl)).mono
        (fun _ _ claimed => ⟨claimed.counted, claimed.size.trans tallied.2⟩)
        (fun _ _ failed => failed.2.tended.tallied tallied) fun _ _ _ => trivial
  | release frame =>
      rw [Request.perform, release, ensures_bind]
      exact tallied_changePool fun done => tallied.vacate done
  | pin frame => exact tallied_changePool (f := (·.pin frame)) fun done => tallied.amend done
  | unpin frame => exact tallied_changePool (f := (·.unpin frame)) fun done => tallied.amend done
  | touch frame write =>
      exact tallied_changePool (f := (·.touch frame write)) fun done => tallied.amend done
  | mark change => exact tallied

theorem History.tallied {first : Traced (Paged σ)} {victims : List Victim}
    (history : History (fun before request _ => request.Lawful before) first victims now)
    (tallied : first.state.pool.Tallied size) :
    now.state.pool.Tallied size := by
  induction history with
  | start => exact tallied
  | next earlier lawful ends ih =>
      rcases ends with returned | ⟨cause, failed⟩
      · exact (perform_tallied small ih lawful).returned returned
      · exact (perform_tallied small ih lawful).failed failed

/-- Of a pool that was empty at first, the number of frames in use is known, and what is claimed of
it is as it should be. -/
theorem claims_exact {store : σ} {victims : List Victim}
    (history : History (fun before request _ => request.Lawful before)
      ⟨⟨.ofSize size, store⟩, #[]⟩ victims now) :
    now.state.pool.Counted ∧
    ∀ reclaimer : Reclaimer σ, reclaimer.Frees now → ∀ owner page clear,
      (claim reclaimer owner page clear).Ensures now
        (fun frame after => Claimed reclaimer owner page clear now frame after)
        (fun _ after => now.state.pool.Full ∧ now.state.pool.Alike after.state.pool)
        fun _ _ => now.state.pool.Full := by
  have tallied := history.tallied small ⟨Pool.counted_ofSize size, Pool.size_ofSize size⟩
  have small := tallied.2.symm ▸ small
  exact ⟨tallied.1, fun reclaimer frees owner page clear => claim_claims tallied.1 small frees⟩

end Histories

theorem trial_frees {before : Traced (Paged Trial)} (lets : before.state.store.keeping = false) :
    Trial.reclaimer.Frees before := by
  intro victim chosen selected
  let relation (before after : Paged Trial) : Prop := after.store.keeping = before.store.keeping
  have chained : Chained relation := ⟨fun _ => rfl, fun first second => second.trans first⟩
  have probes (owner page : Nat) : (onStore (Trial.takeAccessed owner page)).Keeps relation :=
    fun _ => rfl
  have same : relation before.state chosen.state :=
    (selectVictim_keeps chained (fun _ _ => rfl) probes before).returned selected
  have lets : chosen.state.store.keeping = false := same.trans lets
  simp only [Trial.reclaimer, Trial.evict, called, ensures_bind, ensures_look, ensures_require, lets]
  split
  · simp only [Bool.false_eq_true, not_false_eq_true, if_true, release, ensures_bind,
      ensures_changePool]
    cases vacated : chosen.state.pool.vacate victim.frame with
    | ok pool => rfl
    | error cause => trivial
  · trivial

/-- Of two pages, the second takes the only frame from the first. -/
theorem claims_exact_of_one_frame : ∃ now after : Traced (Paged Trial),
    History (fun before request _ => request.Lawful before) ⟨⟨.ofSize 1, {}⟩, #[]⟩ [] now ∧
    now.state.pool.Full ∧
    claim Trial.reclaimer 1 4096 true now = .ok 0 after ∧
    Claimed Trial.reclaimer 1 4096 true now 0 after := by
  let first : Traced (Paged Trial) := ⟨⟨.ofSize 1, {}⟩, #[]⟩
  let now : Traced (Paged Trial) :=
    ⟨⟨(Pool.ofSize 1).lend 0 1 0 true, {}⟩, #[].push (.frameClaimed 0 0 1)⟩
  have free : first.state.pool.lowestFree? = some 0 := by decide +kernel
  have ran : claim Trial.reclaimer 1 0 true first = .ok 0 now :=
    claim_of_free free (Pool.counted_ofSize 1) (by decide)
  have ended : (Request.claim Trial.reclaimer 1 0 true).Ends first now := by
    left
    simp only [Request.perform, bind, EStateM.bind, ran]
    rfl
  have lawful : (Request.claim Trial.reclaimer 1 0 true).Lawful first := by
    rintro _ _ _ _ ⟨⟩
    exact trial_frees rfl
  have alone : (Request.claim Trial.reclaimer 1 0 true).victim? first = none := by
    simp [Request.victim?, Request.choice?, Request.reclaimer?, free]
  have history : History (fun before request _ => request.Lawful before) first [] now := by
    have one : History (fun before request _ => request.Lawful before) first _ now :=
      .next .start lawful ended
    rwa [alone] at one
  obtain ⟨counted, exact⟩ := claims_exact (by decide) history
  have full : now.state.pool.Full := counted.full (by decide +kernel)
  have taken : (match claim Trial.reclaimer 1 4096 true now with
      | .ok frame _ => some frame
      | .error _ _ => none) = some 0 := by decide +kernel
  split at taken
  · rename_i frame after claimed
    cases taken
    exact ⟨now, after, history, full, claimed,
      (exact Trial.reclaimer (trial_frees rfl) 1 4096 true).returned claimed⟩
  · cases taken

end Paged

end DemandPaging
