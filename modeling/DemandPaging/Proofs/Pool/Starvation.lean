import DemandPaging.Proofs.Machine.Accesses
import DemandPaging.Proofs.Pool.Requests
import DemandPaging.Proofs.Run

/-!
# Idle frames are reclaimed

A frame that is not accessed any more is chosen sooner or later, whatever becomes of the others. The
steps that the hand still has to take to it, and a whole round if it has been accessed before, bound
the number of other victims: each brings the hand nearer (`Chosen.patience_lt`). Main statement:
`idle_frame_chosen`.
-/

namespace DemandPaging

namespace Pool

variable {pool after : Pool} {frame : Nat}

def distance (pool : Pool) (frame : Nat) : Nat :=
  if pool.hand ≤ frame then frame - pool.hand else frame + pool.size - pool.hand

theorem distance_lt (hand : pool.hand < pool.size) (inside : frame < pool.size) :
    pool.distance frame < pool.size := by
  unfold distance
  split <;> omega

theorem mod_of_lt_twice {place size : Nat} (small : place < 2 * size) :
    place % size = if place < size then place else place - size := by
  split
  · rename_i inside
    exact Nat.mod_eq_of_lt inside
  · rename_i past
    rw [Nat.mod_eq_sub_mod (by omega), Nat.mod_eq_of_lt (by omega)]

theorem mem_route_of_distance (hand : pool.hand < pool.size) (inside : frame < pool.size)
    {steps : Nat} (near : pool.distance frame < steps) : frame ∈ pool.route steps := by
  refine List.mem_map.mpr ⟨pool.distance frame, List.mem_range.mpr near, ?_⟩
  have short := distance_lt hand inside
  rw [mod_of_lt_twice (by omega)]
  unfold distance at short ⊢
  grind

theorem distance_after {steps other : Nat} (hand : pool.hand < pool.size) (inside : frame < pool.size)
    (few : steps < pool.size) (stopped : (pool.hand + steps) % pool.size = other)
    (distinct : other ≠ frame) (size : after.size = pool.size)
    (turned : after.hand = (other + 1) % pool.size) :
    after.distance frame + steps + 1 =
      if pool.distance frame < steps then pool.distance frame + pool.size else pool.distance frame := by
  rw [mod_of_lt_twice (by omega)] at stopped
  rw [mod_of_lt_twice (by split at stopped <;> omega)] at turned
  unfold distance
  rw [size, turned]
  grind

theorem vacate_still (done : pool.vacate frame = .ok after) :
    after.hand = pool.hand ∧ after.size = pool.size := by
  obtain ⟨-, rfl⟩ := vacate_ok done
  exact ⟨rfl, size_setOccupant ..⟩

theorem amend_still {f : Occupant → Except Panic Occupant} (done : pool.amend frame f = .ok after) :
    after.hand = pool.hand ∧ after.size = pool.size := by
  obtain ⟨occupant, next, -, -, rfl⟩ := amend_ok done
  exact ⟨rfl, size_setOccupant ..⟩

theorem lend_still (owner page : Nat) (clear : Bool) :
    (pool.lend frame owner page clear).hand = pool.hand ∧
      (pool.lend frame owner page clear).size = pool.size := by
  have taken := size_setOccupant pool frame (some { owner, page })
  unfold lend
  cases clear with
  | false => exact ⟨rfl, taken⟩
  | true =>
      rw [if_pos rfl]
      exact ⟨rfl, (size_edit _).trans taken⟩

end Pool

namespace Paged

open DemandPaging.Action

variable {σ : Type} {accesses : Accesses σ} {reclaimer : Reclaimer σ} {paged after : Paged σ}
  {frame : Nat} {victim : Victim}

theorem Chosen.exists_steps (chosen : Chosen accesses paged victim after) :
    ∃ steps < paged.pool.size, (paged.pool.hand + steps) % paged.pool.size = victim.frame ∧
      ∀ other ∈ paged.pool.route steps, paged.pool.eligible other = true →
        paged.accessed accesses other = true ∧ after.accessed accesses other = false := by
  cases found : paged.pool.candidates.find? (!paged.accessed accesses ·) with
  | some frame =>
      have same := chosen.frame
      rw [found, Option.some_or, Option.some.injEq] at same
      obtain ⟨steps, short, place, -, -, busy, passes⟩ := Pool.exists_steps found
      refine ⟨steps, short, place.trans same, fun other reached eligible => ?_⟩
      have passed := chosen.passed
      rw [passes] at passed
      exact ⟨busy other reached eligible,
        passed.accessed_of_mem (List.mem_filter.mpr ⟨reached, eligible⟩)⟩
  | none =>
      have first := chosen.frame
      rw [found, Option.none_or] at first
      have found' : paged.pool.candidates.find? (fun _ => !false) = some victim.frame := by
        cases listed : paged.pool.candidates <;> simp_all
      obtain ⟨steps, short, place, -, -, none, -⟩ := Pool.exists_steps found'
      exact ⟨steps, short, place, fun other reached eligible => nomatch none other reached eligible⟩

theorem Passed.accessed_before {frames : List Nat} (passed : Passed accesses frames paged after)
    (accessed : after.accessed accesses frame = true) : paged.accessed accesses frame = true := by
  by_cases member : frame ∈ frames
  · rw [passed.accessed_of_mem member] at accessed
    cases accessed
  · rwa [passed.accessed_of_notMem member] at accessed

/-- How many other victims may be chosen before a frame that is not accessed any more. -/
def patience (accesses : Accesses σ) (paged : Paged σ) (frame : Nat) : Nat :=
  paged.pool.distance frame + if paged.accessed accesses frame then paged.pool.size - 1 else 0

theorem patience_le (hand : paged.pool.hand < paged.pool.size) (inside : frame < paged.pool.size) :
    paged.patience accesses frame ≤ 2 * paged.pool.size - 2 := by
  have near := Pool.distance_lt hand inside
  unfold patience
  split <;> omega

theorem patience_mono (hand : after.pool.hand = paged.pool.hand)
    (size : after.pool.size = paged.pool.size)
    (idle : after.accessed accesses frame = true → paged.accessed accesses frame = true) :
    after.patience accesses frame ≤ paged.patience accesses frame := by
  unfold patience Pool.distance
  rw [hand, size]
  grind

theorem Chosen.patience_lt (chosen : Chosen accesses paged victim after)
    (hand : paged.pool.hand < paged.pool.size) (eligible : paged.pool.eligible frame = true)
    (other : victim.frame ≠ frame) :
    after.patience accesses frame < paged.patience accesses frame := by
  have inside := Pool.lt_size_of_eligible eligible
  obtain ⟨steps, few, stopped, passes⟩ := chosen.exists_steps
  have size := chosen.passed.alike.size
  have moved := Pool.distance_after hand inside few stopped other size chosen.hand
  have near := Pool.distance_lt hand inside
  have before : after.accessed accesses frame = true → paged.accessed accesses frame = true :=
    chosen.passed.accessed_before
  unfold patience
  rw [size]
  split at moved
  · rename_i passed
    obtain ⟨accessed, idle⟩ := passes frame (Pool.mem_route_of_distance hand inside passed) eligible
    simp only [accessed, idle, if_true, Bool.false_eq_true, if_false]
    omega
  · cases accessed : after.accessed accesses frame with
    | true =>
        simp only [before accessed, if_true]
        omega
    | false =>
        simp only [Bool.false_eq_true, if_false]
        omega

/-! ## Requests -/

def Still (before after : Traced (Paged σ)) : Prop :=
  after.state.pool.hand = before.state.pool.hand ∧ after.state.pool.size = before.state.pool.size

theorem ensures_changePool_still {before : Traced (Paged σ)} {f : Pool → Except Panic Pool}
    (still : ∀ {pool}, f before.state.pool = .ok pool →
      pool.hand = before.state.pool.hand ∧ pool.size = before.state.pool.size) :
    (changePool f : Action PagingError (Paged σ) Unit).Ensures before
      (fun _ after => Still before after) (fun _ after => Still before after) fun _ _ => True := by
  rw [ensures_changePool]
  cases changed : f before.state.pool with
  | ok pool => exact still changed
  | error cause => trivial

theorem Still.trans {before middle after : Traced (Paged σ)} (first : Still before middle)
    (second : Still middle after) : Still before after :=
  ⟨second.1.trans first.1, second.2.trans first.2⟩

theorem perform_still {request : Request σ} {before : Traced (Paged σ)}
    (chooses : ∀ reclaimer, request.reclaimer? before.state.pool = some reclaimer →
      ∃ victim chosen, selectVictim reclaimer before = .ok victim chosen)
    (lawful : request.Lawful before) :
    request.perform.Ensures before (fun _ after => Still (request.reached before) after)
      (fun _ after => Still (request.reached before) after) fun _ _ => True := by
  cases request with
  | select reclaimer =>
      obtain ⟨victim, chosen, selected⟩ := chooses reclaimer rfl
      have reached : (Request.select reclaimer).reached before = chosen := by
        simp [Request.reached, Request.choice?, Request.reclaimer?, selected]
      rw [Request.perform, ensures_bind, reached]
      unfold Ensures
      rw [selected]
      exact ⟨rfl, rfl⟩
  | claim reclaimer owner page clear =>
      rw [Request.perform, ensures_bind]
      refine (claim_spec reclaimer owner page clear before).mono ?_ ?_ fun _ _ _ => trivial
      · rintro frame after ⟨middle, rfl, known⟩
        have occupied : Still middle ⟨⟨middle.state.pool.lend frame owner page clear,
            middle.state.store⟩, middle.log.push (.frameClaimed frame page owner)⟩ :=
          Pool.lend_still owner page clear
        -- With a frame free the clock stands still; without one it has run up to its victim.
        rcases known with ⟨found, rfl⟩ | ⟨refused, victim, chosen, selected, evicted, -, -⟩
        · have reached : (Request.claim reclaimer owner page clear).reached middle = middle := by
            simp [Request.reached, Request.choice?, Request.reclaimer?, found]
          rw [reached]
          exact occupied
        · have reached : (Request.claim reclaimer owner page clear).reached before = chosen := by
            simp [Request.reached, Request.choice?, Request.reclaimer?, refused, selected]
          have vacated := (lawful _ _ _ _ rfl victim chosen selected).returned evicted
          have freed : Still chosen middle := Pool.vacate_still vacated
          rw [reached]
          exact freed.trans occupied
      · rintro cause after ⟨refused, stopped | ⟨victim, chosen, selected, failed⟩⟩
        · obtain ⟨victim, chosen, selected⟩ := chooses reclaimer (by
            simp [Request.reclaimer?, refused])
          cases selected.symm.trans stopped
        · have reached : (Request.claim reclaimer owner page clear).reached before = chosen := by
            simp [Request.reached, Request.choice?, Request.reclaimer?, refused, selected]
          have same := (lawful _ _ _ _ rfl victim chosen selected).failed failed
          rw [reached]
          exact ⟨by rw [same], by rw [same]⟩
  | release frame =>
      rw [Request.perform, release, ensures_bind]
      exact ensures_changePool_still Pool.vacate_still
  | pin frame => exact ensures_changePool_still (f := (·.pin frame)) Pool.amend_still
  | unpin frame => exact ensures_changePool_still (f := (·.unpin frame)) Pool.amend_still
  | touch frame write => exact ensures_changePool_still (f := (·.touch frame write)) Pool.amend_still
  | mark change => exact ⟨rfl, rfl⟩

/-! ## Histories -/

/-- A frame stays in use, unpinned, and is not accessed but before the clock has run. -/
structure Idles (accesses : Accesses σ) (frame : Nat) (before : Traced (Paged σ))
    (request : Request σ) (after : Traced (Paged σ)) : Prop where
  tenanted : before.state.Tenanted accesses
  probes : ∀ reclaimer, request.reclaimer? before.state.pool = some reclaimer →
    reclaimer.Probes accesses
  lawful : request.Lawful before
  eligible : before.state.pool.eligible frame = true ∧ after.state.pool.eligible frame = true
  untouched : after.state.accessed accesses frame = true →
    (request.reached before).state.accessed accesses frame = true

variable {request : Request σ} {first before now : Traced (Paged σ)} {victims : List Victim}

theorem exists_choice (tenanted : before.state.Tenanted accesses) (probes : reclaimer.Probes accesses)
    (hand : before.state.pool.hand < before.state.pool.size)
    (eligible : before.state.pool.eligible frame = true) :
    ∃ victim chosen, Chosen accesses before.state victim chosen.state ∧
      selectVictim reclaimer before = .ok victim chosen := by
  have some : before.state.pool.candidates ≠ [] :=
    List.ne_nil_of_mem ((Pool.mem_candidates hand).mpr eligible)
  obtain ⟨victim, after, chosen, selected, -⟩ :=
    selectVictim_chooses probes ⟨tenanted, hand⟩ some
  exact ⟨victim, ⟨after, before.log⟩, chosen, selected before.log⟩

theorem Idles.step {after : Traced (Paged σ)} (idles : Idles accesses frame before request after)
    (ends : request.Ends before after) (hand : before.state.pool.hand < before.state.pool.size) :
    after.state.pool.hand < after.state.pool.size ∧
      after.state.pool.size = before.state.pool.size ∧
      ((∀ victim ∈ (request.victim? before).toList, victim.frame ≠ frame) →
        after.state.patience accesses frame + (request.victim? before).toList.length ≤
          before.state.patience accesses frame) := by
  have chooses (reclaimer : Reclaimer σ)
      (asked : request.reclaimer? before.state.pool = some reclaimer) :=
    exists_choice idles.tenanted (idles.probes reclaimer asked) hand idles.eligible.1
  have still : Still (request.reached before) after := by
    have spec := perform_still (fun reclaimer asked =>
      (chooses reclaimer asked).imp fun _ => Exists.imp fun _ => And.right) idles.lawful
    rcases ends with returned | ⟨cause, failed⟩
    · exact spec.returned returned
    · exact spec.failed failed
  have calm := patience_mono still.1 still.2 idles.untouched
  cases asked : request.reclaimer? before.state.pool with
  | none =>
      have nobody : request.choice? before = none := by simp [Request.choice?, asked]
      have here : request.reached before = before := by simp [Request.reached, nobody]
      rw [here] at still calm
      simp only [Request.victim?, nobody, Option.map_none, Option.toList_none, List.length_nil]
      exact ⟨by rw [still.1, still.2]; exact hand, still.2, fun _ => calm⟩
  | some reclaimer =>
      obtain ⟨victim, chosen, choice, selected⟩ := chooses reclaimer asked
      have one : request.choice? before = some (victim, chosen) := by
        simp [Request.choice?, asked, selected]
      have there : request.reached before = chosen := by simp [Request.reached, one]
      rw [there] at still calm
      have size := choice.passed.alike.size
      refine ⟨?_, still.2.trans size, fun other => ?_⟩
      · rw [still.1, still.2, size, choice.hand]
        exact Nat.mod_lt _ (Nat.zero_lt_of_lt hand)
      · simp only [Request.victim?, one, Option.map_some, Option.toList_some, List.mem_singleton,
          forall_eq, List.length_singleton] at other ⊢
        have less := choice.patience_lt hand idles.eligible.1 other
        omega

theorem History.split {rule : Traced (Paged σ) → Request σ → Traced (Paged σ) → Prop}
    (history : History rule first victims now) {late early : List Victim}
    (same : victims = late ++ early) :
    ∃ middle, History rule first early middle ∧ History rule middle late now := by
  induction history generalizing late with
  | start =>
      obtain ⟨rfl, rfl⟩ := List.append_eq_nil_iff.mp same.symm
      exact ⟨first, .start, .start⟩
  | @next victims before after request earlier allowed ends ih =>
      cases chosen : request.victim? before with
      | none =>
          rw [chosen] at same
          obtain ⟨middle, front, back⟩ := ih same
          have more := History.next back allowed ends
          rw [chosen] at more
          exact ⟨middle, front, more⟩
      | some victim =>
          rw [chosen] at same
          cases late with
          | nil =>
              have whole := History.next earlier allowed ends
              rw [chosen, same] at whole
              exact ⟨after, whole, .start⟩
          | cons last rest =>
              obtain ⟨rfl, tail⟩ := List.cons.inj same
              obtain ⟨middle, front, back⟩ := ih tail
              have more := History.next back allowed ends
              rw [chosen] at more
              exact ⟨middle, front, more⟩

/-- Each victim but the frame itself uses up some of its patience. -/
theorem History.patience (history : History (Idles accesses frame) first victims now)
    (hand : first.state.pool.hand < first.state.pool.size) :
    now.state.pool.hand < now.state.pool.size ∧ now.state.pool.size = first.state.pool.size ∧
      ((∀ victim ∈ victims, victim.frame ≠ frame) →
        now.state.patience accesses frame + victims.length ≤ first.state.patience accesses frame) := by
  induction history with
  | start => exact ⟨hand, rfl, fun _ => Nat.le_refl _⟩
  | next earlier idles ends ih =>
      obtain ⟨hand', size, before⟩ := ih
      obtain ⟨turned, size', here⟩ := idles.step ends hand'
      refine ⟨turned, size'.trans size, fun others => ?_⟩
      obtain ⟨last, rest⟩ := List.forall_mem_append.mp others
      have less := here last
      have fewer := before rest
      rw [List.length_append]
      omega

theorem History.eligible (history : History (Idles accesses frame) first victims now)
    (eligible : first.state.pool.eligible frame = true) : now.state.pool.eligible frame = true := by
  cases history with
  | start => exact eligible
  | next _ idles _ => exact idles.eligible.2

theorem exists_history (tenanted : first.state.Tenanted accesses) (probes : reclaimer.Probes accesses)
    (hand : first.state.pool.hand < first.state.pool.size)
    (eligible : first.state.pool.eligible frame = true) (count : Nat) :
    ∃ victims now, History (Idles accesses frame) first victims now ∧ victims.length = count ∧
      now.state.Tenanted accesses := by
  induction count with
  | zero => exact ⟨[], first, .start, rfl, tenanted⟩
  | succ count ih =>
      obtain ⟨victims, now, history, length, tenanted'⟩ := ih
      have eligible' := history.eligible eligible
      obtain ⟨victim, chosen, choice, selected⟩ :=
        exists_choice tenanted' probes (history.patience hand).1 eligible'
      have one : (Request.select reclaimer).choice? now = some (victim, chosen) := by
        simp [Request.choice?, Request.reclaimer?, selected]
      have idles : Idles accesses frame now (.select reclaimer) chosen := by
        refine ⟨tenanted', ?_, nofun, ⟨eligible', ?_⟩, fun accessed => ?_⟩
        · rintro _ ⟨⟩
          exact probes
        · rwa [choice.passed.alike.eligible_eq]
        · rwa [Request.reached, one]
      have ended : (Request.select reclaimer).Ends now chosen := by
        left
        simp only [Request.perform, bind, EStateM.bind, selected]
        rfl
      refine ⟨_, chosen, .next history idles ended, ?_, choice.passed.tenanted tenanted'⟩
      simp [Request.victim?, one, length]

/-- As long as a frame is not accessed, the clock does not panic, and it is among any `2 * N - 1`
victims in a row, where `N` is the number of frames. -/
theorem idle_frame_chosen (history : History (Idles accesses frame) first victims now)
    (hand : first.state.pool.hand < first.state.pool.size)
    (eligible : first.state.pool.eligible frame = true) :
    (now.state.Tenanted accesses → ∀ reclaimer : Reclaimer σ, reclaimer.Probes accesses →
      ∃ victim chosen, selectVictim reclaimer now = .ok victim chosen) ∧
    ∀ late window early, victims = late ++ window ++ early →
      window.length = 2 * first.state.pool.size - 1 → ∃ victim ∈ window, victim.frame = frame := by
  constructor
  · intro tenanted reclaimer probes
    obtain ⟨victim, chosen, -, selected⟩ := exists_choice tenanted probes
      (history.patience hand).1 (history.eligible eligible)
    exact ⟨victim, chosen, selected⟩
  · intro late window early same length
    obtain ⟨opening, front, back⟩ := history.split same
    obtain ⟨ending, middle, -⟩ := back.split rfl
    obtain ⟨hand', size, -⟩ := front.patience hand
    have inside := Pool.lt_size_of_eligible (front.eligible eligible)
    have most : opening.state.patience accesses frame ≤ _ := patience_le hand' inside
    by_contra none
    have others : ∀ victim ∈ window, victim.frame ≠ frame :=
      fun victim member here => none ⟨victim, member, here⟩
    have spent := (middle.patience hand').2.2 others
    omega

/-- Of two frames, the first has been accessed, and is among the next three victims all the same. -/
theorem idle_frame_chosen_of_two_frames : ∃ (first now : Traced Machine) (victims : List Victim),
    History (Idles Store.accesses 0) first victims now ∧ victims.length = 3 ∧
    first.state.accessed Store.accesses 0 = true ∧ ∃ victim ∈ victims, victim.frame = 0 := by
  let operations : List Operation :=
    [.createSpace none {}, .addZeros 1 0, .addZeros 1 4096, .resolveFault 1 0,
      .resolveFault 1 4096, .markAccessed 1 0 true]
  have ends : (Operation.trial 2 1 {} operations).map (fun ends =>
      (ends.2.state.pool.hand, ends.2.state.pool.size, ends.2.state.pool.eligible 0,
        ends.2.state.accessed Store.accesses 0)) = some (0, 2, true, true) := by
    decide +kernel
  simp only [Option.map_eq_some_iff, Prod.exists, Prod.mk.injEq] at ends
  obtain ⟨start, first, tried, hand, size, eligible, accessed⟩ := ends
  obtain ⟨device, started, run⟩ := Operation.trial_runs tried
  have hand' : first.state.pool.hand < first.state.pool.size := by rw [hand, size]; decide
  obtain ⟨victims, now, history, length, -⟩ :=
    exists_history (run.sound_of_started started).tenanted (Machine.probes 1) hand' eligible 3
  have among := (idle_frame_chosen history hand' eligible).2 [] victims [] (by simp)
    (by rw [length, size])
  exact ⟨first, now, victims, history, length, accessed, among⟩

end Paged

end DemandPaging
