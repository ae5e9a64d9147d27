import DemandPaging.Proofs.Pool.Clock
import Mathlib.Data.List.TakeWhile
import Mathlib.Data.Nat.ModEq

namespace DemandPaging

structure Accesses (σ : Type) where
  known : σ → Nat × Nat → Prop
  bit : σ → Nat × Nat → Bool

/-- Asked about a page that is known, the reclaimer tells its bit and clears it. -/
def Reclaimer.Probes {σ : Type} (reclaimer : Reclaimer σ) (accesses : Accesses σ) : Prop :=
  ∀ store key, accesses.known store key → ∃ after,
    (∀ log, reclaimer.takeAccessed key.1 key.2 ⟨store, log⟩ =
      .ok (accesses.bit store key) ⟨after, log⟩) ∧
    accesses.bit after = Function.update (accesses.bit store) key false ∧
    accesses.known after = accesses.known store

namespace Pool

variable {pool after : Pool} {frame : Nat}

def tenant? (pool : Pool) (frame : Nat) : Option (Nat × Nat) :=
  (pool.holder frame).map fun holder => (holder.space, holder.page)

def Distinct (pool : Pool) : Prop :=
  ∀ {frame other : Nat} {key : Nat × Nat}, pool.tenant? frame = some key →
    pool.tenant? other = some key → frame = other

def eligible (pool : Pool) (frame : Nat) : Bool := (pool.holder frame).any (·.pins = 0)

def route (pool : Pool) (steps : Nat) : List Nat :=
  (List.range steps).map fun i => (pool.hand + i) % pool.size

def candidates (pool : Pool) : List Nat := (pool.route pool.size).filter pool.eligible

theorem Alike.tenant?_eq (alike : pool.Alike after) : after.tenant? = pool.tenant? := by
  funext frame
  rw [tenant?, alike.holder, tenant?]

theorem Alike.eligible_eq (alike : pool.Alike after) : after.eligible = pool.eligible := by
  funext frame
  rw [eligible, alike.holder, eligible]

theorem route_succ (steps : Nat) :
    pool.route (steps + 1) = pool.route steps ++ [(pool.hand + steps) % pool.size] := by
  simp [route, List.range_succ]

theorem take_route {steps fewer : Nat} (le : fewer ≤ steps) :
    (pool.route steps).take fewer = pool.route fewer := by
  rw [route, ← List.map_take, List.take_range, Nat.min_eq_left le, route]

theorem Alike.candidates_eq (alike : pool.Alike after) (hand : after.hand = pool.hand) :
    after.candidates = pool.candidates := by
  simp only [candidates, route, alike.eligible_eq, alike.size, hand]

theorem length_route (steps : Nat) : (pool.route steps).length = steps := by
  simp [route]

theorem nodup_route : (pool.route pool.size).Nodup := by
  apply List.Nodup.map_on _ List.nodup_range
  intro i small j small' same
  have bounds : i < pool.size ∧ j < pool.size := ⟨List.mem_range.mp small, List.mem_range.mp small'⟩
  have congruent : Nat.ModEq pool.size i j := Nat.ModEq.add_left_cancel' pool.hand same
  exact congruent.eq_of_lt_of_lt bounds.1 bounds.2

theorem mem_route (inside : frame < pool.size) (hand : pool.hand < pool.size) :
    frame ∈ pool.route pool.size := by
  refine List.mem_map.mpr ?_
  rcases Nat.lt_or_ge frame pool.hand with behind | ahead
  · refine ⟨frame + pool.size - pool.hand, List.mem_range.mpr (by omega), ?_⟩
    rw [show pool.hand + (frame + pool.size - pool.hand) = frame + pool.size by omega,
      Nat.add_mod_right, Nat.mod_eq_of_lt inside]
  · refine ⟨frame - pool.hand, List.mem_range.mpr (by omega), ?_⟩
    rw [Nat.add_sub_cancel' ahead, Nat.mod_eq_of_lt inside]

theorem exists_steps {p : Nat → Bool} (found : pool.candidates.find? (!p ·) = some frame) :
    ∃ steps < pool.size, (pool.hand + steps) % pool.size = frame ∧
      pool.eligible frame = true ∧ p frame = false ∧
      (∀ other ∈ pool.route steps, pool.eligible other = true → p other = true) ∧
      pool.candidates.takeWhile p = (pool.route steps).filter pool.eligible := by
  rw [candidates, List.find?_filter] at found
  obtain ⟨here, front, back, split, before⟩ := List.find?_eq_some_iff_append.mp found
  obtain ⟨eligible, stops⟩ : pool.eligible frame = true ∧ p frame = false := by simpa using here
  have short : front.length < pool.size := by
    have := congrArg List.length split
    rw [length_route, List.length_append, List.length_cons] at this
    omega
  have whole : pool.route front.length = front := by
    rw [← take_route (Nat.le_of_lt short), split, List.take_left]
  have place : (pool.hand + front.length) % pool.size = frame := by
    have next : (pool.route pool.size).take (front.length + 1) = _ := take_route short
    rw [route_succ, split, whole, List.take_append] at next
    simpa using next.symm
  have goes : ∀ other ∈ front, pool.eligible other = true → p other = true :=
    fun other member => by simpa [or_iff_not_imp_left] using before other member
  refine ⟨front.length, short, place, eligible, stops, whole.symm ▸ goes, ?_⟩
  rw [candidates, split, whole, List.filter_append, List.filter_cons_of_pos eligible,
    List.takeWhile_append_of_pos, List.takeWhile_cons_of_neg (by simp [stops]), List.append_nil]
  intro other member
  obtain ⟨reached, may⟩ := List.mem_filter.mp member
  exact goes other reached may

theorem tenant?_eq : pool.tenant? frame =
    (pool.occupant? frame).map fun occupant => (occupant.owner, occupant.page) :=
  Option.map_map ..

theorem eligible_eq : pool.eligible frame =
    (pool.occupant? frame).any fun occupant => occupant.pins = 0 :=
  Option.any_map ..

theorem exists_tenant (eligible : pool.eligible frame = true) :
    ∃ occupant, pool.occupant? frame = some occupant ∧ occupant.pins = 0 ∧
      pool.tenant? frame = some (occupant.owner, occupant.page) := by
  rw [eligible_eq, Option.any_eq_true] at eligible
  obtain ⟨occupant, found, free⟩ := eligible
  exact ⟨occupant, found, of_decide_eq_true free, by rw [tenant?_eq, found, Option.map_some]⟩

theorem lt_size_of_eligible (eligible : pool.eligible frame = true) : frame < pool.size := by
  obtain ⟨holder, held, -⟩ := (Option.any_eq_true ..).mp eligible
  exact lt_size_of_holder held

theorem mem_candidates (hand : pool.hand < pool.size) :
    frame ∈ pool.candidates ↔ pool.eligible frame = true := by
  rw [candidates, List.mem_filter]
  exact and_iff_right_of_imp fun eligible => mem_route (lt_size_of_eligible eligible) hand

end Pool

namespace Paged

variable {σ : Type} {accesses : Accesses σ} {reclaimer : Reclaimer σ}
  {paged middle after : Paged σ} {frame : Nat} {frames more : List Nat}

def bits (accesses : Accesses σ) (paged : Paged σ) (frame : Nat) : Option (Bool × Bool) :=
  (paged.pool.occupant? frame).map fun occupant =>
    (occupant.touch.accessed, accesses.bit paged.store (occupant.owner, occupant.page))

def accessed (accesses : Accesses σ) (paged : Paged σ) (frame : Nat) : Bool :=
  (paged.bits accesses frame).any fun bits => bits.1 || bits.2

structure Tenanted (accesses : Accesses σ) (paged : Paged σ) : Prop where
  distinct : paged.pool.Distinct
  known : ∀ {frame key}, paged.pool.tenant? frame = some key → accesses.known paged.store key

structure Clocked (accesses : Accesses σ) (paged : Paged σ) : Prop
    extends Tenanted accesses paged where
  hand : paged.pool.hand < paged.pool.size

structure Passed (accesses : Accesses σ) (frames : List Nat) (before after : Paged σ) : Prop where
  alike : before.pool.Alike after.pool
  bits : ∀ frame, after.bits accesses frame =
    if frame ∈ frames then (before.bits accesses frame).map fun _ => (false, false)
    else before.bits accesses frame
  elsewhere : ∀ key, (∀ frame, before.pool.tenant? frame ≠ some key) →
    accesses.bit after.store key = accesses.bit before.store key
  known : accesses.known after.store = accesses.known before.store

namespace Passed

theorem refl (paged : Paged σ) : Passed accesses [] paged paged :=
  ⟨.refl _, fun _ => by simp, fun _ _ => rfl, rfl⟩

theorem trans (first : Passed accesses frames paged middle)
    (second : Passed accesses more middle after) : Passed accesses (frames ++ more) paged after where
  alike := first.alike.trans second.alike
  bits frame := by
    rw [second.bits, first.bits]
    by_cases early : frame ∈ frames <;> by_cases late : frame ∈ more <;>
      simp [early, late, Function.comp_def]
  elsewhere key absent := by
    rw [second.elsewhere key (by rwa [first.alike.tenant?_eq]), first.elsewhere key absent]
  known := second.known.trans first.known

theorem tenanted (passed : Passed accesses frames paged after)
    (tenanted : paged.Tenanted accesses) : after.Tenanted accesses where
  distinct := by
    unfold Pool.Distinct
    rw [passed.alike.tenant?_eq]
    exact tenanted.distinct
  known found := by
    rw [passed.alike.tenant?_eq] at found
    rw [passed.known]
    exact tenanted.known found

theorem clocked (passed : Passed accesses frames paged after) (clocked : paged.Clocked accesses)
    (hand : after.pool.hand < after.pool.size) : after.Clocked accesses :=
  ⟨passed.tenanted clocked.toTenanted, hand⟩

theorem accessed_of_notMem (passed : Passed accesses frames paged after) (spared : frame ∉ frames) :
    after.accessed accesses frame = paged.accessed accesses frame := by
  rw [accessed, passed.bits, if_neg spared, accessed]

theorem accessed_of_mem (passed : Passed accesses frames paged after) (member : frame ∈ frames) :
    after.accessed accesses frame = false := by
  rw [accessed, passed.bits, if_pos member]
  cases paged.bits accesses frame <;> rfl

theorem of_idle (passed : Passed accesses [frame] paged after)
    (idle : paged.accessed accesses frame = false) : Passed accesses [] paged after where
  alike := passed.alike
  bits other := by
    rw [passed.bits]
    split
    · rename_i same
      rw [List.mem_singleton.mp same]
      unfold accessed at idle
      cases found : paged.bits accesses frame with
      | none => simp
      | some bits =>
          obtain ⟨kernel, user⟩ := bits
          rw [found] at idle
          simp_all
    · simp
  elsewhere := passed.elsewhere
  known := passed.known

end Passed

/-- What the clock has come to when it stops at its victim. -/
structure Chosen (accesses : Accesses σ) (before : Paged σ) (victim : Victim) (after : Paged σ) :
    Prop where
  /-- The victim is the first candidate that has not been accessed, or else the first one. -/
  frame : (before.pool.candidates.find? (!before.accessed accesses ·)).or
    before.pool.candidates.head? = some victim.frame
  tenant : before.pool.tenant? victim.frame = some (victim.owner, victim.page)
  passed : Passed accesses (before.pool.candidates.takeWhile (before.accessed accesses)) before after
  hand : after.pool.hand = (victim.frame + 1) % before.pool.size

/-! ## One step -/

theorem sweep_of_passed {before now : Traced (Paged σ)}
    (passed : advance reclaimer before = .ok none now) (steps : Nat) :
    sweep reclaimer (steps + 1) before = sweep reclaimer steps now := by
  rw [sweep]
  simp only [bind, EStateM.bind, passed]

theorem sweep_of_stopped {victim : Victim} {before now : Traced (Paged σ)}
    (stopped : advance reclaimer before = .ok (some victim) now) (steps : Nat) :
    sweep reclaimer (steps + 1) before = .ok victim now := by
  rw [sweep]
  simp only [bind, EStateM.bind, stopped]
  rfl

theorem advance_skips (hand : paged.pool.hand < paged.pool.size)
    (barred : paged.pool.eligible paged.pool.hand = false) (log : Array Event) :
    advance reclaimer ⟨paged, log⟩ = .ok none ⟨⟨paged.pool.turned, paged.store⟩, log⟩ := by
  apply Action.Ensures.ran
  rw [ensures_advance hand]
  cases found : paged.pool.occupant? paged.pool.hand with
  | none => exact ⟨rfl, rfl⟩
  | some occupant =>
      rw [Pool.eligible_eq, found] at barred
      have pinned : occupant.pinned = true := by
        simpa [Occupant.pinned, Nat.pos_iff_ne_zero] using barred
      simp [pinned]

theorem passed_turned (paged : Paged σ) :
    Passed accesses [] paged ⟨paged.pool.turned, paged.store⟩ :=
  ⟨paged.pool.alike_turned, fun _ => by simp; rfl, fun _ _ => rfl, rfl⟩

section Sweep

variable (probes : reclaimer.Probes accesses) (clocked : paged.Clocked accesses)
include probes clocked

theorem advance_considers (eligible : paged.pool.eligible paged.pool.hand = true) :
    ∃ after key, paged.pool.tenant? paged.pool.hand = some key ∧
      (∀ log, advance reclaimer ⟨paged, log⟩ =
        .ok (if paged.accessed accesses paged.pool.hand then none
          else some ⟨paged.pool.hand, key.1, key.2⟩) ⟨after, log⟩) ∧
      Passed accesses [paged.pool.hand] paged after ∧
      after.pool.hand = (paged.pool.hand + 1) % paged.pool.size := by
  obtain ⟨occupant, found, free, tenant⟩ := Pool.exists_tenant eligible
  obtain ⟨store, probed, cleared, known⟩ := probes _ _ (clocked.known tenant)
  refine ⟨⟨paged.pool.turned.setOccupant paged.pool.hand (some occupant.forget), store⟩, _, tenant,
    fun log => ?_, ⟨?_, fun frame => ?_, fun key absent => ?_, known⟩, rfl⟩
  · apply Action.Ensures.ran
    rw [ensures_advance clocked.hand]
    simp [found, Occupant.pinned, free, Action.Ensures, probed, accessed, bits]
  · exact paged.pool.alike_turned.trans (Pool.alike_forget found)
  · have seen : (paged.pool.turned.setOccupant paged.pool.hand (some occupant.forget)).occupant? frame =
        if frame = paged.pool.hand then some occupant.forget else paged.pool.occupant? frame :=
      Pool.occupant?_setOccupant paged.pool.turned _ frame clocked.hand
    simp only [bits, seen, cleared, List.mem_singleton]
    split
    · rename_i here
      simp [here, found, Occupant.forget]
    · rename_i elsewhere
      cases held : paged.pool.occupant? frame with
      | none => rfl
      | some other =>
          have distinct : (other.owner, other.page) ≠ (occupant.owner, occupant.page) := by
            intro same
            refine elsewhere (clocked.distinct ?_ tenant)
            rw [Pool.tenant?_eq, held, Option.map_some, same]
          rw [Option.map_some, Option.map_some, Function.update_of_ne distinct]
  · rw [cleared, Function.update_of_ne]
    rintro rfl
    exact absent _ tenant

/-! ## Many steps -/

theorem sweep_passes {steps : Nat} (le : steps ≤ paged.pool.size)
    (busy : ∀ frame ∈ paged.pool.route steps, paged.pool.eligible frame = true →
      paged.accessed accesses frame = true) :
    ∃ after, (∀ more log, sweep reclaimer (steps + more) ⟨paged, log⟩ =
        sweep reclaimer more ⟨after, log⟩) ∧
      Passed accesses ((paged.pool.route steps).filter paged.pool.eligible) paged after ∧
      after.pool.hand = (paged.pool.hand + steps) % paged.pool.size := by
  induction steps with
  | zero =>
      refine ⟨paged, fun more log => by rw [Nat.zero_add], .refl paged, ?_⟩
      exact (Nat.mod_eq_of_lt clocked.hand).symm
  | succ steps ih =>
      have distinct : (paged.pool.route (steps + 1)).Nodup := by
        rw [← Pool.take_route le]
        exact Pool.nodup_route.sublist (List.take_sublist ..)
      rw [Pool.route_succ] at busy distinct ⊢
      obtain ⟨earlier, here⟩ := List.forall_mem_append.mp busy
      obtain ⟨middle, ran, passed, hand⟩ := ih (Nat.le_of_succ_le le) earlier
      have clocked' : middle.Clocked accesses := by
        apply passed.clocked clocked
        rw [hand, passed.alike.size]
        exact Nat.mod_lt _ (Nat.zero_lt_of_lt clocked.hand)
      have goes {after : Paged σ} (moves : ∀ log, advance reclaimer ⟨middle, log⟩ = .ok none ⟨after, log⟩)
          (more : Nat) (log : Array Event) : sweep reclaimer (steps + 1 + more) ⟨paged, log⟩ =
            sweep reclaimer more ⟨after, log⟩ := by
        rw [Nat.add_assoc, Nat.add_comm 1, ran, sweep_of_passed (moves log)]
      have turns : (middle.pool.hand + 1) % middle.pool.size =
          (paged.pool.hand + (steps + 1)) % paged.pool.size := by
        rw [hand, passed.alike.size, Nat.mod_add_mod, Nat.add_assoc]
      -- The hand is at the last frame of the route now: it is not to be had, or it was accessed.
      rw [List.filter_append, ← hand]
      cases eligible : middle.pool.eligible middle.pool.hand with
      | false =>
          rw [passed.alike.eligible_eq] at eligible
          refine ⟨_, goes (advance_skips clocked'.hand (passed.alike.eligible_eq ▸ eligible)), ?_, turns⟩
          rw [List.filter_singleton, eligible]
          exact passed.trans (passed_turned middle)
      | true =>
          obtain ⟨after, key, -, moves, cleared, turned⟩ := advance_considers probes clocked' eligible
          rw [passed.alike.eligible_eq] at eligible
          have unreached : middle.pool.hand ∉ (paged.pool.route steps).filter paged.pool.eligible := by
            intro member
            rw [hand] at member
            exact (List.nodup_append.mp distinct).2.2 _ (List.mem_filter.mp member).1 _
              (List.mem_singleton_self _) rfl
          have accessed : middle.accessed accesses middle.pool.hand = true := by
            rw [passed.accessed_of_notMem unreached]
            exact here _ (List.mem_singleton.mpr hand) eligible
          simp only [accessed, if_true] at moves
          refine ⟨after, goes moves, ?_, turned.trans turns⟩
          rw [List.filter_singleton, eligible]
          exact passed.trans cleared

theorem sweep_finds (found : paged.pool.candidates.find? (!paged.accessed accesses ·) = some frame) :
    ∃ victim after, Chosen accesses paged victim after ∧ ∃ steps ≤ paged.pool.size,
      ∀ more log, sweep reclaimer (steps + more) ⟨paged, log⟩ = .ok victim ⟨after, log⟩ := by
  obtain ⟨steps, short, place, eligible, idle, busy, passes⟩ := Pool.exists_steps found
  obtain ⟨middle, ran, passed, hand⟩ := sweep_passes probes clocked (Nat.le_of_lt short) busy
  rw [place] at hand
  have clocked' : middle.Clocked accesses := by
    apply passed.clocked clocked
    rw [hand, passed.alike.size]
    exact Pool.lt_size_of_eligible eligible
  have unreached : frame ∉ (paged.pool.route steps).filter paged.pool.eligible := by
    intro member
    obtain ⟨reached, -⟩ := List.mem_filter.mp member
    exact Bool.false_ne_true (idle.symm.trans (busy frame reached eligible))
  rw [← passed.accessed_of_notMem unreached, ← hand] at idle
  rw [← hand, ← passed.alike.eligible_eq] at eligible
  obtain ⟨after, key, tenant, moves, cleared, turned⟩ := advance_considers probes clocked' eligible
  simp only [idle, Bool.false_eq_true, if_false] at moves
  rw [hand, passed.alike.tenant?_eq] at tenant
  rw [hand, passed.alike.size] at turned
  refine ⟨⟨frame, key.1, key.2⟩, after, ⟨by rw [found]; rfl, tenant, ?_, turned⟩, steps + 1, short,
    fun more log => ?_⟩
  · have all := passed.trans (cleared.of_idle idle)
    rwa [List.append_nil, ← passes] at all
  · rw [Nat.add_assoc, Nat.add_comm 1, ran, sweep_of_stopped (moves log), hand]

theorem sweep_chooses (some : paged.pool.candidates ≠ []) :
    ∃ victim after, Chosen accesses paged victim after ∧ ∃ steps ≤ 2 * paged.pool.size,
      ∀ more log, sweep reclaimer (steps + more) ⟨paged, log⟩ = .ok victim ⟨after, log⟩ := by
  cases found : paged.pool.candidates.find? (!paged.accessed accesses ·) with
  | some frame =>
      obtain ⟨victim, after, chosen, steps, short, ran⟩ := sweep_finds probes clocked found
      exact ⟨victim, after, chosen, steps, by omega, ran⟩
  | none =>
      -- A round clears all candidates, and then the first of them is found.
      have busy : ∀ frame ∈ paged.pool.candidates, paged.accessed accesses frame = true := by
        simpa using List.find?_eq_none.mp found
      obtain ⟨middle, ran, passed, hand⟩ := sweep_passes probes clocked (Nat.le_refl _)
        fun frame _ eligible => busy frame ((Pool.mem_candidates clocked.hand).mpr eligible)
      rw [Nat.add_mod_right, Nat.mod_eq_of_lt clocked.hand] at hand
      have clocked' : middle.Clocked accesses := by
        apply passed.clocked clocked
        rw [hand, passed.alike.size]
        exact clocked.hand
      have same := passed.alike.candidates_eq hand
      obtain ⟨first, rest, candidates⟩ := List.exists_cons_of_ne_nil some
      have found' : middle.pool.candidates.find? (!middle.accessed accesses ·) = .some first := by
        have cleared := passed.accessed_of_mem
          (show first ∈ paged.pool.candidates from candidates ▸ List.mem_cons_self)
        rw [same, candidates, List.find?_cons_of_pos (by rw [cleared]; rfl)]
      obtain ⟨victim, after, chosen, steps, short, ranOn⟩ := sweep_finds probes clocked' found'
      rw [passed.alike.size] at short
      have whole := List.takeWhile_eq_self_iff.mpr busy
      have nothing : middle.pool.candidates.takeWhile (middle.accessed accesses) = [] := by
        rw [same, candidates, List.takeWhile_cons_of_neg]
        simpa using List.find?_some found'
      refine ⟨victim, after, ⟨?_, ?_, ?_, ?_⟩, paged.pool.size + steps, by omega, fun more log => ?_⟩
      · have here := chosen.frame
        rw [found', Option.some_or] at here
        rw [found, Option.none_or, candidates, List.head?_cons, here]
      · rw [← passed.alike.tenant?_eq, chosen.tenant]
      · have all := passed.trans (nothing ▸ chosen.passed)
        rwa [List.append_nil, ← Pool.candidates, ← whole] at all
      · rw [← passed.alike.size, chosen.hand]
      · rw [Nat.add_assoc, ran, ranOn]

theorem selectVictim_chooses (some : paged.pool.candidates ≠ []) :
    ∃ victim after, Chosen accesses paged victim after ∧
      (∀ log, selectVictim reclaimer ⟨paged, log⟩ = .ok victim ⟨after, log⟩) ∧
      ∃ steps ≤ 2 * paged.pool.size, ∀ more log,
        sweep reclaimer (steps + more) ⟨paged, log⟩ = .ok victim ⟨after, log⟩ := by
  obtain ⟨victim, after, chosen, steps, short, ran⟩ := sweep_chooses probes clocked some
  refine ⟨victim, after, chosen, fun log => ?_, steps, short, ran⟩
  have whole := ran (2 * paged.pool.size - steps) log
  rwa [Nat.add_sub_cancel' short] at whole

theorem selectVictim_panics (none : paged.pool.candidates = []) :
    ∃ after, Passed accesses [] paged after ∧ ∀ log, selectVictim reclaimer ⟨paged, log⟩ =
      .error (.panicked (.everyFramePinned paged.pool.size)) ⟨after, log⟩ := by
  have round {paged : Paged σ} (clocked : paged.Clocked accesses) (none : paged.pool.candidates = []) :
      ∃ after, after.Clocked accesses ∧ after.pool.candidates = [] ∧
        Passed accesses [] paged after ∧ ∀ more log,
          sweep reclaimer (paged.pool.size + more) ⟨paged, log⟩ = sweep reclaimer more ⟨after, log⟩ := by
    obtain ⟨after, ran, passed, hand⟩ := sweep_passes probes clocked (Nat.le_refl _)
      fun frame _ eligible => absurd ((Pool.mem_candidates clocked.hand).mpr eligible) (by simp [none])
    rw [← Pool.candidates, none] at passed
    rw [Nat.add_mod_right, Nat.mod_eq_of_lt clocked.hand] at hand
    refine ⟨after, passed.clocked clocked ?_, ?_, passed, ran⟩
    · rw [hand, passed.alike.size]
      exact clocked.hand
    · rw [passed.alike.candidates_eq hand, none]
  obtain ⟨middle, clocked', none', first, ran⟩ := round clocked none
  obtain ⟨after, -, -, second, ranOn⟩ := round clocked' none'
  have all := first.trans second
  refine ⟨after, all, fun log => ?_⟩
  change sweep reclaimer (2 * paged.pool.size) ⟨paged, log⟩ = _
  rw [Nat.two_mul, ran, ← first.alike.size, ← Nat.add_zero middle.pool.size, ranOn, sweep,
    Nat.add_zero, first.alike.size, ← all.alike.size]
  rfl

end Sweep

end Paged

end DemandPaging
