import DemandPaging.Proofs.Agreement

/-!
# The ledger of pins

Pins are kept with the frames, not with the pages. Still they can be counted page by page, by what
operations ask for and nothing else (`Operation.tally`): the pins of a resident page are those in
the ledger, and other pages have none (`pins_tallied`).
-/

namespace DemandPaging

/-- A run of operations that end by some rule, and the ledger of the pins taken in it. -/
inductive Tallied (rule : Operation → Except PagingError Unit → Prop) (first : Traced Machine) :
    Traced Machine → (Nat × Nat → Nat) → Prop where
  | start : Tallied rule first first fun _ => 0
  | next {before after : Traced Machine} {ledger : Nat × Nat → Nat} {operation : Operation}
      {outcome : Except PagingError Unit} (earlier : Tallied rule first before ledger)
      (addressed : operation.Addressed before.state) (allowed : rule operation outcome)
      (ends : operation.Ends before outcome after) :
      Tallied rule first after (operation.tally outcome after.state ledger)

/-- An operation that neither gives back a pin of a page nor destroys its space. -/
def Operation.Retains (key : Nat × Nat) (operation : Operation)
    (outcome : Except PagingError Unit) : Prop :=
  operation ≠ .destroySpace key.1 ∧ ∀ start length, operation = .unpinRange key.1 start length →
    outcome = .ok () → key.2 ∉ Machine.pagesIn start length

/-! ## One operation -/

theorem Operation.tally_add {operation : Operation} {outcome : Except PagingError Unit}
    {after : Machine} {pins ledger : Nat × Nat → Nat} {key : Nat × Nat} {more : Nat}
    (retains : operation.Retains key outcome) (kept : after.view.record key ≠ none)
    (same : pins key = more + ledger key) :
    operation.tally outcome after pins key = more + operation.tally outcome after ledger key := by
  have present : (after.view.record key).isNone = false := by
    simpa [Option.isSome_iff_ne_none] using kept
  cases operation with
  | faultIn | pinRange =>
      cases outcome with
      | error => exact same
      | ok =>
          simp only [tally]
          split <;> omega
  | unpinRange id start length =>
      cases outcome with
      | error => exact same
      | ok =>
          have outside : ¬ (key.1 = id ∧ key.2 ∈ Machine.pagesIn start length) := by
            rintro ⟨rfl, covered⟩
            exact retains.2 start length rfl rfl covered
          simp only [tally, if_neg outside, same]
  | unmapFile | unmapRange | destroySpace =>
      simp only [tally, present, Bool.false_eq_true, if_false, same]
  | _ => exact same

/-- The occupant of the frame of a page has its pins. -/
theorem Machine.Sound.exists_occupant {strict : Prop} {machine : Machine} {id page frame : Nat}
    {space : Space} (sound : machine.Sound strict)
    (found : machine.store.spaces[id]? = some space)
    (inside : space.catalog.frame? page = some frame) :
    ∃ occupant, machine.pool.occupant? frame = some occupant ∧ occupant.owner = id ∧
      occupant.page = page ∧ occupant.pins = machine.view.pins (id, page) := by
  obtain ⟨record, listed, here⟩ := Option.bind_eq_some_iff.mp inside
  obtain ⟨⟨occupant, held, owner, place⟩, -⟩ := sound.agreement.resident found listed here
  have held' : machine.view.holder frame = some occupant.holder := by
    simp [view, Pool.holder, held]
  exact ⟨occupant, held, owner, place,
    (View.pins_of_held ((frameOf_eq found).trans inside) held').symm⟩

/-! ## Runs -/

section Runs

variable {strict : Prop} {rule : Operation → Except PagingError Unit → Prop}
  {first now : Traced Machine} {ledger : Nat × Nat → Nat}

theorem Tallied.sound (tallied : Tallied rule first now ledger) (sound : first.state.Sound False) :
    now.state.Sound False := by
  induction tallied with
  | start => exact sound
  | next earlier addressed allowed ends ih =>
      exact Operation.sound_of_ends ih addressed False.elim ends

theorem Tallied.pins_eq (tallied : Tallied rule first now ledger)
    (sound : first.state.Sound False) (free : first.state.view.pins = fun _ => 0) :
    now.state.view.pins = ledger := by
  induction tallied with
  | start => exact free
  | next earlier addressed allowed ends ih =>
      obtain ⟨stop, accounted⟩ :=
        Operation.accounted_of_ends (earlier.sound sound) addressed False.elim ends
      rw [accounted.pins, ih]

theorem Tallied.pins_add {key : Nat × Nat}
    (tallied : Tallied (Operation.Retains key) first now ledger)
    (sound : first.state.Sound False) (pinned : first.state.view.pins key ≠ 0) :
    now.state.view.pins key = first.state.view.pins key + ledger key := by
  induction tallied with
  | start => rfl
  | @next before after ledger operation outcome earlier addressed retains ends ih =>
      obtain ⟨stop, accounted⟩ :=
        Operation.accounted_of_ends (earlier.sound sound) addressed False.elim ends
      have still : before.state.view.pins key ≠ 0 := by omega
      obtain ⟨frame, found⟩ := View.resident_of_pins still
      obtain ⟨stays, -⟩ := accounted.stays retains.1 found still
      rw [accounted.pins]
      refine Operation.tally_add retains ?_ ih
      rintro absent
      simp [View.frameOf, absent] at stays

end Runs

theorem Operation.tallied_of_performAll (rule : Operation → Except PagingError Unit → Prop)
    {operations : List Operation} {first now : Traced Machine}
    (done : performAll operations first = some now)
    (allowed : ∀ operation ∈ operations, rule operation (.ok ())) :
    ∃ ledger, Tallied rule first now ledger :=
  performAll_keeps (motive := fun now => ∃ ledger, Tallied rule first now ledger) done ⟨_, .start⟩
    fun operation member _ _ ⟨_, earlier⟩ addressed ends =>
      ⟨_, .next earlier addressed (allowed operation member) ends⟩

/-- The ledger is right about all pages, and pins that are given back leave what was there before
them and what has been added since. -/
structure PinsTallied (now : Traced Machine) (ledger : Nat × Nat → Nat) : Prop where
  resident : ∀ {id page frame : Nat} {space : Space},
    now.state.store.spaces[id]? = some space → space.catalog.frame? page = some frame →
    ∃ occupant, now.state.pool.occupant? frame = some occupant ∧ occupant.owner = id ∧
      occupant.page = page ∧ occupant.pins = ledger (id, page)
  away : ∀ {id page : Nat}, (∀ space, now.state.store.spaces[id]? = some space →
    space.catalog.frame? page = none) → ledger (id, page) = 0
  restored : ∀ {id start length page : Nat} {pinned later : Traced Machine}
    {taken : Nat × Nat → Nat}, (Operation.pinRange id start length).Addressed now.state →
    (Operation.pinRange id start length).Ends now (.ok ()) pinned →
    page ∈ Machine.pagesIn start length →
    Tallied (Operation.Retains (id, page)) pinned later taken →
    ∃ after, (Operation.unpinRange id start length).Ends later (.ok ()) after ∧
      after.state.view.pins (id, page) = now.state.view.pins (id, page) + taken (id, page)

/-- Pins are taken and given back as asked, whatever fails and is evicted on the way. -/
theorem pins_tallied {settings : Settings} {device : Device} {storage : Storage}
    {first now : Traced Machine} {ledger : Nat × Nat → Nat}
    (started : Machine.start settings device storage = .ok first)
    (tallied : Tallied (fun _ _ => True) first now ledger) : PinsTallied now ledger := by
  have startSound : first.state.Sound False := Machine.start_sound started False.elim
  have sound := tallied.sound startSound
  have free : first.state.view.pins = fun _ => 0 := by
    obtain ⟨record, -⟩ := Machine.start_blank started
    exact funext fun key => View.pins_of_away (by simp [View.frameOf, record])
  have pins := tallied.pins_eq startSound free
  constructor
  · intro id page frame space found inside
    rw [← pins]
    exact sound.exists_occupant found inside
  · intro id page away
    rw [← pins]
    refine View.pins_of_away ?_
    cases found : now.state.store.spaces[id]? with
    | none => simp [View.frameOf, Machine.view, found]
    | some space => exact (Machine.frameOf_eq found).trans (away space found)
  · intro id start length page pinned later taken addressed ends covered between
    have asked : (id, page).1 = id ∧ (id, page).2 ∈ Machine.pagesIn start length := ⟨rfl, covered⟩
    obtain ⟨stop, accounted⟩ := Operation.accounted_of_ends sound addressed False.elim ends
    have more := congrFun accounted.pins (id, page)
    rw [Operation.tally, if_pos asked] at more
    have soundPinned := Operation.sound_of_ends sound addressed False.elim ends
    have added := between.pins_add soundPinned (by omega)
    have soundLater := between.sound soundPinned
    have still : later.state.view.pins (id, page) ≠ 0 := by omega
    -- A pinned page is on record, so its space is still there.
    have live := soundLater.consistent.live_of_pins still
    have returns : (Machine.unpinRange id start length).Ensures later _ _ _ :=
      Machine.unpinRange_returns soundLater live (Machine.user_of_pinRange ends)
    obtain ⟨_, after, ran, -, -, -, less⟩ := returns.exists_returned
    refine ⟨after, ran, ?_⟩
    rw [less, if_pos asked]
    omega

/-- A page has been pinned on its own. It is pinned with the next page, and once more on its own
while others are evicted, and keeps two pins when the two pages are unpinned. -/
theorem pins_tallied_of_two_pages : ∃ (device : Device) (first now pinned later after : Traced Machine)
    (ledger taken : Nat × Nat → Nat), Machine.start ⟨3⟩ device {} = .ok first ∧
      Tallied (fun _ _ => True) first now ledger ∧ PinsTallied now ledger ∧ ledger (1, 0) = 1 ∧
      (Operation.pinRange 1 100 8000).Ends now (.ok ()) pinned ∧
      Tallied (Operation.Retains (1, 0)) pinned later taken ∧ later.state.view.pins (1, 0) = 3 ∧
      (Operation.unpinRange 1 100 8000).Ends later (.ok ()) after ∧
      after.state.view.pins (1, 0) = 2 := by
  let before : List Operation := [.createSpace none {}, .addZeros 1 0, .addZeros 1 4096,
    .addZeros 1 8192, .addZeros 1 12288, .faultIn 1 5]
  let between : List Operation := [.writeUser 1 8192 [7], .faultIn 1 5, .writeUser 1 12288 [8]]
  have ends : ((Operation.trial 3 1 {} before).bind fun ends =>
      (Operation.performAll [.pinRange 1 100 8000] ends.2).bind fun pinned =>
        (Operation.performAll between pinned).bind fun later =>
          (Operation.performAll [.unpinRange 1 100 8000] later).map fun after =>
            (ends.2.state.store.spaces[1]?.bind (·.catalog.frame? 0),
              (ends.2.state.pool.occupant? 0).map (·.pins), later.state.view.pins (1, 0),
              after.state.view.pins (1, 0))) = some (some 0, some 1, 3, 2) := by
    decide +kernel
  simp only [Option.bind_eq_some_iff, Option.map_eq_some_iff, Prod.exists, Prod.mk.injEq] at ends
  obtain ⟨first, now, tried, pinned, pins, later, goesOn, last, gives, ⟨space, found, inside⟩,
    ⟨occupant, held, one⟩, three, two⟩ := ends
  obtain ⟨⟨device, -, started⟩, done⟩ := Operation.trial_ok tried
  obtain ⟨ledger, tallied⟩ := Operation.tallied_of_performAll (fun _ _ => True) done
    fun _ _ => trivial
  obtain ⟨taken, more⟩ := Operation.tallied_of_performAll (Operation.Retains (1, 0)) goesOn
    (by simp [between, Operation.Retains])
  obtain ⟨addressed, pinning⟩ := Operation.performAll_single pins
  have kept := pins_tallied started tallied
  obtain ⟨occupant', held', -, -, counted⟩ := kept.resident found inside
  rw [held, Option.some.injEq] at held'
  obtain ⟨after, unpinned, -⟩ := kept.restored addressed pinning (by decide) more
  have same : last = after := by
    have ran : Machine.unpinRange 1 100 8000 later = .ok () last :=
      (Operation.performAll_single gives).2
    have ran' : Machine.unpinRange 1 100 8000 later = .ok () after := unpinned
    rw [ran] at ran'
    cases ran'
    rfl
  exact ⟨device, first, now, pinned, later, after, ledger, taken, started, tallied, kept,
    by rw [← counted, ← held', one], pinning, more, three, unpinned, same ▸ two⟩

end DemandPaging
