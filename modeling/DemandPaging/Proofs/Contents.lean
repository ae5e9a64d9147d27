import DemandPaging.Proofs.Operation
import DemandPaging.Proofs.View.Careful

namespace DemandPaging

/-! ## The steps of operations -/

theorem Step.Paging.keeps {step : Step} (paging : step.Paging) : step.AddsNone ∧ step.Honest := by
  cases step with
  | install | stain => exact paging.elim
  | _ => exact ⟨trivial, trivial⟩

theorem Step.Copies.keeps {id : Nat} {step : Step} (copies : step.Copies id) :
    step.AddsNone ∧ step.Honest := by
  cases step with
  | install | stain => exact copies.elim
  | _ => exact ⟨trivial, trivial⟩

theorem Step.Unmaps.keeps {id : Nat} {drops : Nat → Prop} {safe : Prop} {step : Step}
    (unmaps : step.Unmaps id drops safe) : step.AddsNone ∧ step.Honest := by
  cases step with
  | install | stain => exact unmaps.elim
  | _ => exact ⟨trivial, trivial⟩

theorem Step.Maps.keeps {id : Nat} {adds : Nat → Residence → Prop} {step : Step}
    (maps : step.Maps id adds) : step.DropsNone ∧ step.Honest := by
  cases step with
  | drop | stain => exact maps.elim
  | _ => exact ⟨trivial, trivial⟩

namespace Operation

variable {operation : Operation} {before : Machine} {outcome : Except PagingError Unit}

def Honest : Operation → Prop
  | markDirty _ _ on => on = true
  | _ => True

theorem addsNone_or_maps (operation : Operation) (before : Machine)
    (outcome : Except PagingError Unit) :
    (∀ step, operation.Takes before outcome step → step.AddsNone) ∨
      ∃ id, ∀ step, operation.Takes before outcome step → step.Maps id (operation.Adds before) := by
  cases operation with
  | addZeros id | addWindow id | mapFile id => exact .inr ⟨id, fun _ maps => maps⟩
  | createSpace =>
      refine .inl fun step takes => ?_
      obtain ⟨id, rfl⟩ := takes
      trivial
  | destroySpace =>
      refine .inl fun step takes => ?_
      rcases takes with unmaps | rfl
      · exact unmaps.keeps.1
      · trivial
  | unmapFile | unmapRange => exact .inl fun _ unmaps => (Step.Unmaps.keeps unmaps).1
  | writeUser | userStore => exact .inl fun _ copies => (Step.Copies.keeps copies).1
  | markDirty => exact .inl fun step same => same ▸ trivial
  | _ => exact .inl fun _ paging => (Step.Paging.keeps paging).1

theorem Takes.oneWay {steps : List Step}
    (takes : ∀ step ∈ steps, operation.Takes before outcome step) : OneWay steps := by
  rcases operation.addsNone_or_maps before outcome with addsNone | ⟨id, maps⟩
  · exact .inl fun step member => addsNone step (takes step member)
  · exact .inr fun step member => (maps step (takes step member)).keeps.1

theorem Takes.honest {step : Step} (honest : operation.Honest)
    (takes : operation.Takes before outcome step) : step.Honest := by
  cases operation with
  | addZeros | addWindow | mapFile => exact (Step.Maps.keeps takes).2
  | createSpace =>
      obtain ⟨id, rfl⟩ := takes
      trivial
  | destroySpace =>
      rcases takes with unmaps | rfl
      · exact unmaps.keeps.2
      · trivial
  | unmapFile | unmapRange => exact (Step.Unmaps.keeps takes).2
  | writeUser | userStore => exact (Step.Copies.keeps takes).2
  | markDirty =>
      cases takes
      exact honest
  | _ => exact (Step.Paging.keeps takes).2

/-! ## Contents of pages -/

variable {strict : Prop} {after : Machine} {stop : Nat} {key : Nat × Nat}
  {backing : Option FileWindow}

/-- A page that stays changes only by what the operation stores. For a file page, no bytes of files
may be shared, and the hardware may not lose a dirty bit. -/
theorem Performed.logical (performed : operation.Performed strict before outcome stop after)
    (sound : before.Sound strict) (found : before.view.backing key = some backing)
    (kept : after.view.record key ≠ none)
    (safe : backing = none ∨
      strict ∧ before.view.Careful ∧ operation.Honest ∧ after.view.Unshared)
    {i : Nat} (small : i < pageSize) :
    after.view.logical key i = operation.stored before.view.logical stop key i := by
  obtain ⟨steps, ⟨path, -⟩, takes, stores, -⟩ := performed
  have oneWay := Takes.oneWay takes
  have aligned : Aligned key.2 := by
    obtain ⟨record, recorded, -⟩ := Option.map_eq_some_iff.mp found
    exact (sound.consistent.placed recorded).2.1
  rw [← stores _ _ _ aligned small, path.logical sound.consistent oneWay found
    (path.backing_eq oneWay found kept)]
  rcases safe with anonymous | ⟨holds, careful, honest, unshared⟩
  · exact .inl anonymous
  · exact .inr ⟨holds, careful, fun step member => (takes step member).honest honest,
      oneWay.imp_right fun dropsNone => ⟨dropsNone, unshared⟩⟩

theorem Performed.careful (performed : operation.Performed strict before outcome stop after)
    (holds : strict) (sound : before.Sound strict) (careful : before.view.Careful)
    (honest : operation.Honest) (unshared : after.view.Unshared) : after.view.Careful := by
  obtain ⟨steps, ⟨path, -⟩, takes, -⟩ := performed
  exact path.careful holds sound.consistent careful
    (fun step member => (takes step member).honest honest)
    ((Takes.oneWay takes).imp_right fun dropsNone => ⟨dropsNone, unshared⟩)

end Operation

namespace Machine

variable {strict : Prop} {before : Machine} {id start : Nat} {read : Bytes}

theorem Reads.logical (reads : before.Reads strict id start read) (sound : before.Sound strict)
    {j : Nat} (small : j < read.length) :
    ∃ backing, before.view.backing (id, pageOf (start + j)) = some backing ∧
      (backing = none ∨ strict ∧ before.view.Careful →
        pageOffset (start + j) < backing.elim pageSize (·.length) →
        read[j]? = before.view.logical (id, pageOf (start + j)) (pageOffset (start + j))) := by
  obtain ⟨middle, frame, window, ⟨steps, ⟨path, -⟩, paging⟩, holds, same⟩ := reads j small
  have addsNone : ∀ step ∈ steps, step.AddsNone := fun step member => (paging step member).keeps.1
  have found := path.backing_before addsNone holds.backing
  refine ⟨window, found, fun safe within => ?_⟩
  have kept := path.logical sound.consistent (.inl addsNone) found holds.backing
    (safe.imp_right fun known => ⟨known.1, known.2, fun step member => (paging step member).keeps.2,
      .inl addsNone⟩)
  rw [effects_of_silent fun step member => (paging step member).silent] at kept
  rw [same, ← kept, holds.logical_eq, if_pos within]

end Machine

end DemandPaging
