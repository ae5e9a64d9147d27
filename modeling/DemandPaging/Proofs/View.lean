import DemandPaging.Machine.Mapping
import Mathlib.Logic.Function.Basic

namespace DemandPaging

structure Holder where
  space : Nat
  page : Nat
  pins : Nat
  written : Bool
  deriving DecidableEq

def Occupant.holder (occupant : Occupant) : Holder :=
  ⟨occupant.owner, occupant.page, occupant.pins, occupant.touch.dirty⟩

structure Translation where
  frame : Nat
  dirty : Bool
  deriving DecidableEq

inductive Bank where
  | file (number : Nat)
  | device (index : Nat)
  deriving DecidableEq

structure Layout where
  bank : Bank
  origin : Nat
  length : Nat
  deriving DecidableEq

namespace Layout

def grown (layout : Layout) (stop : Nat) : Layout :=
  match layout.bank with
  | .file _ => { layout with length := max layout.length stop }
  | .device _ => layout

def Takes (layout : Layout) (offset count : Nat) : Prop :=
  (∃ number, layout.bank = .file number) ∨ count = 0 ∨ offset + count ≤ layout.length

@[simp] theorem bank_grown (layout : Layout) (stop : Nat) :
    (layout.grown stop).bank = layout.bank := by
  unfold grown
  split <;> simp_all

@[simp] theorem origin_grown (layout : Layout) (stop : Nat) :
    (layout.grown stop).origin = layout.origin := by
  unfold grown
  split <;> rfl

theorem length_le_grown (layout : Layout) (stop : Nat) :
    layout.length ≤ (layout.grown stop).length := by
  unfold grown
  split
  · exact Nat.le_max_left ..
  · exact Nat.le_refl _

end Layout

@[ext]
structure View where
  frames : Nat
  slots : Nat
  holder : Nat → Option Holder
  contents : Nat → Page
  live : Nat → Bool
  record : Nat × Nat → Option PageRecord
  translation : Nat × Nat → Option Translation
  region : Nat × Nat → Option Region
  nextRegion : Nat → Nat
  used : Nat → Bool
  slot : Nat → Page
  layout : Nat → Option Layout
  byte : Bank × Nat → UInt8
  journal : List WriteRequest

/-! ## The view of a machine -/

namespace Pool

def holder (pool : Pool) (frame : Nat) : Option Holder :=
  (pool.occupant? frame).map Occupant.holder

def page (pool : Pool) (frame : Nat) : Page :=
  (pool.frames[frame]?).elim (Block.zero 4096) Frame.contents

end Pool

def Directory.translation (directory : Directory) (page : Nat) : Option Translation :=
  if Aligned page ∧ IsUser page then
    (directory.find? page).map fun entry => ⟨entry.frame.toNat, entry.has .dirty⟩
  else none

def SwapArea.page (area : SwapArea) (slot : Nat) : Page :=
  Vector.ofFn fun i : Fin 4096 => area.device.medium.row.byteAt (4096 * slot + i.val)

def SwapArea.inUse (area : SwapArea) (slot : Nat) : Bool := decide (area.used.On slot)

namespace Storage

def layout (storage : Storage) (file : Nat) : Option Layout :=
  (storage.files[file]?).map fun
    | .flat length _ => ⟨.file file, 0, length⟩
    | .extent device start length => ⟨.device device, sectorSize * start, length⟩

def byteAt (storage : Storage) : Bank × Nat → UInt8
  | (.file number, position) =>
    match storage.files[number]? with
    | some (.flat _ row) => row.byteAt position
    | _ => 0
  | (.device index, position) =>
    match storage.devices[index]? with
    | some device => device.medium.row.byteAt position
    | none => 0

end Storage

def Machine.view (machine : Machine) : View where
  frames := machine.pool.size
  slots := machine.store.swap.capacity
  holder := machine.pool.holder
  contents := machine.pool.page
  live id := machine.store.spaces.contains id
  record key := machine.store.spaces[key.1]?.bind (·.catalog.find? key.2)
  translation key := machine.store.spaces[key.1]?.bind (·.directory.translation key.2)
  region key := machine.store.spaces[key.1]?.bind (·.regions[key.2]?)
  nextRegion id := machine.store.spaces[id]?.elim 0 (·.nextRegion)
  used := machine.store.swap.inUse
  slot := machine.store.swap.page
  layout := machine.store.storage.layout
  byte := machine.store.storage.byteAt
  journal := machine.store.storage.journal

/-! ## Changes of a view -/

namespace View

def hold (view : View) (frame : Nat) (holder : Option Holder) : View :=
  { view with holder := Function.update view.holder frame holder }

def fill (view : View) (frame : Nat) (page : Page) : View :=
  { view with contents := Function.update view.contents frame page }

def put (view : View) (key : Nat × Nat) (record : Option PageRecord) : View :=
  { view with record := Function.update view.record key record }

def lead (view : View) (key : Nat × Nat) (translation : Option Translation) : View :=
  { view with translation := Function.update view.translation key translation }

def mark (view : View) (slot : Nat) (used : Bool) : View :=
  { view with used := Function.update view.used slot used }

def stow (view : View) (slot : Nat) (page : Page) : View :=
  { view with slot := Function.update view.slot slot page }

def overwrite (view : View) (bank : Bank) (start : Nat) (data : Bytes) : View :=
  { view with
    byte := fun spot =>
      if spot.1 = bank ∧ start ≤ spot.2 then (data[spot.2 - start]?).getD (view.byte spot)
      else view.byte spot }

def write (view : View) (file : Nat) (layout : Layout) (offset : Nat) (data : Bytes)
    (count : Nat) : View :=
  let written := view.overwrite layout.bank (layout.origin + offset) (data.take count)
  { written with
    layout := Function.update view.layout file (some (layout.grown (offset + data.length)))
    journal := ⟨file, offset, data.length⟩ :: view.journal }

end View

end DemandPaging
