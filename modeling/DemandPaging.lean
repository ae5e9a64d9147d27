import DemandPaging.Action
import DemandPaging.Address
import DemandPaging.Bitmap
import DemandPaging.Bits
import DemandPaging.Bytes
import DemandPaging.Catalog
import DemandPaging.Device
import DemandPaging.Device.Kind
import DemandPaging.Device.Medium
import DemandPaging.Directory
import DemandPaging.Directory.Table
import DemandPaging.Entry
import DemandPaging.Error
import DemandPaging.Event
import DemandPaging.Faults
import DemandPaging.Machine
import DemandPaging.Machine.Copy
import DemandPaging.Machine.Eviction
import DemandPaging.Machine.Fault
import DemandPaging.Machine.Hardware
import DemandPaging.Machine.Lifetime
import DemandPaging.Machine.Mapping
import DemandPaging.Occupant
import DemandPaging.PageSpan
import DemandPaging.Panic
import DemandPaging.Piece
import DemandPaging.Pool
import DemandPaging.Pool.Clock
import DemandPaging.Pool.Trial
import DemandPaging.Proofs.Agreement
import DemandPaging.Proofs.Bitmap
import DemandPaging.Proofs.Chronicle
import DemandPaging.Proofs.Contents
import DemandPaging.Proofs.Course
import DemandPaging.Proofs.Destruction
import DemandPaging.Proofs.Device
import DemandPaging.Proofs.Directory
import DemandPaging.Proofs.Ensures
import DemandPaging.Proofs.Extents
import DemandPaging.Proofs.FaultIn
import DemandPaging.Proofs.Keeps
import DemandPaging.Proofs.LifeCycle
import DemandPaging.Proofs.Machine
import DemandPaging.Proofs.Machine.Accesses
import DemandPaging.Proofs.Machine.Copy
import DemandPaging.Proofs.Machine.Course
import DemandPaging.Proofs.Machine.Displacement
import DemandPaging.Proofs.Machine.Eviction
import DemandPaging.Proofs.Machine.Fault
import DemandPaging.Proofs.Machine.Hardware
import DemandPaging.Proofs.Machine.Keeps
import DemandPaging.Proofs.Machine.Lifetime
import DemandPaging.Proofs.Machine.Mapping
import DemandPaging.Proofs.Machine.PinRange
import DemandPaging.Proofs.Machine.Removal
import DemandPaging.Proofs.Mappings
import DemandPaging.Proofs.NewMapping
import DemandPaging.Proofs.Operation
import DemandPaging.Proofs.PageMap
import DemandPaging.Proofs.PagePieces
import DemandPaging.Proofs.PageSpan
import DemandPaging.Proofs.Panics
import DemandPaging.Proofs.Parallel
import DemandPaging.Proofs.Persistence
import DemandPaging.Proofs.PinLedger
import DemandPaging.Proofs.PinnedPages
import DemandPaging.Proofs.Pool
import DemandPaging.Proofs.Pool.Claims
import DemandPaging.Proofs.Pool.Clock
import DemandPaging.Proofs.Pool.Requests
import DemandPaging.Proofs.Pool.Starvation
import DemandPaging.Proofs.Pool.Sweep
import DemandPaging.Proofs.RangeChecks
import DemandPaging.Proofs.Run
import DemandPaging.Proofs.SecondChance
import DemandPaging.Proofs.SpaceIds
import DemandPaging.Proofs.Storage
import DemandPaging.Proofs.SwapArea
import DemandPaging.Proofs.SwapStore
import DemandPaging.Proofs.SwapSupply
import DemandPaging.Proofs.Transparency
import DemandPaging.Proofs.Unmapping
import DemandPaging.Proofs.View
import DemandPaging.Proofs.View.Backed
import DemandPaging.Proofs.View.Careful
import DemandPaging.Proofs.View.Consistent
import DemandPaging.Proofs.View.Memory
import DemandPaging.Proofs.View.Pins
import DemandPaging.Proofs.View.Saved
import DemandPaging.Proofs.View.Step
import DemandPaging.Proofs.View.Supply
import DemandPaging.Proofs.View.WriteBack
import DemandPaging.Proofs.WriteBacks
import DemandPaging.Residence
import DemandPaging.Sectors
import DemandPaging.Settings
import DemandPaging.Space
import DemandPaging.Storage
import DemandPaging.SwapArea
import DemandPaging.Text
import DemandPaging.Transfer
