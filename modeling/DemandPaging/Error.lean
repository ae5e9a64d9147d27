namespace DemandPaging

inductive DeviceError where
  | sectorOutOfBounds
  | bufferInvalid
  | readError
  | writeError
  | foreignWrite
  deriving DecidableEq, Repr

namespace DeviceError

def name : DeviceError → String
  | sectorOutOfBounds => "SectorOutOfBounds"
  | bufferInvalid => "BufferInvalid"
  | readError => "ReadError"
  | writeError => "WriteError"
  | foreignWrite => "ForeignWrite"

def message : DeviceError → String
  | sectorOutOfBounds => "sector out of bounds (greater than the block size)"
  | bufferInvalid => "invalid buffer size (not one sector)"
  | readError => "error reading from the block device"
  | writeError => "error writing to the block device"
  | foreignWrite => "cannot write to a foreign block"

end DeviceError

inductive PagingError where
  | outOfSwap
  | mappingFailed
  | notMapped
  | alreadyMapped
  | badAddress
  | busy
  | device (cause : DeviceError)
  deriving DecidableEq, Repr

namespace PagingError

def name : PagingError → String
  | outOfSwap => "OutOfSwap"
  | mappingFailed => "MappingFailed"
  | notMapped => "NotMapped"
  | alreadyMapped => "AlreadyMapped"
  | badAddress => "BadAddress"
  | busy => "Busy"
  | device cause => s!"Block({cause.name})"

def message : PagingError → String
  | outOfSwap => "out of swap space"
  | mappingFailed => "could not install page mapping"
  | notMapped => "address not mapped"
  | alreadyMapped => "page already mapped"
  | badAddress => "bad user address"
  | busy => "page is pinned"
  | device cause => "block device: " ++ cause.message

def cause? : PagingError → Option DeviceError
  | device cause => some cause
  | _ => none

end PagingError

end DemandPaging
