namespace DemandPaging

inductive DeviceKind where
  | kernel
  | fileSystem
  | scratch
  | swap
  | raw
  | foreign
  deriving DecidableEq, Repr

namespace DeviceKind

def name : DeviceKind → String
  | kernel => "Kernel"
  | fileSystem => "FileSystem"
  | scratch => "Scratch"
  | swap => "Swap"
  | raw => "Raw"
  | foreign => "Foreign"

def label : DeviceKind → String
  | fileSystem => "File System"
  | kind => kind.name

end DeviceKind

end DemandPaging
