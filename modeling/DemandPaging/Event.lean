import DemandPaging.Device.Kind
import DemandPaging.Error
import DemandPaging.Occupant
import DemandPaging.Residence

namespace DemandPaging

inductive Level where
  | trace
  | debug
  | info
  | warn
  deriving DecidableEq, Repr

def Level.name : Level → String
  | trace => "TRACE"
  | debug => "DEBUG"
  | info => "INFO"
  | warn => "WARN"

inductive Event where
  | deviceRegistered (name : String) (kind : DeviceKind) (sectors : Nat)
  | swapAttached (slots : Nat) (name : String)
  | machineReady (frames slots : Nat)
  | slotReserved (slot : Nat)
  | swapFull (slots : Nat)
  | slotReleased (slot : Nat)
  | evicting (victim : Victim)
  | evictingStranger (space page owner : Nat)
  | pageEvicted (page frame : Nat) (next : Residence)
  | frameClaimed (frame page owner : Nat)
  | frameFreed (frame : Nat)
  | pageInstalled (page : Nat) (residence : Residence)
  | shortRead (offset count length : Nat)
  | loadFailed (page space : Nat) (cause : PagingError)
  | mapFailed (page space : Nat)
  | pageResident (page space frame : Nat)
  | writeBackLost (page : Nat) (cause : PagingError)
  | spaceCreated (space : Nat)
  | spaceDestroyed (space pages : Nat)
  | fileMapped (space mapping address length : Nat)
  deriving DecidableEq, Repr

namespace Event

def level : Event → Level
  | deviceRegistered .. | swapAttached .. | machineReady .. => .info
  | swapFull .. | loadFailed .. | mapFailed .. | writeBackLost .. => .warn
  | evicting .. | spaceCreated .. | spaceDestroyed .. | fileMapped .. => .debug
  | slotReserved .. | slotReleased .. | evictingStranger .. | pageEvicted .. | frameClaimed .. |
    frameFreed .. | pageInstalled .. | shortRead .. | pageResident .. => .trace

open Text in
def message : Event → String
  | deviceRegistered name kind sectors =>
      s!"Registered block device \"{name}\" ({kind.label} type) with {sectors} sectors"
  | swapAttached slots name => s!"swap: {slots} slots on {name}"
  | machineReady frames slots => s!"vm: {frames} user frames, {slots} swap slots"
  | slotReserved slot => s!"allocated swap slot {slot}"
  | swapFull slots => s!"swap: all {slots} slots in use"
  | slotReleased slot => s!"freed swap slot {slot}"
  | evicting victim =>
      s!"evicting page {hex victim.page} of space {victim.owner} from frame {victim.frame}"
  | evictingStranger space page owner =>
      s!"space {space} evicting page {hex page} of space {owner}"
  | pageEvicted page frame next =>
      s!"page {hex page} evicted from frame {frame} to {next.describe}"
  | frameClaimed frame page owner =>
      s!"allocated frame {frame} for page {hex page} of space {owner}"
  | frameFreed frame => s!"freed frame {frame}"
  | pageInstalled page residence => s!"installed page {hex page} as {residence.describe}"
  | shortRead offset count length =>
      s!"short read at file offset {offset}: {count} of {length} bytes"
  | loadFailed page space cause =>
      s!"could not load page {hex page} of space {space}: {cause.message}"
  | mapFailed page space => s!"could not map page {hex page} of space {space}"
  | pageResident page space frame => s!"page {hex page} of space {space} resident in frame {frame}"
  | writeBackLost page cause => s!"lost write-back of page {hex page}: {cause.message}"
  | spaceCreated space => s!"created address space {space}"
  | spaceDestroyed space pages => s!"destroyed address space {space}: {pages} pages"
  | fileMapped space mapping address length =>
      s!"space {space}: mapping {mapping} at {hex address}, {length} bytes"

def render (event : Event) : String := s!"{event.level.name} {event.message}"

end Event

end DemandPaging
