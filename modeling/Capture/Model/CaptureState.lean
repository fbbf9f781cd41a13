import Capture.Foundations.OrderedTable
import Capture.Model.CapHandle
import Capture.Model.CapInodeHelper

/-! # The state of a capture

The fields of `CaptureCxx`, with the inode helper it shares a process with, and the two
handlers `ProcessTcp` and `ProcessUdp`. The state also keeps what a reader of the run
can see but the fields do not show: the number of the current call, the call of the last
sampling, and the log of the current call, emptied when a call of `Init` or `Update`
begins. No modelled function reads these. -/
namespace Capture
open SeparatedText AddressText FormattedScan OrderedTable

set_option autoImplicit false

/-! ## `capture_pod.h` -/

inductive PacketType where
  | tcp
  | udp
  deriving DecidableEq, Repr

inductive CaptureAction where
  | update
  | remove
  deriving DecidableEq, Repr

/-- `strncpy` of at most `size - 1` characters into a zeroed array of `size`. -/
def strncpy (size : ℕ) (t : Text) : Text := (cString t).take (size - 1)

def captureCommanSize : ℕ := 128
def captureCmdlineSize : ℕ := 512

/-- `Process_t`; the default value is the zeroed record. -/
structure ProcessRecord where
  name : Text := []
  cmdline : Text := []
  user : Text := []
  group : Text := []
  pid : Pid := 0
  uid : UInt32 := 0
  gid : UInt32 := 0
  fdCnt : UInt32 := 0
  memory : UInt64 := 0
  cpuPercent : Percent := .zero
  memPercent : Percent := .zero
  ioRead : UInt64 := 0
  ioWrite : UInt64 := 0
  recv : UInt64 := 0
  send : UInt64 := 0
  deriving DecidableEq

/-- `Packet_t`; `packet` is the copied frame, `none` for a null pointer. -/
structure PacketRecord where
  hash : Text
  family : PacketType
  packet : Option (List UInt8)
  packetSize : UInt32
  deriving DecidableEq

/-! ## The log of a call -/

/-- What a call does besides changing fields. Offsets are from the start of the frame. -/
inductive Event where
  | frame (device : Text) (serial : ℕ)
  | read (offset size : ℕ)
  | handler (family : PacketType) (context : PcapCtx) (offset : ℕ)
  | parse (pid : Pid) (imemory : UInt64) (ideltacpu : Interval)
  | insert (pid : Pid)
  | erase (pid : Pid)
  | record (slot : ℕ) (data : PacketRecord)
  | processCallback (action : CaptureAction) (processes : List ProcessRecord) (size : ℕ)
  | packetCallback (packets : List PacketRecord) (size : ℕ)
  | pcapOpen (id : ℕ)
  | pcapClose (id : ℕ)

/-! ## The state -/

structure CaptureCxx where
  devices : List CapDevice := []
  handles : List CapHandle := []
  pids : Table Pid Unit := Table.empty
  processes : Table Pid CapProcess := Table.empty
  processCallback : Bool := false
  packetCallback : Bool := false
  processData : List ProcessRecord := []
  packetData : List PacketRecord := []
  packetIdx : ℕ := 0
  captureAll : Bool := false
  memory : UInt64 := 0
  cpu : Sample := Sample.initial
  deltaCpu : Interval := Interval.initial
  inodes : CapInodeHelper := {}
  pcaps : ℕ := 0
  calls : ℕ := 0
  sampled : Option ℕ := none
  log : List Event := []

namespace CaptureCxx

def initial : CaptureCxx := {}

def emit (e : Event) (s : CaptureCxx) : CaptureCxx := { s with log := s.log ++ [e] }

/-! ## `ProcessTcp` and `ProcessUdp` -/

/-- The `CapPacket` of a segment at `offset`; both transport headers start with the
source and the destination port. -/
def packetOf (devices : List CapDevice) (context : PcapCtx) (f : Frame) (offset : ℕ) : Option CapPacket :=
  match context with
  | .ip4 src dst =>
      some (CapPacket.init4 devices {} src (f.ntohs offset) dst (f.ntohs (offset + 2)) f.len .unknown)
  | .ip6 src dst =>
      some (CapPacket.init6 devices {} src (f.ntohs offset) dst (f.ntohs (offset + 2)) f.len .unknown)
  | .unspec => none

def addPacket (files : Pid → ProcFiles) (pid : Pid) (cap : CapPacket) (s : CaptureCxx) : CaptureCxx :=
  match s.processes.find pid with
  | none =>
      let ptr := CapProcess.parse s.calls (files pid) s.memory s.deltaCpu { pid := pid }
      emit (.insert pid) (emit (.parse pid s.memory s.deltaCpu)
        { s with processes := s.processes.insert pid (ptr.addPacket s.devices cap) })
  | some ptr => { s with processes := s.processes.insert pid (ptr.addPacket s.devices cap) }

/-- The record of a packet; with `captureAll` it holds `len` bytes from `offset` on. -/
def packetRecord (family : PacketType) (captureAll : Bool) (cap : CapPacket) (f : Frame) (offset : ℕ) :
    PacketRecord :=
  { hash := strncpy captureCommanSize cap.link
    family := family
    packet := if captureAll then some ((List.range f.len.toNat).map fun i => f.bytes (offset + i)) else none
    packetSize := f.len }

/-- Store the record in the slot at `packetIdx`, or append it; `reused` and `appended` are
the tags the two branches write. -/
def storePacket (reused appended : PacketType) (cap : CapPacket) (f : Frame) (offset : ℕ)
    (s : CaptureCxx) : CaptureCxx :=
  if s.packetCallback then
    let s := if s.captureAll then emit (.read offset f.len.toNat) s else s
    if s.packetIdx < s.packetData.length then
      let data := packetRecord reused s.captureAll cap f offset
      emit (.record s.packetIdx data)
        { s with packetData := s.packetData.set s.packetIdx data, packetIdx := s.packetIdx + 1 }
    else
      let data := packetRecord appended s.captureAll cap f offset
      emit (.record s.packetData.length data)
        { s with packetData := s.packetData ++ [data], packetIdx := s.packetIdx + 1 }
  else s

def processPacket (reused appended : PacketType) (context : PcapCtx) (f : Frame) (offset : ℕ)
    (s : CaptureCxx) : ℤ × CaptureCxx :=
  match packetOf s.devices context f offset with
  | none => (capNetUnknow, s)
  | some cap =>
      let s := emit (.read offset 4) s
      let found := s.inodes.getPidByIp (cap.hash s.devices).1
      if found.1 ≠ 0 then (found.1, s)
      else (0, storePacket reused appended cap f offset (addPacket f.files (found.2.getD (-1)) cap s))

def processTcp (context : PcapCtx) (f : Frame) (offset : ℕ) (s : CaptureCxx) : ℤ × CaptureCxx :=
  processPacket .tcp .tcp context f offset (emit (.handler .tcp context offset) s)

/-- A reused slot is tagged `P_TCP` here too. -/
def processUdp (context : PcapCtx) (f : Frame) (offset : ℕ) (s : CaptureCxx) : ℤ × CaptureCxx :=
  processPacket .tcp .udp context f offset (emit (.handler .udp context offset) s)

end CaptureCxx
end Capture
