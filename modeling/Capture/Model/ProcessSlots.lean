import Capture.Foundations.ReusedBuffer
import Capture.Model.CaptureCxx

/-! # The process report in memory

The two loops of the report as they write `processData`: a slot is a `Process_t` with its
character arrays, which the first loop zeroes and fills where it stands, and the second
builds on a zeroed record and appends. -/
namespace Capture
open SeparatedText FormattedScan OrderedTable ReusedBuffer

set_option autoImplicit false

structure ProcessSlot where
  name : CharArray captureCommanSize
  cmdline : CharArray captureCmdlineSize
  user : CharArray captureCommanSize
  group : CharArray captureCommanSize
  pid : Pid
  uid : UInt32
  gid : UInt32
  fdCnt : UInt32
  memory : UInt64
  cpuPercent : Percent
  memPercent : Percent
  ioRead : UInt64
  ioWrite : UInt64
  recv : UInt64
  send : UInt64

namespace ProcessSlot

/-- `memset(&data, 0, sizeof(Process_t))` of a new record. -/
def zeroed : ProcessSlot :=
  { name := .zeroed captureCommanSize
    cmdline := .zeroed captureCmdlineSize
    user := .zeroed captureCommanSize
    group := .zeroed captureCommanSize
    pid := 0
    uid := 0
    gid := 0
    fdCnt := 0
    memory := 0
    cpuPercent := .zero
    memPercent := .zero
    ioRead := 0
    ioWrite := 0
    recv := 0
    send := 0 }

/-- `memset` of a slot that holds a record already. -/
def memset (slot : ProcessSlot) : ProcessSlot :=
  { zeroed with
    name := slot.name.memset
    cmdline := slot.cmdline.memset
    user := slot.user.memset
    group := slot.group.memset }

/-- The assignments of both loops. -/
def assign (p : CapProcess) (slot : ProcessSlot) : ProcessSlot :=
  { slot with
    name := slot.name.strncpy (captureCommanSize - 1) p.name
    cmdline := slot.cmdline.strncpy (captureCmdlineSize - 1) p.cmdline
    user := slot.user.strncpy (captureCommanSize - 1) p.user
    group := slot.group.strncpy (captureCommanSize - 1) p.group
    pid := p.pid
    uid := p.uid
    gid := p.gid
    fdCnt := p.fdCnt
    memory := p.memory
    cpuPercent := (p.cpuPercent.map CpuPercent.value).getD .zero
    memPercent := p.memPercent
    ioRead := p.ioRead
    ioWrite := p.ioWrite
    recv := p.recv
    send := p.send }

/-- The record a reader of the slot finds. -/
def read (slot : ProcessSlot) : ProcessRecord :=
  { name := slot.name.text
    cmdline := slot.cmdline.text
    user := slot.user.text
    group := slot.group.text
    pid := slot.pid
    uid := slot.uid
    gid := slot.gid
    fdCnt := slot.fdCnt
    memory := slot.memory
    cpuPercent := slot.cpuPercent
    memPercent := slot.memPercent
    ioRead := slot.ioRead
    ioWrite := slot.ioWrite
    recv := slot.recv
    send := slot.send }

end ProcessSlot

/-- Both loops of the report, over the processes in the order of the table. -/
def reportSlots (processes : Table Pid CapProcess) (data : List ProcessSlot) : List ProcessSlot :=
  refill (fun p slot => slot.memset.assign p) (fun p => ProcessSlot.zeroed.assign p)
    (processes.entries.map Prod.snd) data

end Capture
