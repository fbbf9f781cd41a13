import Capture.Foundations.PrefixSweep
import Capture.Foundations.RunTrace
import Capture.Model.CapProtocol

/-! # `Init`, `Update` and `Shutdown`

The calls of `CaptureCxx`. What a call finds outside the program (the interface list,
libpcap, `/proc`) is an input of the call, so a run is a list of calls. -/
namespace Capture
open SeparatedText AddressText FormattedScan OrderedTable

set_option autoImplicit false

/-! ## What a call finds -/

/-- An entry of `/proc`: whether it is `DT_DIR`, and its name. A name made of digits is
the number of a process, which `std::stol` can read. -/
structure ProcEntry where
  isDir : Bool
  name : Text
  numeric : name.all Char.isDigit = true → name ≠ [] ∧ magnitude .decimal name < 2 ^ 63

structure InitInput where
  processCallback : Bool
  packetCallback : Bool
  fliter : Bool
  ifaddrs : Option (List Ifaddr)
  meminfo : Option (List Text)
  pcap : ℕ → PcapOpen
  proc : Option (List ProcEntry)
  refresh : RefreshInput
  files : Pid → ProcFiles

/-- `dispatch idx` is the `pcap_dispatch` on handle number `idx`, `files` what the parses
of the reconciliation find. -/
structure UpdateInput where
  icaptureAll : Bool
  proc : Option (List ProcEntry)
  refresh : RefreshInput
  dispatch : ℕ → Dispatch
  stat : Option (List Text)
  files : Pid → ProcFiles

namespace CaptureCxx

/-! ## The readers -/

/-- The pid of an entry, when the name is a number; `pid_t` has 32 bits. -/
def entryPid (e : ProcEntry) : Option Pid :=
  if e.isDir ∧ e.name.all Char.isDigit then some ((magnitude .decimal e.name : ℤ).bmod (2 ^ 32)) else none

def snapshot (proc : Option (List ProcEntry)) : Table Pid Unit :=
  ((proc.getD []).filterMap entryPid).foldl (fun t pid => t.insert pid ()) Table.empty

def updatePids (proc : Option (List ProcEntry)) (s : CaptureCxx) : ℤ × CaptureCxx :=
  (if proc = none then capOpenDir else 0, { s with pids := snapshot proc })

def refresh (i : RefreshInput) (s : CaptureCxx) : CaptureCxx :=
  { s with inodes := (CapInodeHelper.refresh s.devices s.pids.keys i).2 }

def cpuTicks (buffer : Text) : Option UInt64 :=
  let r := sscanf buffer "cpu  %lu %lu %lu %lu %lu %lu %lu"
  if cString buffer ≠ [] ∧ r.holds then
    some (((List.range 7).map fun i => UInt64.ofInt ((r.number i).getD 0)).foldl (· + ·) 0)
  else none

/-- The first line that yields ticks ends the loop; without one nothing changes. -/
def getCpuTotal (stat : Option (List Text)) (s : CaptureCxx) : ℤ × CaptureCxx :=
  match stat with
  | none => (capProcessOpen, s)
  | some lines =>
      match lines.findSome? cpuTicks with
      | none => (0, s)
      | some now => (0, { s with deltaCpu := ⟨s.cpu, ⟨now, some s.calls⟩⟩, cpu := ⟨now, some s.calls⟩ })

def memTotal (buffer : Text) : Option UInt64 :=
  let r := sscanf buffer "MemTotal:        %ld kB"
  if cString buffer ≠ [] ∧ r.holds then some (UInt64.ofInt ((r.number 0).getD 0)) else none

def getMemTotal (meminfo : Option (List Text)) (s : CaptureCxx) : ℤ × CaptureCxx :=
  match meminfo with
  | none => (capProcessOpen, s)
  | some lines => (0, { s with memory := (lines.findSome? memTotal).getD s.memory })

/-! ## `Init` -/

def usableDevice (e : Ifaddr) : Option CapDevice :=
  match e.addr with
  | none => none
  | some addr =>
      let device := CapDevice.init e.name e.flags addr
      if device.upRunning then some device else none

def initDevice (ifaddrs : Option (List Ifaddr)) (s : CaptureCxx) : CaptureCxx :=
  { s with devices := s.devices ++ (ifaddrs.getD []).filterMap usableDevice }

/-- The destructor of a handle that is not kept. -/
def dropHandle (h : CapHandle) (s : CaptureCxx) : CaptureCxx :=
  match h.handle with
  | none => s
  | some pcap => emit (.pcapClose pcap.id) s

def openDevice (fliter : Bool) (device : Text) (o : PcapOpen) (s : CaptureCxx) : CaptureCxx :=
  let id := s.pcaps
  let handle := CapHandle.openLive device fliter id o {}
  let s := if o.opened then emit (.pcapOpen id) { s with pcaps := id + 1 } else s
  if handle.1 ≠ 0 then dropHandle handle.2 s
  else
    let handle := handle.2.setCallback
    if handle.setNonBlock o ≠ 0 then dropHandle handle s
    else { s with handles := s.handles ++ [handle] }

def openHandles (fliter : Bool) (pcap : ℕ → PcapOpen) : ℕ → List CapDevice → CaptureCxx → CaptureCxx
  | _, [], s => s
  | idx, d :: ds, s => openHandles fliter pcap (idx + 1) ds (openDevice fliter d.name (pcap idx) s)

def newProcess (files : Pid → ProcFiles) (s : CaptureCxx) (pid : Pid) : CaptureCxx :=
  let ptr := CapProcess.parse s.calls (files pid) s.memory s.deltaCpu { pid := pid }
  emit (.insert pid) (emit (.parse pid s.memory s.deltaCpu) { s with processes := s.processes.insert pid ptr })

/-- A call begins: it gets the next number and an empty log. -/
def enter (s : CaptureCxx) : CaptureCxx := { s with calls := s.calls + 1, log := [] }

def sample (s : CaptureCxx) : CaptureCxx := { s with sampled := some s.calls }

def prepare (i : InitInput) (s : CaptureCxx) : CaptureCxx :=
  (getMemTotal i.meminfo (initDevice i.ifaddrs
    { enter s with processCallback := i.processCallback, packetCallback := i.packetCallback })).2

def init (i : InitInput) (s : CaptureCxx) : ℤ × CaptureCxx :=
  let s := prepare i s
  if s.devices = [] then (capDeviceInit, s)
  else
    let s := openHandles i.fliter i.pcap 0 s.devices s
    let s := refresh i.refresh (updatePids i.proc s).2
    (0, sample (s.pids.keys.foldl (newProcess i.files) s))

/-! ## `Update` -/

def handleFrames (ctx : CapHandle) : List Frame → CaptureCxx → CapHandle × CaptureCxx
  | [], s => (ctx, s)
  | f :: fs, s =>
      let r := ctx.handlePacket f s
      handleFrames r.1 fs r.2

/-- The dispatch loop: `ret` is the value of the last handle. -/
def dispatchLoop (dispatch : ℕ → Dispatch) :
    ℕ → List CapHandle → ℤ → CaptureCxx → List CapHandle × ℤ × CaptureCxx
  | _, [], ret, s => ([], ret, s)
  | idx, h :: hs, _, s =>
      let d := h.dispatch (dispatch idx)
      let r := handleFrames h d.2 s
      let rest := dispatchLoop dispatch (idx + 1) hs d.1 r.2
      (r.1 :: rest.1, rest.2)

def dispatchAll (dispatch : ℕ → Dispatch) (s : CaptureCxx) : ℤ × CaptureCxx :=
  let r := dispatchLoop dispatch 0 s.handles 0 s
  (r.2.1, { r.2.2 with handles := r.1 })

def removeProcess (pid : Pid) (s : CaptureCxx) : CaptureCxx :=
  let s := if s.processCallback then emit (.processCallback .remove [{ pid := pid }] 1) s else s
  emit (.erase pid) { s with processes := s.processes.erase pid }

def parseProcess (files : Pid → ProcFiles) (pid : Pid) (s : CaptureCxx) : CaptureCxx :=
  match s.processes.find pid with
  | none => s
  | some ptr =>
      let ptr := CapProcess.parse s.calls (files pid) s.memory s.deltaCpu ptr
      emit (.parse pid s.memory s.deltaCpu) { s with processes := s.processes.insert pid ptr }

/-- The loop over the two iterators; the lists are what they have not passed yet. -/
def reconcileLoop (files : Pid → ProcFiles) : List Pid → List Pid → CaptureCxx → CaptureCxx
  | p :: ps, k :: ks, s =>
      if p ≠ k then reconcileLoop files (p :: ps) ks (removeProcess k s)
      else reconcileLoop files ps ks (parseProcess files k s)
  | _, _, s => s

def reconcile (files : Pid → ProcFiles) (s : CaptureCxx) : CaptureCxx :=
  if s.pids.size ≠ s.processes.size then reconcileLoop files s.pids.keys s.processes.keys s else s

/-! ### The same loop with its iterators

An erase returns the iterator behind the erased entry; the other branch advances both. -/

structure Cursors where
  pidIt : Option Pid
  processesIt : Option Pid
  state : CaptureCxx

/-- One turn of the loop, `none` when its condition fails. -/
def reconcileTurn (files : Pid → ProcFiles) (c : Cursors) : Option Cursors :=
  match c.pidIt, c.processesIt with
  | some p, some k =>
      if p ≠ k then
        some { c with processesIt := c.state.processes.after k, state := removeProcess k c.state }
      else
        let s := parseProcess files k c.state
        some { pidIt := s.pids.after p, processesIt := s.processes.after k, state := s }
  | _, _ => none

/-- The loop for at most `fuel` tests of its condition; `none` when it has not ended by then. -/
def reconcileTurns (files : Pid → ProcFiles) : ℕ → Cursors → Option CaptureCxx
  | 0, _ => none
  | fuel + 1, c =>
      match reconcileTurn files c with
      | none => some c.state
      | some c => reconcileTurns files fuel c

def reconcileStart (s : CaptureCxx) : Cursors := ⟨s.pids.start, s.processes.start, s⟩

/-- The record of a process, built on a zeroed one in both loops of the report. -/
def processRecord (p : CapProcess) : ProcessRecord :=
  { name := strncpy captureCommanSize p.name
    cmdline := strncpy captureCmdlineSize p.cmdline
    user := strncpy captureCommanSize p.user
    group := strncpy captureCommanSize p.group
    pid := p.pid
    uid := p.uid
    gid := p.gid
    fdCnt := p.fdCnt
    memory := p.memory
    cpuPercent := (p.cpuPercent.map CpuPercent.value).getD .zero
    memPercent := p.memPercent
    ioRead := p.ioRead
    ioWrite := p.ioWrite
    recv := p.recv
    send := p.send }

/-- The loop that overwrites slots: what the iterator has not reached, and the slots. -/
def reuseSlots : ℕ → List CapProcess → List ProcessRecord → List CapProcess × List ProcessRecord
  | _, [], data => ([], data)
  | idx, p :: ps, data =>
      if idx < data.length then reuseSlots (idx + 1) ps (data.set idx (processRecord p)) else (p :: ps, data)

def reportProcesses (s : CaptureCxx) : CaptureCxx :=
  if s.processCallback then
    let r := reuseSlots 0 (s.processes.entries.map Prod.snd) s.processData
    let data := if r.2.length < s.processes.size then r.2 ++ r.1.map processRecord else r.2
    emit (.processCallback .update data s.processes.size) { s with processData := data }
  else s

def reportPackets (ret : ℤ) (s : CaptureCxx) : CaptureCxx :=
  if s.packetCallback ∧ 0 < ret ∧ s.packetData ≠ [] then emit (.packetCallback s.packetData ret.toNat) s else s

/-- `Update` up to the dispatch loop. Its argument `icaptureAll` is not stored. -/
def beginUpdate (u : UpdateInput) (s : CaptureCxx) : CaptureCxx :=
  refresh u.refresh (updatePids u.proc { enter s with packetIdx := 0 }).2

def update (u : UpdateInput) (s : CaptureCxx) : ℤ × CaptureCxx :=
  let d := dispatchAll u.dispatch (beginUpdate u s)
  let tmp := getCpuTotal u.stat d.2
  if tmp.1 ≠ 0 then tmp
  else (0, sample (reportPackets d.1 (reportProcesses (reconcile u.files tmp.2))))

def shutdown (s : CaptureCxx) : ℤ × CaptureCxx := (0, s)

/-! ## Runs -/

inductive Call where
  | init (i : InitInput)
  | update (u : UpdateInput)
  | shutdown

def step (s : CaptureCxx) : Call → ℤ × CaptureCxx
  | .init i => init i s
  | .update u => update u s
  | .shutdown => shutdown s

def next (s : CaptureCxx) (c : Call) : CaptureCxx := (step s c).2

def run (cs : List Call) : List (RunTrace.Step CaptureCxx Call) := RunTrace.steps next initial cs

end CaptureCxx
end Capture
