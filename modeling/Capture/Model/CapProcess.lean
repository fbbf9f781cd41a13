import Capture.Foundations.FormattedScan
import Capture.Model.CapPacket

/-! # One monitored process

`CapProcess` with the `/proc/<pid>` readers of `cap_process.cpp`. A file is given by
`none` when it cannot be opened and otherwise by the buffers its `getline` loop goes
through; the environment supplies these, so a model of `Parse` describes a call that
returns.

Tick counts are kept with the call of `Init` or `Update` in which they were read
(`Sample`), and `deltaCpu` as the two readings it subtracts (`Interval`). The numbers
the code computes are `Interval.ticks` and `CpuPercent.value`; the readings remember
which sampling they came from, which the code's own fields do not show. -/
namespace Capture
open SeparatedText FormattedScan

set_option autoImplicit false

abbrev Pid := ℤ

/-! ## `capture_errors.h` -/

def capDeviceInit : ℤ := 1
def capOpenDevice : ℤ := 2
def capCompile : ℤ := 3
def capFilter : ℤ := 4
def capHandleInit : ℤ := 5
def capOpenDir : ℤ := 6
def capProcessInit : ℤ := 35
def capProcessOpen : ℤ := 37
def capProcessOpenDir : ℤ := 38
def capNetUnknow : ℤ := 41
def capFindIp : ℤ := 43
def capFindInode : ℤ := 44

/-! ## Tick readings -/

/-- A tick count and the call it was read in; the initial zero was read in none. -/
structure Sample where
  ticks : UInt64
  call : Option ℕ
  deriving DecidableEq, Repr

def Sample.initial : Sample := ⟨0, none⟩

structure Interval where
  before : Sample
  now : Sample
  deriving DecidableEq, Repr

def Interval.initial : Interval := ⟨Sample.initial, Sample.initial⟩

def Interval.ticks (i : Interval) : UInt64 := i.now.ticks - i.before.ticks

/-- A `double` that is zero or the quotient of two converted integers. -/
inductive Percent where
  | zero
  | quotient (numerator denominator : UInt64)
  deriving DecidableEq, Repr

def percent (numerator denominator : UInt64) : Percent :=
  if denominator = 0 then .zero else .quotient (numerator * 100) denominator

structure CpuPercent where
  process : Interval
  system : Interval
  deriving DecidableEq, Repr

def CpuPercent.value (c : CpuPercent) : Percent := percent c.process.ticks c.system.ticks

/-! ## What a parse reads -/

/-- The environment of one `Parse`: the files and directories of the process and the
user and group databases. A directory is the list of its entries, `true` for `DT_LNK`. -/
structure ProcFiles where
  status : Option (List Text)
  cmdline : Option Text
  io : Option (List Text)
  getpwuid : UInt32 → Option Text
  getgrgid : UInt32 → Option Text
  fd : Option (List Bool)
  stat : Option (List Text)

def ProcFiles.absent : ProcFiles := ⟨none, none, none, fun _ => none, fun _ => none, none, none⟩

/-! ## `CapProcess` -/

structure CapProcess where
  pid : Pid
  name : Text := []
  cmdline : Text := []
  user : Text := []
  group : Text := []
  uid : UInt32 := 0
  gid : UInt32 := 0
  fdCnt : UInt32 := 0
  memory : UInt64 := 0
  cpuPercent : Option CpuPercent := none
  memPercent : Percent := .zero
  ioRead : UInt64 := 0
  ioWrite : UInt64 := 0
  recv : UInt64 := 0
  send : UInt64 := 0
  cpu : Sample := Sample.initial
  deltaCpu : Interval := Interval.initial
  deriving DecidableEq, Repr

namespace CapProcess

/-! ### `ParseStatus`

The union the loop scans into is zeroed for each line, so a scan that reports success
without assigning yields zero or the empty string. -/

def readName (buffer : Text) (p : CapProcess) : CapProcess :=
  let r := sscanf buffer "Name:       %s"
  if p.name = [] ∧ r.ret ≠ 0 then { p with name := (r.text 0).getD [] } else p

def readMemory (buffer : Text) (p : CapProcess) : CapProcess :=
  let r := sscanf buffer "VmRSS:          %ld kB"
  if r.holds then { p with memory := UInt64.ofInt ((r.number 0).getD 0) } else p

def readUid (buffer : Text) (p : CapProcess) : CapProcess :=
  match (sscanf buffer "Uid: %u").number 0 with
  | some z => { p with uid := UInt32.ofInt z }
  | none => p

def readGid (buffer : Text) (p : CapProcess) : CapProcess :=
  match (sscanf buffer "Gid: %u").number 0 with
  | some z => { p with gid := UInt32.ofInt z }
  | none => p

def parseStatusLine (p : CapProcess) (buffer : Text) : CapProcess :=
  if cString buffer = [] then p
  else readGid buffer (readUid buffer (readMemory buffer (readName buffer p)))

def parseStatus (files : ProcFiles) (p : CapProcess) : ℤ × CapProcess :=
  match files.status with
  | none => (capProcessOpen, p)
  | some lines => (0, lines.foldl parseStatusLine p)

/-! ### `ParseCmdline`, `ParseIo`, `ParseUserAndGroup`, `ParseHandle` -/

/-- `s >> cmdline` leaves the field alone when nothing but white space is there. -/
def readCmdline (content : Text) (p : CapProcess) : CapProcess :=
  if content.dropWhile isSpace = [] then p
  else { p with cmdline := (content.dropWhile isSpace).takeWhile (fun c => !isSpace c) }

def parseCmdline (files : ProcFiles) (p : CapProcess) : ℤ × CapProcess :=
  match files.cmdline with
  | none => (capProcessOpen, p)
  | some content => (0, readCmdline content p)

def readRchar (buffer : Text) (p : CapProcess) : CapProcess :=
  let r := sscanf buffer "rchar: %ld"
  if r.ret ≠ 0 then { p with ioRead := UInt64.ofInt ((r.number 0).getD 0) } else p

def readWchar (buffer : Text) (p : CapProcess) : CapProcess :=
  let r := sscanf buffer "wchar: %ld"
  if r.ret ≠ 0 then { p with ioWrite := UInt64.ofInt ((r.number 0).getD 0) } else p

def parseIoLine (p : CapProcess) (buffer : Text) : CapProcess :=
  if cString buffer = [] then p else readWchar buffer (readRchar buffer p)

def parseIo (files : ProcFiles) (p : CapProcess) : ℤ × CapProcess :=
  match files.io with
  | none => (capProcessOpen, p)
  | some lines => (0, lines.foldl parseIoLine p)

def setUser (files : ProcFiles) (p : CapProcess) : CapProcess :=
  match files.getpwuid p.uid with
  | some name => { p with user := name }
  | none => { p with user := decimal p.uid.toNat }

/-- A missing group name is written into `user`, as the source has it. -/
def setGroup (files : ProcFiles) (p : CapProcess) : CapProcess :=
  match files.getgrgid p.gid with
  | some name => { p with group := name }
  | none => { p with user := decimal p.gid.toNat }

def parseUserAndGroup (files : ProcFiles) (p : CapProcess) : ℤ × CapProcess :=
  (0, setGroup files (setUser files p))

def parseHandle (files : ProcFiles) (p : CapProcess) : ℤ × CapProcess :=
  match files.fd with
  | none => (capProcessOpenDir, p)
  | some entries => (0, { p with fdCnt := UInt32.ofNat (entries.filter id).length })

/-! ### `ParseStat` and `ParseProc` -/

def statTicks (buffer : Text) : Option UInt64 :=
  let r := sscanf buffer ("%*d %*s %*s %*d %*d %*d %*d %*d %*d %*d %*d %*d %*d " ++
    "%ld %ld %*d %*d %*d %*d %*d %*d %*d %*d %*d " ++
    "%*d %*d %*d %*d %*d %*d %*d %*d %*d %*d %*d %*d %*d %*d %*d")
  if cString buffer ≠ [] ∧ r.holds then
    some (UInt64.ofInt ((r.number 0).getD 0) + UInt64.ofInt ((r.number 1).getD 0))
  else none

def advance (call : ℕ) (p : CapProcess) (now : UInt64) : CapProcess :=
  { p with deltaCpu := ⟨p.cpu, ⟨now, some call⟩⟩, cpu := ⟨now, some call⟩ }

def parseStat (call : ℕ) (files : ProcFiles) (p : CapProcess) : ℤ × CapProcess :=
  match files.stat with
  | none => (capProcessOpen, p)
  | some lines => (0, (lines.filterMap statTicks).foldl (advance call) p)

/-- The part of `ParseProc` after `ParseCmdline`; it cannot fail before `ParseStat`. -/
def parseRest (files : ProcFiles) (imemory : UInt64) (p : CapProcess) : CapProcess :=
  let q := (parseHandle files (parseUserAndGroup files (parseIo files p).2).2).2
  { q with memPercent := percent q.memory imemory }

def parseProc (call : ℕ) (files : ProcFiles) (imemory : UInt64) (ideltacpu : Interval)
    (p : CapProcess) : ℤ × CapProcess :=
  if p.pid = -1 then (capProcessInit, p)
  else
    let status := parseStatus files p
    if status.1 ≠ 0 then status
    else
      let cmdline := parseCmdline files status.2
      if cmdline.1 ≠ 0 then cmdline
      else
        let stat := parseStat call files (parseRest files imemory cmdline.2)
        if stat.1 ≠ 0 then stat
        else (stat.1, { stat.2 with cpuPercent := some ⟨stat.2.deltaCpu, ideltacpu⟩ })

/-- `Parse`; every caller ignores the code it returns. -/
def parse (call : ℕ) (files : ProcFiles) (imemory : UInt64) (ideltacpu : Interval)
    (p : CapProcess) : CapProcess :=
  (parseProc call files imemory ideltacpu p).2

def getName (p : CapProcess) : Text := p.name

/-! ### `AddPacket` -/

/-- `IsOutgoing` asks the device list only if the direction of the packet is not known. -/
def addPacket (devices : List CapDevice) (ptr : CapPacket) (p : CapProcess) : CapProcess :=
  if (ptr.isOutgoing devices).1 then { p with send := p.send + ptr.len.toUInt64 }
  else { p with recv := p.recv + ptr.len.toUInt64 }

/-! ## What a parse leaves alone -/

def traffic (p : CapProcess) : Pid × UInt64 × UInt64 := (p.pid, p.recv, p.send)

def cpuFields (p : CapProcess) : Sample × Interval × Option CpuPercent := (p.cpu, p.deltaCpu, p.cpuPercent)

def Keeps (f : CapProcess → CapProcess) : Prop :=
  ∀ p, (f p).traffic = p.traffic ∧ (f p).cpuFields = p.cpuFields

theorem Keeps.comp {f g : CapProcess → CapProcess} (hf : Keeps f) (hg : Keeps g) : Keeps (fun p => g (f p)) :=
  fun p => ⟨(hg (f p)).1.trans (hf p).1, (hg (f p)).2.trans (hf p).2⟩

theorem Keeps.foldl {β : Type} {f : CapProcess → β → CapProcess} (hf : ∀ x, Keeps (f · x)) (xs : List β) :
    Keeps (fun p => xs.foldl f p) := by
  induction xs with
  | nil => exact fun p => ⟨rfl, rfl⟩
  | cons x xs ih => exact (hf x).comp ih

theorem parseStatusLine_keeps (buffer : Text) : Keeps (parseStatusLine · buffer) := by
  have hname : Keeps (readName buffer) := by
    intro p
    unfold readName
    dsimp only
    split <;> exact ⟨rfl, rfl⟩
  have hmemory : Keeps (readMemory buffer) := by
    intro p
    unfold readMemory
    dsimp only
    split <;> exact ⟨rfl, rfl⟩
  have huid : Keeps (readUid buffer) := by
    intro p
    unfold readUid
    split <;> exact ⟨rfl, rfl⟩
  have hgid : Keeps (readGid buffer) := by
    intro p
    unfold readGid
    split <;> exact ⟨rfl, rfl⟩
  intro p
  dsimp only [parseStatusLine]
  split
  · exact ⟨rfl, rfl⟩
  · exact ((hname.comp hmemory).comp (huid.comp hgid)) p

theorem parseStatus_keeps (files : ProcFiles) : Keeps (fun p => (parseStatus files p).2) := by
  intro p
  unfold parseStatus
  split
  · exact ⟨rfl, rfl⟩
  · exact Keeps.foldl parseStatusLine_keeps _ p

theorem parseCmdline_keeps (files : ProcFiles) : Keeps (fun p => (parseCmdline files p).2) := by
  intro p
  unfold parseCmdline
  split
  · exact ⟨rfl, rfl⟩
  · dsimp only [readCmdline]
    split <;> exact ⟨rfl, rfl⟩

theorem parseIo_keeps (files : ProcFiles) : Keeps (fun p => (parseIo files p).2) := by
  have hline : ∀ buffer, Keeps (parseIoLine · buffer) := by
    intro buffer p
    dsimp only [parseIoLine, readWchar, readRchar]
    split
    · exact ⟨rfl, rfl⟩
    · split <;> split <;> exact ⟨rfl, rfl⟩
  intro p
  unfold parseIo
  split
  · exact ⟨rfl, rfl⟩
  · exact Keeps.foldl hline _ p

theorem parseUserAndGroup_keeps (files : ProcFiles) : Keeps (fun p => (parseUserAndGroup files p).2) := by
  have huser : Keeps (setUser files) := by
    intro p
    unfold setUser
    split <;> exact ⟨rfl, rfl⟩
  have hgroup : Keeps (setGroup files) := by
    intro p
    unfold setGroup
    split <;> exact ⟨rfl, rfl⟩
  exact huser.comp hgroup

theorem parseRest_keeps (files : ProcFiles) (imemory : UInt64) : Keeps (parseRest files imemory) := by
  have hhandle : Keeps (fun p => (parseHandle files p).2) := by
    intro p
    unfold parseHandle
    split <;> exact ⟨rfl, rfl⟩
  exact ((parseIo_keeps files).comp (parseUserAndGroup_keeps files)).comp hhandle

/-! ## What a parse reads -/

/-- The tick counts one parse reads, when it gets as far as an open `/proc/<pid>/stat`. -/
def ticksRead (files : ProcFiles) : Option (List UInt64) :=
  if files.status.isSome ∧ files.cmdline.isSome then files.stat.map (List.filterMap statTicks) else none

def beforeStat (files : ProcFiles) (imemory : UInt64) (p : CapProcess) : CapProcess :=
  parseRest files imemory (parseCmdline files (parseStatus files p).2).2

theorem beforeStat_keeps (files : ProcFiles) (imemory : UInt64) : Keeps (beforeStat files imemory) :=
  ((parseStatus_keeps files).comp (parseCmdline_keeps files)).comp (parseRest_keeps files imemory)

/-- A parse that does not reach an open `stat` file touches no cpu field. -/
theorem parse_of_ticksRead_none (call : ℕ) (files : ProcFiles) (imemory : UInt64) (ideltacpu : Interval)
    (p : CapProcess) (h : p.pid = -1 ∨ ticksRead files = none) :
    (parse call files imemory ideltacpu p).traffic = p.traffic ∧
      (parse call files imemory ideltacpu p).cpuFields = p.cpuFields := by
  unfold parse parseProc
  split
  · exact ⟨rfl, rfl⟩
  · next hpid =>
    have hnone := h.resolve_left hpid
    dsimp only
    split
    · exact parseStatus_keeps files p
    · next hs =>
      split
      · exact (parseStatus_keeps files).comp (parseCmdline_keeps files) p
      · next hc =>
        have hstat : files.stat = none := by
          cases hst : files.status with
          | none => simp [parseStatus, hst, capProcessOpen] at hs
          | some lines =>
            cases hcl : files.cmdline with
            | none => simp [parseCmdline, hcl, capProcessOpen] at hc
            | some content => simpa [ticksRead, hst, hcl] using hnone
        simp only [parseStat, hstat, capProcessOpen, ne_eq, OfNat.ofNat_ne_zero, not_false_eq_true, if_true]
        exact beforeStat_keeps files imemory p

/-- A parse that does computes a percentage from the last two readings of the ticks. -/
theorem parse_of_ticksRead_some (call : ℕ) (files : ProcFiles) (imemory : UInt64) (ideltacpu : Interval)
    (p : CapProcess) (ts : List UInt64) (hpid : p.pid ≠ -1) (h : ticksRead files = some ts) :
    parse call files imemory ideltacpu p =
      { ts.foldl (advance call) (beforeStat files imemory p) with
        cpuPercent := some ⟨(ts.foldl (advance call) (beforeStat files imemory p)).deltaCpu, ideltacpu⟩ } := by
  unfold ticksRead at h
  split at h
  · next hopen =>
    obtain ⟨lines, hstatus⟩ := Option.isSome_iff_exists.mp hopen.1
    obtain ⟨content, hcmdline⟩ := Option.isSome_iff_exists.mp hopen.2
    obtain ⟨stat, hstat, rfl⟩ := Option.map_eq_some_iff.mp h
    simp [parse, parseProc, hpid, parseStatus, hstatus, parseCmdline, hcmdline, parseStat, hstat, beforeStat]
  · cases h

theorem foldl_advance_traffic (call : ℕ) (ts : List UInt64) (p : CapProcess) :
    (ts.foldl (advance call) p).traffic = p.traffic := by
  induction ts generalizing p with
  | nil => rfl
  | cons t ts ih => exact ih (advance call p t)

theorem parse_traffic (call : ℕ) (files : ProcFiles) (imemory : UInt64) (ideltacpu : Interval)
    (p : CapProcess) : (parse call files imemory ideltacpu p).traffic = p.traffic := by
  by_cases h : p.pid = -1 ∨ ticksRead files = none
  · exact (parse_of_ticksRead_none call files imemory ideltacpu p h).1
  · obtain ⟨hpid, hts⟩ := not_or.mp h
    obtain ⟨ts, hts⟩ := Option.ne_none_iff_exists'.mp hts
    rw [parse_of_ticksRead_some call files imemory ideltacpu p ts hpid hts]
    exact (foldl_advance_traffic call ts _).trans (beforeStat_keeps files imemory p).1

end CapProcess
end Capture
