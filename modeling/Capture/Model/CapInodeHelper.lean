import Capture.Foundations.FormattedScan
import Capture.Foundations.OrderedTable
import Capture.Model.CapProcess

/-! # From a packet key to a process

`CapInodeHelper`: the map from key to socket inode built out of the four `/proc/net`
files, and the map from inode to pid built out of the `/proc/<pid>/fd` directories. Each
socket row writes its own key and one key per device; a later row overwrites. -/
namespace Capture
open SeparatedText AddressText FormattedScan OrderedTable

set_option autoImplicit false

/-! ## Socket rows -/

inductive RowAddrs where
  | inet (loc rem : In4Addr)
  | inet6 (loc rem : In6Addr)
  deriving DecidableEq

/-- A decoded row of `/proc/net/{tcp,tcp6,udp,udp6}`. The ports are the `int`s the scan
stores, the inode is the `unsigned long`. -/
structure SocketRow where
  addrs : RowAddrs
  locPort : ℤ
  remPort : ℤ
  inode : UInt64
  deriving DecidableEq

def SocketRow.loc (r : SocketRow) : Address :=
  match r.addrs with
  | .inet a _ => .v4 a
  | .inet6 a _ => .v6 a

def SocketRow.rem (r : SocketRow) : Address :=
  match r.addrs with
  | .inet _ b => .v4 b
  | .inet6 _ b => .v6 b

/-- Byte `j` of a host-order word on a little-endian machine. -/
def wordByte (w : UInt32) (j : ℕ) : UInt8 := (w >>> UInt32.ofNat (8 * j)).toUInt8

def wordAddr4 (w : UInt32) : In4Addr := fun i => wordByte w i

def wordsAddr6 (w0 w1 w2 w3 : UInt32) : In6Addr := fun i =>
  wordByte (if i.val < 4 then w0 else if i.val < 8 then w1 else if i.val < 12 then w2 else w3) (i.val % 4)

/-- The word a `%X` stores, or the zero the variable was initialised with. -/
def scannedWord (r : Result) (i : ℕ) : UInt32 := UInt32.ofInt ((r.number i).getD 0)

def decodeAddrs (locAddr remAddr : Text) : RowAddrs :=
  if 8 < locAddr.length then
    let l := sscanf locAddr "%08X%08X%08X%08X"
    let r := sscanf remAddr "%08X%08X%08X%08X"
    if scannedWord l 0 = 0 ∧ scannedWord l 1 = 0 ∧ scannedWord l 2 = 0xFFFF0000 then
      .inet (wordAddr4 (scannedWord l 3)) (wordAddr4 (scannedWord r 3))
    else
      .inet6 (wordsAddr6 (scannedWord l 0) (scannedWord l 1) (scannedWord l 2) (scannedWord l 3))
        (wordsAddr6 (scannedWord r 0) (scannedWord r 1) (scannedWord r 2) (scannedWord r 3))
  else
    .inet (wordAddr4 (scannedWord (sscanf locAddr "%X") 0)) (wordAddr4 (scannedWord (sscanf remAddr "%X") 0))

def storedInt (z : ℤ) : ℤ := z.bmod (2 ^ 32)

/-- The scan of `ParseBuffer`; a line with fewer than five assignments is not a row. -/
def decodeRow (buffer : Text) : Option SocketRow :=
  match (sscanf buffer ("%*d: %64[0-9A-Fa-f]:%X %64[0-9A-Fa-f]:%X %*X " ++
      "%*X:%*X %*X:%*X %*X %*d %*d %ld %*512s\n")).values with
  | [.text locAddr, .number locPort, .text remAddr, .number remPort, .number inode] =>
      some { addrs := decodeAddrs locAddr remAddr
             locPort := storedInt locPort
             remPort := storedInt remPort
             inode := UInt64.ofInt inode }
  | _ => none

/-! ## The two maps -/

structure CapInodeHelper where
  netToInodes : Text → Option UInt32 := fun _ => none
  inodeToPids : UInt32 → Option Pid := fun _ => none

/-- The key of the row itself; there is no colon before the remote port. -/
def SocketRow.ownKey (r : SocketRow) : Text :=
  inetNtop r.loc.text 49 [] ++ ':' :: (decimalInt r.locPort ++ '-' ::
    (inetNtop r.rem.text 49 [] ++ decimalInt r.remPort))

def SocketRow.deviceKey (r : SocketRow) (device : Text) : Text :=
  device ++ ':' :: (decimalInt r.locPort ++ '-' ::
    (inetNtop r.rem.text 49 [] ++ ':' :: decimalInt r.remPort))

def SocketRow.keys (r : SocketRow) (devices : List CapDevice) : List Text :=
  r.ownKey :: devices.map fun d => r.deviceKey d.getLocalAddr

namespace CapInodeHelper

def writeKey (inode : UInt32) (m : Text → Option UInt32) (key : Text) : Text → Option UInt32 :=
  Function.update m key (some inode)

/-- The storing part of `ParseBuffer`: a row with inode 0 is skipped; the map holds 32 bits. -/
def storeRow (devices : List CapDevice) (h : CapInodeHelper) (r : SocketRow) : CapInodeHelper :=
  if r.inode = 0 then h
  else { h with netToInodes := (r.keys devices).foldl (writeKey r.inode.toUInt32) h.netToInodes }

def parseBuffer (devices : List CapDevice) (h : CapInodeHelper) (buffer : Text) : CapInodeHelper :=
  match decodeRow buffer with
  | some r => storeRow devices h r
  | none => h

/-- `Parse` of one file: `none` cannot be opened. -/
def parse (devices : List CapDevice) (file : Option (List Text)) (h : CapInodeHelper) : ℤ × CapInodeHelper :=
  match file with
  | none => (capProcessOpen, h)
  | some lines => (0, (lines.filter fun l => cString l ≠ []).foldl (parseBuffer devices) h)

end CapInodeHelper

/-- An entry of an fd directory: whether it is `DT_LNK`, and what `readlink` returns. -/
structure FdEntry where
  isLink : Bool
  target : Option Text

structure RefreshInput where
  tcp : Option (List Text) := none
  tcp6 : Option (List Text) := none
  udp : Option (List Text) := none
  udp6 : Option (List Text) := none
  fd : Pid → Option (List FdEntry) := fun _ => none

namespace CapInodeHelper

def refreshToInodes (devices : List CapDevice) (i : RefreshInput) (h : CapInodeHelper) : ℤ × CapInodeHelper :=
  let tcp := parse devices i.tcp h
  if tcp.1 ≠ 0 then tcp
  else
    let tcp6 := parse devices i.tcp6 tcp.2
    if tcp6.1 ≠ 0 then tcp6
    else
      let udp := parse devices i.udp tcp6.2
      if udp.1 ≠ 0 then udp
      else parse devices i.udp6 udp.2

/-- One directory entry: a link whose text scans as a socket gives its inode to `pid`. -/
def linkEntry (pid : Pid) (h : CapInodeHelper) (e : FdEntry) : CapInodeHelper :=
  if e.isLink then
    match e.target with
    | none => h
    | some target =>
        let r := sscanf (target.take 79) "socket:[ %d]"
        if r.holds then
          { h with inodeToPids := Function.update h.inodeToPids (scannedWord r 0) (some pid) }
        else h
  else h

/-- The first directory that cannot be opened ends the loop. -/
def refreshToPids (i : RefreshInput) : List Pid → CapInodeHelper → ℤ × CapInodeHelper
  | [], h => (0, h)
  | pid :: pids, h =>
      match i.fd pid with
      | none => (capProcessOpenDir, h)
      | some entries => refreshToPids i pids (entries.foldl (linkEntry pid) h)

def refresh (devices : List CapDevice) (pids : List Pid) (i : RefreshInput) : ℤ × CapInodeHelper :=
  let inodes := refreshToInodes devices i {}
  if inodes.1 ≠ 0 then inodes else refreshToPids i pids inodes.2

/-- `GetPidByIp`: the code, and the pid when the code is 0. -/
def getPidByIp (h : CapInodeHelper) (hash : Text) : ℤ × Option Pid :=
  match h.netToInodes hash with
  | none => (capFindIp, none)
  | some inode =>
      match h.inodeToPids inode with
      | none => (capFindInode, none)
      | some pid => (0, some pid)

end CapInodeHelper

example : (decodeRow
    ("   1: 0100007F:1F90 0200000A:0050 01 00000000:00000000 00:00000000 00000000  1000        " ++
      "0 4242 1 0000000000000000").toList).map (fun r => (r.locPort, r.remPort, r.inode)) =
    some (8080, 80, 4242) := by decide +kernel

end Capture
