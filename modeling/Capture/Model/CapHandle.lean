import Capture.Model.CapProcess

/-! # Capture handles

`CapHandle` around a `pcap_t`, and what libpcap hands to it: the outcomes of opening a
device and, for each `pcap_dispatch`, the frames passed to the callback and the value
returned. The library is not part of the sources, so both are inputs of the model. -/
namespace Capture
open SeparatedText AddressText

set_option autoImplicit false

/-! ## What libpcap supplies -/

/-- A frame as the callback receives it. `bytes` is the memory behind the packet pointer,
of which the first `caplen` bytes belong to the frame. `serial` tells the frames of an
interface apart and no code reads it. `files` is what a `CapProcess::Parse` made while
the frame is handled finds in `/proc`. -/
structure Frame where
  serial : ℕ
  len : UInt32
  caplen : UInt32
  bytes : ℕ → UInt8
  files : Pid → ProcFiles := fun _ => ProcFiles.absent

/-- The two bytes at an offset, most significant first: `ntohs` of the field there. -/
def Frame.ntohs (f : Frame) (offset : ℕ) : UInt16 :=
  (f.bytes offset).toUInt16 <<< 8 ||| (f.bytes (offset + 1)).toUInt16

/-- One `pcap_dispatch`: it returns the number of frames it passed on, an `int`, or a
negative error. -/
structure Dispatch where
  frames : List Frame
  ret : ℤ
  ret_eq : ret = frames.length ∨ ret < 0
  fits : frames.length < 2 ^ 31

/-- The outcomes of `pcap_open_live`, `pcap_compile`, `pcap_setfilter`, `pcap_datalink`
and `pcap_setnonblock` on one device. -/
structure PcapOpen where
  opened : Bool
  compiled : Bool
  filtered : Bool
  datalink : ℤ
  nonblock : ℤ

structure Pcap where
  id : ℕ
  device : Text
  deriving DecidableEq

/-! ## `CapHandle` -/

/-- `PcapCtx_t`: the union is meaningful under the family that set it. -/
inductive PcapCtx where
  | unspec
  | ip4 (src dst : In4Addr)
  | ip6 (src dst : In6Addr)
  deriving DecidableEq

structure CapHandle where
  handle : Option Pcap := none
  linktype : ℤ := 0
  context : PcapCtx := .unspec
  callback : Bool := false
  deriving DecidableEq

namespace CapHandle

def setContext (h : CapHandle) (c : PcapCtx) : CapHandle := { h with context := c }

def device (h : CapHandle) : Text := (h.handle.map Pcap.device).getD []

/-- `OpenLive` of a device, the new `pcap_t` being number `id`. A filter that does not
compile or cannot be set leaves a null handle behind. -/
def openLive (device : Text) (fliter : Bool) (id : ℕ) (o : PcapOpen) (h : CapHandle) : ℤ × CapHandle :=
  if ¬ o.opened then (capOpenDevice, { h with handle := none })
  else if fliter ∧ ¬ o.compiled then (capCompile, { h with handle := none })
  else if fliter ∧ ¬ o.filtered then (capFilter, { h with handle := none })
  else (0, { h with handle := some ⟨id, device⟩, linktype := o.datalink })

def setCallback (h : CapHandle) : CapHandle := { h with callback := true }

def setNonBlock (o : PcapOpen) (h : CapHandle) : ℤ := if h.handle = none then capHandleInit else o.nonblock

/-- `Dispatch`, as far as the handle goes: the frames `pcap_dispatch` passes to
`HandlePacket`, and the value returned. Without a `pcap_t` nothing is passed. -/
def dispatch (d : Dispatch) (h : CapHandle) : ℤ × List Frame :=
  if h.handle = none then (capHandleInit, []) else (d.ret, d.frames)

end CapHandle
end Capture
