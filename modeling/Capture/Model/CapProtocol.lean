import Capture.Model.CaptureState

/-! # From a frame to a handler

`CapProtocol`: link layer, then IP. The handle is passed along because its context is
set before a handler is called and handed to it. No function here looks at `caplen`. -/
namespace Capture
open AddressText

set_option autoImplicit false

def dltEn10mb : ℤ := 1
def dltRaw : ℤ := 12
def ethertypeIp : UInt16 := 0x0800
def ethertypeIpv6 : UInt16 := 0x86DD
def ipprotoTcp : UInt8 := 6
def ipprotoUdp : UInt8 := 17

def Frame.addr4 (f : Frame) (offset : ℕ) : In4Addr := fun i => f.bytes (offset + i)

def Frame.addr6 (f : Frame) (offset : ℕ) : In6Addr := fun i => f.bytes (offset + i)

namespace CapProtocol
open CaptureCxx

/-- The last switch of both IP readers. -/
def transport (proto : UInt8) (ctx : CapHandle) (f : Frame) (payload : ℕ) (s : CaptureCxx) : CaptureCxx :=
  if proto = ipprotoTcp then (processTcp ctx.context f payload s).2
  else if proto = ipprotoUdp then (processUdp ctx.context f payload s).2
  else s

def protocolIp4 (ctx : CapHandle) (f : Frame) (offset : ℕ) (s : CaptureCxx) : CapHandle × CaptureCxx :=
  let ctx := ctx.setContext (.ip4 (f.addr4 (offset + 12)) (f.addr4 (offset + 16)))
  (ctx, transport (f.bytes (offset + 9)) ctx f (offset + 20)
    (emit (.read (offset + 9) 1) (emit (.read (offset + 12) 8) s)))

def protocolIp6 (ctx : CapHandle) (f : Frame) (offset : ℕ) (s : CaptureCxx) : CapHandle × CaptureCxx :=
  let ctx := ctx.setContext (.ip6 (f.addr6 (offset + 8)) (f.addr6 (offset + 24)))
  (ctx, transport (f.bytes (offset + 6)) ctx f (offset + 40)
    (emit (.read (offset + 6) 1) (emit (.read (offset + 8) 32) s)))

def protocolIp (ctx : CapHandle) (f : Frame) (s : CaptureCxx) : CapHandle × CaptureCxx :=
  if f.len < 1 then (ctx, s)
  else
    let s := emit (.read 0 1) s
    let version := f.bytes 0 &&& 0xF0
    if version = 0x40 then protocolIp4 ctx f 0 s
    else if version = 0x60 then protocolIp6 ctx f 0 s
    else (ctx, s)

def protocolEN10MB (ctx : CapHandle) (f : Frame) (s : CaptureCxx) : CapHandle × CaptureCxx :=
  let s := emit (.read 12 2) s
  let protocol := f.ntohs 12
  if protocol = ethertypeIp then protocolIp4 ctx f 14 s
  else if protocol = ethertypeIpv6 then protocolIp6 ctx f 14 s
  else (ctx, s)

def parse (ctx : CapHandle) (f : Frame) (s : CaptureCxx) : CapHandle × CaptureCxx :=
  let s := emit (.frame ctx.device f.serial) s
  if ctx.linktype = dltEn10mb then protocolEN10MB ctx f s
  else if ctx.linktype = dltRaw then protocolIp ctx f s
  else (ctx, s)

end CapProtocol

/-- `CapHandle::HandlePacket`: a handle without a callback drops the frame. -/
def CapHandle.handlePacket (ctx : CapHandle) (f : Frame) (s : CaptureCxx) : CapHandle × CaptureCxx :=
  if ctx.callback then CapProtocol.parse ctx f s else (ctx, s)

end Capture
