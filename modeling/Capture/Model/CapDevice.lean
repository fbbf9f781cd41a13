import Capture.Foundations.AddressText

/-! # Interface addresses

`LocalAddr` and `CapDevice`, and the two overloads of `CaptureCxx::Contains`. A device is
one entry of the list `getifaddrs` returns, that is one address of an interface and not
one interface. -/
namespace Capture
open SeparatedText AddressText

set_option autoImplicit false

inductive Family where
  | unspec
  | inet
  | inet6
  deriving DecidableEq, Repr

/-- `inet_ntop` into a buffer of `size` characters that holds `dst`: a text that does not
fit with its terminator is not written. -/
def inetNtop (text : Text) (size : ℕ) (dst : Text) : Text := if text.length < size then text else dst

theorem inetNtop_fits {text : Text} {size : ℕ} (h : text.length < size) (dst : Text) :
    inetNtop text size dst = text := if_pos h

/-! ## `LocalAddr` -/

/-- The address fields are meaningful under the family that set them. -/
structure LocalAddr where
  addrV4 : In4Addr := fun _ => 0
  addrV6 : In6Addr := fun _ => 0
  family : Family := .unspec
  strV4 : Text := []
  strV6 : Text := []

namespace LocalAddr

/-- `Init(in_addr_t)`: the buffer has room for 15 characters with the terminator. -/
def init4 (l : LocalAddr) (inAddrV4 : In4Addr) : LocalAddr :=
  { l with addrV4 := inAddrV4, family := .inet, strV4 := inetNtop (ntop4 inAddrV4) 15 l.strV4 }

def init6 (l : LocalAddr) (inAddrV6 : In6Addr) : LocalAddr :=
  { l with addrV6 := inAddrV6, family := .inet6, strV6 := inetNtop (ntop6 inAddrV6) 63 l.strV6 }

def getStr (l : LocalAddr) : Text := if l.family = .inet then l.strV4 else l.strV6

def contains6 (l : LocalAddr) (a : In6Addr) : Bool := l.family = .inet6 ∧ l.addrV6 = a

def contains4 (l : LocalAddr) (a : In4Addr) : Bool := l.family = .inet ∧ a = l.addrV4

end LocalAddr

/-! ## `CapDevice` -/

/-- A socket address as `getifaddrs` reports it; `packet` stands for every family other
than the two internet ones. -/
inductive SockAddr where
  | inet (a : In4Addr)
  | inet6 (a : In6Addr)
  | packet
  deriving DecidableEq

structure Ifaddr where
  name : Option Text
  flags : UInt32
  addr : Option SockAddr

structure CapDevice where
  name : Text
  flags : UInt32
  localAddr : LocalAddr

namespace CapDevice

/-- `CapDevice::Init`, which always returns 0. -/
def init (name : Option Text) (flags : UInt32) (addr : SockAddr) : CapDevice :=
  { name := name.getD "unknow device".toList
    flags := flags
    localAddr := match addr with
      | .inet a => ({} : LocalAddr).init4 a
      | .inet6 a => ({} : LocalAddr).init6 a
      | .packet => {} }

def iffUp : UInt32 := 0x1
def iffLoopback : UInt32 := 0x8
def iffRunning : UInt32 := 0x40

def upRunning (d : CapDevice) : Bool :=
  d.flags &&& iffLoopback = 0 ∧ d.flags &&& iffUp ≠ 0 ∧ d.flags &&& iffRunning ≠ 0

def getLocalAddr (d : CapDevice) : Text := d.localAddr.getStr

@[simp] theorem getLocalAddr_inet (name : Option Text) (flags : UInt32) (a : In4Addr) :
    (init name flags (.inet a)).getLocalAddr = inetNtop (ntop4 a) 15 [] := by
  simp [getLocalAddr, init, LocalAddr.getStr, LocalAddr.init4]

@[simp] theorem getLocalAddr_inet6 (name : Option Text) (flags : UInt32) (a : In6Addr) :
    (init name flags (.inet6 a)).getLocalAddr = inetNtop (ntop6 a) 63 [] := by
  simp [getLocalAddr, init, LocalAddr.getStr, LocalAddr.init6]

@[simp] theorem getLocalAddr_packet (name : Option Text) (flags : UInt32) :
    (init name flags .packet).getLocalAddr = [] := by
  simp [getLocalAddr, init, LocalAddr.getStr]

def address (d : CapDevice) : Option Address :=
  match d.localAddr.family with
  | .inet => some (.v4 d.localAddr.addrV4)
  | .inet6 => some (.v6 d.localAddr.addrV6)
  | .unspec => none

end CapDevice

/-! ## `CaptureCxx::Contains` -/

def contains4 (devices : List CapDevice) (a : In4Addr) : Bool := devices.any (·.localAddr.contains4 a)

def contains6 (devices : List CapDevice) (a : In6Addr) : Bool := devices.any (·.localAddr.contains6 a)

def contains (devices : List CapDevice) : Address → Bool
  | .v4 a => contains4 devices a
  | .v6 a => contains6 devices a

theorem contains_iff (devices : List CapDevice) (a : Address) :
    contains devices a = true ↔ ∃ d ∈ devices, d.address = some a := by
  cases a with
  | v4 a =>
    simp only [contains, contains4, List.any_eq_true, LocalAddr.contains4, decide_eq_true_eq]
    refine exists_congr fun d => and_congr_right fun _ => ?_
    unfold CapDevice.address
    cases d.localAddr.family <;> simp [eq_comm]
  | v6 a =>
    simp only [contains, contains6, List.any_eq_true, LocalAddr.contains6, decide_eq_true_eq]
    refine exists_congr fun d => and_congr_right fun _ => ?_
    unfold CapDevice.address
    cases d.localAddr.family <;> simp

end Capture
