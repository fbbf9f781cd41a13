import Capture.Model.CapDevice

/-! # One captured packet

`CapPacket`: direction, and the key under which the packet is looked up. The key puts
the local endpoint first, and the source is local when its address is a device address.
`Hash` caches its string and `IsOutgoing` caches the direction, so both pass the packet
on. -/
namespace Capture
open SeparatedText AddressText

set_option autoImplicit false

inductive CapDir where
  | unknown
  | incoming
  | outgoing
  deriving DecidableEq, Repr

def CapDir.invert : CapDir → CapDir
  | .incoming => .outgoing
  | .outgoing => .incoming
  | .unknown => .unknown

structure CapPacket where
  sip6 : In6Addr := fun _ => 0
  dip6 : In6Addr := fun _ => 0
  sip : In4Addr := fun _ => 0
  dip : In4Addr := fun _ => 0
  sport : UInt32 := 0
  dport : UInt32 := 0
  len : UInt32 := 0
  dir : CapDir := .unknown
  family : Family := .unspec
  hashstring : Text := []

/-- `address:port-address:port`, the text of both `Hash` and `Link`. -/
def linkText (laddr : Text) (lport : ℕ) (raddr : Text) (rport : ℕ) : Text :=
  laddr ++ ':' :: (decimal lport ++ '-' :: (raddr ++ ':' :: decimal rport))

namespace CapPacket

def source (p : CapPacket) : Address := if p.family = .inet then .v4 p.sip else .v6 p.sip6

def destination (p : CapPacket) : Address := if p.family = .inet then .v4 p.dip else .v6 p.dip6

def isOutgoing (devices : List CapDevice) (p : CapPacket) : Bool × CapPacket :=
  match p.dir with
  | .outgoing => (true, p)
  | .incoming => (false, p)
  | .unknown =>
      if contains devices p.source then (true, { p with dir := .outgoing })
      else (false, { p with dir := .incoming })

def hash (devices : List CapDevice) (p : CapPacket) : Text × CapPacket :=
  if p.hashstring ≠ [] then (p.hashstring, p)
  else
    let laddr := inetNtop p.source.text 49 []
    let raddr := inetNtop p.destination.text 49 []
    let out := isOutgoing devices p
    let h := if out.1 then linkText laddr p.sport.toNat raddr p.dport.toNat
      else linkText raddr p.dport.toNat laddr p.sport.toNat
    (h, { out.2 with hashstring := h })

def link (p : CapPacket) : Text :=
  linkText (inetNtop p.source.text 49 []) p.sport.toNat (inetNtop p.destination.text 49 []) p.dport.toNat

def init4 (devices : List CapDevice) (p : CapPacket) (isip : In4Addr) (isport : UInt16) (idip : In4Addr)
    (idport : UInt16) (ilen : UInt32) (idir : CapDir) : CapPacket :=
  (hash devices { p with sip := isip, sport := isport.toUInt32, dip := idip, dport := idport.toUInt32,
                         len := ilen, dir := idir, family := .inet }).2

def init6 (devices : List CapDevice) (p : CapPacket) (isip : In6Addr) (isport : UInt16) (idip : In6Addr)
    (idport : UInt16) (ilen : UInt32) (idir : CapDir) : CapPacket :=
  (hash devices { p with sip6 := isip, sport := isport.toUInt32, dip6 := idip, dport := idport.toUInt32,
                         len := ilen, dir := idir, family := .inet6 }).2

/-- `Invert`: the direction and the two endpoints change places; the cached string stays. -/
def invert (p : CapPacket) : CapDir × CapPacket :=
  let q := { p with dir := p.dir.invert }
  match p.family with
  | .inet => (q.dir, { q with sip := p.dip, dip := p.sip, sport := p.dport, dport := p.sport })
  | .inet6 => (q.dir, { q with sip6 := p.dip6, dip6 := p.sip6, sport := p.dport, dport := p.sport })
  | .unspec => (q.dir, q)

/-! ## A packet initialised with unknown direction -/

/-- The key of a packet from `src:sport` to `dst:dport`, local endpoint first. -/
def keyText (devices : List CapDevice) (src : Address) (sport : ℕ) (dst : Address) (dport : ℕ) : Text :=
  if contains devices src then linkText src.text sport dst.text dport
  else linkText dst.text dport src.text sport

theorem linkText_ne_nil (laddr : Text) (lport : ℕ) (raddr : Text) (rport : ℕ) :
    linkText laddr lport raddr rport ≠ [] := by
  simp [linkText]

theorem hash_of_unknown (devices : List CapDevice) (p : CapPacket) (hh : p.hashstring = [])
    (hd : p.dir = .unknown) :
    hash devices p = (keyText devices p.source p.sport.toNat p.destination p.dport.toNat,
      { p with dir := if contains devices p.source then .outgoing else .incoming
               hashstring := keyText devices p.source p.sport.toNat p.destination p.dport.toNat }) := by
  unfold hash isOutgoing keyText
  rw [if_neg (by simp [hh]), hd, inetNtop_fits (Address.length_text_lt _), inetNtop_fits (Address.length_text_lt _)]
  by_cases h : contains devices p.source = true
  · simp [h]
  · simp [h]

theorem hash_cached (devices : List CapDevice) (p : CapPacket) (h : p.hashstring ≠ []) :
    hash devices p = (p.hashstring, p) := if_pos h

theorem keyText_ne_nil (devices : List CapDevice) (src : Address) (sport : ℕ) (dst : Address) (dport : ℕ) :
    keyText devices src sport dst dport ≠ [] := by
  unfold keyText
  split <;> exact linkText_ne_nil _ _ _ _

end CapPacket
end Capture
