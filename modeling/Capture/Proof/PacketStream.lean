import Capture.Proof.HostTraffic
import Capture.Proof.PacketBuffer

/-! # The packets an `Update` records

On a host as its kernel shows it, the records an `Update` writes are those of the packets
whose conversations have an owner, in the order in which they came, whatever handles they
came on; and a record says which packet it is of (`packets_recorded_owned`). -/
namespace Capture
open SeparatedText AddressText FormattedScan OrderedTable

set_option autoImplicit false

namespace PlainPacket

/-- How a record names the packet: its ends from the sender to the receiver. -/
def linkText (p : PlainPacket) : Text :=
  Capture.linkText p.source.text p.sport.toNat p.destination.text p.dport.toNat

theorem linkText_injective {p q : PlainPacket} (h : p.linkText = q.linkText) :
    p.source = q.source ∧ p.sport = q.sport ∧ p.destination = q.destination ∧ p.dport = q.dport := by
  obtain ⟨hsource, hsport, hdestination, hdport⟩ := CapPacket.linkText_injective h
  exact ⟨hsource, UInt16.toNat_inj.mp hsport, hdestination, UInt16.toNat_inj.mp hdport⟩

end PlainPacket

namespace CaptureCxx

theorem recordOf_carried {devices : List CapDevice} {x : CapHandle × Frame} {r : PacketRecord}
    (h : RecordOf devices x r) {p : PlainPacket} (hp : Carries x p) : r.hash = p.linkText ∧ r.packetSize = x.2.len := by
  obtain ⟨g, cap, hdecode, hpacket, hhash, hlink, -, -, hsize⟩ := h
  obtain ⟨link, hframed, htype⟩ := hp
  rw [htype, hframed.decode] at hdecode
  cases hdecode
  have hcap := (hframed.packetOf devices).symm.trans hpacket
  cases hcap
  have hheld := p.heldBy_ofFlow devices x.2.len
  refine ⟨?_, hsize⟩
  rw [hhash, hlink, hheld.source, hheld.destination, hheld.sport, hheld.dport, UInt16.toNat_toUInt32,
    UInt16.toNat_toUInt32]
  rfl

open Classical in
/-- The frames whose conversation has an owner among the processes of the snapshot. -/
noncomputable def ownedFrames (devices : List CapDevice) (host : Host) (pids : Table Pid Unit)
    (packet : CapHandle × Frame → PlainPacket) (xs : List (CapHandle × Frame)) : List (CapHandle × Frame) :=
  xs.filter fun x => ∃ pid, host.Owns devices pids ((packet x).ends devices) pid

theorem accepted_carried {s : CaptureCxx} (hd : ∀ d ∈ s.devices, Usable d) (host : Host) (pids : Table Pid Unit)
    (hinodes : s.inodes = (CapInodeHelper.refresh s.devices pids.keys host.shown).2)
    (packet : CapHandle × Frame → PlainPacket) (xs : List (CapHandle × Frame))
    (hxs : ∀ x ∈ xs, Working s.devices x.1 ∧ Carries x (packet x)) :
    accepted xs s = ownedFrames s.devices host pids packet xs := by
  rw [accepted_eq, ownedFrames]
  refine List.filter_congr fun x hx => ?_
  obtain ⟨hworking, hcarries⟩ := hxs x hx
  rw [Bool.eq_iff_iff, Option.isSome_iff_exists, hinodes]
  simp only [decide_eq_true_eq]
  constructor
  · rintro ⟨a, ha⟩
    exact ⟨a.pid, (attribute_pid_iff hd host pids hworking hcarries a.pid).mp ⟨a, ha, rfl⟩⟩
  · rintro ⟨pid, hpid⟩
    obtain ⟨a, ha, -⟩ := (attribute_pid_iff hd host pids hworking hcarries pid).mpr hpid
    exact ⟨a, ha⟩

/-- The buffer of a call, read as a list. -/
theorem BufferHolds.stream {old : List PacketRecord} {ys : List (CapHandle × Frame)} {s : CaptureCxx}
    (h : BufferHolds old ys s) {packet : CapHandle × Frame → PlainPacket} (hys : ∀ y ∈ ys, Carries y (packet y)) :
    (s.packetData.take s.packetIdx).map (fun r => (r.hash, r.packetSize)) =
      ys.map fun y => ((packet y).linkText, y.2.len) := by
  refine List.ext_getElem? fun j => ?_
  rw [List.getElem?_map, List.getElem?_map, List.getElem?_take, h.idx]
  cases hy : ys[j]? with
  | none =>
    have hj : ¬ j < ys.length := by simpa using hy
    rw [if_neg hj]
    rfl
  | some y =>
    have hj : j < ys.length := (List.getElem?_eq_some_iff.mp hy).1
    obtain ⟨r, hr, hrecord⟩ := h.filled j y hy
    obtain ⟨hhash, hsize⟩ := recordOf_carried hrecord (hys y (List.mem_of_getElem? hy))
    rw [if_pos hj, hr, Option.map_some, Option.map_some, hhash, hsize]

end CaptureCxx
end Capture
