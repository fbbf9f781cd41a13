import Capture.Foundations.OwnedHeap
import Capture.Foundations.ReusedBuffer
import Capture.Model.CaptureState

/-! # The packet buffer in memory

`packetData` as the two handlers write it: a slot is a `Packet_t` with its character array
and a pointer to the copy of the frame. A slot that is overwritten has its old copy freed
first. `malloc` is taken to succeed. -/
namespace Capture
open SeparatedText FormattedScan ReusedBuffer OwnedHeap

set_option autoImplicit false

structure PacketSlot where
  hash : CharArray captureCommanSize
  family : PacketType
  packet : Option ℕ
  packetSize : UInt32

namespace PacketSlot

/-- `memset(&temp, 0, sizeof(Packet_t))` of a new record; `P_TCP` is 0. -/
def zeroed : PacketSlot := { hash := .zeroed captureCommanSize, family := .tcp, packet := none, packetSize := 0 }

/-- `memset` of a slot that holds a record already. -/
def memset (slot : PacketSlot) : PacketSlot := { zeroed with hash := slot.hash.memset }

/-- The assignments of both branches, but for the copy. -/
def assign (family : PacketType) (cap : CapPacket) (f : Frame) (slot : PacketSlot) : PacketSlot :=
  { slot with
    family := family
    hash := slot.hash.strncpy (captureCommanSize - 1) cap.link
    packetSize := f.len }

/-- The record a reader of the slot finds. -/
def read (h : Heap (List UInt8)) (slot : PacketSlot) : PacketRecord :=
  { hash := slot.hash.text
    family := slot.family
    packet := h.read slot.packet
    packetSize := slot.packetSize }

end PacketSlot

structure PacketMemory where
  slots : List PacketSlot := []
  packetIdx : ℕ := 0
  heap : Heap (List UInt8) := Heap.empty

namespace PacketMemory

/-- `malloc(header->len)` and `memcpy` of the frame, if the frame is to be copied. -/
def copyFrame (captureAll : Bool) (f : Frame) (offset : ℕ) : Option (List UInt8) :=
  if captureAll then some ((List.range f.len.toNat).map fun i => f.bytes (offset + i)) else none

/-- What the handlers do with a packet that resolves; `none` if a block is freed that is not
allocated. -/
def storePacket (reused appended : PacketType) (captureAll : Bool) (cap : CapPacket) (f : Frame) (offset : ℕ)
    (m : PacketMemory) : Option PacketMemory :=
  match m.slots[m.packetIdx]? with
  | some slot => do
      let heap ← m.heap.freeOld slot.packet
      let slot := slot.memset.assign reused cap f
      let bag := heap.allocNew (copyFrame captureAll f offset)
      some { slots := m.slots.set m.packetIdx { slot with packet := bag.1 }, packetIdx := m.packetIdx + 1, heap := bag.2 }
  | none =>
      let temp := PacketSlot.zeroed.assign appended cap f
      let bag := m.heap.allocNew (copyFrame captureAll f offset)
      some { slots := m.slots ++ [{ temp with packet := bag.1 }], packetIdx := m.packetIdx + 1, heap := bag.2 }

/-- The records in the buffer. -/
def read (m : PacketMemory) : List PacketRecord := m.slots.map (PacketSlot.read m.heap)

end PacketMemory
end Capture
