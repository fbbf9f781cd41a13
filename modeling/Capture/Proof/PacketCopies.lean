import Capture.Model.PacketSlots
import Capture.Proof.CreditedOnly
import Capture.Proof.PacketBuffer

/-! # Who owns the copies of the frames

A handler that copies a frame allocates a block, and one that overwrites a slot frees the
block there first. Whatever is stored in whatever order, and whether or not it is copied,
no block is freed twice and none is lost: each is pointed to by one slot of the buffer, and
what is read through the pointers is the buffer of the model (`Represents.act`). -/
namespace Capture
open SeparatedText FormattedScan ReusedBuffer OwnedHeap

set_option autoImplicit false

/-! ## One packet -/

namespace PacketSlot

theorem memset_eq (slot : PacketSlot) : slot.memset = zeroed := by
  unfold memset
  rw [CharArray.memset_eq]
  rfl

/-- A slot that is filled reads as the record of the packet, with the copy it is given. -/
theorem read_assign (family : PacketType) (captureAll : Bool) (cap : CapPacket) (f : Frame) (offset : ℕ)
    (h : Heap (List UInt8)) (bag : Option ℕ) (hbag : h.read bag = PacketMemory.copyFrame captureAll f offset) :
    ({ zeroed.assign family cap f with packet := bag } : PacketSlot).read h =
      CaptureCxx.packetRecord family captureAll cap f offset := by
  have hcomman : captureCommanSize - 1 < captureCommanSize := by decide
  simp only [read, assign, zeroed, CharArray.text_strncpy_zeroed hcomman, hbag]
  rfl

end PacketSlot

namespace PacketMemory

/-- The pointer in slot `i`. -/
def pointers (slots : List PacketSlot) (i : ℕ) : Option ℕ := slots[i]?.bind PacketSlot.packet

theorem pointers_set (slots : List PacketSlot) (i : ℕ) (slot : PacketSlot) (hi : i < slots.length) :
    pointers (slots.set i slot) = Function.update (pointers slots) i slot.packet := by
  funext j
  unfold pointers
  by_cases hji : j = i
  · subst hji
    rw [Function.update_self, List.getElem?_set_self hi]
    rfl
  · rw [Function.update_of_ne hji, List.getElem?_set_ne (Ne.symm hji)]

theorem pointers_concat (slots : List PacketSlot) (slot : PacketSlot) :
    pointers (slots ++ [slot]) = Function.update (pointers slots) slots.length slot.packet := by
  funext j
  unfold pointers
  by_cases hj : j = slots.length
  · subst hj
    rw [Function.update_self, List.getElem?_concat_length]
    rfl
  · rw [Function.update_of_ne hj]
    rcases Nat.lt_or_gt_of_ne hj with hlt | hgt
    · rw [List.getElem?_append_left hlt]
    · rw [List.getElem?_eq_none (by simp; omega), List.getElem?_eq_none hgt.le]

theorem read_slot_congr {h h' : Heap (List UInt8)} {slot : PacketSlot} (hread : h'.read slot.packet = h.read slot.packet) :
    slot.read h' = slot.read h := by
  unfold PacketSlot.read
  rw [hread]

theorem read_set (h : Heap (List UInt8)) {h' : Heap (List UInt8)} (slots : List PacketSlot) (i : ℕ) (slot : PacketSlot)
    (hread : ∀ j, j ≠ i → h'.read (pointers slots j) = h.read (pointers slots j)) :
    (slots.set i slot).map (PacketSlot.read h') = (slots.map (PacketSlot.read h)).set i (slot.read h') := by
  rw [List.map_set]
  refine List.ext_getElem? fun j => ?_
  by_cases hji : j = i
  · rw [hji, List.getElem?_set_self', List.getElem?_set_self', List.getElem?_map, List.getElem?_map]
    cases slots[i]? <;> rfl
  · rw [List.getElem?_set_ne (Ne.symm hji), List.getElem?_set_ne (Ne.symm hji), List.getElem?_map, List.getElem?_map]
    have hj := hread j hji
    cases hslot : slots[j]? with
    | none => rfl
    | some slot' =>
      rw [pointers, hslot] at hj
      exact congrArg some (read_slot_congr hj)

theorem read_concat (h : Heap (List UInt8)) {h' : Heap (List UInt8)} (slots : List PacketSlot) (slot : PacketSlot)
    (hread : ∀ j, j ≠ slots.length → h'.read (pointers slots j) = h.read (pointers slots j)) :
    (slots ++ [slot]).map (PacketSlot.read h') = slots.map (PacketSlot.read h) ++ [slot.read h'] := by
  rw [List.map_append, List.map_singleton]
  refine congrArg (· ++ _) (List.ext_getElem? fun j => ?_)
  rw [List.getElem?_map, List.getElem?_map]
  by_cases hj : j < slots.length
  · have hother := hread j hj.ne
    rw [pointers, List.getElem?_eq_getElem hj] at hother
    rw [List.getElem?_eq_getElem hj]
    exact congrArg some (read_slot_congr hother)
  · rw [List.getElem?_eq_none (not_lt.mp hj)]
    rfl

end PacketMemory

namespace CaptureCxx

/-- The memory holds the packet buffer of the state, and owns what it points to. -/
structure Represents (m : PacketMemory) (s : CaptureCxx) : Prop where
  owned : Owned m.heap (PacketMemory.pointers m.slots)
  read : m.read = s.packetData
  idx : m.packetIdx = s.packetIdx

theorem Represents.congr {m : PacketMemory} {s s' : CaptureCxx} (h : Represents m s) (hdata : s'.packetData = s.packetData)
    (hidx : s'.packetIdx = s.packetIdx) : Represents m s' :=
  ⟨h.owned, h.read.trans hdata.symm, h.idx.trans hidx.symm⟩

theorem storePacket_packets (reused appended : PacketType) (cap : CapPacket) (f : Frame) (offset : ℕ) (s : CaptureCxx)
    (hcb : s.packetCallback = true) :
    (storePacket reused appended cap f offset s).packetIdx = s.packetIdx + 1 ∧
      (storePacket reused appended cap f offset s).packetData =
        if s.packetIdx < s.packetData.length then
          s.packetData.set s.packetIdx (packetRecord reused s.captureAll cap f offset)
        else s.packetData ++ [packetRecord appended s.captureAll cap f offset] := by
  unfold storePacket
  rw [if_pos hcb]
  by_cases hall : s.captureAll = true <;> by_cases hidx : s.packetIdx < s.packetData.length <;>
    simp [hall, hidx, emit]

theorem Represents.storePacket {m : PacketMemory} {s : CaptureCxx} (h : Represents m s) (hcb : s.packetCallback = true)
    (reused appended : PacketType) (cap : CapPacket) (f : Frame) (offset : ℕ) :
    ∃ m', m.storePacket reused appended s.captureAll cap f offset = some m' ∧
      Represents m' (CaptureCxx.storePacket reused appended cap f offset s) := by
  obtain ⟨hidx, hdata⟩ := storePacket_packets reused appended cap f offset s hcb
  have hlength : s.packetData.length = m.slots.length := by rw [← h.read, PacketMemory.read, List.length_map]
  unfold PacketMemory.storePacket
  cases hslot : m.slots[m.packetIdx]? with
  | some slot =>
    -- a slot is overwritten: its copy is freed, and it is filled like a new one
    have hlt : m.packetIdx < m.slots.length := (List.getElem?_eq_some_iff.mp hslot).1
    have hold : PacketMemory.pointers m.slots m.packetIdx = slot.packet := by rw [PacketMemory.pointers, hslot]; rfl
    obtain ⟨heap, hfree, howned, hread⟩ := h.owned.replace m.packetIdx (PacketMemory.copyFrame s.captureAll f offset)
    have hnew := hread m.packetIdx
    rw [Function.update_self, if_pos rfl] at hnew
    refine ⟨_, by dsimp only; rw [← hold, hfree]; rfl, ?_, ?_, ?_⟩
    · exact (congrArg (Owned _) (PacketMemory.pointers_set m.slots m.packetIdx _ hlt)).mpr howned
    · rw [hdata, if_pos (by rw [hlength, ← h.idx]; exact hlt), ← h.read, ← h.idx, PacketSlot.memset_eq]
      refine (PacketMemory.read_set m.heap m.slots m.packetIdx _ fun j hji => ?_).trans ?_
      · have hother := hread j
        rwa [Function.update_of_ne hji, if_neg hji] at hother
      · rw [PacketSlot.read_assign reused s.captureAll cap f offset _ _ hnew]
        rfl
    · rw [hidx, ← h.idx]
  | none =>
    have hge : m.slots.length ≤ m.packetIdx := List.getElem?_eq_none_iff.mp hslot
    have hnull : PacketMemory.pointers m.slots m.slots.length = none := by rw [PacketMemory.pointers, List.getElem?_eq_none le_rfl]; rfl
    obtain ⟨howned, hnew, hread⟩ := h.owned.allocNew m.slots.length hnull (PacketMemory.copyFrame s.captureAll f offset)
    refine ⟨_, rfl, ?_, ?_, ?_⟩
    · exact (congrArg (Owned _) (PacketMemory.pointers_concat m.slots _)).mpr howned
    · rw [hdata, if_neg (by rw [hlength, ← h.idx]; exact not_lt.mpr hge), ← h.read]
      refine (PacketMemory.read_concat m.heap m.slots _ fun j _ => hread j).trans ?_
      rw [PacketSlot.read_assign appended s.captureAll cap f offset _ _ hnew]
      rfl
    · rw [hidx, ← h.idx]

/-! ## Any order of calls -/

end CaptureCxx

/-- What happens to the buffer: an `Update` begins, or a packet is stored. -/
inductive PacketOp where
  | begin
  | store (reused appended : PacketType) (captureAll : Bool) (cap : CapPacket) (f : Frame) (offset : ℕ)

def PacketMemory.act (m : PacketMemory) : PacketOp → Option PacketMemory
  | .begin => some { m with packetIdx := 0 }
  | .store reused appended captureAll cap f offset => m.storePacket reused appended captureAll cap f offset

namespace CaptureCxx

def actPacket (s : CaptureCxx) : PacketOp → CaptureCxx
  | .begin => { s with packetIdx := 0 }
  | .store reused appended captureAll cap f offset =>
      storePacket reused appended cap f offset { s with packetCallback := true, captureAll := captureAll }

theorem represents_initial : Represents {} initial :=
  ⟨owned_empty, rfl, rfl⟩

theorem Represents.act {m : PacketMemory} {s : CaptureCxx} (h : Represents m s) (op : PacketOp) :
    ∃ m', m.act op = some m' ∧ Represents m' (actPacket s op) := by
  cases op with
  | begin => exact ⟨_, rfl, h.owned, h.read, rfl⟩
  | store reused appended captureAll cap f offset =>
    have hs : Represents m { s with packetCallback := true, captureAll := captureAll } := h.congr rfl rfl
    exact hs.storePacket rfl reused appended cap f offset

theorem Represents.acts {m : PacketMemory} {s : CaptureCxx} (h : Represents m s) (ops : List PacketOp) :
    ∃ m', ops.foldlM PacketMemory.act m = some m' ∧ Represents m' (ops.foldl actPacket s) := by
  induction ops generalizing m s with
  | nil => exact ⟨m, rfl, h⟩
  | cons op ops ih =>
    obtain ⟨m₁, hact, h₁⟩ := h.act op
    obtain ⟨m', hacts, h'⟩ := ih h₁
    exact ⟨m', by rw [List.foldlM_cons, hact]; exact hacts, h'⟩

/-! ## Every run -/

def storeOps (captureAll : Bool) (ys : List (Frame × Attributed)) : List PacketOp :=
  ys.map fun y => .store .tcp y.2.segment.family captureAll y.2.cap y.1 y.2.segment.offset

/-- What a call does to the packet buffer. -/
def packetOps (t : RunTrace.Step CaptureCxx Call) : List PacketOp :=
  match t.call with
  | .update u => .begin :: if t.before.packetCallback then storeOps t.before.captureAll (credits u t.before) else []
  | _ => []

theorem absorb_settings (y : Frame × Attributed) (s : CaptureCxx) :
    (absorb y.1 y.2 s).packetCallback = s.packetCallback ∧ (absorb y.1 y.2 s).captureAll = s.captureAll := by
  have hset := settings_settle y.1 (some y.2) s
  exact ⟨(congrArg CaptureCxx.packetCallback hset :), (congrArg CaptureCxx.captureAll hset :)⟩

theorem Represents.creditAll {m : PacketMemory} {s : CaptureCxx} (h : Represents m s) (hcb : s.packetCallback = true)
    (ys : List (Frame × Attributed)) :
    ∃ m', (storeOps s.captureAll ys).foldlM PacketMemory.act m = some m' ∧ Represents m' (CaptureCxx.creditAll ys s) := by
  induction ys generalizing m s with
  | nil => exact ⟨m, rfl, h⟩
  | cons y ys ih =>
    obtain ⟨hdata, hidx, -⟩ := addPacket_buffer y.1.files y.2.pid y.2.cap s
    obtain ⟨hcb', hall'⟩ := absorb_settings y s
    obtain ⟨m₁, hstore, h₁⟩ := (h.congr hdata hidx).storePacket ((addPacket_packetCallback _ _ _ _).trans hcb) .tcp
      y.2.segment.family y.2.cap y.1 y.2.segment.offset
    obtain ⟨m', hrest, h'⟩ := ih h₁ (hcb'.trans hcb)
    rw [addPacket_captureAll] at hstore
    have hrest' : (storeOps s.captureAll ys).foldlM PacketMemory.act m₁ = some m' := hall' ▸ hrest
    exact ⟨m', by rw [storeOps, List.map_cons, List.foldlM_cons, PacketMemory.act, hstore]; exact hrest', h'⟩

/-- Without a packet callback a credited frame leaves the buffer alone. -/
theorem creditAll_off (s : CaptureCxx) (hcb : s.packetCallback = false) (ys : List (Frame × Attributed)) :
    (creditAll ys s).packetData = s.packetData ∧ (creditAll ys s).packetIdx = s.packetIdx := by
  induction ys generalizing s with
  | nil => exact ⟨rfl, rfl⟩
  | cons y ys ih =>
    obtain ⟨hdata, hidx, -⟩ := addPacket_buffer y.1.files y.2.pid y.2.cap s
    have hoff : (addPacket y.1.files y.2.pid y.2.cap s).packetCallback ≠ true := by simp [hcb]
    have habsorb : absorb y.1 y.2 s = addPacket y.1.files y.2.pid y.2.cap s := if_neg hoff
    obtain ⟨hdata', hidx'⟩ := ih (absorb y.1 y.2 s) ((absorb_settings y s).1.trans hcb)
    rw [habsorb] at hdata' hidx'
    exact ⟨by rw [creditAll, List.foldl_cons, habsorb]; exact hdata'.trans hdata,
      by rw [creditAll, List.foldl_cons, habsorb]; exact hidx'.trans hidx⟩

theorem Represents.update {m : PacketMemory} {s : CaptureCxx} (h : Represents m s) (u : UpdateInput) :
    ∃ m', (packetOps ⟨s, .update u, (update u s).2⟩).foldlM PacketMemory.act m = some m' ∧
      Represents m' (CaptureCxx.update u s).2 := by
  have hbegin : Represents { m with packetIdx := 0 } (beginUpdate u s) := ⟨h.owned, h.read, rfl⟩
  have hlasting := lasting_dispatched u s
  have hdata : (dispatched u s).packetData = (CaptureCxx.creditAll (credits u s) (beginUpdate u s)).packetData :=
    (congrArg CaptureCxx.packetData hlasting :)
  have hidx : (dispatched u s).packetIdx = (CaptureCxx.creditAll (credits u s) (beginUpdate u s)).packetIdx :=
    (congrArg CaptureCxx.packetIdx hlasting :)
  obtain ⟨hdata', hidx', -⟩ := laterStages_buffer u s (CaptureCxx.update u s).2 (by simp [laterStages])
  cases hcb : s.packetCallback with
  | true =>
    obtain ⟨m', hops, h'⟩ := hbegin.creditAll hcb (credits u s)
    refine ⟨m', ?_, h'.congr (hdata'.trans hdata) (hidx'.trans hidx)⟩
    have hon : packetOps ⟨s, .update u, (CaptureCxx.update u s).2⟩ = .begin :: storeOps s.captureAll (credits u s) :=
      congrArg (PacketOp.begin :: ·) (if_pos hcb)
    rw [hon]
    exact hops
  | false =>
    obtain ⟨hkeep, hkeep'⟩ := creditAll_off (beginUpdate u s) hcb (credits u s)
    refine ⟨_, ?_, hbegin.congr (hdata'.trans (hdata.trans hkeep)) (hidx'.trans (hidx.trans hkeep'))⟩
    have hoff : packetOps ⟨s, .update u, (CaptureCxx.update u s).2⟩ = [.begin] :=
      congrArg (PacketOp.begin :: ·) (if_neg (Bool.eq_false_iff.mp hcb))
    rw [hoff]
    rfl

theorem Represents.next {m : PacketMemory} {s : CaptureCxx} (h : Represents m s) (c : Call) :
    ∃ m', (packetOps ⟨s, c, next s c⟩).foldlM PacketMemory.act m = some m' ∧ Represents m' (next s c) := by
  cases c with
  | init i =>
    have hcarried := init_carried i s
    exact ⟨m, rfl, h.congr (congrArg CaptureCxx.packetData hcarried :) (congrArg CaptureCxx.packetIdx hcarried :)⟩
  | update u => exact h.update u
  | shutdown => exact ⟨m, rfl, h⟩

theorem Represents.run {m : PacketMemory} {s : CaptureCxx} (h : Represents m s) (cs : List Call) :
    ∃ m', ((RunTrace.steps CaptureCxx.next s cs).flatMap packetOps).foldlM PacketMemory.act m = some m' ∧
      Represents m' (cs.foldl CaptureCxx.next s) := by
  induction cs generalizing m s with
  | nil => exact ⟨m, rfl, h⟩
  | cons c cs ih =>
    obtain ⟨m₁, hfirst, h₁⟩ := h.next c
    obtain ⟨m', hrest, h'⟩ := ih h₁
    refine ⟨m', ?_, h'⟩
    rw [RunTrace.steps, List.flatMap_cons, List.foldlM_append, hfirst]
    exact hrest

/-- The packet buffer in memory, with its copies. Whatever packets are stored in whatever
order, each copied or not, no block is freed twice, each allocated block is pointed to by
exactly one slot, and the slots read as the buffer of the model; so it is in every run. -/
theorem packet_copies_owned :
    (∀ ops : List PacketOp, ∃ m, ops.foldlM PacketMemory.act {} = some m ∧
      Owned m.heap (PacketMemory.pointers m.slots) ∧ m.read = (ops.foldl actPacket initial).packetData) ∧
      ∀ cs : List Call, ∃ m, ((run cs).flatMap packetOps).foldlM PacketMemory.act {} = some m ∧
        Owned m.heap (PacketMemory.pointers m.slots) ∧ m.read = (reached cs).packetData := by
  refine ⟨fun ops => ?_, fun cs => ?_⟩
  · obtain ⟨m, hacts, h⟩ := represents_initial.acts ops
    exact ⟨m, hacts, h.owned, h.read⟩
  · obtain ⟨m, hrun, h⟩ := represents_initial.run cs
    exact ⟨m, hrun, h.owned, h.read⟩

end CaptureCxx
end Capture
