import Capture.Proof.FrameEffect

/-! # Which bytes of a frame are read

`CapProtocol` follows offsets given by the frame itself and compares none of them with
`caplen`. `extent` is the end of the last header field that is read; a frame that carries
a segment of a known process is read once more if the whole packet is to be copied, from
the transport header on and over the length of the whole frame. -/
namespace Capture
open SeparatedText AddressText OrderedTable

set_option autoImplicit false

/-- The bytes an event reads come before offset `n`. -/
def Event.Inside (n : ℕ) : Event → Prop
  | .read offset size => ∀ k < size, offset + k < n
  | _ => True

theorem Event.inside_read_iff (n offset size : ℕ) (h : 0 < size) :
    (Event.read offset size).Inside n ↔ offset + size ≤ n := by
  constructor
  · intro hread
    have := hread (size - 1) (by omega)
    omega
  · intro hle k hk
    omega

namespace CapProtocol
open CaptureCxx

/-! ## Where the reading ends -/

def transportEnd (proto : UInt8) (payload : ℕ) : ℕ :=
  if proto = ipprotoTcp ∨ proto = ipprotoUdp then payload + 4 else payload

def extentIp4 (f : Frame) (offset : ℕ) : ℕ := transportEnd (f.bytes (offset + 9)) (offset + 20)

def extentIp6 (f : Frame) (offset : ℕ) : ℕ := transportEnd (f.bytes (offset + 6)) (offset + 40)

/-- The end of the last header field read: both addresses of an IP header, both ports of a
transport header. -/
def extent (linktype : ℤ) (f : Frame) : ℕ :=
  if linktype = dltEn10mb then
    if f.ntohs 12 = ethertypeIp then extentIp4 f 14
    else if f.ntohs 12 = ethertypeIpv6 then extentIp6 f 14
    else 14
  else if linktype = dltRaw then
    if f.len < 1 then 0
    else if f.bytes 0 &&& 0xF0 = 0x40 then extentIp4 f 0
    else if f.bytes 0 &&& 0xF0 = 0x60 then extentIp6 f 0
    else 1
  else 0

theorem le_transportEnd (proto : UInt8) (payload : ℕ) : payload ≤ transportEnd proto payload := by
  unfold transportEnd
  split <;> omega

theorem transportEnd_of_segment {proto : UInt8} {context : PcapCtx} {payload : ℕ} {g : Segment}
    (h : segmentOf proto context payload = some g) : g.offset = payload ∧ transportEnd proto payload = payload + 4 := by
  obtain ⟨hoffset, -, hproto⟩ := segmentOf_eq_some h
  exact ⟨hoffset, if_pos hproto⟩

end CapProtocol

def IpHeader.extent (f : Frame) : IpHeader → ℕ
  | .ip4 offset => CapProtocol.extentIp4 f offset
  | .ip6 offset => CapProtocol.extentIp6 f offset

theorem IpHeader.le_extent (p : IpHeader) (f : Frame) : 20 ≤ p.extent f := by
  cases p with
  | ip4 offset =>
    have := CapProtocol.le_transportEnd (f.bytes (offset + 9)) (offset + 20)
    rw [extent, CapProtocol.extentIp4]
    omega
  | ip6 offset =>
    have := CapProtocol.le_transportEnd (f.bytes (offset + 6)) (offset + 40)
    rw [extent, CapProtocol.extentIp6]
    omega

theorem IpHeader.offset_of_decode {p : IpHeader} {f : Frame} {g : Segment} (h : p.decode f = some g) :
    20 ≤ g.offset ∧ g.offset + 4 = p.extent f := by
  cases p with
  | ip4 offset =>
    obtain ⟨hoffset, hend⟩ := CapProtocol.transportEnd_of_segment h
    rw [extent, CapProtocol.extentIp4, hend]
    omega
  | ip6 offset =>
    obtain ⟨hoffset, hend⟩ := CapProtocol.transportEnd_of_segment h
    rw [extent, CapProtocol.extentIp6, hend]
    omega

namespace CapProtocol

/-- The end of what the link layer reads. -/
def linkEnd (linktype : ℤ) (f : Frame) : ℕ :=
  if linktype = dltEn10mb then 14
  else if linktype = dltRaw then if f.len < 1 then 0 else 1
  else 0

theorem linkEnd_le (linktype : ℤ) (f : Frame) : linkEnd linktype f ≤ 14 := by
  unfold linkEnd
  repeat' split
  all_goals omega

theorem extent_eq (linktype : ℤ) (f : Frame) :
    extent linktype f = (ipHeader linktype f).elim (linkEnd linktype f) (IpHeader.extent f) := by
  unfold extent ipHeader linkEnd
  repeat' split
  all_goals rfl

/-- A segment starts behind an IP header, and its ports are the last thing read. -/
theorem offset_of_decode {linktype : ℤ} {f : Frame} {g : Segment} (h : decode linktype f = some g) :
    20 ≤ g.offset ∧ g.offset + 4 = extent linktype f := by
  rw [decode_eq] at h
  obtain ⟨p, hip, hp⟩ := Option.bind_eq_some_iff.mp h
  rw [extent_eq, hip]
  exact IpHeader.offset_of_decode hp

end CapProtocol

namespace CaptureCxx

/-! ## The reads of the headers -/

theorem inside_segmentEvents (n : ℕ) (proto : UInt8) (context : PcapCtx) (payload : ℕ) :
    (payload ≤ n ∧ ∀ e ∈ segmentEvents (CapProtocol.segmentOf proto context payload), e.Inside n) ↔
      CapProtocol.transportEnd proto payload ≤ n := by
  cases hg : CapProtocol.segmentOf proto context payload with
  | none =>
    have hproto := (CapProtocol.segmentOf_eq_none_iff proto context payload).mp hg
    rw [CapProtocol.transportEnd, if_neg hproto]
    simp [segmentEvents]
  | some g =>
    obtain ⟨rfl, hend⟩ := CapProtocol.transportEnd_of_segment hg
    have hhandler : (Event.handler g.family g.context g.offset).Inside n := trivial
    rw [hend, segmentEvents, List.forall_mem_cons, List.forall_mem_singleton,
      Event.inside_read_iff n g.offset 4 (by omega)]
    constructor
    · exact fun h => h.2.2
    · intro h
      exact ⟨by omega, hhandler, h⟩

theorem inside_ip4Events (n : ℕ) (f : Frame) (offset : ℕ) :
    (∀ e ∈ ip4Events f offset, e.Inside n) ↔ CapProtocol.extentIp4 f offset ≤ n := by
  rw [CapProtocol.extentIp4, ← inside_segmentEvents n _ (.ip4 (f.addr4 (offset + 12)) (f.addr4 (offset + 16)))]
  simp only [ip4Events, CapProtocol.decodeIp4, List.forall_mem_cons, Event.inside_read_iff n _ 8 (by omega),
    Event.inside_read_iff n _ 1 (by omega), ← and_assoc]
  refine and_congr_left' ?_
  omega

theorem inside_ip6Events (n : ℕ) (f : Frame) (offset : ℕ) :
    (∀ e ∈ ip6Events f offset, e.Inside n) ↔ CapProtocol.extentIp6 f offset ≤ n := by
  rw [CapProtocol.extentIp6, ← inside_segmentEvents n _ (.ip6 (f.addr6 (offset + 8)) (f.addr6 (offset + 24)))]
  simp only [ip6Events, CapProtocol.decodeIp6, List.forall_mem_cons, Event.inside_read_iff n _ 32 (by omega),
    Event.inside_read_iff n _ 1 (by omega), ← and_assoc]
  refine and_congr_left' ?_
  omega

theorem inside_ipEvents (n : ℕ) (f : Frame) (p : IpHeader) : (∀ e ∈ ipEvents f p, e.Inside n) ↔ p.extent f ≤ n := by
  cases p with
  | ip4 offset => exact inside_ip4Events n f offset
  | ip6 offset => exact inside_ip6Events n f offset

theorem inside_linkReads (n : ℕ) (linktype : ℤ) (f : Frame) :
    (∀ e ∈ CapProtocol.linkReads linktype f, e.Inside n) ↔ CapProtocol.linkEnd linktype f ≤ n := by
  unfold CapProtocol.linkReads CapProtocol.linkEnd
  split
  · rw [List.forall_mem_singleton, Event.inside_read_iff n 12 2 (by omega)]
  · split
    · split
      · simp
      · rw [List.forall_mem_singleton, Event.inside_read_iff n 0 1 (by omega)]
    · simp

theorem inside_protocolEvents (n : ℕ) (linktype : ℤ) (f : Frame) :
    (∀ e ∈ protocolEvents linktype f, e.Inside n) ↔ CapProtocol.extent linktype f ≤ n := by
  rw [protocolEvents_eq, CapProtocol.extent_eq, List.forall_mem_append, inside_linkReads]
  cases CapProtocol.ipHeader linktype f with
  | none => simp
  | some p =>
    rw [Option.elim_some, Option.elim_some, inside_ipEvents]
    refine and_iff_right_of_imp fun h => ?_
    -- an IP header ends behind everything the link layer reads
    have hlink := CapProtocol.linkEnd_le linktype f
    have hip := p.le_extent f
    omega

/-! ## The copy of the packet -/

def Confined (n : ℕ) (s : CaptureCxx) : Prop := ∀ e ∈ s.log, e.Inside n

theorem confined_emit (n : ℕ) (e : Event) (s : CaptureCxx) : Confined n (emit e s) ↔ Confined n s ∧ e.Inside n := by
  simp [Confined, emit, or_imp, forall_and]

theorem confined_addPacket (n : ℕ) (files : Pid → ProcFiles) (pid : Pid) (cap : CapPacket) (s : CaptureCxx) :
    Confined n (addPacket files pid cap s) ↔ Confined n s := by
  unfold Confined
  rcases addPacket_log files pid cap s with hlog | hlog
  · rw [hlog]
  · rw [hlog]
    simp [Event.Inside, or_imp, forall_and]

theorem confined_storePacket (n : ℕ) (reused appended : PacketType) (cap : CapPacket) (f : Frame) (offset : ℕ)
    (s : CaptureCxx) :
    Confined n (storePacket reused appended cap f offset s) ↔
      Confined n s ∧ (s.packetCallback = true → s.captureAll = true →
        (Event.read offset f.len.toNat).Inside n) := by
  have hrecord : ∀ (j : ℕ) (d : PacketRecord) (s' : CaptureCxx),
      Confined n (emit (.record j d) s') ↔ Confined n s' := by
    intro j d s'
    rw [confined_emit]
    simp [Event.Inside]
  have hread : Confined n (if s.captureAll then emit (.read offset f.len.toNat) s else s) ↔
      Confined n s ∧ (s.captureAll = true → (Event.read offset f.len.toNat).Inside n) := by
    split
    · next h =>
      rw [confined_emit]
      simp [h]
    · next h => simp [h]
  unfold storePacket
  split
  · next hcb =>
    dsimp only
    simp only [hcb, true_implies]
    rw [← hread]
    generalize (if s.captureAll then emit (.read offset f.len.toNat) s else s) = s'
    split
    · exact hrecord _ _ _
    · exact hrecord _ _ _
  · next hcb => simp [hcb]

theorem confined_settle (n : ℕ) (f : Frame) (a : Option Attributed) (s : CaptureCxx) :
    Confined n (settle f a s) ↔ Confined n s ∧ ∀ b, a = some b → s.packetCallback = true → s.captureAll = true →
      (Event.read b.segment.offset f.len.toNat).Inside n := by
  cases a with
  | none => simp [settle]
  | some a =>
    rw [settle, absorb, confined_storePacket, confined_addPacket, addPacket_packetCallback, addPacket_captureAll]
    simp

/-! ## Reads and `caplen` -/

theorem confined_parse (n : ℕ) (h : CapHandle) (f : Frame) (s : CaptureCxx) :
    Confined n (CapProtocol.parse h f { s with log := [] }).2 ↔ CapProtocol.extent h.linktype f ≤ n ∧
      ∀ a, (CapProtocol.decode h.linktype f).bind (Segment.attribute s.devices s.inodes f) = some a →
        s.packetCallback = true → s.captureAll = true → (Event.read a.segment.offset f.len.toNat).Inside n := by
  rw [parse_eq, confined_settle]
  refine and_congr_left' ?_
  show (∀ e ∈ [] ++ Event.frame h.device f.serial :: protocolEvents h.linktype f, e.Inside n) ↔ _
  rw [List.nil_append, List.forall_mem_cons, inside_protocolEvents]
  exact and_iff_right trivial

theorem segment_of_attribute {devices : List CapDevice} {inodes : CapInodeHelper} {f : Frame} {g : Segment}
    {a : Attributed} (h : Segment.attribute devices inodes f g = some a) : a.segment = g := by
  obtain ⟨cap, -, h⟩ := Option.bind_eq_some_iff.mp h
  obtain ⟨pid, -, rfl⟩ := Option.map_eq_some_iff.mp h
  rfl

/-- The bytes read of a frame are those captured, and a frame with less than its headers
captured reaches no handler, exactly when the headers are captured and the packet is not
copied. -/
theorem frame_reads_captured_iff (h : CapHandle) (f : Frame) (s : CaptureCxx)
    (hlen : f.caplen ≤ f.len) :
    ((∀ offset size, .read offset size ∈ (CapProtocol.parse h f { s with log := [] }).2.log →
        ∀ k < size, offset + k < f.caplen.toNat) ∧
      (f.caplen.toNat < CapProtocol.extent h.linktype f → ∀ family context offset,
        .handler family context offset ∉ (CapProtocol.parse h f { s with log := [] }).2.log)) ↔
      CapProtocol.extent h.linktype f ≤ f.caplen.toNat ∧
        ¬ (s.captureAll = true ∧ s.packetCallback = true ∧ ∃ a,
          (CapProtocol.decode h.linktype f).bind (Segment.attribute s.devices s.inodes f) = some a) := by
  have hconfined : (∀ offset size, .read offset size ∈ (CapProtocol.parse h f { s with log := [] }).2.log →
      ∀ k < size, offset + k < f.caplen.toNat) ↔
      Confined f.caplen.toNat (CapProtocol.parse h f { s with log := [] }).2 := by
    constructor
    · intro hread e he
      cases e with
      | read offset size => exact hread offset size he
      | _ => trivial
    · exact fun hs offset size he => hs _ he
  rw [hconfined, confined_parse]
  constructor
  · rintro ⟨⟨hextent, hcopy⟩, -⟩
    refine ⟨hextent, ?_⟩
    rintro ⟨hall, hcb, a, ha⟩
    obtain ⟨g, hg, hga⟩ := Option.bind_eq_some_iff.mp ha
    obtain ⟨hoffset, hend⟩ := CapProtocol.offset_of_decode hg
    have hle : f.caplen.toNat ≤ f.len.toNat := hlen
    -- the copy is as long as the frame and starts behind its headers
    have hread := (Event.inside_read_iff _ _ f.len.toNat (by omega)).mp (hcopy a ha hcb hall)
    rw [segment_of_attribute hga] at hread
    omega
  · rintro ⟨hextent, hcopy⟩
    refine ⟨⟨hextent, fun a ha hcb hall => absurd ⟨hall, hcb, a, ha⟩ hcopy⟩, fun hlt => ?_⟩
    omega

/-- A raw IPv4 frame that ends with the ports of its TCP header. -/
def rawTcpFrame (caplen : UInt32) : Frame :=
  { serial := 0
    len := 24
    caplen := caplen
    bytes := fun i => if i = 0 then 0x45 else if i = 9 then ipprotoTcp else 0 }

theorem frame_reads_captured_whole :
    (rawTcpFrame 24).caplen ≤ (rawTcpFrame 24).len ∧
      ∀ offset size, .read offset size ∈
          (CapProtocol.parse { linktype := dltRaw } (rawTcpFrame 24) { captureAll := true, log := [] }).2.log →
        ∀ k < size, offset + k < 24 := by
  refine ⟨by decide, ?_⟩
  have hextent : CapProtocol.extent dltRaw (rawTcpFrame 24) ≤ 24 := by decide +kernel
  refine ((frame_reads_captured_iff { linktype := dltRaw } (rawTcpFrame 24) { captureAll := true }
    (by decide)).mpr ⟨hextent, ?_⟩).1
  rintro ⟨-, hcb, -⟩
  cases hcb

/-- Of the same frame cut after 22 bytes the destination port is read all the same. -/
theorem frame_read_past_capture :
    (rawTcpFrame 22).caplen ≤ (rawTcpFrame 22).len ∧
      ¬ ∀ offset size, .read offset size ∈
          (CapProtocol.parse { linktype := dltRaw } (rawTcpFrame 22) { log := [] }).2.log →
        ∀ k < size, offset + k < (rawTcpFrame 22).caplen.toNat := by
  refine ⟨by decide, fun h => ?_⟩
  have hread := h 20 4 (by
    rw [parse_eq]
    show Event.read 20 4 ∈ [.frame [] 0, .read 0 1, .read 12 8, .read 9 1, .handler .tcp _ 20, .read 20 4]
    simp) 3 (by omega)
  exact absurd hread (by decide)

end CaptureCxx
end Capture
