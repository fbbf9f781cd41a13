import Capture.Proof.FrameEffect

/-! # Which handler a frame reaches

A frame reaches at most one handler, the one of the segment it is decoded to
(`parse_handlerCalls`). The decoder takes every IPv4 header to be 20 bytes long and every
fragment to be the first. Packets encoded within these limits are decoded to what was
encoded, whatever the link layer and whatever the handle held before. -/
namespace Capture
open SeparatedText AddressText OrderedTable

set_option autoImplicit false

/-! ## Handler calls -/

def Event.handlerCall : Event → Option Segment
  | .handler family context offset => some ⟨family, context, offset⟩
  | _ => none

namespace CaptureCxx

def handlerCalls (s : CaptureCxx) : List Segment := s.log.filterMap Event.handlerCall

theorem addPacket_handlerCalls (files : Pid → ProcFiles) (pid : Pid) (cap : CapPacket) (s : CaptureCxx) :
    (addPacket files pid cap s).handlerCalls = s.handlerCalls := by
  unfold handlerCalls
  rcases addPacket_log files pid cap s with hlog | hlog
  · rw [hlog]
  · rw [hlog]
    simp [Event.handlerCall]

theorem settle_handlerCalls (f : Frame) (a : Option Attributed) (s : CaptureCxx) :
    (settle f a s).handlerCalls = s.handlerCalls := by
  cases a with
  | none => rfl
  | some a =>
    rw [settle, absorb, handlerCalls, storePacket_filterMap _ (fun _ _ => rfl) fun _ _ => rfl]
    exact addPacket_handlerCalls f.files a.pid a.cap s

theorem handlerCalls_segmentEvents (g : Option Segment) :
    (segmentEvents g).filterMap Event.handlerCall = g.toList := by
  cases g <;> rfl

theorem handlerCalls_linkReads (linktype : ℤ) (f : Frame) :
    (CapProtocol.linkReads linktype f).filterMap Event.handlerCall = [] := by
  unfold CapProtocol.linkReads
  repeat' split
  all_goals rfl

theorem handlerCalls_ipEvents (f : Frame) (p : IpHeader) :
    (ipEvents f p).filterMap Event.handlerCall = (p.decode f).toList := by
  cases p with
  | ip4 offset => exact handlerCalls_segmentEvents (CapProtocol.decodeIp4 f offset)
  | ip6 offset => exact handlerCalls_segmentEvents (CapProtocol.decodeIp6 f offset)

theorem handlerCalls_protocolEvents (linktype : ℤ) (f : Frame) :
    (protocolEvents linktype f).filterMap Event.handlerCall = (CapProtocol.decode linktype f).toList := by
  rw [protocolEvents_eq, CapProtocol.decode_eq, List.filterMap_append, handlerCalls_linkReads, List.nil_append]
  cases CapProtocol.ipHeader linktype f with
  | none => rfl
  | some p => exact handlerCalls_ipEvents f p

/-- The handler calls a frame adds: one for the segment it decodes to, if any. -/
theorem parse_handlerCalls (h : CapHandle) (f : Frame) (s : CaptureCxx) :
    (CapProtocol.parse h f s).2.handlerCalls = s.handlerCalls ++ (CapProtocol.decode h.linktype f).toList := by
  rw [parse_eq, settle_handlerCalls, handlerCalls, extend, List.filterMap_append, List.filterMap_cons_none rfl,
    handlerCalls_protocolEvents]
  rfl

/-- A frame that reaches a handler leaves its own addresses in the handle. -/
theorem parse_fst {h : CapHandle} {f : Frame} {g : Segment} (hg : CapProtocol.decode h.linktype f = some g)
    (s : CaptureCxx) : (CapProtocol.parse h f s).1 = h.setContext g.context := by
  have hcontext : ∀ (p : IpHeader) (s : CaptureCxx), p.decode f = some g → (p.parse h f s).1 = h.setContext g.context := by
    intro p s hp
    cases p with
    | ip4 offset =>
      rw [(CapProtocol.segmentOf_eq_some hp).2.1]
      rfl
    | ip6 offset =>
      rw [(CapProtocol.segmentOf_eq_some hp).2.1]
      rfl
  rw [CapProtocol.decode_eq] at hg
  obtain ⟨p, hip, hp⟩ := Option.bind_eq_some_iff.mp hg
  rw [parse_layers, hip]
  exact hcontext p _ hp

end CaptureCxx

/-! ## IPv4 headers with options, and fragments -/

/-- The header length field, in words of four bytes. -/
def Frame.ihl (f : Frame) (start : ℕ) : ℕ := (f.bytes start &&& 0x0F).toNat

def Frame.fragmentOffset (f : Frame) (start : ℕ) : ℕ := (f.ntohs (start + 6) &&& 0x1FFF).toNat

/-- The frame carries an IPv4 packet whose header begins at `start`. -/
structure CarriesIp4 (linktype : ℤ) (f : Frame) (start : ℕ) : Prop where
  link : linktype = dltEn10mb ∧ start = 14 ∧ f.ntohs 12 = ethertypeIp ∨ linktype = dltRaw ∧ start = 0 ∧ 1 ≤ f.len
  version : f.bytes start &&& 0xF0 = 0x40
  ihl : 5 ≤ f.ihl start

/-- The segment an IPv4 packet carries: none in a later fragment, and otherwise behind the
whole header. -/
def ip4Segment (f : Frame) (start : ℕ) : Option Segment :=
  if f.fragmentOffset start = 0 then
    CapProtocol.segmentOf (f.bytes (start + 9)) (.ip4 (f.addr4 (start + 12)) (f.addr4 (start + 16)))
      (start + 4 * f.ihl start)
  else none

namespace CaptureCxx

theorem decode_of_carriesIp4 {linktype : ℤ} {f : Frame} {start : ℕ} (h : CarriesIp4 linktype f start) :
    CapProtocol.decode linktype f = CapProtocol.decodeIp4 f start := by
  rcases h.link with ⟨hlink, rfl, htype⟩ | ⟨hlink, rfl, hlen⟩
  · rw [CapProtocol.decode, if_pos hlink, if_pos htype]
  · have hne : linktype ≠ dltEn10mb := by
      rw [hlink]
      decide
    rw [CapProtocol.decode, if_neg hne, if_pos hlink, if_neg (UInt32.not_lt.mpr hlen), if_pos h.version]

/-- The handler of a packet gets the transport header, and a later fragment reaches none,
exactly when the packet has another transport, or no options and fragment offset 0. -/
theorem transport_header_found_iff (h : CapHandle) (f : Frame) (start : ℕ) (s : CaptureCxx)
    (hip : CarriesIp4 h.linktype f start) :
    (CapProtocol.parse h f { s with log := [] }).2.handlerCalls = (ip4Segment f start).toList ↔
      (f.bytes (start + 9) ≠ ipprotoTcp ∧ f.bytes (start + 9) ≠ ipprotoUdp) ∨
        f.ihl start = 5 ∧ f.fragmentOffset start = 0 := by
  have hcalls : (CapProtocol.parse h f { s with log := [] }).2.handlerCalls = (CapProtocol.decodeIp4 f start).toList := by
    rw [parse_handlerCalls, decode_of_carriesIp4 hip]
    rfl
  rw [hcalls]
  unfold ip4Segment CapProtocol.decodeIp4
  generalize PcapCtx.ip4 (f.addr4 (start + 12)) (f.addr4 (start + 16)) = context
  by_cases hproto : f.bytes (start + 9) = ipprotoTcp ∨ f.bytes (start + 9) = ipprotoUdp
  · rw [or_iff_right (by tauto)]
    obtain ⟨g, hg⟩ := Option.ne_none_iff_exists'.mp
      (fun hnone => (CapProtocol.segmentOf_eq_none_iff _ context (start + 20)).mp hnone hproto)
    by_cases hfrag : f.fragmentOffset start = 0
    · rw [if_pos hfrag, and_iff_left hfrag]
      constructor
      · intro heq
        -- one segment at two offsets
        obtain ⟨hoffset, -, -⟩ := CapProtocol.segmentOf_eq_some hg
        rw [hg] at heq
        obtain ⟨g', hg'⟩ := Option.ne_none_iff_exists'.mp
          (fun hnone => (CapProtocol.segmentOf_eq_none_iff _ context (start + 4 * f.ihl start)).mp hnone hproto)
        obtain ⟨hoffset', -, -⟩ := CapProtocol.segmentOf_eq_some hg'
        rw [hg'] at heq
        rw [List.singleton_inj.mp heq] at hoffset
        omega
      · intro hihl
        rw [hihl]
    · rw [hg, if_neg hfrag]
      simp [hfrag]
  · have hnone := fun payload => (CapProtocol.segmentOf_eq_none_iff _ context payload).mpr hproto
    rw [hnone, hnone, ite_self]
    exact iff_of_true rfl (Or.inl (not_or.mp hproto))

/-- A UDP packet on a raw link with the given first byte and fragment field. -/
def rawUdpFrame (first fragment : UInt8) : Frame :=
  { serial := 0
    len := 60
    caplen := 60
    bytes := fun i => if i = 0 then first else if i = 7 then fragment else if i = 9 then ipprotoUdp else 0 }

theorem rawUdpFrame_carries (first fragment : UInt8) (hversion : first &&& 0xF0 = 0x40)
    (hihl : 5 ≤ (first &&& 0x0F).toNat) : CarriesIp4 dltRaw (rawUdpFrame first fragment) 0 :=
  ⟨Or.inr ⟨rfl, rfl, show (1 : UInt32) ≤ 60 by decide⟩, hversion, hihl⟩

theorem transport_header_found_plain :
    (CapProtocol.parse { linktype := dltRaw } (rawUdpFrame 0x45 0) { log := [] }).2.handlerCalls =
      (ip4Segment (rawUdpFrame 0x45 0) 0).toList :=
  (transport_header_found_iff { linktype := dltRaw } (rawUdpFrame 0x45 0) 0 {}
    (rawUdpFrame_carries 0x45 0 (by decide) (by decide))).mpr (Or.inr ⟨by decide, by decide⟩)

/-- With one word of options the ports are read from the options, and the data of a later
fragment are read as ports. -/
theorem transport_header_missed :
    (CarriesIp4 dltRaw (rawUdpFrame 0x46 0) 0 ∧
      (CapProtocol.parse { linktype := dltRaw } (rawUdpFrame 0x46 0) { log := [] }).2.handlerCalls.map Segment.offset =
        [20] ∧ (ip4Segment (rawUdpFrame 0x46 0) 0).toList.map Segment.offset = [24]) ∧
      CarriesIp4 dltRaw (rawUdpFrame 0x45 1) 0 ∧
        (CapProtocol.parse { linktype := dltRaw } (rawUdpFrame 0x45 1) { log := [] }).2.handlerCalls.length = 1 ∧
          (ip4Segment (rawUdpFrame 0x45 1) 0).toList.length = 0 := by
  refine ⟨⟨rawUdpFrame_carries 0x46 0 (by decide) (by decide), ?_, ?_⟩, rawUdpFrame_carries 0x45 1 (by decide)
    (by decide), ?_, ?_⟩ <;> decide +kernel

end CaptureCxx
end Capture
