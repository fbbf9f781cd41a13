import Capture.Foundations.ByteLayout
import Capture.Proof.FrameDecoding
import Capture.Proof.SocketKeys

/-! # Encoding a packet and decoding the frame

The encoder below writes plain packets: an IPv4 header without options that is not a
fragment, or an IPv6 header without extension headers, then a transport header, raw or
behind an Ethernet header. What the decoder does not look at is a parameter. -/
namespace Capture
open SeparatedText AddressText ByteLayout

set_option autoImplicit false

/-! ## The encoder -/

/-- The fields of an IP header other than version, length, fragment offset, protocol and
addresses. In IPv6 `tos` is the traffic class, `ident` the low part of the flow label,
`length` the payload length and `ttl` the hop limit. -/
structure IpFields where
  tos : UInt8
  length : UInt16
  ident : UInt16
  dontFragment : Bool
  ttl : UInt8
  checksum : UInt16
  flow : UInt8

/-- `header` is what follows the ports in the transport header. -/
structure PlainPacket where
  family : PacketType
  addrs : RowAddrs
  sport : UInt16
  dport : UInt16
  fields : IpFields
  header : List UInt8
  payload : List UInt8

inductive LinkLayer where
  | raw
  | ethernet (dst src : Fin 6 → UInt8)

def LinkLayer.linktype : LinkLayer → ℤ
  | .raw => dltRaw
  | .ethernet _ _ => dltEn10mb

def LinkLayer.encode (ethertype : UInt16) : LinkLayer → List UInt8
  | .raw => []
  | .ethernet dst src => List.ofFn dst ++ List.ofFn src ++ wordBytes ethertype

def PacketType.proto : PacketType → UInt8
  | .tcp => ipprotoTcp
  | .udp => ipprotoUdp

namespace PlainPacket

def ethertype (p : PlainPacket) : UInt16 :=
  match p.addrs with
  | .inet _ _ => ethertypeIp
  | .inet6 _ _ => ethertypeIpv6

def encodeIp4 (p : PlainPacket) (src dst : In4Addr) : List UInt8 :=
  0x45 :: p.fields.tos :: (wordBytes p.fields.length ++ wordBytes p.fields.ident ++
    (if p.fields.dontFragment then 0x40 else 0) :: 0 :: p.fields.ttl :: p.family.proto ::
      wordBytes p.fields.checksum ++ List.ofFn src ++ List.ofFn dst)

def encodeIp6 (p : PlainPacket) (src dst : In6Addr) : List UInt8 :=
  ((0x60 : UInt8) ||| (p.fields.tos >>> 4)) :: ((p.fields.tos <<< 4) ||| (p.fields.flow &&& 0x0F)) ::
    (wordBytes p.fields.ident ++ wordBytes p.fields.length ++ p.family.proto :: p.fields.ttl ::
      List.ofFn src ++ List.ofFn dst)

def encodeIp (p : PlainPacket) : List UInt8 :=
  match p.addrs with
  | .inet src dst => p.encodeIp4 src dst
  | .inet6 src dst => p.encodeIp6 src dst

def encode (p : PlainPacket) (link : LinkLayer) : List UInt8 :=
  link.encode p.ethertype ++ (p.encodeIp ++
    (wordBytes p.sport ++ (wordBytes p.dport ++ (p.header ++ p.payload))))

/-- The frame has the length of the encoded packet and begins with it. -/
structure Framed (p : PlainPacket) (link : LinkLayer) (f : Frame) : Prop where
  len : f.len.toNat = (p.encode link).length
  bytes : Holds f.bytes 0 (p.encode link)

def context (p : PlainPacket) : PcapCtx :=
  match p.addrs with
  | .inet src dst => .ip4 src dst
  | .inet6 src dst => .ip6 src dst

end PlainPacket

/-! ## Decoding a header -/

theorem segmentOf_proto (family : PacketType) (context : PcapCtx) (payload : ℕ) :
    CapProtocol.segmentOf family.proto context payload = some ⟨family, context, payload⟩ := by
  cases family <;> rfl

theorem Frame.addr4_of_holds {f : Frame} {start : ℕ} {a : In4Addr} (h : Holds f.bytes start (List.ofFn a)) :
    f.addr4 start = a := by
  funext i
  exact h.ofFn i

theorem Frame.addr6_of_holds {f : Frame} {start : ℕ} {a : In6Addr} (h : Holds f.bytes start (List.ofFn a)) :
    f.addr6 start = a := by
  funext i
  exact h.ofFn i

theorem decodeIp4_of_holds {f : Frame} {start : ℕ} (p : PlainPacket) (src dst : In4Addr)
    (h : Holds f.bytes start (p.encodeIp4 src dst)) :
    f.bytes start &&& 0xF0 = 0x40 ∧
      CapProtocol.decodeIp4 f start = some ⟨p.family, .ip4 src dst, start + 20⟩ := by
  simp only [PlainPacket.encodeIp4, Holds, holds_append, wordBytes, List.length_cons, List.length_nil,
    List.length_append, List.length_ofFn, List.cons_append, Nat.add_assoc, Nat.reduceAdd, zero_add, true_and,
    and_true] at h
  obtain ⟨hversion, -, -, -, ⟨⟨-, -, -, -, hproto, -⟩, hsrc⟩, hdst⟩ := h
  refine ⟨by rw [hversion]; decide, ?_⟩
  rw [CapProtocol.decodeIp4, hproto, Frame.addr4_of_holds hsrc, Frame.addr4_of_holds hdst, segmentOf_proto]

theorem version_encodeIp6 (tos : UInt8) : ((0x60 : UInt8) ||| (tos >>> 4)) &&& 0xF0 = 0x60 := by
  apply UInt8.toBitVec_inj.mp
  have h : ∀ b : BitVec 8, (0x60#8 ||| (b >>> 4)) &&& 0xF0#8 = 0x60#8 := by decide
  simpa using h tos.toBitVec

theorem decodeIp6_of_holds {f : Frame} {start : ℕ} (p : PlainPacket) (src dst : In6Addr)
    (h : Holds f.bytes start (p.encodeIp6 src dst)) :
    f.bytes start &&& 0xF0 = 0x60 ∧
      CapProtocol.decodeIp6 f start = some ⟨p.family, .ip6 src dst, start + 40⟩ := by
  simp only [PlainPacket.encodeIp6, Holds, holds_append, wordBytes, List.length_cons, List.length_nil,
    List.length_append, List.length_ofFn, List.cons_append, Nat.add_assoc, Nat.reduceAdd, zero_add, true_and,
    and_true] at h
  obtain ⟨hversion, -, -, -, ⟨⟨-, hproto, -, hsrc⟩, hdst⟩⟩ := h
  refine ⟨by rw [hversion, version_encodeIp6], ?_⟩
  rw [CapProtocol.decodeIp6, hproto, Frame.addr6_of_holds hsrc, Frame.addr6_of_holds hdst, segmentOf_proto]

/-! ## Decoding a frame -/

namespace PlainPacket

/-- Where the IP header and the transport header begin. -/
def ipStart (_ : PlainPacket) : LinkLayer → ℕ
  | .raw => 0
  | .ethernet _ _ => 14

def transportStart (p : PlainPacket) (link : LinkLayer) : ℕ :=
  p.ipStart link + match p.addrs with
    | .inet _ _ => 20
    | .inet6 _ _ => 40

theorem length_linkEncode (p : PlainPacket) (link : LinkLayer) :
    (link.encode p.ethertype).length = p.ipStart link := by
  cases link with
  | raw => rfl
  | ethernet dst src => simp [LinkLayer.encode, wordBytes, ipStart]

theorem length_encodeIp (p : PlainPacket) (link : LinkLayer) :
    p.ipStart link + p.encodeIp.length = p.transportStart link := by
  unfold encodeIp transportStart
  cases p.addrs with
  | inet src dst => simp [encodeIp4, wordBytes]
  | inet6 src dst => simp [encodeIp6, wordBytes]

theorem Framed.parts {p : PlainPacket} {link : LinkLayer} {f : Frame} (h : p.Framed link f) :
    Holds f.bytes 0 (link.encode p.ethertype) ∧ Holds f.bytes (p.ipStart link) p.encodeIp ∧
      f.ntohs (p.transportStart link) = p.sport ∧ f.ntohs (p.transportStart link + 2) = p.dport := by
  have hbytes := h.bytes
  rw [encode, holds_append, holds_append, holds_append, holds_append, length_linkEncode, zero_add, length_encodeIp] at hbytes
  obtain ⟨hlink, hip, hsport, hdport, -⟩ := hbytes
  exact ⟨hlink, hip, hsport.word, hdport.word⟩

theorem Framed.one_le_len {p : PlainPacket} {link : LinkLayer} {f : Frame} (h : p.Framed link f) : ¬ f.len < 1 := by
  have hlen := h.len
  rw [encode, List.length_append, List.length_append, List.length_append, length_linkEncode, ← Nat.add_assoc,
    length_encodeIp] at hlen
  intro hlt
  have hzero : f.len.toNat < 1 := hlt
  have htwo : (wordBytes p.sport).length = 2 := rfl
  omega

theorem ethertype_of_ethernet {f : Frame} {dst src : Fin 6 → UInt8} {ethertype : UInt16}
    (h : Holds f.bytes 0 ((LinkLayer.ethernet dst src).encode ethertype)) : f.ntohs 12 = ethertype := by
  rw [LinkLayer.encode, holds_append] at h
  have hword := h.2
  rw [List.length_append, List.length_ofFn, List.length_ofFn] at hword
  exact hword.word

theorem Framed.decode {p : PlainPacket} {link : LinkLayer} {f : Frame} (h : p.Framed link f) :
    CapProtocol.decode link.linktype f = some ⟨p.family, p.context, p.transportStart link⟩ := by
  obtain ⟨hlink, hip, -, -⟩ := h.parts
  have hlen := h.one_le_len
  unfold encodeIp at hip
  unfold ethertype at hlink
  unfold context transportStart
  cases haddrs : p.addrs with
  | inet src dst =>
    rw [haddrs] at hip hlink
    obtain ⟨hversion, hsegment⟩ := decodeIp4_of_holds p src dst hip
    cases link with
    | raw =>
      rw [LinkLayer.linktype, CapProtocol.decode, if_neg (by decide), if_pos rfl, if_neg hlen]
      exact (if_pos hversion).trans hsegment
    | ethernet edst esrc =>
      rw [LinkLayer.linktype, CapProtocol.decode, if_pos rfl, if_pos (ethertype_of_ethernet hlink)]
      exact hsegment
  | inet6 src dst =>
    rw [haddrs] at hip hlink
    obtain ⟨hversion, hsegment⟩ := decodeIp6_of_holds p src dst hip
    cases link with
    | raw =>
      have hother : ¬ f.bytes 0 &&& 0xF0 = 0x40 := by
        rw [show f.bytes 0 &&& 0xF0 = 0x60 from hversion]
        decide
      rw [LinkLayer.linktype, CapProtocol.decode, if_neg (by decide), if_pos rfl, if_neg hlen, if_neg hother]
      exact (if_pos hversion).trans hsegment
    | ethernet edst esrc =>
      have htype : f.ntohs 12 = ethertypeIpv6 := ethertype_of_ethernet hlink
      have hother : ¬ f.ntohs 12 = ethertypeIp := by
        rw [htype]
        decide
      rw [LinkLayer.linktype, CapProtocol.decode, if_pos rfl, if_neg hother, if_pos htype]
      exact hsegment

theorem Framed.packetOf {p : PlainPacket} {link : LinkLayer} {f : Frame} (h : p.Framed link f)
    (devices : List CapDevice) :
    CaptureCxx.packetOf devices p.context f (p.transportStart link) =
      some (CapPacket.ofFlow devices p.addrs p.sport p.dport f.len) := by
  obtain ⟨-, -, hsport, hdport⟩ := h.parts
  unfold context
  cases p.addrs with
  | inet src dst =>
    dsimp only
    rw [CaptureCxx.packetOf, hsport, hdport]
    rfl
  | inet6 src dst =>
    dsimp only
    rw [CaptureCxx.packetOf, hsport, hdport]
    rfl

def source (p : PlainPacket) : Address :=
  match p.addrs with
  | .inet src _ => .v4 src
  | .inet6 src _ => .v6 src

def destination (p : PlainPacket) : Address :=
  match p.addrs with
  | .inet _ dst => .v4 dst
  | .inet6 _ dst => .v6 dst

def inetFamily (p : PlainPacket) : Family :=
  match p.addrs with
  | .inet _ _ => .inet
  | .inet6 _ _ => .inet6

/-- The `CapPacket` holds the addresses, ports, family and length it is made from. -/
structure HeldBy (p : PlainPacket) (len : UInt32) (cap : CapPacket) : Prop where
  source : cap.source = p.source
  destination : cap.destination = p.destination
  sport : cap.sport = p.sport.toUInt32
  dport : cap.dport = p.dport.toUInt32
  family : cap.family = p.inetFamily
  len : cap.len = len

theorem heldBy_ofFlow (p : PlainPacket) (devices : List CapDevice) (len : UInt32) :
    p.HeldBy len (CapPacket.ofFlow devices p.addrs p.sport p.dport len) := by
  unfold CapPacket.ofFlow
  cases haddrs : p.addrs with
  | inet src dst =>
    dsimp only
    rw [CapPacket.init4, CapPacket.hash_of_unknown _ _ rfl rfl]
    exact ⟨by simp [CapPacket.source, source, haddrs], by simp [CapPacket.destination, destination, haddrs], rfl, rfl,
      by simp [inetFamily, haddrs], rfl⟩
  | inet6 src dst =>
    dsimp only
    rw [CapPacket.init6, CapPacket.hash_of_unknown _ _ rfl rfl]
    exact ⟨by simp [CapPacket.source, source, haddrs], by simp [CapPacket.destination, destination, haddrs], rfl, rfl,
      by simp [inetFamily, haddrs], rfl⟩

end PlainPacket

namespace CaptureCxx

/-- A plain packet in a frame on a link of its type: exactly one handler is called, the one
of the transport, with the packet that was encoded. Nothing of this depends on the link
layer, and the context left in the handle has no effect at all. -/
theorem decode_undoes_encode (p : PlainPacket) (link : LinkLayer) (f : Frame) (h : CapHandle) (c : PcapCtx)
    (s : CaptureCxx) (hf : p.Framed link f) (hlink : h.linktype = link.linktype) :
    (CapProtocol.parse (h.setContext c) f { s with log := [] }).2.handlerCalls.map
        (fun g => (g.family, packetOf s.devices g.context f g.offset)) =
          [(p.family, some (CapPacket.ofFlow s.devices p.addrs p.sport p.dport f.len))] ∧
      p.HeldBy f.len (CapPacket.ofFlow s.devices p.addrs p.sport p.dport f.len) ∧
      CapProtocol.parse (h.setContext c) f s = CapProtocol.parse h f s := by
  have hdecode : CapProtocol.decode h.linktype f = some ⟨p.family, p.context, p.transportStart link⟩ := by
    rw [hlink]
    exact hf.decode
  refine ⟨?_, p.heldBy_ofFlow s.devices f.len, ?_⟩
  · rw [parse_handlerCalls]
    show ([] ++ (CapProtocol.decode h.linktype f).toList).map _ = _
    rw [hdecode]
    show [(p.family, packetOf s.devices p.context f (p.transportStart link))] = _
    rw [hf.packetOf]
  · have hstate : (CapProtocol.parse (h.setContext c) f s).2 = (CapProtocol.parse h f s).2 := by
      rw [parse_eq, parse_eq]
      rfl
    have hhandle : (CapProtocol.parse (h.setContext c) f s).1 = (CapProtocol.parse h f s).1 := by
      rw [parse_fst (h := h.setContext c) hdecode, parse_fst hdecode]
      rfl
    exact Prod.ext hhandle hstate

/-- A UDP datagram of two bytes behind an Ethernet header. -/
def echoPacket : PlainPacket :=
  { family := .udp
    addrs := .inet ![10, 0, 0, 1] ![10, 0, 0, 2]
    sport := 7
    dport := 1234
    fields := ⟨0, 30, 1, true, 64, 0, 0⟩
    header := [0, 10, 0, 0]
    payload := [104, 105] }

def echoFrame : Frame :=
  { serial := 0
    len := 44
    caplen := 44
    bytes := fun i => (echoPacket.encode (.ethernet (fun _ => 1) (fun _ => 2))).getD i 0 }

theorem decode_undoes_encode_echo :
    ∃ cap, cap.sport = 7 ∧ cap.dport = 1234 ∧ cap.len = 44 ∧
      (CapProtocol.parse { linktype := dltEn10mb, context := .ip6 (fun _ => 0) (fun _ => 0) } echoFrame
        { log := [] }).2.handlerCalls.map (fun g => (g.family, packetOf [] g.context echoFrame g.offset)) =
          [(.udp, some cap)] := by
  have hframed : echoPacket.Framed (.ethernet (fun _ => 1) (fun _ => 2)) echoFrame :=
    ⟨by decide +kernel, by decide +kernel⟩
  obtain ⟨hcalls, hcap, -⟩ := decode_undoes_encode echoPacket (.ethernet (fun _ => 1) (fun _ => 2)) echoFrame
    { linktype := dltEn10mb } (.ip6 (fun _ => 0) (fun _ => 0)) {} hframed rfl
  exact ⟨_, hcap.sport, hcap.dport, hcap.len, hcalls⟩

end CaptureCxx
end Capture
