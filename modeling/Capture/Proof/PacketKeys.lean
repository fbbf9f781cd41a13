import Capture.Proof.SocketKeys

/-! # The key of a packet over its life

After one `Init` a packet may be inverted and asked for its direction or its key any number
of times. Its direction stays known and its cached string stays the key of its endpoints,
local one first (`Settled`): inverting swaps the endpoints and the direction at once, so
the local endpoint is the same before and after. What the keys of two packets say about
each other, and about the texts of the device addresses, follows from that. -/
namespace Capture
open SeparatedText AddressText

set_option autoImplicit false

namespace CapPacket

/-! ## The packets that calls can make -/

/-- One `Init` of a new packet, whose fields other than the string hold anything, and any
calls after it. -/
inductive Made (devices : List CapDevice) : CapPacket → Prop
  | init4 (p : CapPacket) (hp : p.hashstring = []) (isip : In4Addr) (isport : UInt16) (idip : In4Addr)
      (idport : UInt16) (ilen : UInt32) (idir : CapDir) :
      Made devices (init4 devices p isip isport idip idport ilen idir)
  | init6 (p : CapPacket) (hp : p.hashstring = []) (isip : In6Addr) (isport : UInt16) (idip : In6Addr)
      (idport : UInt16) (ilen : UInt32) (idir : CapDir) :
      Made devices (init6 devices p isip isport idip idport ilen idir)
  | invert {p : CapPacket} (hp : Made devices p) : Made devices p.invert.2
  | isOutgoing {p : CapPacket} (hp : Made devices p) : Made devices (p.isOutgoing devices).2
  | hash {p : CapPacket} (hp : Made devices p) : Made devices (p.hash devices).2

/-- The key of the endpoints the packet has now. -/
def endsText (p : CapPacket) : Text :=
  linkText p.localEnd.1.text p.localEnd.2 p.remoteEnd.1.text p.remoteEnd.2

structure Settled (p : CapPacket) : Prop where
  dir : p.dir ≠ .unknown
  family : p.family = .inet ∨ p.family = .inet6
  hashstring : p.hashstring = p.endsText

theorem isOutgoing_of_known (devices : List CapDevice) {p : CapPacket} (h : p.dir ≠ .unknown) :
    p.isOutgoing devices = (decide (p.dir = .outgoing), p) := by
  unfold isOutgoing
  cases hd : p.dir with
  | unknown => exact absurd hd h
  | incoming => rfl
  | outgoing => rfl

/-- `IsOutgoing` settles the direction and changes nothing else. -/
theorem isOutgoing_spec (devices : List CapDevice) (p : CapPacket) :
    ∃ dir, dir ≠ .unknown ∧ p.isOutgoing devices = (decide (dir = .outgoing), { p with dir := dir }) := by
  by_cases hd : p.dir = .unknown
  · unfold isOutgoing
    rw [hd]
    dsimp only
    split
    · exact ⟨.outgoing, by decide, rfl⟩
    · exact ⟨.incoming, by decide, rfl⟩
  · exact ⟨p.dir, hd, isOutgoing_of_known devices hd⟩

theorem hash_frame (devices : List CapDevice) (p : CapPacket) :
    ∃ dir h, (p.hash devices).2 = { p with dir := dir, hashstring := h } := by
  obtain ⟨dir, -, hout⟩ := isOutgoing_spec devices p
  unfold hash
  split
  · exact ⟨p.dir, p.hashstring, rfl⟩
  · rw [hout]
    exact ⟨dir, _, rfl⟩

theorem link_eq (p : CapPacket) : p.link = linkText p.source.text p.sport.toNat p.destination.text p.dport.toNat := by
  rw [link, inetNtop_fits (Address.length_text_lt _), inetNtop_fits (Address.length_text_lt _)]

/-- `Hash` with nothing cached: it asks for the direction first. -/
theorem hash_empty (devices : List CapDevice) {p : CapPacket} (h : p.hashstring = []) :
    p.hash devices = ((p.isOutgoing devices).2.endsText,
      { (p.isOutgoing devices).2 with hashstring := (p.isOutgoing devices).2.endsText }) := by
  obtain ⟨dir, hdir, hout⟩ := isOutgoing_spec devices p
  unfold hash
  rw [if_neg (by simp [h]), hout, inetNtop_fits (Address.length_text_lt _), inetNtop_fits (Address.length_text_lt _)]
  by_cases ho : dir = .outgoing
  · subst ho
    rfl
  · have hends : ({ p with dir := dir } : CapPacket).endsText =
        linkText p.destination.text p.dport.toNat p.source.text p.sport.toNat := by
      unfold endsText localEnd remoteEnd
      rw [if_neg ho, if_neg ho]
      rfl
    rw [hends]
    simp only [ho, decide_false]
    rfl

/-- `Hash` of a packet without a cached string settles it, whatever its direction was. -/
theorem settled_hash (devices : List CapDevice) {p : CapPacket} (hh : p.hashstring = [])
    (hf : p.family = .inet ∨ p.family = .inet6) : Settled (p.hash devices).2 := by
  obtain ⟨dir, hdir, hout⟩ := isOutgoing_spec devices p
  rw [hash_empty devices hh, hout]
  exact ⟨hdir, hf, rfl⟩

theorem invert_frame (p : CapPacket) :
    p.invert.2.dir = p.dir.invert ∧ p.invert.2.family = p.family ∧ p.invert.2.hashstring = p.hashstring := by
  unfold invert
  dsimp only
  split <;> exact ⟨rfl, rfl, rfl⟩

theorem invert_swaps {p : CapPacket} (hf : p.family = .inet ∨ p.family = .inet6) :
    p.invert.2.source = p.destination ∧ p.invert.2.destination = p.source ∧
      p.invert.2.sport = p.dport ∧ p.invert.2.dport = p.sport := by
  unfold invert source destination
  rcases hf with hf | hf
  · simp [hf]
  · simp [hf]

theorem invert_ends {p : CapPacket} (hd : p.dir ≠ .unknown) (hf : p.family = .inet ∨ p.family = .inet6) :
    p.invert.2.localEnd = p.localEnd ∧ p.invert.2.remoteEnd = p.remoteEnd := by
  obtain ⟨hsource, hdestination, hsport, hdport⟩ := invert_swaps hf
  unfold localEnd remoteEnd
  rw [(invert_frame p).1, hsource, hdestination, hsport, hdport]
  cases hdir : p.dir with
  | unknown => exact absurd hdir hd
  | incoming => exact ⟨rfl, rfl⟩
  | outgoing => exact ⟨rfl, rfl⟩

theorem Settled.invert {p : CapPacket} (h : Settled p) : Settled p.invert.2 := by
  obtain ⟨hdir, hfamily, hstring⟩ := invert_frame p
  obtain ⟨hlocal, hremote⟩ := invert_ends h.dir h.family
  refine ⟨?_, by rw [hfamily]; exact h.family, ?_⟩
  · rw [hdir]
    cases hd : p.dir with
    | unknown => exact absurd hd h.dir
    | incoming => decide
    | outgoing => decide
  · rw [hstring, h.hashstring, endsText, endsText, hlocal, hremote]

theorem endsText_ne_nil (p : CapPacket) : p.endsText ≠ [] := linkText_ne_nil _ _ _ _

theorem Settled.hashstring_ne_nil {p : CapPacket} (h : Settled p) : p.hashstring ≠ [] := by
  rw [h.hashstring]
  exact p.endsText_ne_nil

theorem Settled.hash_eq {p : CapPacket} (h : Settled p) (devices : List CapDevice) :
    p.hash devices = (p.endsText, p) := by
  rw [hash_cached devices p h.hashstring_ne_nil, h.hashstring]

theorem Made.settled {devices : List CapDevice} {p : CapPacket} (h : Made devices p) : Settled p := by
  induction h with
  | init4 p hp => exact settled_hash devices hp (Or.inl rfl)
  | init6 p hp => exact settled_hash devices hp (Or.inr rfl)
  | invert _ ih => exact ih.invert
  | isOutgoing _ ih =>
    rw [isOutgoing_of_known devices ih.dir]
    exact ih
  | hash _ ih =>
    rw [ih.hash_eq devices]
    exact ih

theorem Made.hash_eq {devices : List CapDevice} {p : CapPacket} (h : Made devices p) :
    (p.hash devices).1 = p.endsText := by
  rw [h.settled.hash_eq devices]

/-! ## Equal keys -/

theorem linkText_injective {a b a' b' : Address} {lp rp lp' rp' : ℕ}
    (h : linkText a.text lp b.text rp = linkText a'.text lp' b'.text rp') :
    a = a' ∧ lp = lp' ∧ b = b' ∧ rp = rp' := by
  have hcolon : ∀ n, ':' ∉ decimal n := not_mem_decimal (by decide)
  obtain ⟨haddr, hport, hrest⟩ := left_of_linkText lp lp' a.dash_not_mem_text a'.dash_not_mem_text h
  obtain ⟨hremote, hrport⟩ := cut_last ':' _ _ _ _ (hcolon rp) (hcolon rp') hrest
  exact ⟨Address.text_injective haddr, Int.ofNat.inj hport, Address.text_injective hremote, decimal_injective hrport⟩

theorem localEnd_family {p : CapPacket} (hf : p.family = .inet ∨ p.family = .inet6) :
    p.family = .inet ↔ ∃ a, p.localEnd.1 = .v4 a := by
  unfold localEnd source destination
  rcases hf with hf | hf
  · simp only [hf, true_iff]
    split <;> exact ⟨_, rfl⟩
  · simp only [hf, reduceCtorEq, if_false, false_iff]
    split <;> simp

/-- The keys of two packets, on whatever devices and after whatever calls, are equal only if
family, local endpoint and remote endpoint are. -/
theorem hash_injective (devices devices' : List CapDevice) (p q : CapPacket) (hp : Made devices p)
    (hq : Made devices' q) (h : (p.hash devices).1 = (q.hash devices').1) :
    p.family = q.family ∧ p.localEnd = q.localEnd ∧ p.remoteEnd = q.remoteEnd := by
  rw [hp.hash_eq, hq.hash_eq] at h
  obtain ⟨haddr, hport, hremote, hrport⟩ := linkText_injective h
  refine ⟨?_, Prod.ext haddr hport, Prod.ext hremote hrport⟩
  have hiff : p.family = .inet ↔ q.family = .inet := by
    rw [localEnd_family hp.settled.family, localEnd_family hq.settled.family, haddr]
  rcases hp.settled.family with hf | hf
  · rw [hf, hiff.mp hf]
  · rcases hq.settled.family with hf' | hf'
    · rw [hiff.mpr hf'] at hf
      cases hf
    · rw [hf, hf']

/-- A packet and the same one seen again after `Invert`. -/
theorem hash_injective_inverted :
    let p := init4 [] {} ![10, 0, 0, 1] 80 ![10, 0, 0, 2] 1234 60 .outgoing
    p.family = p.invert.2.family ∧ p.localEnd = p.invert.2.localEnd ∧ p.remoteEnd = p.invert.2.remoteEnd := by
  intro p
  have hp : Made [] p := Made.init4 {} rfl _ _ _ _ _ _
  refine hash_injective [] [] p p.invert.2 hp hp.invert ?_
  rw [hp.hash_eq, hp.invert.hash_eq, hp.invert.settled.hashstring.symm, hp.settled.hashstring.symm]
  exact (invert_frame p).2.2.symm

end CapPacket

/-! ## The two directions of a connection -/

def DeviceAddress (devices : List CapDevice) (a : Address) : Prop := ∃ d ∈ devices, d.address = some a

namespace RowAddrs

def source : RowAddrs → Address
  | inet a _ => .v4 a
  | inet6 a _ => .v6 a

def destination : RowAddrs → Address
  | inet _ b => .v4 b
  | inet6 _ b => .v6 b

def swap : RowAddrs → RowAddrs
  | inet a b => inet b a
  | inet6 a b => inet6 b a

theorem swap_source (addrs : RowAddrs) : addrs.swap.source = addrs.destination := by cases addrs <;> rfl

theorem swap_destination (addrs : RowAddrs) : addrs.swap.destination = addrs.source := by cases addrs <;> rfl

end RowAddrs

namespace CapPacket

/-- What the packet of a flow is after `Init` with unknown direction. -/
theorem ofFlow_spec (devices : List CapDevice) (addrs : RowAddrs) (sport dport : UInt16) (len : UInt32) :
    Made devices (ofFlow devices addrs sport dport len) ∧
      (ofFlow devices addrs sport dport len).dir =
        (if contains devices addrs.source then .outgoing else .incoming) ∧
      ((ofFlow devices addrs sport dport len).hash devices).1 =
        keyText devices addrs.source sport.toNat addrs.destination dport.toNat := by
  cases addrs with
  | inet src dst =>
    refine ⟨Made.init4 {} rfl _ _ _ _ _ _, ?_, init4_hash devices src dst sport dport len⟩
    rw [ofFlow, init4, hash_of_unknown _ _ rfl rfl]
    rfl
  | inet6 src dst =>
    refine ⟨Made.init6 {} rfl _ _ _ _ _ _, ?_, init6_hash devices src dst sport dport len⟩
    rw [ofFlow, init6, hash_of_unknown _ _ rfl rfl]
    rfl

theorem prefix_linkText (a b : Address) (lp rp : ℕ) :
    a.text ++ ':' :: (decimal lp ++ ['-']) <+: linkText a.text lp b.text rp :=
  ⟨b.text ++ ':' :: decimal rp, by simp [linkText]⟩

/-- With the device endpoint first: the key and the directions of both packets of a flow. -/
theorem directions_of_device (devices : List CapDevice) (addrs : RowAddrs) (sport dport : UInt16) (len len' : UInt32)
    (hlocal : DeviceAddress devices addrs.source) (hremote : ¬ DeviceAddress devices addrs.destination) :
    ((ofFlow devices addrs sport dport len).hash devices).1 =
        linkText addrs.source.text sport.toNat addrs.destination.text dport.toNat ∧
      ((ofFlow devices addrs.swap dport sport len').hash devices).1 =
        linkText addrs.source.text sport.toNat addrs.destination.text dport.toNat ∧
      ((ofFlow devices addrs sport dport len).isOutgoing devices).1 = true ∧
      ((ofFlow devices addrs.swap dport sport len').isOutgoing devices).1 = false := by
  have hsource : contains devices addrs.source = true := (contains_iff devices _).mpr hlocal
  have hdestination : ¬ contains devices addrs.destination = true := fun h => hremote ((contains_iff devices _).mp h)
  obtain ⟨hmade, hdir, hhash⟩ := ofFlow_spec devices addrs sport dport len
  obtain ⟨hmade', hdir', hhash'⟩ := ofFlow_spec devices addrs.swap dport sport len'
  rw [addrs.swap_source] at hdir'
  rw [addrs.swap_source, addrs.swap_destination] at hhash'
  rw [if_pos hsource] at hdir
  rw [if_neg hdestination] at hdir'
  refine ⟨hhash.trans (if_pos hsource), hhash'.trans (if_neg hdestination), ?_, ?_⟩
  · rw [isOutgoing_of_known devices hmade.settled.dir, hdir]
    rfl
  · rw [isOutgoing_of_known devices hmade'.settled.dir, hdir']
    rfl

/-- Both packets of a flow of which exactly one endpoint is on this host have one key. It
starts with that endpoint, and the packet sent by it is the outgoing one. -/
theorem both_directions_share_key (devices : List CapDevice) (addrs : RowAddrs) (sport dport : UInt16)
    (len len' : UInt32)
    (hone : DeviceAddress devices addrs.source ∧ ¬ DeviceAddress devices addrs.destination ∨
      DeviceAddress devices addrs.destination ∧ ¬ DeviceAddress devices addrs.source) :
    let there := ofFlow devices addrs sport dport len
    let back := ofFlow devices addrs.swap dport sport len'
    (there.hash devices).1 = (back.hash devices).1 ∧
      (DeviceAddress devices addrs.source →
        addrs.source.text ++ ':' :: (decimal sport.toNat ++ ['-']) <+: (there.hash devices).1 ∧
          (there.isOutgoing devices).1 = true ∧ (back.isOutgoing devices).1 = false) ∧
      (DeviceAddress devices addrs.destination →
        addrs.destination.text ++ ':' :: (decimal dport.toNat ++ ['-']) <+: (there.hash devices).1 ∧
          (back.isOutgoing devices).1 = true ∧ (there.isOutgoing devices).1 = false) := by
  intro there back
  rcases hone with ⟨hlocal, hremote⟩ | ⟨hlocal, hremote⟩
  · obtain ⟨hthere, hback, hout, hin⟩ := directions_of_device devices addrs sport dport len len' hlocal hremote
    refine ⟨hthere.trans hback.symm, fun _ => ⟨?_, hout, hin⟩, fun h => absurd h hremote⟩
    rw [hthere]
    exact prefix_linkText _ _ _ _
  · rw [← addrs.swap_source] at hlocal
    rw [← addrs.swap_destination] at hremote
    obtain ⟨hback, hthere, hout, hin⟩ := directions_of_device devices addrs.swap dport sport len' len hlocal hremote
    rw [show addrs.swap.swap = addrs by cases addrs <;> rfl] at hthere hin
    refine ⟨hthere.trans hback.symm, fun h => absurd h (addrs.swap_destination ▸ hremote), fun _ => ⟨?_, hout, hin⟩⟩
    rw [← addrs.swap_source, hthere]
    exact prefix_linkText _ _ _ _

theorem both_directions_share_key_lan :
    let devices := [CapDevice.init (some ['e']) 0x41 (.inet ![10, 0, 0, 1])]
    let there := ofFlow devices (.inet ![10, 0, 0, 2] ![10, 0, 0, 1]) 1234 80 60
    let back := ofFlow devices (.inet ![10, 0, 0, 1] ![10, 0, 0, 2]) 80 1234 52
    (there.hash devices).1 = (back.hash devices).1 ∧ (back.isOutgoing devices).1 = true ∧
      (there.isOutgoing devices).1 = false := by
  intro devices there back
  have hlocal : DeviceAddress devices (.v4 ![10, 0, 0, 1]) := ⟨_, List.mem_singleton_self _, rfl⟩
  have hremote : ¬ DeviceAddress devices (.v4 ![10, 0, 0, 2]) := by
    rintro ⟨d, hd, h⟩
    cases List.mem_singleton.mp hd
    exact absurd h (by decide)
  obtain ⟨hkey, -, hdestination⟩ := both_directions_share_key devices (.inet ![10, 0, 0, 2] ![10, 0, 0, 1]) 1234 80 60 52
    (Or.inr ⟨hlocal, hremote⟩)
  exact ⟨hkey, (hdestination hlocal).2⟩

end CapPacket

/-! ## The texts of device addresses -/

/-- `LocalAddr::Init` of a new address of either family. -/
def LocalAddr.ofAddress : Address → LocalAddr
  | .v4 a => ({} : LocalAddr).init4 a
  | .v6 a => ({} : LocalAddr).init6 a

/-- An IPv4 address with a byte of at most two digits, or any IPv6 address. -/
def ShortText : Address → Prop
  | .v4 a => ∃ i, (a i).toNat < 100
  | .v6 _ => True

theorem getStr_ofAddress_iff (a : Address) : (LocalAddr.ofAddress a).getStr = a.text ↔ ShortText a := by
  cases a with
  | v4 a =>
    have htext : (LocalAddr.ofAddress (.v4 a)).getStr = inetNtop (ntop4 a) 15 [] := by
      simp [LocalAddr.ofAddress, LocalAddr.getStr, LocalAddr.init4]
    rw [htext, Address.text, ShortText, ← length_ntop4_lt_iff]
    constructor
    · intro h
      by_contra hlong
      rw [inetNtop, if_neg hlong] at h
      exact ntop4_ne_nil a h.symm
    · exact fun h => inetNtop_fits h []
  | v6 a =>
    have hfits : (ntop6 a).length < 63 := (length_ntop6_lt a).trans (by decide)
    have htext : (LocalAddr.ofAddress (.v6 a)).getStr = inetNtop (ntop6 a) 63 [] := by
      simp [LocalAddr.ofAddress, LocalAddr.getStr, LocalAddr.init6]
    rw [htext, inetNtop_fits hfits []]
    exact iff_of_true rfl trivial

namespace CapPacket

/-- The key of a packet begins with the text `LocalAddr` has for its local address, exactly
when that address is not an IPv4 address of four bytes with three digits each. -/
theorem device_text_spelled_iff (devices : List CapDevice) (p : CapPacket) (hp : Made devices p) :
    (p.hash devices).1 = linkText (LocalAddr.ofAddress p.localEnd.1).getStr p.localEnd.2 p.remoteEnd.1.text
        p.remoteEnd.2 ↔
      ShortText p.localEnd.1 := by
  rw [hp.hash_eq, endsText, ← getStr_ofAddress_iff, eq_comm]
  unfold linkText
  exact List.append_left_inj _

theorem device_text_spelled_lan :
    let p := init4 [] {} ![192, 168, 100, 20] 80 ![10, 0, 0, 2] 1234 60 .outgoing
    (p.hash []).1 = linkText (LocalAddr.ofAddress p.localEnd.1).getStr p.localEnd.2 p.remoteEnd.1.text
      p.remoteEnd.2 := by
  intro p
  have hlocal : p.localEnd.1 = .v4 ![192, 168, 100, 20] := by decide +kernel
  have hshort : ShortText p.localEnd.1 := by
    rw [hlocal]
    exact ⟨3, by decide⟩
  exact (device_text_spelled_iff [] p (Made.init4 {} rfl _ _ _ _ _ _)).mpr hshort

/-- The text of `192.168.100.100` does not fit, and its device has the empty text. -/
theorem device_text_empty :
    (CapDevice.init (some ['e']) 0x41 (.inet ![192, 168, 100, 100])).getLocalAddr = [] ∧
      (LocalAddr.ofAddress (.v4 ![192, 168, 100, 100])).getStr = [] ∧
        ((init4 [] {} ![192, 168, 100, 100] 80 ![10, 0, 0, 2] 1234 60 .outgoing).hash []).1 =
          "192.168.100.100:80-10.0.0.2:1234".toList := by
  decide +kernel

end CapPacket
end Capture
