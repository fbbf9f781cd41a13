import Capture.Foundations.LastWrite
import Capture.Model.CaptureCxx

/-! # Which socket a packet key names

Two encoders write the same strings: `ParseBuffer` one key per device for every socket
row, `CapPacket::Hash` one per packet. Both have the shape `address:port-address:port`
with no dash inside its parts, so equal keys have equal parts; the key a row writes for
itself lacks the last colon and is told apart by counting colons. -/
namespace Capture
open SeparatedText AddressText LastWrite

set_option autoImplicit false

/-! ## Equal keys have equal parts -/

/-- The part before the dash. A negative port has a dash of its own, right after the colon. -/
theorem left_of_linkText {addr addr' rest rest' : Text} (port port' : ℤ) (ha : '-' ∉ addr) (ha' : '-' ∉ addr')
    (h : addr ++ ':' :: (decimalInt port ++ '-' :: rest) = addr' ++ ':' :: (decimalInt port' ++ '-' :: rest')) :
    addr = addr' ∧ port = port' ∧ rest = rest' := by
  have hcolon : ∀ n, ':' ∉ decimal n := not_mem_decimal (by decide)
  have hdash : ∀ n, '-' ∉ decimal n := not_mem_decimal (by decide)
  -- the texts before the first dash end in a colon when the port is negative and in a digit otherwise
  have hmixed : ∀ (x y : Text) (n : ℕ), x ++ [':'] ≠ y ++ ':' :: decimal n := by
    intro x y n heq
    exact decimal_ne_nil n (cut_last ':' x y [] (decimal n) (by simp) (hcolon n) heq).2.symm
  cases port with
  | ofNat n =>
    have hleft : '-' ∉ addr ++ ':' :: decimal n := by simp [ha, hdash]
    cases port' with
    | ofNat m =>
      have hright : '-' ∉ addr' ++ ':' :: decimal m := by simp [ha', hdash]
      obtain ⟨hhead, hrest⟩ := cut_first '-' _ _ rest rest' hleft hright (by simpa [decimalInt] using h)
      obtain ⟨haddr, hport⟩ := cut_last ':' _ _ _ _ (hcolon n) (hcolon m) hhead
      exact ⟨haddr, congrArg Int.ofNat (decimal_injective hport), hrest⟩
    | negSucc m =>
      have hright : '-' ∉ addr' ++ [':'] := by simp [ha']
      have hcut := cut_first '-' _ (addr' ++ [':']) rest _ hleft hright (by simpa [decimalInt] using h)
      exact absurd hcut.1.symm (hmixed addr' addr n)
  | negSucc n =>
    have hleft : '-' ∉ addr ++ [':'] := by simp [ha]
    cases port' with
    | ofNat m =>
      have hright : '-' ∉ addr' ++ ':' :: decimal m := by simp [ha', hdash]
      have hcut := cut_first '-' (addr ++ [':']) _ _ rest' hleft hright (by simpa [decimalInt] using h)
      exact absurd hcut.1 (hmixed addr addr' m)
    | negSucc m =>
      have hright : '-' ∉ addr' ++ [':'] := by simp [ha']
      obtain ⟨hhead, htail⟩ := cut_first '-' (addr ++ [':']) (addr' ++ [':']) _ _ hleft hright
        (by simpa [decimalInt] using h)
      obtain ⟨hport, hrest⟩ := cut_first '-' _ _ rest rest' (hdash (n + 1)) (hdash (m + 1)) htail
      have hnm : n = m := Nat.succ.inj (decimal_injective hport)
      exact ⟨List.append_cancel_right hhead, congrArg Int.negSucc hnm, hrest⟩

theorem SocketRow.deviceKey_eq_iff (r : SocketRow) {device : Text} (hd : '-' ∉ device) (a R : Address) (lp rp : ℕ) :
    r.deviceKey device = linkText a.text lp R.text rp ↔
      device = a.text ∧ r.locPort = lp ∧ r.rem = R ∧ r.remPort = rp := by
  unfold SocketRow.deviceKey linkText
  rw [inetNtop_fits (Address.length_text_lt _)]
  constructor
  · intro h
    obtain ⟨haddr, hport, hrest⟩ := left_of_linkText r.locPort lp hd a.dash_not_mem_text h
    obtain ⟨hrem, hrp⟩ := cut_last ':' _ _ _ _ (not_mem_decimalInt (by decide) (by decide) r.remPort)
      (not_mem_decimal (by decide) rp) hrest
    exact ⟨haddr, hport, Address.text_injective hrem, eq_natCast_of_decimalInt hrp⟩
  · rintro ⟨rfl, hlp, rfl, hrp⟩
    rw [hlp, hrp, decimalInt_natCast, decimalInt_natCast]

theorem SocketRow.ownKey_eq_iff (r : SocketRow) (a R : Address) (lp rp : ℕ) :
    r.ownKey = linkText a.text lp R.text rp ↔
      r.loc = a ∧ r.locPort = lp ∧ r.rem.text ++ decimalInt r.remPort = R.text ++ ':' :: decimal rp := by
  unfold SocketRow.ownKey linkText
  rw [inetNtop_fits (Address.length_text_lt _), inetNtop_fits (Address.length_text_lt _)]
  constructor
  · intro h
    obtain ⟨haddr, hport, hrest⟩ := left_of_linkText r.locPort lp r.loc.dash_not_mem_text a.dash_not_mem_text h
    exact ⟨Address.text_injective haddr, hport, hrest⟩
  · rintro ⟨rfl, hlp, hrest⟩
    rw [hlp, decimalInt_natCast, hrest]

/-- No own key is the key of an IPv4 packet: the remote part has one colon, and a row has
none or at least two. -/
theorem ownTail_ne_v4 (rem : Address) (port : ℤ) (R : In4Addr) (rp : ℕ) :
    rem.text ++ decimalInt port ≠ (Address.v4 R).text ++ ':' :: decimal rp := by
  intro h
  have hcount := congrArg (List.count ':') h
  have hport : (decimalInt port).count ':' = 0 :=
    List.count_eq_zero.mpr (not_mem_decimalInt (by decide) (by decide) port)
  have hR : (ntop4 R).count ':' = 0 := List.count_eq_zero.mpr (not_mem_ntop4 (by decide) (by decide) R)
  have hrp : (decimal rp).count ':' = 0 := List.count_eq_zero.mpr (not_mem_decimal (by decide) rp)
  rw [List.count_append, List.count_append, List.count_cons_self, hport, hrp] at hcount
  simp only [Address.text, hR] at hcount
  cases rem with
  | v4 b =>
    have hb : (ntop4 b).count ':' = 0 := List.count_eq_zero.mpr (not_mem_ntop4 (by decide) (by decide) b)
    simp only [hb] at hcount
    omega
  | v6 b =>
    have hb := two_le_count_colon b
    dsimp only at hcount
    omega

/-! ## The map after any rows -/

def SocketRow.Stores (devices : List CapDevice) (key : Text) (r : SocketRow) : Prop :=
  r.inode ≠ 0 ∧ key ∈ r.keys devices

instance (devices : List CapDevice) (key : Text) : DecidablePred (SocketRow.Stores devices key) :=
  fun _ => inferInstanceAs (Decidable (_ ∧ _))

theorem foldl_writeKey (inode : UInt32) (ks : List Text) (m : Text → Option UInt32) (key : Text) :
    ks.foldl (CapInodeHelper.writeKey inode) m key = if key ∈ ks then some inode else m key := by
  induction ks generalizing m with
  | nil => simp
  | cons k ks ih =>
    rw [List.foldl_cons, ih, CapInodeHelper.writeKey]
    by_cases hks : key ∈ ks
    · simp [hks]
    · by_cases hk : key = k
      · simp [hk]
      · simp [hks, hk]

theorem storeRow_lookup (devices : List CapDevice) (h : CapInodeHelper) (r : SocketRow) (key : Text) :
    (h.storeRow devices r).netToInodes key =
      if r.Stores devices key then some r.inode.toUInt32 else h.netToInodes key := by
  unfold CapInodeHelper.storeRow SocketRow.Stores
  by_cases h0 : r.inode = 0
  · simp [h0]
  · rw [if_neg h0]
    show (r.keys devices).foldl (CapInodeHelper.writeKey r.inode.toUInt32) h.netToInodes key = _
    rw [foldl_writeKey]
    simp [h0]

theorem foldl_storeRow_lookup (devices : List CapDevice) (rows : List SocketRow) (h : CapInodeHelper) (key : Text) :
    (rows.foldl (CapInodeHelper.storeRow devices) h).netToInodes key =
      runWriters (SocketRow.Stores devices key) (fun r => r.inode.toUInt32) (h.netToInodes key) rows := by
  induction rows generalizing h with
  | nil => rfl
  | cons r rows ih =>
    rw [List.foldl_cons, ih, storeRow_lookup]
    rfl

/-! ## The rows that store a packet key -/

/-- The row is stored under the key of local endpoint `a:lp` and remote endpoint `R:rp`:
as the row of that flow on a host with address `a`, or because its own key, which lacks a
colon, happens to read the same. -/
def SocketRow.Reaches (devices : List CapDevice) (a R : Address) (lp rp : ℕ) (r : SocketRow) : Prop :=
  r.inode ≠ 0 ∧ r.locPort = lp ∧
    ((∃ d ∈ devices, d.getLocalAddr = a.text) ∧ r.rem = R ∧ r.remPort = rp ∨
      r.loc = a ∧ r.rem.text ++ decimalInt r.remPort = R.text ++ ':' :: decimal rp)

theorem SocketRow.stores_iff_reaches {devices : List CapDevice} (hdash : ∀ d ∈ devices, '-' ∉ d.getLocalAddr)
    (a R : Address) (lp rp : ℕ) (r : SocketRow) :
    r.Stores devices (linkText a.text lp R.text rp) ↔ r.Reaches devices a R lp rp := by
  refine and_congr_right fun _ => ?_
  unfold SocketRow.keys
  rw [List.mem_cons, eq_comm, r.ownKey_eq_iff, List.mem_map]
  constructor
  · rintro (⟨hloc, hport, htail⟩ | ⟨d, hd, hkey⟩)
    · exact ⟨hport, Or.inr ⟨hloc, htail⟩⟩
    · obtain ⟨htext, hport, hrem, hrp⟩ := (r.deviceKey_eq_iff (hdash d hd) a R lp rp).mp hkey
      exact ⟨hport, Or.inl ⟨⟨d, hd, htext⟩, hrem, hrp⟩⟩
  · rintro ⟨hport, ⟨⟨d, hd, htext⟩, hrem, hrp⟩ | ⟨hloc, htail⟩⟩
    · exact Or.inr ⟨d, hd, (r.deviceKey_eq_iff (hdash d hd) a R lp rp).mpr ⟨htext, hport, hrem, hrp⟩⟩
    · exact Or.inl ⟨hloc, hport, htail⟩

/-! ## Packets -/

namespace CapPacket

def ofFlow (devices : List CapDevice) (addrs : RowAddrs) (sport dport : UInt16) (len : UInt32) : CapPacket :=
  match addrs with
  | .inet src dst => init4 devices {} src sport dst dport len .unknown
  | .inet6 src dst => init6 devices {} src sport dst dport len .unknown

/-- The endpoint on this host, by the direction the packet was found to have. -/
def localEnd (p : CapPacket) : Address × ℕ :=
  if p.dir = .outgoing then (p.source, p.sport.toNat) else (p.destination, p.dport.toNat)

def remoteEnd (p : CapPacket) : Address × ℕ :=
  if p.dir = .outgoing then (p.destination, p.dport.toNat) else (p.source, p.sport.toNat)

theorem hash_keeps (devices : List CapDevice) (p : CapPacket) (hh : p.hashstring = []) (hd : p.dir = .unknown) :
    ((p.hash devices).2.hash devices).1 = keyText devices p.source p.sport.toNat p.destination p.dport.toNat ∧
      (p.hash devices).2.localEnd = (if contains devices p.source then (p.source, p.sport.toNat)
        else (p.destination, p.dport.toNat)) ∧
      (p.hash devices).2.remoteEnd = (if contains devices p.source then (p.destination, p.dport.toNat)
        else (p.source, p.sport.toNat)) := by
  rw [hash_of_unknown devices p hh hd]
  refine ⟨?_, ?_, ?_⟩
  · rw [hash_cached devices _ (keyText_ne_nil devices p.source p.sport.toNat p.destination p.dport.toNat)]
  · cases hc : contains devices p.source <;> simp [localEnd, source, destination]
  · cases hc : contains devices p.source <;> simp [remoteEnd, source, destination]

theorem init4_hash (devices : List CapDevice) (src dst : In4Addr) (sport dport : UInt16) (len : UInt32) :
    ((init4 devices {} src sport dst dport len .unknown).hash devices).1 =
      keyText devices (.v4 src) sport.toNat (.v4 dst) dport.toNat := by
  obtain ⟨hkey, -, -⟩ := hash_keeps devices
    { sip := src, sport := sport.toUInt32, dip := dst, dport := dport.toUInt32, len := len, family := .inet } rfl rfl
  rw [init4, hkey]
  rfl

theorem init6_hash (devices : List CapDevice) (src dst : In6Addr) (sport dport : UInt16) (len : UInt32) :
    ((init6 devices {} src sport dst dport len .unknown).hash devices).1 =
      keyText devices (.v6 src) sport.toNat (.v6 dst) dport.toNat := by
  obtain ⟨hkey, -, -⟩ := hash_keeps devices
    { sip6 := src, sport := sport.toUInt32, dip6 := dst, dport := dport.toUInt32, len := len, family := .inet6 } rfl rfl
  rw [init6, hkey]
  rfl

theorem ofFlow_hash (devices : List CapDevice) (addrs : RowAddrs) (sport dport : UInt16) (len : UInt32) :
    ((ofFlow devices addrs sport dport len).hash devices).1 =
      linkText (ofFlow devices addrs sport dport len).localEnd.1.text (ofFlow devices addrs sport dport len).localEnd.2
        (ofFlow devices addrs sport dport len).remoteEnd.1.text
        (ofFlow devices addrs sport dport len).remoteEnd.2 := by
  cases addrs with
  | inet src dst =>
    obtain ⟨hkey, hlocal, hremote⟩ := hash_keeps devices
      { sip := src, sport := sport.toUInt32, dip := dst, dport := dport.toUInt32, len := len, family := .inet } rfl rfl
    rw [ofFlow, init4, hkey, hlocal, hremote, keyText]
    split <;> rfl
  | inet6 src dst =>
    obtain ⟨hkey, hlocal, hremote⟩ := hash_keeps devices
      { sip6 := src, sport := sport.toUInt32, dip6 := dst, dport := dport.toUInt32, len := len, family := .inet6 }
      rfl rfl
    rw [ofFlow, init6, hkey, hlocal, hremote, keyText]
    split <;> rfl

end CapPacket

/-! ## Completeness for connected IPv4 sockets -/

/-- A connected socket is found from either direction of its traffic on any IPv4 address
of the host, if no later row has the same local port and remote endpoint. -/
theorem connected_ipv4_socket_found (devices : List CapDevice)
    (hspelled : ∀ d ∈ devices, d.getLocalAddr = (d.address.map Address.text).getD [])
    (h : CapInodeHelper) (pre post : List SocketRow) (row : SocketRow) (a R : In4Addr) (lp rp : UInt16)
    (i : UInt32) (len : UInt32) (ha : contains4 devices a = true) (hlp : row.locPort = lp.toNat)
    (hR : row.rem = .v4 R) (hrp : row.remPort = rp.toNat) (hi : row.inode = i.toUInt64) (hi0 : i ≠ 0)
    (hlast : ∀ r ∈ post, ¬ (r.locPort = lp.toNat ∧ r.rem = .v4 R ∧ r.remPort = rp.toNat)) :
    ((pre ++ row :: post).foldl (CapInodeHelper.storeRow devices) h).netToInodes
        ((CapPacket.init4 devices {} a lp R rp len .unknown).hash devices).1 = some i ∧
      (contains4 devices R = false →
        ((pre ++ row :: post).foldl (CapInodeHelper.storeRow devices) h).netToInodes
          ((CapPacket.init4 devices {} R rp a lp len .unknown).hash devices).1 = some i) := by
  -- both packets have the key `a:lp-R:rp`
  have hout : ((CapPacket.init4 devices {} a lp R rp len .unknown).hash devices).1 =
      linkText (Address.v4 a).text lp.toNat (Address.v4 R).text rp.toNat := by
    rw [CapPacket.init4_hash, CapPacket.keyText]
    exact if_pos ha
  have hin : contains4 devices R = false → ((CapPacket.init4 devices {} R rp a lp len .unknown).hash devices).1 =
      linkText (Address.v4 a).text lp.toNat (Address.v4 R).text rp.toNat := by
    intro hR
    rw [CapPacket.init4_hash, CapPacket.keyText]
    exact if_neg (by simp [contains, hR])
  obtain ⟨d, hd, hda⟩ := (contains_iff devices (.v4 a)).mp ha
  have hdash : ∀ d ∈ devices, '-' ∉ d.getLocalAddr := by
    intro d hd
    rw [hspelled d hd]
    cases d.address with
    | none => simp
    | some b => exact b.dash_not_mem_text
  have hstores : row.Stores devices (linkText (Address.v4 a).text lp.toNat (Address.v4 R).text rp.toNat) := by
    refine (row.stores_iff_reaches hdash (.v4 a) (.v4 R) _ _).mpr ⟨?_, hlp, Or.inl ⟨⟨d, hd, ?_⟩, hR, hrp⟩⟩
    · rw [hi]
      intro hzero
      refine hi0 (UInt32.toNat_inj.mp ?_)
      simpa using congrArg UInt64.toNat hzero
    · rw [hspelled d hd, hda]
      rfl
  have hpost : ∀ r ∈ post,
      ¬ r.Stores devices (linkText (Address.v4 a).text lp.toNat (Address.v4 R).text rp.toNat) := by
    intro r hr hstore
    obtain ⟨-, hport, ⟨-, hrem, hremPort⟩ | ⟨-, htail⟩⟩ :=
      (r.stores_iff_reaches hdash (.v4 a) (.v4 R) _ _).mp hstore
    · exact hlast r hr ⟨hport, hrem, hremPort⟩
    · exact ownTail_ne_v4 r.rem r.remPort R rp.toNat htail
  have hfound : ((pre ++ row :: post).foldl (CapInodeHelper.storeRow devices) h).netToInodes
      (linkText (Address.v4 a).text lp.toNat (Address.v4 R).text rp.toNat) = some i := by
    rw [foldl_storeRow_lookup, runWriters_of_last _ _ _ pre post row hstores hpost, hi]
    simp
  exact ⟨hout ▸ hfound, fun h => hin h ▸ hfound⟩

/-- A connection on one interface, with an unrelated IPv6 row behind it. -/
theorem connected_ipv4_socket_found_lan :
    let devices := [CapDevice.init (some ['e']) 0x41 (.inet ![10, 0, 0, 1])]
    let rows : List SocketRow := [⟨.inet ![10, 0, 0, 1] ![10, 0, 0, 2], 80, 1234, 42⟩,
      ⟨.inet6 (fun _ => 0) (fun _ => 1), 80, 1234, 43⟩]
    (rows.foldl (CapInodeHelper.storeRow devices) {}).netToInodes
        ((CapPacket.init4 devices {} ![10, 0, 0, 1] 80 ![10, 0, 0, 2] 1234 60 .unknown).hash devices).1 = some 42 ∧
      (contains4 devices ![10, 0, 0, 2] = false →
        (rows.foldl (CapInodeHelper.storeRow devices) {}).netToInodes
          ((CapPacket.init4 devices {} ![10, 0, 0, 2] 1234 ![10, 0, 0, 1] 80 60 .unknown).hash devices).1 =
            some 42) := by
  refine connected_ipv4_socket_found [CapDevice.init (some ['e']) 0x41 (.inet ![10, 0, 0, 1])] ?_ {} []
    [⟨.inet6 (fun _ => 0) (fun _ => 1), 80, 1234, 43⟩] ⟨.inet ![10, 0, 0, 1] ![10, 0, 0, 2], 80, 1234, 42⟩
    ![10, 0, 0, 1] ![10, 0, 0, 2] 80 1234 42 60 ?_ rfl rfl rfl rfl (by decide) ?_
  · intro d hd
    cases List.mem_singleton.mp hd
    decide +kernel
  · rw [contains4, List.any_cons, LocalAddr.contains4]
    simp [CapDevice.init, LocalAddr.init4]
  · intro r hr h
    cases List.mem_singleton.mp hr
    cases h.2.1

/-! ## The local address -/

def BoundRow (rows : List SocketRow) (i : UInt32) (a : Address) (lp : ℕ) : Prop :=
  ∃ r ∈ rows, r.inode ≠ 0 ∧ r.inode.toUInt32 = i ∧ r.locPort = lp ∧ (r.loc = a ∨ r.loc.Unspecified)

/-- When the traffic of `a:lp` with `R:rp` goes to a socket bound to `a` or to no address:
no device spells `a`, or the last row stored under its key that is a row of the flow has
an inode that a row bound so carries. -/
def FlowBoundHere (devices : List CapDevice) (rows : List SocketRow) (a R : Address) (lp rp : ℕ) : Prop :=
  (∃ d ∈ devices, d.getLocalAddr = a.text) → ∀ (pre : List SocketRow) (w : SocketRow) (post : List SocketRow),
    rows = pre ++ w :: post → w.inode ≠ 0 → w.locPort = lp → w.rem = R → w.remPort = rp →
      (∀ r ∈ post, ¬ r.Reaches devices a R lp rp) → BoundRow rows w.inode.toUInt32 a lp

theorem dash_not_mem_getLocalAddr (ifaddrs : List Ifaddr) (d : CapDevice)
    (hd : d ∈ ifaddrs.filterMap CaptureCxx.usableDevice) : '-' ∉ d.getLocalAddr := by
  have hntop : ∀ (t : Text) (n : ℕ), '-' ∉ t → '-' ∉ inetNtop t n [] := by
    intro t n ht
    unfold inetNtop
    split
    · exact ht
    · simp
  obtain ⟨e, -, he⟩ := List.mem_filterMap.mp hd
  unfold CaptureCxx.usableDevice at he
  split at he
  · cases he
  · next addr _ =>
    dsimp only at he
    split at he
    · cases he
      cases addr with
      | inet b =>
        rw [CapDevice.getLocalAddr_inet]
        exact hntop (ntop4 b) 15 (Address.dash_not_mem_text (.v4 b))
      | inet6 b =>
        rw [CapDevice.getLocalAddr_inet6]
        exact hntop (ntop6 b) 63 (Address.dash_not_mem_text (.v6 b))
      | packet => simp
    · cases he

/-- For every device list `InitDevice` can build, all rows and every packet: if the key of
the packet is found, its inode belongs to a socket on the packet's local port bound to
its local address or to none, exactly when `FlowBoundHere`. -/
theorem attribution_respects_local_address_iff (ifaddrs : List Ifaddr) (rows : List SocketRow) (addrs : RowAddrs)
    (sport dport : UInt16) (len : UInt32) :
    let devices := ifaddrs.filterMap CaptureCxx.usableDevice
    let p := CapPacket.ofFlow devices addrs sport dport len
    (∀ i, (rows.foldl (CapInodeHelper.storeRow devices) {}).netToInodes (p.hash devices).1 = some i →
      BoundRow rows i p.localEnd.1 p.localEnd.2) ↔
      FlowBoundHere devices rows p.localEnd.1 p.remoteEnd.1 p.localEnd.2 p.remoteEnd.2 := by
  intro devices p
  have hstores : ∀ r : SocketRow,
      r.Stores devices (linkText p.localEnd.1.text p.localEnd.2 p.remoteEnd.1.text p.remoteEnd.2) ↔
        r.Reaches devices p.localEnd.1 p.remoteEnd.1 p.localEnd.2 p.remoteEnd.2 :=
    SocketRow.stores_iff_reaches (dash_not_mem_getLocalAddr ifaddrs) _ _ _ _
  have hkey : (p.hash devices).1 =
      linkText p.localEnd.1.text p.localEnd.2 p.remoteEnd.1.text p.remoteEnd.2 :=
    CapPacket.ofFlow_hash devices addrs sport dport len
  rw [hkey, foldl_storeRow_lookup]
  refine (forall_runWriters_iff _ _ rows _).trans ?_
  simp only [hstores]
  constructor
  · intro h hspelled pre w post hrows hinode hport hrem hremPort hpost
    exact h pre w post hrows ⟨hinode, hport, Or.inl ⟨hspelled, hrem, hremPort⟩⟩ hpost
  · rintro h pre w post hrows ⟨hinode, hport, ⟨hspelled, hrem, hremPort⟩ | ⟨hloc, -⟩⟩ hpost
    · exact h hspelled pre w post hrows hinode hport hrem hremPort hpost
    · -- a row that reached the key with its own is bound to the address itself
      exact ⟨w, by rw [hrows]; simp, hinode, rfl, hport, Or.inl hloc⟩

def twoAddresses : List CapDevice :=
  [⟨some ['e'], 0x41, some (.inet ![10, 0, 0, 1])⟩, ⟨some ['w'], 0x41, some (.inet ![10, 0, 1, 1])⟩].filterMap
    CaptureCxx.usableDevice

/-- The packet `10.0.0.1:80 -> 10.0.0.2:1234` is attributed to a socket bound to the other
address of the host. -/
theorem foreign_socket_attributed :
    let rows : List SocketRow := [⟨.inet ![10, 0, 1, 1] ![10, 0, 0, 2], 80, 1234, 42⟩]
    let p := CapPacket.ofFlow twoAddresses (.inet ![10, 0, 0, 1] ![10, 0, 0, 2]) 80 1234 60
    (rows.foldl (CapInodeHelper.storeRow twoAddresses) {}).netToInodes (p.hash twoAddresses).1 = some 42 ∧
      p.localEnd = (.v4 ![10, 0, 0, 1], 80) ∧ ¬ BoundRow rows 42 p.localEnd.1 p.localEnd.2 := by
  intro rows p
  have hlocal : p.localEnd = (.v4 ![10, 0, 0, 1], 80) := by
    have hdir : p.dir = .outgoing := by decide +kernel
    rw [CapPacket.localEnd, if_pos hdir]
    rfl
  refine ⟨by decide +kernel, hlocal, ?_⟩
  rw [hlocal]
  rintro ⟨r, hr, -, -, -, hloc | hloc⟩
  · cases List.mem_singleton.mp hr
    exact absurd (congrFun (Address.v4.inj hloc) 2) (by decide)
  · cases List.mem_singleton.mp hr
    have hzero : (![10, 0, 1, 1] : In4Addr) = fun _ => 0 := hloc
    exact absurd (congrFun hzero 0) (by decide)

end Capture
