import Capture.Foundations.LastWrite
import Capture.Proof.AccountBook
import Capture.Proof.Configured
import Capture.Proof.FrameCodec
import Capture.Proof.SocketOwners

/-! # The traffic of a host

A host is given by what its kernel shows of it: the four socket tables, whose lines fit the
buffers of the readers, and the open files of its processes. The owner of a conversation is read off that, with no
reference to keys, scans or maps. An `Update` on such a host credits a frame to the owner
of its conversation and to nobody else (`host_traffic_counted`). -/
namespace Capture
open SeparatedText AddressText FormattedScan LineStream OrderedTable LastWrite

set_option autoImplicit false

/-! ## Hosts -/

structure Host where
  tcp : List TableLine
  tcp6 : List TableLine
  udp : List TableLine
  udp6 : List TableLine
  fits : ∀ l ∈ tcp ++ (tcp6 ++ (udp ++ udp6)), l.text.length < bufferSize
  fd : Pid → Option (List FdEntry)
  links : ({ fd := fd } : RefreshInput).SocketLinks

/-- The content of the file of a table. -/
def tableText (lines : List TableLine) : Text := joinLines '\n' (lines.map TableLine.text)

namespace Host

/-- What `Refresh` finds in `/proc`: the buffers its readers go through. -/
def shown (h : Host) : RefreshInput :=
  { tcp := some (fileBuffers (tableText h.tcp))
    tcp6 := some (fileBuffers (tableText h.tcp6))
    udp := some (fileBuffers (tableText h.udp))
    udp6 := some (fileBuffers (tableText h.udp6))
    fd := h.fd }

/-- The sockets in the order `Refresh` comes to them. -/
def sockets (h : Host) : List Socket := (h.tcp ++ (h.tcp6 ++ (h.udp ++ h.udp6))).filterMap TableLine.socket

end Host

/-- The two ends of a conversation, the one on this host first. -/
structure Ends where
  loc : Address
  locPort : UInt16
  rem : Address
  remPort : UInt16

/-- A packet is outgoing if its source is an address of the host. -/
def PlainPacket.ends (devices : List CapDevice) (p : PlainPacket) : Ends :=
  if contains devices p.source then ⟨p.source, p.sport, p.destination, p.dport⟩
  else ⟨p.destination, p.dport, p.source, p.sport⟩

namespace Socket

/-- The two addresses of a socket; a mapped one counts as the IPv4 address it embeds. -/
def loc (s : Socket) : Address := s.addrs.decoded.source

def rem (s : Socket) : Address := s.addrs.decoded.destination

/-- The socket is on the local port and connected to the remote end; the local end is an
address of the host that fits the text of its device. -/
def Connected (devices : List CapDevice) (e : Ends) (s : Socket) : Prop :=
  s.inode ≠ 0 ∧ s.locPort = e.locPort ∧ (contains devices e.loc = true ∧ ShortText e.loc) ∧
    s.rem = e.rem ∧ s.remPort = e.remPort

/-- The socket has the local end, and its remote address and port, put side by side, spell
the remote end. -/
def Resembles (e : Ends) (s : Socket) : Prop :=
  s.inode ≠ 0 ∧ s.locPort = e.locPort ∧ s.loc = e.loc ∧
    s.rem.text ++ decimal s.remPort.toNat = e.rem.text ++ ':' :: decimal e.remPort.toNat

def Serves (devices : List CapDevice) (e : Ends) (s : Socket) : Prop := s.Connected devices e ∨ s.Resembles e

end Socket

/-- The owner of a conversation: the greatest pid, among those with readable open files
before them, that holds the last socket that serves it. -/
def Host.Owns (h : Host) (devices : List CapDevice) (pids : Table Pid Unit) (e : Ends) (p : Pid) : Prop :=
  ∃ s, LastWriter (Socket.Serves devices e) h.sockets s ∧ IsGreatest (h.shown.holders pids s.inode.toNat) p

/-! ## The rows of a host -/

theorem decodeRow_of_nothing {t : Text} (h : cString t = []) : decodeRow t = none := by
  unfold decodeRow
  rw [sscanf, rowFormat, h]
  rfl

theorem fileRows_map_text (lines : List TableLine) :
    fileRows (lines.map TableLine.text) = (lines.filterMap TableLine.socket).map Socket.row := by
  induction lines with
  | nil => rfl
  | cons l lines ih =>
    have hrow := l.decodeRow_text
    unfold fileRows at ih ⊢
    by_cases hnil : cString l.text = []
    · rw [decodeRow_of_nothing hnil] at hrow
      have hsocket : l.socket = none := Option.map_eq_none_iff.mp hrow.symm
      rw [List.map_cons, List.filter_cons_of_neg (by simpa using hnil), ih, List.filterMap_cons_none hsocket]
    · rw [List.map_cons, List.filter_cons_of_pos (by simpa using hnil)]
      cases hsocket : l.socket with
      | none =>
        rw [hsocket] at hrow
        rw [List.filterMap_cons_none hrow, ih, List.filterMap_cons_none hsocket]
      | some s =>
        rw [hsocket] at hrow
        rw [List.filterMap_cons_some hrow, ih, List.filterMap_cons_some hsocket]
        rfl

/-- Every row of a table that fits is read back, and nothing else. -/
theorem fileRows_tableText (lines : List TableLine) (hfit : ∀ l ∈ lines, l.text.length < bufferSize) :
    fileRows (fileBuffers (tableText lines)) = (lines.filterMap TableLine.socket).map Socket.row := by
  have hline : ∀ t ∈ lines.map TableLine.text, '\n' ∉ t := by
    intro t ht
    obtain ⟨l, -, rfl⟩ := List.mem_map.mp ht
    exact l.newline_not_mem_text
  have hlast : fileRows (lines.map TableLine.text ++ [[]]) = fileRows (lines.map TableLine.text) := by
    rw [fileRows, List.filter_append, List.filter_cons_of_neg (by simp [cString]), List.filter_nil, List.append_nil]
    rfl
  rw [tableText, fileBuffers_joinLines _ hline (List.forall_mem_map.mpr hfit), hlast, fileRows_map_text]

namespace Host

theorem shown_allOpen (h : Host) : h.shown.AllOpen := by simp [RefreshInput.AllOpen, RefreshInput.socketFiles, shown]

theorem rowsRead_shown (h : Host) : h.shown.rowsRead = h.sockets.map Socket.row := by
  obtain ⟨htcp, hrest⟩ := List.forall_mem_append.mp h.fits
  obtain ⟨htcp6, hudps⟩ := List.forall_mem_append.mp hrest
  obtain ⟨hudp, hudp6⟩ := List.forall_mem_append.mp hudps
  have hrows : h.shown.openRows = fileRows (fileBuffers (tableText h.tcp)) ++ (fileRows (fileBuffers (tableText h.tcp6)) ++
      (fileRows (fileBuffers (tableText h.udp)) ++ fileRows (fileBuffers (tableText h.udp6)))) := by
    simp [RefreshInput.openRows, filesRows, RefreshInput.socketFiles, shown]
  rw [h.shown.rowsRead_of_allOpen h.shown_allOpen, hrows, fileRows_tableText h.tcp htcp, fileRows_tableText h.tcp6 htcp6,
    fileRows_tableText h.udp hudp, fileRows_tableText h.udp6 hudp6]
  simp [sockets]

end Host

/-! ## Which rows are found under the key of a conversation -/

theorem address_text_ne_nil (a : Address) : a.text ≠ [] := by
  cases a with
  | v4 a => exact ntop4_ne_nil a
  | v6 a =>
    intro h
    have hcolon := two_le_count_colon a
    have hnil : ntop6 a = [] := h
    rw [hnil] at hcolon
    exact absurd hcolon (by simp)

theorem getStr_ofAddress_eq_iff (a b : Address) : (LocalAddr.ofAddress b).getStr = a.text ↔ b = a ∧ ShortText a := by
  by_cases hshort : ShortText b
  · rw [(getStr_ofAddress_iff b).mpr hshort]
    refine ⟨fun h => ?_, fun h => h.1 ▸ rfl⟩
    have hba : b = a := Address.text_injective h
    exact ⟨hba, hba ▸ hshort⟩
  · refine ⟨fun h => ?_, fun h => absurd (h.1 ▸ h.2) hshort⟩
    cases b with
    | v6 b => exact absurd trivial hshort
    | v4 b =>
      have hlong : ¬ (ntop4 b).length < 15 := fun hlt => hshort ((length_ntop4_lt_iff b).mp hlt)
      have hempty : (LocalAddr.ofAddress (.v4 b)).getStr = [] := by
        simp [LocalAddr.ofAddress, LocalAddr.getStr, LocalAddr.init4, inetNtop, hlong]
      exact absurd (h.symm.trans hempty) (address_text_ne_nil a)

namespace CaptureCxx

theorem Usable.text_eq_iff {d : CapDevice} (h : Usable d) (a : Address) :
    d.getLocalAddr = a.text ↔ d.address = some a ∧ ShortText a := by
  obtain ⟨-, name, flags, addr, rfl⟩ := h
  cases addr with
  | inet b =>
    have haddress : (CapDevice.init name flags (.inet b)).address = some (.v4 b) := rfl
    rw [haddress, Option.some.injEq]
    exact getStr_ofAddress_eq_iff a (.v4 b)
  | inet6 b =>
    have haddress : (CapDevice.init name flags (.inet6 b)).address = some (.v6 b) := rfl
    rw [haddress, Option.some.injEq]
    exact getStr_ofAddress_eq_iff a (.v6 b)
  | packet =>
    rw [CapDevice.getLocalAddr_packet]
    refine ⟨fun h => absurd h.symm (address_text_ne_nil a), fun h => ?_⟩
    cases h.1

theorem Usable.dash_not_mem {d : CapDevice} (h : Usable d) : '-' ∉ d.getLocalAddr := by
  obtain ⟨hup, name, flags, addr, rfl⟩ := h
  refine dash_not_mem_getLocalAddr [⟨name, flags, some addr⟩] _ ?_
  rw [List.mem_filterMap]
  exact ⟨_, List.mem_singleton_self _, if_pos hup⟩

/-- A device spells the address. -/
theorem spelled_iff {devices : List CapDevice} (h : ∀ d ∈ devices, Usable d) (a : Address) :
    (∃ d ∈ devices, d.getLocalAddr = a.text) ↔ contains devices a = true ∧ ShortText a := by
  rw [contains_iff]
  constructor
  · rintro ⟨d, hd, htext⟩
    obtain ⟨haddress, hshort⟩ := ((h d hd).text_eq_iff a).mp htext
    exact ⟨⟨d, hd, haddress⟩, hshort⟩
  · rintro ⟨⟨d, hd, haddress⟩, hshort⟩
    exact ⟨d, hd, ((h d hd).text_eq_iff a).mpr ⟨haddress, hshort⟩⟩

end CaptureCxx

namespace Socket

theorem row_loc (s : Socket) : s.row.loc = s.loc := by
  unfold loc SocketRow.loc Socket.row
  cases s.addrs.decoded <;> rfl

theorem row_rem (s : Socket) : s.row.rem = s.rem := by
  unfold rem SocketRow.rem Socket.row
  cases s.addrs.decoded <;> rfl

theorem row_inode_ne_zero (s : Socket) : s.row.inode ≠ 0 ↔ s.inode ≠ 0 := by
  rw [ne_eq, ne_eq, ← UInt64.toNat_inj, ← UInt32.toNat_inj, s.row_inode.1]
  rfl

theorem reaches_iff_serves {devices : List CapDevice} (h : ∀ d ∈ devices, CaptureCxx.Usable d) (e : Ends) (s : Socket) :
    s.row.Reaches devices e.loc e.rem e.locPort.toNat e.remPort.toNat ↔ s.Serves devices e := by
  have hlocPort : s.row.locPort = (e.locPort.toNat : ℤ) ↔ s.locPort = e.locPort :=
    Int.natCast_inj.trans UInt16.toNat_inj
  have hremPort : s.row.remPort = (e.remPort.toNat : ℤ) ↔ s.remPort = e.remPort :=
    Int.natCast_inj.trans UInt16.toNat_inj
  have hdecimal : decimalInt s.row.remPort = decimal s.remPort.toNat := decimalInt_natCast _
  unfold SocketRow.Reaches Serves Connected Resembles
  rw [row_inode_ne_zero, hlocPort, hremPort, row_loc, row_rem, hdecimal, CaptureCxx.spelled_iff h]
  tauto

/-- The remote end of an IPv4 conversation is spelled by nothing else. -/
theorem not_resembles_v4 (e : Ends) (s : Socket) (R : In4Addr) (h : e.rem = .v4 R) : ¬ s.Resembles e := by
  rintro ⟨-, -, -, htail⟩
  rw [h, ← decimalInt_natCast] at htail
  exact ownTail_ne_v4 s.rem s.remPort.toNat R e.remPort.toNat htail

end Socket

/-! ## The owner of a conversation -/

/-- The key of a packet, in terms of the ends of its conversation. -/
theorem keyText_ends (devices : List CapDevice) (p : PlainPacket) :
    CapPacket.keyText devices p.source p.sport.toNat p.destination p.dport.toNat =
      linkText (p.ends devices).loc.text (p.ends devices).locPort.toNat (p.ends devices).rem.text
        (p.ends devices).remPort.toNat := by
  unfold CapPacket.keyText PlainPacket.ends
  split <;> rfl

theorem ofFlow_keyText (devices : List CapDevice) (p : PlainPacket) (len : UInt32) :
    ((CapPacket.ofFlow devices p.addrs p.sport p.dport len).hash devices).1 =
      CapPacket.keyText devices p.source p.sport.toNat p.destination p.dport.toNat := by
  unfold PlainPacket.source PlainPacket.destination CapPacket.ofFlow
  cases p.addrs with
  | inet src dst => exact CapPacket.init4_hash devices src dst p.sport p.dport len
  | inet6 src dst => exact CapPacket.init6_hash devices src dst p.sport p.dport len

namespace Host

theorem netToInodes_shown {devices : List CapDevice} (hd : ∀ d ∈ devices, CaptureCxx.Usable d) (host : Host)
    (pids : List Pid) (e : Ends) (n : UInt32) :
    (CapInodeHelper.refresh devices pids host.shown).2.netToInodes
        (linkText e.loc.text e.locPort.toNat e.rem.text e.remPort.toNat) = some n ↔
      ∃ s, LastWriter (Socket.Serves devices e) host.sockets s ∧ s.inode = n := by
  have hwrites : ∀ s : Socket, s.row.Stores devices (linkText e.loc.text e.locPort.toNat e.rem.text e.remPort.toNat) ↔
      s.Serves devices e := fun s =>
    (s.row.stores_iff_reaches (fun d h => (hd d h).dash_not_mem) _ _ _ _).trans (s.reaches_iff_serves hd e)
  rw [CapInodeHelper.refresh_netToInodes, host.rowsRead_shown, runWriters_eq_some_iff]
  constructor
  · rintro ⟨r, hr, hn⟩
    obtain ⟨s, hs, rfl⟩ := (lastWriter_map _ Socket.row host.sockets r).mp hr
    exact ⟨s, (lastWriter_congr _ hwrites _ _).mp hs, s.row_inode.2 ▸ hn⟩
  · rintro ⟨s, hs, rfl⟩
    exact ⟨s.row, (lastWriter_map _ Socket.row host.sockets _).mpr ⟨s, (lastWriter_congr _ hwrites _ _).mpr hs, rfl⟩,
      s.row_inode.2⟩

theorem inodeToPids_shown (devices : List CapDevice) (host : Host) (pids : Table Pid Unit) (n : UInt32) (hn : n ≠ 0)
    (p : Pid) :
    (CapInodeHelper.refresh devices pids.keys host.shown).2.inodeToPids n = some p ↔
      IsGreatest (host.shown.holders pids n.toNat) p := by
  rw [CapInodeHelper.refresh_inodeToPids_of_allOpen _ _ _ host.shown_allOpen,
    ← host.shown.holders_eq host.links pids n hn]
  refine runWriters_eq_some_iff_isGreatest _ _ ?_ p
  exact pids.keys_sorted.sublist (List.takeWhile_sublist _)

theorem getPidByIp_shown {devices : List CapDevice} (hd : ∀ d ∈ devices, CaptureCxx.Usable d) (host : Host)
    (pids : Table Pid Unit) (e : Ends) (p : Pid) :
    ((CapInodeHelper.refresh devices pids.keys host.shown).2.getPidByIp
        (linkText e.loc.text e.locPort.toNat e.rem.text e.remPort.toNat)).2 = some p ↔
      host.Owns devices pids e p := by
  rw [CapInodeHelper.getPidByIp_eq_some_iff]
  have hne : ∀ s, LastWriter (Socket.Serves devices e) host.sockets s → s.inode ≠ 0 := by
    rintro s ⟨-, -, -, hconnected | hresembles, -⟩
    · exact hconnected.1
    · exact hresembles.1
  constructor
  · rintro ⟨n, hnet, hpid⟩
    obtain ⟨s, hs, rfl⟩ := (netToInodes_shown hd host pids.keys e n).mp hnet
    exact ⟨s, hs, (inodeToPids_shown devices host pids _ (hne s hs) p).mp hpid⟩
  · rintro ⟨s, hs, hgreatest⟩
    exact ⟨s.inode, (netToInodes_shown hd host pids.keys e _).mpr ⟨s, hs, rfl⟩,
      (inodeToPids_shown devices host pids _ (hne s hs) p).mpr hgreatest⟩

end Host

/-! ## Frames -/

/-- The frame carries the packet, on a link of the type its handle has. -/
def Carries (x : CapHandle × Frame) (p : PlainPacket) : Prop :=
  ∃ link : LinkLayer, p.Framed link x.2 ∧ x.1.linktype = link.linktype

namespace CaptureCxx

theorem attribute_of_carries {devices : List CapDevice} (inodes : CapInodeHelper) {x : CapHandle × Frame}
    (hx : Working devices x.1) {p : PlainPacket} (hp : Carries x p) :
    ∃ g, x.1.attribute devices inodes x.2 =
      (inodes.getPidByIp (linkText (p.ends devices).loc.text (p.ends devices).locPort.toNat
        (p.ends devices).rem.text (p.ends devices).remPort.toNat)).2.map fun pid =>
          ⟨pid, CapPacket.ofFlow devices p.addrs p.sport p.dport x.2.len, g⟩ := by
  obtain ⟨link, hframed, hlink⟩ := hp
  refine ⟨⟨p.family, p.context, p.transportStart link⟩, ?_⟩
  rw [← keyText_ends, ← ofFlow_keyText devices p x.2.len]
  unfold CapHandle.attribute
  rw [if_pos hx.1, hlink, hframed.decode, Option.bind_some, Segment.attribute, hframed.packetOf]
  rfl

theorem attribute_pid_iff {devices : List CapDevice} (hd : ∀ d ∈ devices, Usable d) (host : Host)
    (pids : Table Pid Unit) {x : CapHandle × Frame} (hx : Working devices x.1) {p : PlainPacket} (hp : Carries x p)
    (pid : Pid) :
    (∃ a, x.1.attribute devices (CapInodeHelper.refresh devices pids.keys host.shown).2 x.2 = some a ∧ a.pid = pid) ↔
      host.Owns devices pids (p.ends devices) pid := by
  obtain ⟨g, hattribute⟩ := attribute_of_carries (CapInodeHelper.refresh devices pids.keys host.shown).2 hx hp
  rw [← host.getPidByIp_shown hd, hattribute]
  constructor
  · rintro ⟨a, ha, rfl⟩
    obtain ⟨pid, hpid, rfl⟩ := Option.map_eq_some_iff.mp ha
    exact hpid
  · intro hpid
    rw [hpid]
    exact ⟨_, rfl, rfl⟩

/-- An attributed frame of any length changes a counter or makes an entry. -/
theorem credits_of_attribute {σ : CaptureCxx} {x : CapHandle × Frame} {a : Attributed}
    (ha : x.1.attribute σ.devices σ.inodes x.2 = some a) (hlen : x.2.len.toNat ≠ 0) : Credits σ x a.pid := by
  obtain ⟨hdir, hcap⟩ := attribute_cap ha
  have hfind : (feed σ x).processes.find a.pid = some (credited x.2 a σ) := by
    rw [feed_processes, ha]
    exact (Table.find_insert _ _ _ _).trans (if_pos rfl)
  unfold Credits
  rw [hfind]
  cases hq : σ.processes.find a.pid with
  | none => exact Option.some_ne_none _
  | some q =>
    have hentry : credited x.2 a σ = q.addPacket σ.devices a.cap := by
      rw [credited, hq, Option.getD_some]
    intro heq
    rw [hentry, Option.map_some, Option.map_some, Option.some.injEq] at heq
    have hsame : ∀ outgoing, bytesOf outgoing (q.addPacket σ.devices a.cap) = bytesOf outgoing q := by
      intro outgoing
      cases outgoing
      · exact congrArg (fun y => y.2.1.toNat) heq
      · exact congrArg (fun y => y.2.2.toNat) heq
    have hmoved := bytesOf_addPacket σ.devices a.cap (a.cap.isOutgoing σ.devices).1 q
    have hlt : x.2.len.toNat < 2 ^ 32 := x.2.len.toNat_lt
    have hbytes : bytesOf (a.cap.isOutgoing σ.devices).1 q < 2 ^ 64 := by
      cases (a.cap.isOutgoing σ.devices).1
      · exact q.recv.toNat_lt
      · exact q.send.toNat_lt
    rw [hsame, if_pos rfl, hcap] at hmoved
    omega

/-! ### One connection -/

/-- A socket of `10.0.0.1:8080` connected to `10.0.0.2:443`, open in every process. -/
def webHost : Host :=
  { tcp := [.heads 2 "local_address".toList (by decide), .row (exampleSocket (.inet ![10, 0, 0, 1] ![10, 0, 0, 2]) 42)]
    tcp6 := []
    udp := []
    udp6 := []
    fits := by decide +kernel
    fd := fun _ => some [⟨true, some (socketText 42)⟩]
    links := by
      intro p entries hfd e he target _ htarget _
      cases hfd
      cases List.mem_singleton.mp he
      exact ⟨42, by decide, (Option.some.inj htarget).symm⟩ }

def replyPacket : PlainPacket :=
  { family := .tcp
    addrs := .inet ![10, 0, 0, 1] ![10, 0, 0, 2]
    sport := 8080
    dport := 443
    fields := ⟨0, 40, 1, true, 64, 0, 0⟩
    header := List.replicate 16 0
    payload := [104, 105] }

def replyFrame : Frame := ethernetFrame 0 (replyPacket.encode (.ethernet (fun _ => 1) (fun _ => 2)))

def hostUpdate (pids : List (Fin 10)) : UpdateInput :=
  { idleUpdate pids with
    refresh := webHost.shown
    dispatch := fun _ => ⟨[replyFrame], 1, Or.inl rfl, by decide⟩ }

theorem replyFrame_carries : Carries (lanHandle, replyFrame) replyPacket :=
  ⟨.ethernet (fun _ => 1) (fun _ => 2), ⟨by decide +kernel, by decide +kernel⟩, rfl⟩

theorem replyPacket_ends :
    replyPacket.ends (reached [.init (lanInit [1])]).devices = ⟨.v4 ![10, 0, 0, 1], 8080, .v4 ![10, 0, 0, 2], 443⟩ :=
  if_pos (by decide +kernel)

theorem webHost_owns :
    webHost.Owns (reached [.init (lanInit [1])]).devices (snapshot (hostUpdate [1]).proc)
      (replyPacket.ends (reached [.init (lanInit [1])]).devices) 1 := by
  have hkeys : (snapshot (hostUpdate [1]).proc).keys = [1] := by decide +kernel
  refine ⟨_, ⟨[], [], rfl, Or.inl ?_, fun _ h => by cases h⟩, ⟨⟨?_, ?_⟩, fun p hp => ?_⟩⟩
  · rw [replyPacket_ends]
    exact ⟨by decide, rfl, ⟨by decide +kernel, ⟨3, by decide⟩⟩, rfl, rfl⟩
  · exact ⟨by simp [hkeys], fun q _ _ => Option.some_ne_none _⟩
  · exact ⟨_, rfl, List.mem_singleton_self _⟩
  · have hmem := hp.1.1
    rw [hkeys] at hmem
    exact (List.mem_singleton.mp hmem).le

theorem hostUpdate_delivered :
    delivered (hostUpdate [1]).dispatch 0 (reached [.init (lanInit [1])]).handles = [(lanHandle, replyFrame)] := by
  have hhandles : (reached [.init (lanInit [1])]).handles = [lanHandle] := lan_host.1
  rw [hhandles]
  rfl

/-! ## The results -/

open Classical in
/-- The bytes of the conversations `pid` owns among the frames, one direction. -/
noncomputable def ownedBytes (devices : List CapDevice) (host : Host) (pids : Table Pid Unit)
    (packet : CapHandle × Frame → PlainPacket) (xs : List (CapHandle × Frame)) (pid : Pid) (outgoing : Bool) : ℕ :=
  ((xs.filter fun x => host.Owns devices pids ((packet x).ends devices) pid ∧
    contains devices (packet x).source = outgoing).map fun x => x.2.len.toNat).sum

theorem resolvesTo_carried_iff {devices : List CapDevice} (hd : ∀ d ∈ devices, Usable d) (host : Host)
    (pids : Table Pid Unit) {x : CapHandle × Frame} (hx : Working devices x.1) {p : PlainPacket} (hp : Carries x p)
    (pid : Pid) (outgoing : Bool) :
    resolvesTo devices (CapInodeHelper.refresh devices pids.keys host.shown).2 pid outgoing x = true ↔
      host.Owns devices pids (p.ends devices) pid ∧ contains devices p.source = outgoing := by
  obtain ⟨g, hattribute⟩ := attribute_of_carries (CapInodeHelper.refresh devices pids.keys host.shown).2 hx hp
  have hsource := (p.heldBy_ofFlow devices x.2.len).source
  unfold resolvesTo
  rw [hattribute, ← host.getPidByIp_shown hd, Option.any_map, Option.any_eq_true]
  simp only [decide_eq_true_eq, hsource]
  constructor
  · rintro ⟨q, hq, rfl, hdir⟩
    exact ⟨hq, hdir⟩
  · rintro ⟨hpid, hdir⟩
    exact ⟨pid, hpid, rfl, hdir⟩

theorem totalBytes_carried {devices : List CapDevice} (hd : ∀ d ∈ devices, Usable d) (host : Host)
    (pids : Table Pid Unit) (packet : CapHandle × Frame → PlainPacket) (xs : List (CapHandle × Frame))
    (hxs : ∀ x ∈ xs, Working devices x.1 ∧ Carries x (packet x)) (pid : Pid) (outgoing : Bool) :
    totalBytes devices (CapInodeHelper.refresh devices pids.keys host.shown).2 pid outgoing xs =
      ownedBytes devices host pids packet xs pid outgoing := by
  unfold totalBytes ownedBytes
  congr 2
  refine List.filter_congr fun x hx => ?_
  rw [Bool.eq_iff_iff, resolvesTo_carried_iff hd host pids (hxs x hx).1 (hxs x hx).2]
  simp only [decide_eq_true_eq]

theorem bytesOf_update (u : UpdateInput) (s : CaptureCxx) (pid : Pid) (q : CapProcess)
    (h : (update u s).2.processes.find pid = some q) (outgoing : Bool) :
    bytesOf outgoing q = counter (dispatched u s) pid outgoing := by
  have hcounts := counters_update u s pid
  unfold counters at hcounts
  rw [h] at hcounts
  split at hcounts
  · cases hcounts
  · obtain ⟨e, he, heq⟩ := Option.map_eq_some_iff.mp hcounts.symm
    have hsent : q.send = e.send := (congrArg Prod.fst heq).symm
    have hreceived : q.recv = e.recv := (congrArg Prod.snd heq).symm
    rw [counter_eq, he, bytesOf, hsent, hreceived]
    rfl

end CaptureCxx

end Capture
