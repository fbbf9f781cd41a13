import Capture.Model.CaptureCxx

/-! # The effect of one frame

Handling a frame has two parts. The protocol layers look at the bytes and log what they
read; they change no field (`handlePacket_settles`). If the key of the packet resolves to a
pid, `absorb` credits the process of that pid and records the packet. Everything below
`Attributed` is a function of the frame, the handle, the device list and the inode maps,
none of which a frame changes. -/
namespace Capture
open SeparatedText AddressText OrderedTable

set_option autoImplicit false

/-! ## Decoding -/

/-- A transport header found in a frame: its type, the addresses, and where it starts. -/
structure Segment where
  family : PacketType
  context : PcapCtx
  offset : ℕ
  deriving DecidableEq

/-- An IP header in a frame: its version, and where it starts. -/
inductive IpHeader where
  | ip4 (offset : ℕ)
  | ip6 (offset : ℕ)

structure Attributed where
  pid : Pid
  cap : CapPacket
  segment : Segment

namespace CapProtocol

def segmentOf (proto : UInt8) (context : PcapCtx) (payload : ℕ) : Option Segment :=
  if proto = ipprotoTcp then some ⟨.tcp, context, payload⟩
  else if proto = ipprotoUdp then some ⟨.udp, context, payload⟩
  else none

theorem segmentOf_eq_some {proto : UInt8} {context : PcapCtx} {payload : ℕ} {g : Segment}
    (h : segmentOf proto context payload = some g) :
    g.offset = payload ∧ g.context = context ∧ (proto = ipprotoTcp ∨ proto = ipprotoUdp) := by
  unfold segmentOf at h
  split at h
  · next htcp =>
    cases h
    exact ⟨rfl, rfl, Or.inl htcp⟩
  · split at h
    · next hudp =>
      cases h
      exact ⟨rfl, rfl, Or.inr hudp⟩
    · cases h

theorem segmentOf_eq_none_iff (proto : UInt8) (context : PcapCtx) (payload : ℕ) :
    segmentOf proto context payload = none ↔ ¬ (proto = ipprotoTcp ∨ proto = ipprotoUdp) := by
  unfold segmentOf
  split
  · next htcp => simp [htcp]
  · next htcp =>
    split
    · next hudp => simp [hudp]
    · next hudp => simp [htcp, hudp]

def decodeIp4 (f : Frame) (offset : ℕ) : Option Segment :=
  segmentOf (f.bytes (offset + 9)) (.ip4 (f.addr4 (offset + 12)) (f.addr4 (offset + 16))) (offset + 20)

def decodeIp6 (f : Frame) (offset : ℕ) : Option Segment :=
  segmentOf (f.bytes (offset + 6)) (.ip6 (f.addr6 (offset + 8)) (f.addr6 (offset + 24))) (offset + 40)

end CapProtocol

namespace IpHeader

def decode (f : Frame) : IpHeader → Option Segment
  | .ip4 offset => CapProtocol.decodeIp4 f offset
  | .ip6 offset => CapProtocol.decodeIp6 f offset

def parse (h : CapHandle) (f : Frame) (s : CaptureCxx) : IpHeader → CapHandle × CaptureCxx
  | .ip4 offset => CapProtocol.protocolIp4 h f offset s
  | .ip6 offset => CapProtocol.protocolIp6 h f offset s

end IpHeader

namespace CapProtocol

/-- The IP header of a frame on a link of the given type, if it is taken to have one. -/
def ipHeader (linktype : ℤ) (f : Frame) : Option IpHeader :=
  if linktype = dltEn10mb then
    if f.ntohs 12 = ethertypeIp then some (.ip4 14)
    else if f.ntohs 12 = ethertypeIpv6 then some (.ip6 14)
    else none
  else if linktype = dltRaw then
    if f.len < 1 then none
    else if f.bytes 0 &&& 0xF0 = 0x40 then some (.ip4 0)
    else if f.bytes 0 &&& 0xF0 = 0x60 then some (.ip6 0)
    else none
  else none

/-- The reads that decide which header it is. -/
def linkReads (linktype : ℤ) (f : Frame) : List Event :=
  if linktype = dltEn10mb then [.read 12 2]
  else if linktype = dltRaw then if f.len < 1 then [] else [.read 0 1]
  else []

/-- The segment a frame on a link of the given type is taken to carry. -/
def decode (linktype : ℤ) (f : Frame) : Option Segment :=
  if linktype = dltEn10mb then
    if f.ntohs 12 = ethertypeIp then decodeIp4 f 14
    else if f.ntohs 12 = ethertypeIpv6 then decodeIp6 f 14
    else none
  else if linktype = dltRaw then
    if f.len < 1 then none
    else if f.bytes 0 &&& 0xF0 = 0x40 then decodeIp4 f 0
    else if f.bytes 0 &&& 0xF0 = 0x60 then decodeIp6 f 0
    else none
  else none

theorem decode_eq (linktype : ℤ) (f : Frame) : decode linktype f = (ipHeader linktype f).bind (IpHeader.decode f) := by
  unfold decode ipHeader
  repeat' split
  all_goals rfl

end CapProtocol

/-- The packet of a segment and the pid its `Hash` resolves to through `GetPidByIp`. -/
def Segment.attribute (devices : List CapDevice) (inodes : CapInodeHelper) (f : Frame) (g : Segment) :
    Option Attributed :=
  (CaptureCxx.packetOf devices g.context f g.offset).bind fun cap =>
    (inodes.getPidByIp (cap.hash devices).1).2.map fun pid => ⟨pid, cap, g⟩

def CapHandle.attribute (h : CapHandle) (devices : List CapDevice) (inodes : CapInodeHelper) (f : Frame) :
    Option Attributed :=
  if h.callback then (CapProtocol.decode h.linktype f).bind (Segment.attribute devices inodes f) else none

namespace Event

def Protocol : Event → Prop
  | .read _ _ | .handler _ _ _ => True
  | _ => False

/-- The events of a frame, given the memory size and the system interval that a parse made
for a new process is called with. -/
def FromFrame (memory : UInt64) (deltaCpu : Interval) : Event → Prop
  | .frame _ _ | .read _ _ | .handler _ _ _ | .insert _ | .record _ _ => True
  | .parse _ imemory ideltacpu => imemory = memory ∧ ideltacpu = deltaCpu
  | _ => False

def written : Event → Option (ℕ × PacketRecord)
  | .record slot data => some (slot, data)
  | _ => none

def parsedFrame : Event → Option (Text × ℕ)
  | .frame device serial => some (device, serial)
  | _ => none

theorem Protocol.fromFrame {e : Event} (h : e.Protocol) (memory : UInt64) (deltaCpu : Interval) :
    e.FromFrame memory deltaCpu := by
  cases e <;> trivial

theorem Protocol.silent {e : Event} (h : e.Protocol) : e.written = none ∧ e.parsedFrame = none := by
  cases e <;> first | exact ⟨rfl, rfl⟩ | cases h

end Event

namespace CaptureCxx

def extend (es : List Event) (s : CaptureCxx) : CaptureCxx := { s with log := s.log ++ es }

theorem extend_nil (s : CaptureCxx) : extend [] s = s := by simp [extend]

def absorb (f : Frame) (a : Attributed) (s : CaptureCxx) : CaptureCxx :=
  storePacket .tcp a.segment.family a.cap f a.segment.offset (addPacket f.files a.pid a.cap s)

def settle (f : Frame) (a : Option Attributed) (s : CaptureCxx) : CaptureCxx :=
  match a with
  | none => s
  | some a => absorb f a s

/-! ## The protocol layers change no field -/

theorem extend_extend (es es' : List Event) (s : CaptureCxx) : extend es' (extend es s) = extend (es ++ es') s := by
  simp [extend]

theorem extend_emit_emit (e e' : Event) (es : List Event) (s : CaptureCxx) :
    extend es (emit e' (emit e s)) = extend (e :: e' :: es) s := by
  simp [extend, emit]

/-- The events of a handler call, up to the lookup of the packet. -/
def segmentEvents (g : Option Segment) : List Event :=
  match g with
  | none => []
  | some g => [.handler g.family g.context g.offset, .read g.offset 4]

def ip4Events (f : Frame) (offset : ℕ) : List Event :=
  .read (offset + 12) 8 :: .read (offset + 9) 1 :: segmentEvents (CapProtocol.decodeIp4 f offset)

def ip6Events (f : Frame) (offset : ℕ) : List Event :=
  .read (offset + 8) 32 :: .read (offset + 6) 1 :: segmentEvents (CapProtocol.decodeIp6 f offset)

def ipEvents (f : Frame) : IpHeader → List Event
  | .ip4 offset => ip4Events f offset
  | .ip6 offset => ip6Events f offset

/-- What the layers below the handlers log for a frame. -/
def protocolEvents (linktype : ℤ) (f : Frame) : List Event :=
  if linktype = dltEn10mb then
    .read 12 2 :: (if f.ntohs 12 = ethertypeIp then ip4Events f 14
      else if f.ntohs 12 = ethertypeIpv6 then ip6Events f 14
      else [])
  else if linktype = dltRaw then
    if f.len < 1 then []
    else .read 0 1 :: (if f.bytes 0 &&& 0xF0 = 0x40 then ip4Events f 0
      else if f.bytes 0 &&& 0xF0 = 0x60 then ip6Events f 0
      else [])
  else []

theorem protocolEvents_eq (linktype : ℤ) (f : Frame) :
    protocolEvents linktype f =
      CapProtocol.linkReads linktype f ++ (CapProtocol.ipHeader linktype f).elim [] (ipEvents f) := by
  unfold protocolEvents CapProtocol.linkReads CapProtocol.ipHeader
  repeat' split
  all_goals rfl

theorem getPidByIp_code (h : CapInodeHelper) (key : Text) :
    (h.getPidByIp key).1 ≠ 0 ∧ (h.getPidByIp key).2 = none ∨
      ∃ pid, h.getPidByIp key = (0, some pid) := by
  unfold CapInodeHelper.getPidByIp
  split
  · exact Or.inl ⟨by decide, rfl⟩
  · split
    · exact Or.inl ⟨by decide, rfl⟩
    · next pid _ => exact Or.inr ⟨pid, rfl⟩

theorem processPacket_eq (family : PacketType) (context : PcapCtx) (hcontext : context ≠ .unspec) (f : Frame)
    (offset : ℕ) (s : CaptureCxx) :
    (processPacket .tcp family context f offset s).2 =
      settle f (Segment.attribute s.devices s.inodes f ⟨family, context, offset⟩) (extend [.read offset 4] s) := by
  obtain ⟨cap, hcap⟩ : ∃ cap, packetOf s.devices context f offset = some cap := by
    cases context with
    | unspec => exact absurd rfl hcontext
    | ip4 src dst => exact ⟨_, rfl⟩
    | ip6 src dst => exact ⟨_, rfl⟩
  unfold processPacket Segment.attribute
  dsimp only
  rw [hcap]
  dsimp only [Option.bind_some]
  show (if (s.inodes.getPidByIp (cap.hash s.devices).1).1 ≠ 0 then _ else _ : ℤ × CaptureCxx).2 = _
  rcases getPidByIp_code s.inodes (cap.hash s.devices).1 with ⟨hne, hnone⟩ | ⟨pid, hpid⟩
  · rw [if_pos hne, hnone]
    rfl
  · rw [if_neg (by simp [hpid]), hpid]
    show storePacket .tcp family cap f offset
      (addPacket f.files ((s.inodes.getPidByIp (cap.hash s.devices).1).2.getD (-1)) cap _) = _
    rw [hpid]
    rfl

theorem transport_eq (proto : UInt8) (h : CapHandle) (context : PcapCtx) (hcontext : context ≠ .unspec) (f : Frame)
    (payload : ℕ) (s : CaptureCxx) :
    CapProtocol.transport proto (h.setContext context) f payload s =
      settle f ((CapProtocol.segmentOf proto context payload).bind (Segment.attribute s.devices s.inodes f))
        (extend (segmentEvents (CapProtocol.segmentOf proto context payload)) s) := by
  have hcall : ∀ family : PacketType,
      (processPacket .tcp family context f payload (emit (.handler family context payload) s)).2 =
        settle f (Segment.attribute s.devices s.inodes f ⟨family, context, payload⟩)
          (extend [.handler family context payload, .read payload 4] s) := by
    intro family
    rw [processPacket_eq family context hcontext]
    exact congrArg (settle f _) (extend_extend [.handler family context payload] [.read payload 4] s)
  unfold CapProtocol.transport CapProtocol.segmentOf
  split
  · exact hcall .tcp
  · split
    · exact hcall .udp
    · exact (extend_nil s).symm

theorem protocolIp4_eq (h : CapHandle) (f : Frame) (offset : ℕ) (s : CaptureCxx) :
    (CapProtocol.protocolIp4 h f offset s).2 =
      settle f ((CapProtocol.decodeIp4 f offset).bind (Segment.attribute s.devices s.inodes f))
        (extend (ip4Events f offset) s) := by
  unfold CapProtocol.protocolIp4
  dsimp only
  rw [transport_eq _ h _ (by simp), extend_emit_emit]
  rfl

theorem protocolIp6_eq (h : CapHandle) (f : Frame) (offset : ℕ) (s : CaptureCxx) :
    (CapProtocol.protocolIp6 h f offset s).2 =
      settle f ((CapProtocol.decodeIp6 f offset).bind (Segment.attribute s.devices s.inodes f))
        (extend (ip6Events f offset) s) := by
  unfold CapProtocol.protocolIp6
  dsimp only
  rw [transport_eq _ h _ (by simp), extend_emit_emit]
  rfl

theorem parse_ipHeader (h : CapHandle) (f : Frame) (p : IpHeader) (s : CaptureCxx) :
    (p.parse h f s).2 =
      settle f ((p.decode f).bind (Segment.attribute s.devices s.inodes f)) (extend (ipEvents f p) s) := by
  cases p with
  | ip4 offset => exact protocolIp4_eq h f offset s
  | ip6 offset => exact protocolIp6_eq h f offset s

/-- The link layer logs its reads and passes the frame to the reader of its header. -/
theorem parse_layers (h : CapHandle) (f : Frame) (s : CaptureCxx) :
    CapProtocol.parse h f s =
      (CapProtocol.ipHeader h.linktype f).elim
        (h, extend (.frame h.device f.serial :: CapProtocol.linkReads h.linktype f) s)
        (IpHeader.parse h f (extend (.frame h.device f.serial :: CapProtocol.linkReads h.linktype f) s)) := by
  have hread : ∀ o n, emit (.read o n) (emit (.frame h.device f.serial) s) =
      extend [.frame h.device f.serial, .read o n] s := by
    intro o n
    rw [← extend_emit_emit, extend_nil]
  unfold CapProtocol.parse CapProtocol.protocolEN10MB CapProtocol.protocolIp CapProtocol.linkReads CapProtocol.ipHeader
  dsimp only
  rw [hread, hread]
  repeat' split
  all_goals rfl

/-- Parsing a frame logs what the layers read, and settles it if it is attributed. -/
theorem parse_eq (h : CapHandle) (f : Frame) (s : CaptureCxx) :
    (CapProtocol.parse h f s).2 =
      settle f ((CapProtocol.decode h.linktype f).bind (Segment.attribute s.devices s.inodes f))
        (extend (.frame h.device f.serial :: protocolEvents h.linktype f) s) := by
  rw [parse_layers, CapProtocol.decode_eq, protocolEvents_eq, ← List.cons_append, ← extend_extend]
  cases CapProtocol.ipHeader h.linktype f with
  | none =>
    rw [Option.elim_none, Option.elim_none, extend_nil]
    rfl
  | some p => exact parse_ipHeader h f p _

theorem protocol_of_mem_ipEvents {f : Frame} {p : IpHeader} {e : Event} (he : e ∈ ipEvents f p) : e.Protocol := by
  have hsegment : ∀ (o n o' n' : ℕ) (g : Option Segment), e ∈ .read o n :: .read o' n' :: segmentEvents g →
      e.Protocol := by
    intro o n o' n' g he
    rcases List.mem_cons.mp he with rfl | he
    · trivial
    rcases List.mem_cons.mp he with rfl | he
    · trivial
    cases g with
    | none => cases he
    | some g => rcases List.mem_pair.mp he with rfl | rfl <;> trivial
  cases p with
  | ip4 offset => exact hsegment _ _ _ _ _ he
  | ip6 offset => exact hsegment _ _ _ _ _ he

theorem protocol_of_mem_linkReads {linktype : ℤ} {f : Frame} {e : Event} (he : e ∈ CapProtocol.linkReads linktype f) :
    e.Protocol := by
  have hread : ∀ o n, e ∈ [Event.read o n] → e.Protocol := by
    intro o n he
    rw [List.mem_singleton.mp he]
    trivial
  unfold CapProtocol.linkReads at he
  split at he
  · exact hread 12 2 he
  · split at he
    · split at he
      · cases he
      · exact hread 0 1 he
    · cases he

theorem protocol_of_mem_protocolEvents {linktype : ℤ} {f : Frame} {e : Event} (he : e ∈ protocolEvents linktype f) :
    e.Protocol := by
  rw [protocolEvents_eq] at he
  rcases List.mem_append.mp he with he | he
  · exact protocol_of_mem_linkReads he
  · cases hip : CapProtocol.ipHeader linktype f with
    | none =>
      rw [hip] at he
      cases he
    | some p =>
      rw [hip] at he
      exact protocol_of_mem_ipEvents he

/-- Handling a frame logs protocol events, and settles it if it is attributed to `a`. -/
def Settles (f : Frame) (a : Option Attributed) (s s' : CaptureCxx) : Prop :=
  ∃ es, (∀ e ∈ es, e.Protocol) ∧ s' = settle f a (extend es s)

def announced (h : CapHandle) (f : Frame) : List Event := if h.callback then [.frame h.device f.serial] else []

/-- Handling a frame is settling it, up to events of the protocol layers. -/
theorem handlePacket_settles (h : CapHandle) (f : Frame) (s : CaptureCxx) :
    Settles f (h.attribute s.devices s.inodes f) (extend (announced h f) s) (h.handlePacket f s).2 := by
  unfold CapHandle.handlePacket CapHandle.attribute announced
  split
  · refine ⟨protocolEvents h.linktype f, fun e he => protocol_of_mem_protocolEvents he, ?_⟩
    rw [parse_eq, extend_extend]
    rfl
  · exact ⟨[], by simp, by rw [extend_nil, extend_nil]; rfl⟩

/-! ## What a frame leaves alone -/

/-- The state without the process table, the packet buffer and the log. -/
def settings (s : CaptureCxx) : CaptureCxx :=
  { s with processes := Table.empty, packetData := [], packetIdx := 0, log := [] }

theorem settings_addPacket (files : Pid → ProcFiles) (pid : Pid) (cap : CapPacket) (s : CaptureCxx) :
    (addPacket files pid cap s).settings = s.settings := by
  unfold addPacket
  split <;> rfl

@[simp] theorem addPacket_packetCallback (files : Pid → ProcFiles) (pid : Pid) (cap : CapPacket) (s : CaptureCxx) :
    (addPacket files pid cap s).packetCallback = s.packetCallback :=
  (congrArg CaptureCxx.packetCallback (settings_addPacket files pid cap s) :)

@[simp] theorem addPacket_captureAll (files : Pid → ProcFiles) (pid : Pid) (cap : CapPacket) (s : CaptureCxx) :
    (addPacket files pid cap s).captureAll = s.captureAll :=
  (congrArg CaptureCxx.captureAll (settings_addPacket files pid cap s) :)

theorem settings_storePacket (reused appended : PacketType) (cap : CapPacket) (f : Frame) (offset : ℕ)
    (s : CaptureCxx) : (storePacket reused appended cap f offset s).settings = s.settings := by
  unfold storePacket
  split
  · dsimp only
    split <;> split <;> rfl
  · rfl

theorem settings_settle (f : Frame) (a : Option Attributed) (s : CaptureCxx) :
    (settle f a s).settings = s.settings := by
  cases a with
  | none => rfl
  | some a => exact (settings_storePacket _ _ _ _ _ _).trans (settings_addPacket _ _ _ _)

/-! ## The process table -/

/-- The entry of the pid an attributed packet is credited to: the one in the table, or a
new one that has been parsed, with the packet added. -/
def credited (f : Frame) (a : Attributed) (s : CaptureCxx) : CapProcess :=
  ((s.processes.find a.pid).getD
    (CapProcess.parse s.calls (f.files a.pid) s.memory s.deltaCpu { pid := a.pid })).addPacket s.devices a.cap

theorem storePacket_processes (reused appended : PacketType) (cap : CapPacket) (f : Frame) (offset : ℕ)
    (s : CaptureCxx) : (storePacket reused appended cap f offset s).processes = s.processes := by
  unfold storePacket
  split
  · dsimp only
    split <;> split <;> rfl
  · rfl

theorem absorb_processes (f : Frame) (a : Attributed) (s : CaptureCxx) :
    (absorb f a s).processes = s.processes.insert a.pid (credited f a s) := by
  rw [absorb, storePacket_processes]
  unfold addPacket credited
  split
  · next h => rw [h]; rfl
  · next ptr h => rw [h]; rfl

/-! ## The log -/

def records (s : CaptureCxx) : List (ℕ × PacketRecord) := s.log.filterMap Event.written

theorem addPacket_log (files : Pid → ProcFiles) (pid : Pid) (cap : CapPacket) (s : CaptureCxx) :
    (addPacket files pid cap s).log = s.log ∨
      (addPacket files pid cap s).log = s.log ++ [.parse pid s.memory s.deltaCpu, .insert pid] := by
  unfold addPacket
  split
  · exact Or.inr (by simp [emit])
  · exact Or.inl rfl

theorem storePacket_log (reused appended : PacketType) (cap : CapPacket) (f : Frame) (offset : ℕ)
    (s : CaptureCxx) : ∃ es, (storePacket reused appended cap f offset s).log = s.log ++ es ∧
      ∀ e ∈ es, (∃ o n, e = .read o n) ∨ ∃ j d, e = .record j d := by
  unfold storePacket
  split
  · dsimp only
    split <;> split <;> exact ⟨_, by simp only [emit, List.append_assoc]; rfl, by simp⟩
  · exact ⟨[], by simp, by simp⟩

/-- What is collected from neither the copies nor the records is not changed by storing. -/
theorem storePacket_filterMap {β : Type} (g : Event → Option β) (hread : ∀ o n, g (.read o n) = none)
    (hrecord : ∀ j d, g (.record j d) = none) (reused appended : PacketType) (cap : CapPacket) (f : Frame)
    (offset : ℕ) (s : CaptureCxx) :
    (storePacket reused appended cap f offset s).log.filterMap g = s.log.filterMap g := by
  obtain ⟨es, hlog, hes⟩ := storePacket_log reused appended cap f offset s
  have hnil : es.filterMap g = [] := by
    apply List.filterMap_eq_nil_iff.mpr
    intro e he
    rcases hes e he with ⟨o, n, rfl⟩ | ⟨j, d, rfl⟩
    · exact hread o n
    · exact hrecord j d
  rw [hlog, List.filterMap_append, hnil, List.append_nil]

theorem settle_log (f : Frame) (a : Option Attributed) (s : CaptureCxx) :
    ∃ es, (settle f a s).log = s.log ++ es ∧
      ∀ e ∈ es, e.FromFrame s.memory s.deltaCpu ∧ e.parsedFrame = none := by
  cases a with
  | none => exact ⟨[], by simp [settle], by simp⟩
  | some a =>
    obtain ⟨es, hes, hmem⟩ := storePacket_log .tcp a.segment.family a.cap f a.segment.offset
      (addPacket f.files a.pid a.cap s)
    have hstore : ∀ e ∈ es, e.FromFrame s.memory s.deltaCpu ∧ e.parsedFrame = none := by
      intro e he
      rcases hmem e he with ⟨o, n, rfl⟩ | ⟨j, d, rfl⟩ <;> exact ⟨trivial, rfl⟩
    rcases addPacket_log f.files a.pid a.cap s with hlog | hlog
    · exact ⟨es, by rw [settle, absorb, hes, hlog], hstore⟩
    · refine ⟨[.parse a.pid s.memory s.deltaCpu, .insert a.pid] ++ es, ?_, ?_⟩
      · rw [settle, absorb, hes, hlog, List.append_assoc]
      · intro e he
        rcases List.mem_append.mp he with he | he
        · rcases List.mem_pair.mp he with rfl | rfl
          · exact ⟨⟨rfl, rfl⟩, rfl⟩
          · exact ⟨trivial, rfl⟩
        · exact hstore e he

/-! ## The packet buffer -/

/-- What the buffer is in the middle of an `Update` that found `old` in it: the records
written so far, then the rest of `old`. -/
structure Recorded (old : List PacketRecord) (s : CaptureCxx) : Prop where
  idx : s.packetIdx = s.records.length
  slots : s.records.map Prod.fst = List.range s.records.length
  data : s.packetData = s.records.map Prod.snd ++ old.drop s.records.length

theorem records_extend (es : List Event) (hes : ∀ e ∈ es, e.written = none) (s : CaptureCxx) :
    (extend es s).records = s.records := by
  simp [records, extend, List.filterMap_eq_nil_iff.mpr hes]

theorem Recorded.extend {old : List PacketRecord} {s : CaptureCxx} (h : Recorded old s) (es : List Event)
    (hes : ∀ e ∈ es, e.written = none) : Recorded old (extend es s) := by
  have hr := records_extend es hes s
  exact ⟨by rw [hr]; exact h.idx, by rw [hr]; exact h.slots, by rw [hr]; exact h.data⟩

theorem addPacket_buffer (files : Pid → ProcFiles) (pid : Pid) (cap : CapPacket) (s : CaptureCxx) :
    (addPacket files pid cap s).packetData = s.packetData ∧
      (addPacket files pid cap s).packetIdx = s.packetIdx ∧
      (addPacket files pid cap s).records = s.records := by
  unfold addPacket
  split
  · exact ⟨rfl, rfl, by simp [records, emit, Event.written]⟩
  · exact ⟨rfl, rfl, rfl⟩

def storedRecord (appended : PacketType) (cap : CapPacket) (f : Frame) (offset : ℕ) (s : CaptureCxx) :
    PacketRecord :=
  packetRecord (if s.packetIdx < s.packetData.length then .tcp else appended) s.captureAll cap f offset

theorem storePacket_buffer (appended : PacketType) (cap : CapPacket) (f : Frame) (offset : ℕ) (s : CaptureCxx)
    (hcb : s.packetCallback = true) :
    (storePacket .tcp appended cap f offset s).packetIdx = s.packetIdx + 1 ∧
      (storePacket .tcp appended cap f offset s).packetData =
        (if s.packetIdx < s.packetData.length then
          s.packetData.set s.packetIdx (storedRecord appended cap f offset s)
        else s.packetData ++ [storedRecord appended cap f offset s]) ∧
      (storePacket .tcp appended cap f offset s).records = s.records ++
        [(if s.packetIdx < s.packetData.length then s.packetIdx else s.packetData.length,
          storedRecord appended cap f offset s)] := by
  unfold storePacket storedRecord
  rw [if_pos hcb]
  by_cases hall : s.captureAll = true
  · by_cases hlt : s.packetIdx < s.packetData.length <;>
      simp [hall, hlt, records, emit, Event.written, List.filterMap_cons]
  · by_cases hlt : s.packetIdx < s.packetData.length <;>
      simp [hall, hlt, records, emit, Event.written]

/-- Overwriting the first slot behind the records, or appending when there is none. -/
theorem write_behind (ws old : List PacketRecord) (d : PacketRecord) :
    (if ws.length < (ws ++ old.drop ws.length).length then (ws ++ old.drop ws.length).set ws.length d
      else (ws ++ old.drop ws.length) ++ [d]) = (ws ++ [d]) ++ old.drop (ws.length + 1) := by
  split
  · next h =>
    have hold : ws.length < old.length := by
      simp only [List.length_append, List.length_drop] at h
      omega
    rw [List.set_append_right _ _ le_rfl, Nat.sub_self, List.drop_eq_getElem_cons hold, List.set_cons_zero,
      List.append_assoc]
    rfl
  · next h =>
    have hold : old.length ≤ ws.length := by
      simp only [List.length_append, List.length_drop] at h
      omega
    rw [List.drop_eq_nil_of_le hold, List.drop_eq_nil_of_le (Nat.le_succ_of_le hold)]
    simp

/-- Storing a packet writes the slot at `packetIdx`, whichever branch is taken. -/
theorem Recorded.storePacket {old : List PacketRecord} {s : CaptureCxx} (h : Recorded old s)
    (hcb : s.packetCallback = true) (appended : PacketType) (cap : CapPacket) (f : Frame) (offset : ℕ) :
    Recorded old (storePacket .tcp appended cap f offset s) ∧
      (CaptureCxx.storePacket .tcp appended cap f offset s).records =
        s.records ++ [(s.packetIdx, storedRecord appended cap f offset s)] := by
  obtain ⟨hidx, hdata, hrec⟩ := storePacket_buffer appended cap f offset s hcb
  have hlen : (s.records.map Prod.snd).length = s.packetIdx := by rw [List.length_map, h.idx]
  have hslot : (if s.packetIdx < s.packetData.length then s.packetIdx else s.packetData.length) = s.packetIdx := by
    have hle : s.packetIdx ≤ s.packetData.length := by
      rw [h.data, List.length_append, hlen]
      exact Nat.le_add_right _ _
    split <;> omega
  rw [hslot] at hrec
  refine ⟨⟨?_, ?_, ?_⟩, hrec⟩
  · rw [hidx, hrec, List.length_append, h.idx]
    rfl
  · rw [hrec, List.map_append, h.slots, List.length_append, h.idx]
    simp [List.range_succ]
  · have hw := write_behind (s.records.map Prod.snd) old (storedRecord appended cap f offset s)
    rw [hlen, h.idx, ← h.data, ← h.idx] at hw
    rw [hdata, hw, hrec, List.map_append, List.length_append, h.idx]
    rfl

theorem Recorded.settle {old : List PacketRecord} {s : CaptureCxx} (h : Recorded old s)
    (hcb : s.packetCallback = true) (f : Frame) (a : Option Attributed) :
    Recorded old (settle f a s) ∧
      (CaptureCxx.settle f a s).records.length = s.records.length + a.toList.length := by
  cases a with
  | none => exact ⟨h, rfl⟩
  | some a =>
    obtain ⟨hdata, hidx, hrec⟩ := addPacket_buffer f.files a.pid a.cap s
    have hadd : Recorded old (addPacket f.files a.pid a.cap s) :=
      ⟨by rw [hidx, hrec]; exact h.idx, by rw [hrec]; exact h.slots, by rw [hdata, hrec]; exact h.data⟩
    have hcb' : (addPacket f.files a.pid a.cap s).packetCallback = true :=
      (addPacket_packetCallback f.files a.pid a.cap s).trans hcb
    obtain ⟨hstored, hlast⟩ := hadd.storePacket hcb' a.segment.family a.cap f a.segment.offset
    refine ⟨hstored, ?_⟩
    rw [CaptureCxx.settle, absorb, hlast, hrec, List.length_append]
    rfl

end CaptureCxx
end Capture
