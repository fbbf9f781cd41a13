import Capture.Foundations.ScanReading
import Capture.Proof.PacketDelivery
import Capture.Proof.PacketKeys

/-! # What the packet buffer holds

The `j`-th resolved frame of an `Update` writes record `j`, into the slot an earlier call
left there or behind the last one. Its text and size are those of the frame either way
(`packet_buffer_of_update`); its tag is that of the frame's transport only behind the last
one, because both handlers tag a reused slot as TCP (`transport_tag_iff`). -/
namespace Capture
open SeparatedText AddressText FormattedScan OrderedTable

set_option autoImplicit false

namespace CaptureCxx

/-! ## The records of a pass -/

/-- Record `j` of a call that found `old` records in the buffer. -/
def writtenRecord (old : ℕ) (captureAll : Bool) (j : ℕ) (x : Frame × Attributed) : PacketRecord :=
  packetRecord (if j < old then .tcp else x.2.segment.family) captureAll x.2.cap x.1 x.2.segment.offset

theorem Recorded.idx_lt_iff {old : List PacketRecord} {s : CaptureCxx} (h : Recorded old s) :
    s.packetIdx < s.packetData.length ↔ s.packetIdx < old.length := by
  rw [h.data, List.length_append, List.length_map, List.length_drop, ← h.idx]
  omega

theorem Recorded.settle_records {old : List PacketRecord} {s : CaptureCxx} (h : Recorded old s)
    (hcb : s.packetCallback = true) (f : Frame) (a : Option Attributed) :
    (CaptureCxx.settle f a s).records.map Prod.snd = s.records.map Prod.snd ++
      a.toList.map fun a => writtenRecord old.length s.captureAll s.records.length (f, a) := by
  cases a with
  | none => simp [CaptureCxx.settle]
  | some a =>
    obtain ⟨hdata, hidx, hrec⟩ := addPacket_buffer f.files a.pid a.cap s
    have hcb' : (addPacket f.files a.pid a.cap s).packetCallback = true :=
      (addPacket_packetCallback f.files a.pid a.cap s).trans hcb
    have hadd : Recorded old (addPacket f.files a.pid a.cap s) :=
      ⟨by rw [hidx, hrec]; exact h.idx, by rw [hrec]; exact h.slots, by rw [hdata, hrec]; exact h.data⟩
    obtain ⟨-, hlast⟩ := hadd.storePacket hcb' a.segment.family a.cap f a.segment.offset
    have hstored : storedRecord a.segment.family a.cap f a.segment.offset (addPacket f.files a.pid a.cap s) =
        writtenRecord old.length s.captureAll s.records.length (f, a) := by
      unfold storedRecord writtenRecord
      rw [addPacket_captureAll, if_congr hadd.idx_lt_iff rfl rfl, hidx, h.idx]
    rw [CaptureCxx.settle, absorb, hlast, hrec, List.map_append, hstored]
    rfl

theorem foldl_feed_records {old : List PacketRecord} (xs : List (CapHandle × Frame)) (s : CaptureCxx)
    (h : Recorded old s) (hcb : s.packetCallback = true) :
    (xs.foldl feed s).records.map Prod.snd = s.records.map Prod.snd ++
      ((attributions s.devices s.inodes xs).zipIdx s.records.length).map
        fun p => writtenRecord old.length s.captureAll p.2 p.1 := by
  induction xs generalizing s with
  | nil => simp [attributions]
  | cons x xs ih =>
    obtain ⟨hone, hlen⟩ := foldl_feed_recorded [x] s h hcb
    have hcb' : (feed s x).packetCallback = true := (feed_packetCallback s x).trans hcb
    obtain ⟨es, hes, hx⟩ := feed_settles s x
    have hsilent := announced_silent x.1 x.2 hes
    have hrec : (feed s x).records.map Prod.snd = s.records.map Prod.snd ++
        (x.1.attribute s.devices s.inodes x.2).toList.map
          fun a => writtenRecord old.length s.captureAll s.records.length (x.2, a) := by
      have hsettle := (h.extend _ hsilent).settle_records hcb x.2 (x.1.attribute s.devices s.inodes x.2)
      rw [records_extend _ hsilent] at hsettle
      rw [hx]
      exact hsettle
    have hlen' : (feed s x).records.length =
        s.records.length + ((x.1.attribute s.devices s.inodes x.2).toList.map (x.2, ·)).length := by
      have hcount := congrArg List.length hrec
      simpa using hcount
    rw [List.foldl_cons, ih (feed s x) hone hcb', feed_captureAll, attributions_cons, List.zipIdx_append,
      List.map_append, ← hlen', hrec, List.append_assoc]
    cases x.1.attribute s.devices s.inodes x.2 <;> rfl

end CaptureCxx

/-! ## The text of a record -/

theorem nul_not_mem_linkText (a b : Address) (lp rp : ℕ) : '\x00' ∉ linkText a.text lp b.text rp := by
  have hdigit : ∀ n, '\x00' ∉ decimal n := not_mem_decimal (by decide)
  have haddr : ∀ c : Address, '\x00' ∉ c.text :=
    Address.not_mem_text (by decide) (by decide) (by decide) (by decide)
  simp [linkText, haddr, hdigit]

/-- The longest link text has two IPv6 addresses and two ports of five digits. -/
theorem length_linkText_lt (a b : Address) {lp rp : ℕ} (hl : lp < 65536) (hr : rp < 65536) :
    (linkText a.text lp b.text rp).length < captureCommanSize := by
  have ha := a.length_text_lt
  have hb := b.length_text_lt
  have hlp := length_decimal_le lp 5 (by decide) (hl.trans (by decide))
  have hrp := length_decimal_le rp 5 (by decide) (hr.trans (by decide))
  simp only [linkText, captureCommanSize, List.length_append, List.length_cons]
  omega

theorem strncpy_of_fits {size : ℕ} {t : Text} (hnul : '\x00' ∉ t) (h : t.length < size) : strncpy size t = t := by
  rw [strncpy, cString_eq_self hnul, List.take_of_length_le (by omega)]

namespace CaptureCxx

/-- The text of a handler's packet fits the field of the record with its terminator. -/
theorem strncpy_link {devices : List CapDevice} {context : PcapCtx} {f : Frame} {offset : ℕ} {cap : CapPacket}
    (h : packetOf devices context f offset = some cap) :
    strncpy captureCommanSize cap.link = cap.link ∧ cap.link.length < captureCommanSize := by
  have hports : cap.sport.toNat < 65536 ∧ cap.dport.toNat < 65536 := by
    have hword : ∀ n : UInt16, n.toUInt32.toNat < 65536 := by
      intro n
      rw [UInt16.toNat_toUInt32]
      exact n.toNat_lt
    unfold packetOf at h
    cases context with
    | unspec => cases h
    | ip4 src dst =>
      cases h
      obtain ⟨dir, t, ht⟩ := CapPacket.hash_frame devices
        { sip := src, sport := (f.ntohs offset).toUInt32, dip := dst, dport := (f.ntohs (offset + 2)).toUInt32,
          len := f.len, family := .inet }
      rw [CapPacket.init4, ht]
      exact ⟨hword _, hword _⟩
    | ip6 src dst =>
      cases h
      obtain ⟨dir, t, ht⟩ := CapPacket.hash_frame devices
        { sip6 := src, sport := (f.ntohs offset).toUInt32, dip6 := dst, dport := (f.ntohs (offset + 2)).toUInt32,
          len := f.len, family := .inet6 }
      rw [CapPacket.init6, ht]
      exact ⟨hword _, hword _⟩
  have hlength := length_linkText_lt cap.source cap.destination hports.1 hports.2
  rw [CapPacket.link_eq]
  exact ⟨strncpy_of_fits (nul_not_mem_linkText _ _ _ _) hlength, hlength⟩

/-! ## The frames a handler accepted -/

end CaptureCxx

/-- The handler call a frame with this segment ends in. -/
def Segment.handle (g : Segment) (f : Frame) (s : CaptureCxx) : ℤ × CaptureCxx :=
  match g.family with
  | .tcp => CaptureCxx.processTcp g.context f g.offset s
  | .udp => CaptureCxx.processUdp g.context f g.offset s

namespace CaptureCxx

/-- What the handler returns for a frame that reaches one. -/
def handlerReturn (s : CaptureCxx) (x : CapHandle × Frame) : Option ℤ :=
  if x.1.callback then (CapProtocol.decode x.1.linktype x.2).map fun g => (g.handle x.2 s).1 else none

/-- The frames of a pass whose handler returned 0, each asked in the state it was handled in. -/
def accepted : List (CapHandle × Frame) → CaptureCxx → List (CapHandle × Frame)
  | [], _ => []
  | x :: xs, s => (if handlerReturn s x = some 0 then [x] else []) ++ accepted xs (feed s x)

theorem processPacket_fst (reused appended family : PacketType) (context : PcapCtx) (f : Frame) (offset : ℕ)
    (s : CaptureCxx) :
    (processPacket reused appended context f offset s).1 = 0 ↔
      (Segment.attribute s.devices s.inodes f ⟨family, context, offset⟩).isSome := by
  unfold processPacket Segment.attribute
  dsimp only
  cases packetOf s.devices context f offset with
  | none => simp [capNetUnknow]
  | some cap =>
    dsimp only [Option.bind_some]
    show (if (s.inodes.getPidByIp (cap.hash s.devices).1).1 ≠ 0 then _ else _ : ℤ × CaptureCxx).1 = 0 ↔ _
    rcases getPidByIp_code s.inodes (cap.hash s.devices).1 with ⟨hne, hnone⟩ | ⟨pid, hpid⟩
    · rw [if_pos hne, hnone]
      exact iff_of_false hne (by simp)
    · rw [if_neg (by simp [hpid]), hpid]
      simp

theorem handle_fst (g : Segment) (f : Frame) (s : CaptureCxx) :
    (g.handle f s).1 = 0 ↔ (g.attribute s.devices s.inodes f).isSome := by
  obtain ⟨family, context, offset⟩ := g
  cases family with
  | tcp => exact processPacket_fst .tcp .tcp .tcp context f offset (emit (.handler .tcp context offset) s)
  | udp => exact processPacket_fst .tcp .udp .udp context f offset (emit (.handler .udp context offset) s)

theorem handlerReturn_eq_zero_iff (s : CaptureCxx) (x : CapHandle × Frame) :
    handlerReturn s x = some 0 ↔ (x.1.attribute s.devices s.inodes x.2).isSome := by
  unfold handlerReturn CapHandle.attribute
  split
  · cases CapProtocol.decode x.1.linktype x.2 with
    | none => simp
    | some g => simpa using handle_fst g x.2 s
  · simp

theorem ip4Events_of_decode {f : Frame} {offset : ℕ} {g : Segment} (h : CapProtocol.decodeIp4 f offset = some g) :
    g.context ≠ .unspec ∧ segmentEvents (some g) <:+ ip4Events f offset := by
  refine ⟨by simp [(CapProtocol.segmentOf_eq_some h).2.1], ?_⟩
  rw [ip4Events, h]
  exact (List.suffix_cons _ _).trans (List.suffix_cons _ _)

theorem ip6Events_of_decode {f : Frame} {offset : ℕ} {g : Segment} (h : CapProtocol.decodeIp6 f offset = some g) :
    g.context ≠ .unspec ∧ segmentEvents (some g) <:+ ip6Events f offset := by
  refine ⟨by simp [(CapProtocol.segmentOf_eq_some h).2.1], ?_⟩
  rw [ip6Events, h]
  exact (List.suffix_cons _ _).trans (List.suffix_cons _ _)

theorem ipEvents_of_decode {f : Frame} {p : IpHeader} {g : Segment} (h : p.decode f = some g) :
    g.context ≠ .unspec ∧ segmentEvents (some g) <:+ ipEvents f p := by
  cases p with
  | ip4 offset => exact ip4Events_of_decode h
  | ip6 offset => exact ip6Events_of_decode h

/-- A frame that reaches a handler has a context, and the handler logs last. -/
theorem protocolEvents_of_decode {linktype : ℤ} {f : Frame} {g : Segment}
    (h : CapProtocol.decode linktype f = some g) :
    g.context ≠ .unspec ∧ segmentEvents (some g) <:+ protocolEvents linktype f := by
  rw [CapProtocol.decode_eq] at h
  obtain ⟨p, hip, hp⟩ := Option.bind_eq_some_iff.mp h
  obtain ⟨hcontext, hlast⟩ := ipEvents_of_decode hp
  rw [protocolEvents_eq, hip]
  exact ⟨hcontext, hlast.trans (List.suffix_append _ _)⟩

theorem handle_snd (g : Segment) (f : Frame) (s : CaptureCxx) (h : g.context ≠ .unspec) :
    (g.handle f s).2 = settle f (g.attribute s.devices s.inodes f) (extend (segmentEvents (some g)) s) := by
  obtain ⟨family, context, offset⟩ := g
  have hcall : (processPacket .tcp family context f offset (emit (.handler family context offset) s)).2 =
      settle f (Segment.attribute s.devices s.inodes f ⟨family, context, offset⟩)
        (extend (segmentEvents (some ⟨family, context, offset⟩)) s) := by
    rw [processPacket_eq family context h]
    exact congrArg (settle f _) (extend_extend [.handler family context offset] [.read offset 4] s)
  cases family with
  | tcp => exact hcall
  | udp => exact hcall

/-- A frame that reaches a handler does what the handler does. -/
theorem feed_handle (s : CaptureCxx) (x : CapHandle × Frame) (g : Segment) (hcb : x.1.callback = true)
    (h : CapProtocol.decode x.1.linktype x.2 = some g) :
    ∃ es, feed s x = (g.handle x.2 (extend es s)).2 := by
  obtain ⟨hcontext, es, hes⟩ := protocolEvents_of_decode h
  refine ⟨.frame x.1.device x.2.serial :: es, ?_⟩
  have hfeed : feed s x = settle x.2 (g.attribute s.devices s.inodes x.2)
      (extend (.frame x.1.device x.2.serial :: es ++ segmentEvents (some g)) s) := by
    unfold feed CapHandle.handlePacket
    rw [if_pos hcb, parse_eq, h, ← hes]
    rfl
  rw [hfeed, ← extend_extend, handle_snd g x.2 _ hcontext]
  rfl

theorem accepted_eq (xs : List (CapHandle × Frame)) (s : CaptureCxx) :
    accepted xs s = xs.filter fun x => (x.1.attribute s.devices s.inodes x.2).isSome := by
  induction xs generalizing s with
  | nil => rfl
  | cons x xs ih =>
    rw [accepted, ih, feed_devices, feed_inodes, if_congr (handlerReturn_eq_zero_iff s x) rfl rfl, List.filter_cons]
    split <;> rfl

theorem accepted_attributions (xs : List (CapHandle × Frame)) (s : CaptureCxx) :
    (attributions s.devices s.inodes xs).map some =
      (accepted xs s).map fun x => (x.1.attribute s.devices s.inodes x.2).map (x.2, ·) := by
  rw [accepted_eq]
  induction xs with
  | nil => rfl
  | cons x xs ih =>
    unfold attributions at ih ⊢
    cases ha : x.1.attribute s.devices s.inodes x.2 with
    | none => simpa [ha] using ih
    | some a => simpa [ha] using ih

/-! ## The buffer at every point of a call -/

/-- The record is of this frame: its link text in full, and the length of its header. -/
def RecordOf (devices : List CapDevice) (x : CapHandle × Frame) (r : PacketRecord) : Prop :=
  ∃ g cap, CapProtocol.decode x.1.linktype x.2 = some g ∧
    packetOf devices g.context x.2 g.offset = some cap ∧ r.hash = cap.link ∧
    cap.link = linkText cap.source.text cap.sport.toNat cap.destination.text cap.dport.toNat ∧
    cap.link.length < captureCommanSize ∧ '\x00' ∉ cap.link ∧ r.packetSize = x.2.len

/-- The buffer of a call that found `old` in it and has accepted `ys` so far. -/
structure BufferHolds (old : List PacketRecord) (ys : List (CapHandle × Frame)) (s : CaptureCxx) : Prop where
  bound : s.packetIdx ≤ s.packetData.length
  idx : s.packetIdx = ys.length
  filled : ∀ (j : ℕ) (x : CapHandle × Frame), ys[j]? = some x → ∃ r, s.packetData[j]? = some r ∧ RecordOf s.devices x r
  beyond : s.packetData.drop s.packetIdx = old.drop s.packetIdx
  grows : old.length ≤ s.packetData.length

theorem recordOf_writtenRecord {devices : List CapDevice} {inodes : CapInodeHelper} {x : CapHandle × Frame}
    {a : Attributed} (h : x.1.attribute devices inodes x.2 = some a) (old : ℕ) (captureAll : Bool) (j : ℕ) :
    RecordOf devices x (writtenRecord old captureAll j (x.2, a)) := by
  unfold CapHandle.attribute at h
  split at h
  · obtain ⟨g, hdecode, hg⟩ := Option.bind_eq_some_iff.mp h
    obtain ⟨cap, hcap, hpid⟩ := Option.bind_eq_some_iff.mp hg
    obtain ⟨pid, -, rfl⟩ := Option.map_eq_some_iff.mp hpid
    obtain ⟨htext, hlength⟩ := strncpy_link hcap
    refine ⟨g, cap, hdecode, hcap, htext, CapPacket.link_eq cap, hlength, ?_, rfl⟩
    rw [CapPacket.link_eq]
    exact nul_not_mem_linkText _ _ _ _
  · cases h

theorem foldl_feed_getElem? {old : List PacketRecord} (xs : List (CapHandle × Frame)) (s : CaptureCxx)
    (h : Recorded old s) (hnone : s.records = []) (hcb : s.packetCallback = true) {j : ℕ} {y : Frame × Attributed}
    (hy : (attributions s.devices s.inodes xs)[j]? = some y) :
    (xs.foldl feed s).packetData[j]? = some (writtenRecord old.length s.captureAll j y) := by
  obtain ⟨hr, hlen⟩ := foldl_feed_recorded xs s h hcb
  have hrecords := foldl_feed_records xs s h hcb
  have hj : j < (attributions s.devices s.inodes xs).length := (List.getElem?_eq_some_iff.mp hy).1
  rw [hnone, List.length_nil, Nat.zero_add] at hlen
  rw [hnone, List.map_nil, List.nil_append, List.length_nil] at hrecords
  rw [hr.data, List.getElem?_append_left (by rw [List.length_map, hlen]; exact hj), hrecords, List.getElem?_map,
    List.getElem?_zipIdx, hy]
  simp

theorem bufferHolds_foldl {old : List PacketRecord} (xs : List (CapHandle × Frame)) (s : CaptureCxx)
    (h : Recorded old s) (hnone : s.records = []) (hcb : s.packetCallback = true) :
    BufferHolds old (accepted xs s) (xs.foldl feed s) := by
  obtain ⟨hr, hlen⟩ := foldl_feed_recorded xs s h hcb
  have hattr := accepted_attributions xs s
  have hdev : (xs.foldl feed s).devices = s.devices := (congrArg CaptureCxx.devices (foldl_feed_settings xs s) :)
  rw [hnone, List.length_nil, Nat.zero_add] at hlen
  have hcount : (accepted xs s).length = (attributions s.devices s.inodes xs).length := by
    simpa using (congrArg List.length hattr).symm
  have hdrop : (xs.foldl feed s).packetData.drop (xs.foldl feed s).packetIdx =
      old.drop (xs.foldl feed s).packetIdx := by
    rw [hr.data, hr.idx, List.drop_append_of_le_length (by simp), List.drop_eq_nil_of_le (by simp), List.nil_append]
  have hsize : (xs.foldl feed s).packetData.length =
      (xs.foldl feed s).records.length + (old.length - (xs.foldl feed s).records.length) := by
    rw [hr.data, List.length_append, List.length_map, List.length_drop]
  refine ⟨by rw [hr.idx]; omega, by rw [hr.idx, hlen, hcount], ?_, hdrop, by omega⟩
  intro j x hx
  have hentry := congrArg (·[j]?) hattr
  simp only [List.getElem?_map, hx, Option.map_some] at hentry
  obtain ⟨y, hy, hsome⟩ := Option.map_eq_some_iff.mp hentry
  obtain ⟨a, ha, rfl⟩ := Option.map_eq_some_iff.mp hsome.symm
  refine ⟨_, foldl_feed_getElem? xs s h hnone hcb hy, ?_⟩
  rw [hdev]
  exact recordOf_writtenRecord ha _ _ _

theorem BufferHolds.congr {old : List PacketRecord} {ys : List (CapHandle × Frame)} {s s' : CaptureCxx}
    (h : BufferHolds old ys s) (hdata : s'.packetData = s.packetData) (hidx : s'.packetIdx = s.packetIdx)
    (hdev : s'.devices = s.devices) : BufferHolds old ys s' := by
  refine ⟨?_, ?_, ?_, ?_, ?_⟩
  · rw [hdata, hidx]
    exact h.bound
  · rw [hidx]
    exact h.idx
  · rw [hdata, hdev]
    exact h.filled
  · rw [hdata, hidx]
    exact h.beyond
  · rw [hdata]
    exact h.grows

/-- The stages of an `Update` after the dispatch loop, the last of which it leaves. -/
def laterStages (u : UpdateInput) (s : CaptureCxx) : List CaptureCxx :=
  [dispatched u s, timed u s, reconciled u s, reportProcesses (reconciled u s), (update u s).2]

theorem laterStages_buffer (u : UpdateInput) (s : CaptureCxx) :
    ∀ s' ∈ laterStages u s, s'.packetData = (dispatched u s).packetData ∧ s'.packetIdx = (dispatched u s).packetIdx ∧
      s'.devices = (dispatched u s).devices := by
  have hfields : ∀ {s' : CaptureCxx}, s'.undisturbed = (dispatched u s).undisturbed →
      s'.packetData = (dispatched u s).packetData ∧ s'.packetIdx = (dispatched u s).packetIdx ∧
        s'.devices = (dispatched u s).devices := fun h =>
    ⟨(congrArg CaptureCxx.packetData h :), (congrArg CaptureCxx.packetIdx h :), (congrArg CaptureCxx.devices h :)⟩
  intro s' hs'
  simp only [laterStages, List.mem_cons, List.not_mem_nil, or_false] at hs'
  rcases hs' with rfl | rfl | rfl | rfl | rfl
  · exact ⟨rfl, rfl, rfl⟩
  · exact hfields (undisturbed_timed u s)
  · exact hfields (undisturbed_reconciled u s)
  · exact hfields (undisturbed_reported u s)
  · exact hfields (undisturbed_update u s)

theorem dispatched_buffer (u : UpdateInput) (s : CaptureCxx) (hcb : s.packetCallback = true) :
    BufferHolds s.packetData (accepted (delivered u.dispatch 0 s.handles) (beginUpdate u s)) (dispatched u s) := by
  obtain ⟨hs, -, hstate⟩ := dispatched_eq u s
  have hstart : Recorded s.packetData (beginUpdate u s) := ⟨rfl, rfl, rfl⟩
  have hfold := bufferHolds_foldl (delivered u.dispatch 0 s.handles) (beginUpdate u s) hstart rfl hcb
  rw [hstate]
  exact hfold.congr rfl rfl rfl

theorem init_buffer (i : InitInput) (s : CaptureCxx) :
    (init i s).2.packetData = s.packetData ∧ (init i s).2.captureAll = s.captureAll :=
  ⟨(congrArg CaptureCxx.packetData (init_carried i s) :), (congrArg CaptureCxx.captureAll (init_carried i s) :)⟩

/-- Without a callback no frame touches the buffer or is recorded. -/
theorem foldl_feed_off (xs : List (CapHandle × Frame)) (s : CaptureCxx) (hcb : s.packetCallback = false) :
    (xs.foldl feed s).packetData = s.packetData ∧ (xs.foldl feed s).records = s.records := by
  induction xs generalizing s with
  | nil => exact ⟨rfl, rfl⟩
  | cons x xs ih =>
    have hcb' : (feed s x).packetCallback = false := (feed_packetCallback s x).trans hcb
    obtain ⟨es, hes, hx⟩ := feed_settles s x
    have hquiet := records_extend (announced x.1 x.2 ++ es) (announced_silent x.1 x.2 hes) s
    have hone : (feed s x).packetData = s.packetData ∧ (feed s x).records = s.records := by
      rw [hx]
      cases x.1.attribute s.devices s.inodes x.2 with
      | none => exact ⟨rfl, hquiet⟩
      | some a =>
        have hoff : (addPacket x.2.files a.pid a.cap (extend (announced x.1 x.2 ++ es) s)).packetCallback = false :=
          (addPacket_packetCallback _ _ _ _).trans hcb
        obtain ⟨hdata, -, hrec⟩ := addPacket_buffer x.2.files a.pid a.cap (extend (announced x.1 x.2 ++ es) s)
        rw [settle, absorb, storePacket, if_neg (by rw [hoff]; simp)]
        exact ⟨hdata, hrec.trans hquiet⟩
    rw [List.foldl_cons, (ih _ hcb').1, (ih _ hcb').2]
    exact hone

theorem next_packetData_length (s : CaptureCxx) (c : Call) : s.packetData.length ≤ (next s c).packetData.length := by
  cases c with
  | init i => exact (congrArg List.length (init_buffer i s).1).ge
  | update u =>
    have hlast := (laterStages_buffer u s (update u s).2 (by simp [laterStages])).1
    show s.packetData.length ≤ (update u s).2.packetData.length
    rw [hlast]
    by_cases hcb : s.packetCallback = true
    · exact (dispatched_buffer u s hcb).grows
    · obtain ⟨hs, -, hstate⟩ := dispatched_eq u s
      have hkept := (foldl_feed_off (delivered u.dispatch 0 s.handles) (beginUpdate u s)
        (Bool.eq_false_iff.mpr hcb)).1
      rw [hstate]
      exact (congrArg List.length hkept).ge
  | shutdown => exact le_rfl

/-- Over every run the buffer never shrinks, and with a packet callback set it holds, at
every point of an `Update`, the frames accepted since the `Update` began. -/
theorem packet_buffer_of_update (cs : List Call) (t : RunTrace.Step CaptureCxx Call) (ht : t ∈ run cs) :
    t.before.packetData.length ≤ t.after.packetData.length ∧
      ∀ u, t.call = .update u → t.before.packetCallback = true →
        (∀ xs, xs <+: delivered u.dispatch 0 t.before.handles →
          BufferHolds t.before.packetData (accepted xs (beginUpdate u t.before)) (xs.foldl feed (beginUpdate u t.before))) ∧
        ∀ s' ∈ laterStages u t.before, BufferHolds t.before.packetData
          (accepted (delivered u.dispatch 0 t.before.handles) (beginUpdate u t.before)) s' := by
  refine ⟨?_, fun u hu hcb => ⟨fun xs hxs => ?_, fun s' hs' => ?_⟩⟩
  · rw [RunTrace.after_of_mem_steps next initial cs t ht]
    exact next_packetData_length t.before t.call
  · exact bufferHolds_foldl xs (beginUpdate u t.before) ⟨rfl, rfl, rfl⟩ rfl hcb
  · obtain ⟨hdata, hidx, hdev⟩ := laterStages_buffer u t.before s' hs'
    exact (dispatched_buffer u t.before hcb).congr hdata hidx hdev

theorem packet_buffer_of_update_web :
    ∃ t ∈ run [.init (lanInit [1]), .update (webUpdate mixedDispatch)],
      t.call = .update (webUpdate mixedDispatch) ∧ t.before.packetCallback = true ∧ t.after.packetIdx = 1 ∧
        BufferHolds t.before.packetData
          (accepted (delivered mixedDispatch 0 t.before.handles) (beginUpdate (webUpdate mixedDispatch) t.before))
          t.after := by
  have hcb : (next initial (.init (lanInit [1]))).packetCallback = true := by decide +kernel
  have hidx : (next (next initial (.init (lanInit [1]))) (.update (webUpdate mixedDispatch))).packetIdx = 1 := by
    decide +kernel
  have hmem : ⟨next initial (.init (lanInit [1])), .update (webUpdate mixedDispatch),
      next (next initial (.init (lanInit [1]))) (.update (webUpdate mixedDispatch))⟩ ∈
      run [.init (lanInit [1]), .update (webUpdate mixedDispatch)] :=
    List.mem_cons_of_mem _ List.mem_cons_self
  refine ⟨_, hmem, rfl, hcb, hidx, ?_⟩
  exact ((packet_buffer_of_update _ _ hmem).2 (webUpdate mixedDispatch) rfl hcb).2 _ (by simp [laterStages, next, step])

end CaptureCxx

/-! ## The tag of a record -/

/-- The event as a UDP handler would log it. -/
def Event.asUdp : Event → Event
  | .handler _ context offset => .handler .udp context offset
  | .record slot data => .record slot { data with family := .udp }
  | e => e

namespace CaptureCxx

/-- The state `s'` a handler called in `s` left, with what it wrote tagged as UDP. -/
def asUdp (s s' : CaptureCxx) : CaptureCxx :=
  { s' with
    packetData := if s'.packetIdx = s.packetIdx then s'.packetData
      else s'.packetData.modify (min s.packetIdx s.packetData.length) fun r => { r with family := .udp }
    log := s.log ++ (s'.log.drop s.log.length).map Event.asUdp }

/-- `ProcessUdp` returns what `ProcessTcp` does and leaves the same state, the tag apart. -/
structure HandlersAgree (context : PcapCtx) (f : Frame) (offset : ℕ) (s : CaptureCxx) : Prop where
  code : (processUdp context f offset s).1 = (processTcp context f offset s).1
  state : (processUdp context f offset s).2 = asUdp s (processTcp context f offset s).2

/-- The packet resolves to a pid and its record goes into a slot an earlier call left. -/
def Reuses (context : PcapCtx) (f : Frame) (offset : ℕ) (s : CaptureCxx) : Prop :=
  s.packetCallback = true ∧ s.packetIdx < s.packetData.length ∧
    ∃ cap, packetOf s.devices context f offset = some cap ∧ (s.inodes.getPidByIp (cap.hash s.devices).1).1 = 0

theorem addPacket_extend (files : Pid → ProcFiles) (pid : Pid) (cap : CapPacket) (s : CaptureCxx) :
    ∃ es, (∀ e ∈ es, e.asUdp = e) ∧
      ∀ pre, addPacket files pid cap (extend pre s) =
        extend (pre ++ es) { s with processes := (addPacket files pid cap s).processes } := by
  cases hfind : s.processes.find pid with
  | none =>
    refine ⟨[.parse pid s.memory s.deltaCpu, .insert pid], by simp [Event.asUdp], fun pre => ?_⟩
    simp [addPacket, extend, emit, hfind]
  | some ptr => exact ⟨[], by simp, fun pre => by simp [addPacket, extend, hfind]⟩

theorem modify_length_append (rs : List PacketRecord) (r : PacketRecord) (g : PacketRecord → PacketRecord) :
    (rs ++ [r]).modify rs.length g = rs ++ [g r] := by
  induction rs with
  | nil => rfl
  | cons q rs ih => rw [List.cons_append, List.length_cons, List.modify_succ_cons, ih, List.cons_append]

/-- Storing in a fresh slot is the same for both tags, up to the tag. -/
theorem storePacket_asUdp (cap : CapPacket) (f : Frame) (offset : ℕ) (s : CaptureCxx) (es es' : List Event)
    (hes : es' = es.map Event.asUdp)
    (h : ¬ (s.packetCallback = true ∧ s.packetIdx < s.packetData.length)) :
    storePacket .tcp .udp cap f offset (extend es' s) = asUdp s (storePacket .tcp .tcp cap f offset (extend es s)) := by
  subst hes
  by_cases hcb : s.packetCallback = true
  · have hlt : ¬ s.packetIdx < s.packetData.length := fun hlt => h ⟨hcb, hlt⟩
    have hmin : min s.packetIdx s.packetData.length = s.packetData.length := by omega
    by_cases hall : s.captureAll = true <;>
      simp [storePacket, asUdp, extend, emit, hcb, hall, hlt, hmin, packetRecord, Event.asUdp,
        modify_length_append]
  · simp [storePacket, asUdp, extend, hcb]

theorem map_asUdp {es : List Event} (h : ∀ e ∈ es, e.asUdp = e) : es.map Event.asUdp = es :=
  (List.map_congr_left h).trans (List.map_id _)

/-- A packet that is not stored leaves nothing to tag. -/
theorem handlersAgree_of_dropped {context : PcapCtx} {f : Frame} {offset : ℕ} {s : CaptureCxx} (n : ℤ) (es : List Event)
    (hes : ∀ e ∈ es, e.asUdp = e)
    (hcall : ∀ reused appended family : PacketType,
      processPacket reused appended context f offset (emit (.handler family context offset) s) =
        (n, extend (.handler family context offset :: es) s)) :
    HandlersAgree context f offset s := by
  refine ⟨?_, ?_⟩
  · rw [processUdp, processTcp, hcall, hcall]
  · rw [processUdp, processTcp, hcall, hcall]
    simp [asUdp, extend, Event.asUdp, map_asUdp hes]

/-- What a handler does with a packet that resolves, up to the store. -/
theorem processPacket_found {context : PcapCtx} {f : Frame} {offset : ℕ} {s : CaptureCxx} {cap : CapPacket}
    (hcap : packetOf s.devices context f offset = some cap)
    (hcode : (s.inodes.getPidByIp (cap.hash s.devices).1).1 = 0) :
    ∃ es processes, (∀ e ∈ es, e.asUdp = e) ∧ ∀ reused appended family : PacketType,
      processPacket reused appended context f offset (emit (.handler family context offset) s) =
        (0, storePacket reused appended cap f offset
          (extend (.handler family context offset :: .read offset 4 :: es) { s with processes := processes })) := by
  let pid := (s.inodes.getPidByIp (cap.hash s.devices).1).2.getD (-1)
  obtain ⟨es, hes, hadd⟩ := addPacket_extend f.files pid cap s
  refine ⟨es, (addPacket f.files pid cap s).processes, hes, fun reused appended family => ?_⟩
  have hread : emit (.read offset 4) (emit (.handler family context offset) s) =
      extend [.handler family context offset, .read offset 4] s := extend_extend [_] [_] s
  have hfound : packetOf (emit (.handler family context offset) s).devices context f offset = some cap := hcap
  unfold processPacket
  rw [hfound]
  dsimp only
  rw [hread]
  refine (if_neg (not_not.mpr hcode)).trans ?_
  exact congrArg (fun s => (0, storePacket reused appended cap f offset s)) (hadd _)

theorem handlersAgree_iff (context : PcapCtx) (f : Frame) (offset : ℕ) (s : CaptureCxx) :
    HandlersAgree context f offset s ↔ ¬ Reuses context f offset s := by
  cases hcap : packetOf s.devices context f offset with
  | none =>
    refine iff_of_true (handlersAgree_of_dropped capNetUnknow [] (by simp) fun _ _ _ => ?_) ?_
    · simp [processPacket, emit, extend, hcap]
    · rintro ⟨-, -, cap, h, -⟩
      rw [hcap] at h
      cases h
  | some cap =>
    by_cases hcode : (s.inodes.getPidByIp (cap.hash s.devices).1).1 = 0
    · obtain ⟨es, processes, hes, hcall⟩ := processPacket_found hcap hcode
      by_cases hslot : s.packetCallback = true ∧ s.packetIdx < s.packetData.length
      · obtain ⟨hcb, hlt⟩ := hslot
        refine iff_of_false (fun h => ?_) (not_not.mpr ⟨hcb, hlt, cap, hcap, hcode⟩)
        have hstate := congrArg (fun s' : CaptureCxx => (s'.packetData[s.packetIdx]?).map PacketRecord.family) h.state
        rw [processUdp, processTcp, hcall, hcall] at hstate
        -- both handlers write the TCP tag there
        by_cases hall : s.captureAll = true <;>
          simp [storePacket, asUdp, extend, emit, hcb, hlt, hall, hlt.le, packetRecord] at hstate
      · refine iff_of_true ⟨?_, ?_⟩ (fun h => hslot ⟨h.1, h.2.1⟩)
        · rw [processUdp, processTcp, hcall, hcall]
        · rw [processUdp, processTcp, hcall, hcall]
          refine storePacket_asUdp cap f offset _ _ _ ?_ hslot
          simp [Event.asUdp, map_asUdp hes]
    · refine iff_of_true (handlersAgree_of_dropped (s.inodes.getPidByIp (cap.hash s.devices).1).1 [.read offset 4]
        (by simp [Event.asUdp]) fun _ _ _ => ?_) ?_
      · simp [processPacket, emit, extend, hcap, hcode]
      · rintro ⟨-, -, cap', h, hzero⟩
        rw [hcap] at h
        cases h
        exact hcode hzero

/-! ## The tags of a run -/

/-- Record `j` is tagged with the transport of the `j`-th frame credited, and it is these
records that the packet callback is handed. -/
def TransportsTagged (u : UpdateInput) (s s' : CaptureCxx) : Prop :=
  (∀ data size, .packetCallback data size ∈ s'.log → data = s'.packetData) ∧
    ∀ (j : ℕ) (f : Frame) (a : Attributed), (credits u s)[j]? = some (f, a) →
      s'.packetData[j]?.map PacketRecord.family = some a.segment.family

/-- No UDP frame comes early enough to be recorded in a slot an earlier call left. -/
def UdpBehind (u : UpdateInput) (s : CaptureCxx) : Prop :=
  ∀ (j : ℕ) (f : Frame) (a : Attributed), (credits u s)[j]? = some (f, a) → j < s.packetData.length →
    a.segment.family = .tcp

theorem dispatched_getElem? (u : UpdateInput) (s : CaptureCxx) (hcb : s.packetCallback = true) (j : ℕ)
    (f : Frame) (a : Attributed) (h : (credits u s)[j]? = some (f, a)) :
    (dispatched u s).packetData[j]? = some (writtenRecord s.packetData.length s.captureAll j (f, a)) := by
  obtain ⟨hs, -, hstate⟩ := dispatched_eq u s
  rw [hstate]
  have hstart : Recorded s.packetData (beginUpdate u s) := ⟨rfl, rfl, rfl⟩
  exact foldl_feed_getElem? (delivered u.dispatch 0 s.handles) (beginUpdate u s) hstart rfl hcb h

theorem callback_data (u : UpdateInput) (s : CaptureCxx) (data : List PacketRecord) (size : ℕ)
    (h : .packetCallback data size ∈ (update u s).2.log) : data = (update u s).2.packetData := by
  have hstat : u.stat ≠ none := fun hnone => not_packetCallback_of_stat_none u s hnone data size h
  obtain ⟨hdata, -, -⟩ := laterStages_buffer u s (update u s).2 (by simp [laterStages])
  rw [← mem_packetCallbacks_iff, (update_packets u s hstat).2] at h
  split at h
  · cases List.mem_singleton.mp h
    exact hdata.symm
  · cases h

theorem transportsTagged_iff (u : UpdateInput) (s : CaptureCxx) (hcb : s.packetCallback = true) :
    TransportsTagged u s (update u s).2 ↔ UdpBehind u s := by
  obtain ⟨hdata, -, -⟩ := laterStages_buffer u s (update u s).2 (by simp [laterStages])
  unfold TransportsTagged UdpBehind
  rw [hdata]
  constructor
  · rintro ⟨-, h⟩ j f a ha hj
    have htag := h j f a ha
    rw [dispatched_getElem? u s hcb j f a ha, Option.map_some, writtenRecord, if_pos hj] at htag
    exact (Option.some.inj htag).symm
  · intro h
    refine ⟨fun data size hevent => (callback_data u s data size hevent).trans hdata, fun j f a ha => ?_⟩
    rw [dispatched_getElem? u s hcb j f a ha, Option.map_some, writtenRecord]
    split
    · next hj =>
      rw [h j f a ha hj]
      rfl
    · rfl

/-- The handlers agree on every frame that does not resolve into a reused slot, and over
every run the tags are right exactly when no UDP frame is recorded in one. -/
theorem transport_tag_iff (context : PcapCtx) (f : Frame) (offset : ℕ) (s : CaptureCxx) (cs : List Call) :
    (HandlersAgree context f offset s ↔ ¬ Reuses context f offset s) ∧
      ((∀ t ∈ run cs, ∀ u, t.call = .update u → t.before.packetCallback = true → TransportsTagged u t.before t.after) ↔
        ∀ t ∈ run cs, ∀ u, t.call = .update u → t.before.packetCallback = true → UdpBehind u t.before) := by
  refine ⟨handlersAgree_iff context f offset s, ?_⟩
  refine forall₂_congr fun t ht => forall₂_congr fun u hu => forall_congr' fun hcb => ?_
  rw [after_update ht hu]
  exact transportsTagged_iff u t.before hcb

/-- A UDP datagram from `10.0.0.1:80` to `10.0.0.2:1234`. -/
def datagram : Frame := ethernetFrame 2
  [0, 0, 0, 0, 0, 0, 0, 0, 0, 0, 0, 0, 8, 0,
   0x45, 0, 0, 24, 0, 0, 0, 0, 64, 17, 0, 0, 10, 0, 0, 1, 10, 0, 0, 2,
   0, 80, 4, 210]

def udpUpdate : UpdateInput := webUpdate fun _ => ⟨[datagram], 1, Or.inl rfl, by decide⟩

theorem not_handlersAgree {context : PcapCtx} {f : Frame} {offset : ℕ} {s : CaptureCxx} (hcb : s.packetCallback = true)
    (hslot : 0 < s.packetData.length) (h : (packetOf s.devices context f offset).map (fun cap =>
      (s.inodes.getPidByIp (cap.hash s.devices).1).1) = some 0) :
    ¬ HandlersAgree context f offset { s with packetIdx := 0 } := by
  obtain ⟨cap, hcap, hcode⟩ := Option.map_eq_some_iff.mp h
  exact fun hall => (handlersAgree_iff _ _ _ _).mp hall ⟨hcb, hslot, cap, hcap, hcode⟩

/-- The second of two `Update`s with one datagram each hands it out as TCP. -/
theorem datagram_tagged_tcp :
    (¬ ∀ context f offset s, HandlersAgree context f offset s) ∧
      ∃ t ∈ run [.init (lanInit [1]), .update udpUpdate, .update udpUpdate],
        t.call = .update udpUpdate ∧ t.before.packetCallback = true ∧ ¬ TransportsTagged udpUpdate t.before t.after ∧
          t.after.packetCallbacks.map (fun p => p.1.map PacketRecord.family) = [[.tcp]] := by
  -- one evaluation of the run for all five facts
  have hfacts : (next (next initial (.init (lanInit [1]))) (.update udpUpdate)).packetCallback = true ∧
      0 < (next (next initial (.init (lanInit [1]))) (.update udpUpdate)).packetData.length ∧
      (credits udpUpdate (next (next initial (.init (lanInit [1]))) (.update udpUpdate)))[0]?.map
        (fun x => x.2.segment.family) = some .udp ∧
      (next (next (next initial (.init (lanInit [1]))) (.update udpUpdate))
        (.update udpUpdate)).packetCallbacks.map (fun p => p.1.map PacketRecord.family) = [[.tcp]] ∧
      (packetOf (next (next initial (.init (lanInit [1]))) (.update udpUpdate)).devices
        (.ip4 (datagram.addr4 26) (datagram.addr4 30)) datagram 34).map (fun cap =>
          ((next (next initial (.init (lanInit [1]))) (.update udpUpdate)).inodes.getPidByIp (cap.hash
            (next (next initial (.init (lanInit [1]))) (.update udpUpdate)).devices).1).1) = some 0 := by
    decide +kernel
  obtain ⟨hcb, hslot, hcredit, hreport, hresolves⟩ := hfacts
  refine ⟨fun hall => not_handlersAgree hcb hslot hresolves (hall _ _ _ _), _,
    List.mem_cons_of_mem _ (List.mem_cons_of_mem _ List.mem_cons_self), rfl, hcb, fun htag => ?_, hreport⟩
  obtain ⟨⟨f, a⟩, ha, hfamily⟩ := Option.map_eq_some_iff.mp hcredit
  have htcp := (transportsTagged_iff udpUpdate _ hcb).mp htag 0 f a ha hslot
  rw [htcp] at hfamily
  cases hfamily

end CaptureCxx
end Capture
