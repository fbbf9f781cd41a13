import Capture.Proof.CreditedOnly
import Capture.Proof.PacketBuffer

/-! # The order in which frames arrive

libpcap passes on the frames of an interface in the order in which it has them, and `Update`
asks the interfaces one after the other. Which frame comes first shows in the packet buffer
and in the log, and nowhere else: crediting is a change of one entry of the process table,
and such changes commute (`post_comm`). -/
namespace Capture
open SeparatedText AddressText OrderedTable StateFrame

set_option autoImplicit false

/-! ## Without the order -/

/-- The events whose order is not the order of frames. -/
def Event.orderFree : Event → Bool
  | .erase _ | .processCallback _ _ _ | .pcapOpen _ | .pcapClose _ => true
  | _ => false

theorem Event.lasts_of_orderFree {e : Event} (h : e.orderFree = true) : e.lasts = true := by
  cases e <;> first | rfl | cases h

namespace CapProcess

theorem addPacket_comm (devices : List CapDevice) (c c' : CapPacket) (p : CapProcess) :
    (p.addPacket devices c).addPacket devices c' = (p.addPacket devices c').addPacket devices c := by
  unfold addPacket
  have hright : ∀ x y z : UInt64, x + y + z = x + z + y := fun x y z => by
    rw [UInt64.add_assoc, UInt64.add_comm y z, ← UInt64.add_assoc]
  split <;> split <;> simp only [hright]

end CapProcess

namespace CaptureCxx

/-- What lasts, without the packet buffer and with the events that are free of the order. -/
def tally (s : CaptureCxx) : CaptureCxx :=
  { s.lasting with packetData := [], packetIdx := 0, log := s.log.filter Event.orderFree }

theorem tally_eq_iff (s s' : CaptureCxx) :
    s.tally = s'.tally ↔ packetJournal.strip s = packetJournal.strip s' ∧
      s.handles.map (·.setContext .unspec) = s'.handles.map (·.setContext .unspec) ∧
      s.log.filter Event.orderFree = s'.log.filter Event.orderFree := by
  constructor
  · intro h
    exact ⟨(congrArg packetJournal.strip h :), (congrArg CaptureCxx.handles h :), (congrArg CaptureCxx.log h :)⟩
  · rintro ⟨hstrip, hhandles, hlog⟩
    have hs : ∀ t : CaptureCxx, t.tally = { packetJournal.strip t with
        handles := t.handles.map (·.setContext .unspec), log := t.log.filter Event.orderFree } := fun _ => rfl
    rw [hs, hs, hstrip, hhandles, hlog]

theorem tally_of_lasting {s s' : CaptureCxx} (h : s.lasting = s'.lasting) : s.tally = s'.tally := by
  obtain ⟨hstrip, hhandles, hlog⟩ := (lasting_eq_iff s s').mp h
  have hfilter : ∀ es : List Event, es.filter Event.orderFree = (es.filter Event.lasts).filter Event.orderFree := by
    intro es
    rw [List.filter_filter]
    refine List.filter_congr fun e _ => ?_
    by_cases he : e.orderFree = true
    · simp [he, Event.lasts_of_orderFree he]
    · simp [he]
  exact (tally_eq_iff s s').mpr ⟨(congrArg packetJournal.strip hstrip :), hhandles, by rw [hfilter, hlog, ← hfilter]⟩

theorem shown_tally : packetJournal.Shown tally where
  strip_eq s s' h := ((tally_eq_iff s s').mp h).1
  restore_eq s s' t h := by
    obtain ⟨-, hhandles, hlog⟩ := (tally_eq_iff s s').mp h
    refine (tally_eq_iff _ _).mpr ⟨rfl, ?_, ?_⟩
    · rw [packetJournal, List.map_append, List.map_append, hhandles]
    · rw [packetJournal, List.filter_append, List.filter_append, hlog]

theorem follows_tally : Follows tally where
  shown := shown_tally.mono packetJournal_within
  enter s s' h := by
    obtain ⟨hstrip, hhandles, -⟩ := (tally_eq_iff s s').mp h
    exact (tally_eq_iff _ _).mpr ⟨congrArg enter hstrip, hhandles, rfl⟩
  rewind _ _ h := h
  refresh i s s' h := shown_tally.congr (spared_refresh i) h
  reportPackets ret s := tally_of_lasting (follows_lasting.reportPackets ret s)

/-! ## Crediting as a change of the table -/

/-- What a frame credited to a process does to the table. The frames of the processes in
`known` find them there. -/
def post (known : List Pid) (s : CaptureCxx) (y : Frame × Attributed) : CaptureCxx :=
  let fresh : CapProcess := { pid := y.2.pid }
  let d := if y.2.pid ∈ known then fresh else CapProcess.parse s.calls (y.1.files y.2.pid) s.memory s.deltaCpu fresh
  { s with processes := s.processes.upsert y.2.pid d (CapProcess.addPacket s.devices y.2.cap) }

theorem spared_post (known : List Pid) (y : Frame × Attributed) : packetJournal.Spared (post known · y) :=
  fun s => by simp [packetJournal, post]

theorem storePacket_tally (reused appended : PacketType) (cap : CapPacket) (f : Frame) (offset : ℕ) (s : CaptureCxx) :
    (storePacket reused appended cap f offset s).tally = s.tally := by
  unfold storePacket
  by_cases hcb : s.packetCallback = true
  · rw [if_pos hcb]
    dsimp only
    split <;> split <;> simp [tally, lasting, emit, Event.orderFree]
  · rw [if_neg hcb]

theorem absorb_tally (known : List Pid) (y : Frame × Attributed) (s : CaptureCxx)
    (hknown : ∀ p ∈ known, p ∈ s.processes.keys) : (absorb y.1 y.2 s).tally = (post known s y).tally := by
  refine (storePacket_tally _ _ _ _ _ _).trans ?_
  unfold addPacket post Table.upsert
  dsimp only
  cases hfind : s.processes.find y.2.pid with
  | none =>
    have hnew : y.2.pid ∉ known := fun h => ((Table.find_eq_none_iff _ _).mp hfind) (hknown _ h)
    simp [tally_eq_iff, packetJournal, emit, Event.orderFree, hnew]
  | some ptr => rfl

theorem absorb_keys (y : Frame × Attributed) (s : CaptureCxx) (p : Pid) (hp : p ∈ s.processes.keys) :
    p ∈ (absorb y.1 y.2 s).processes.keys := by
  have hprocesses : (absorb y.1 y.2 s).tally.processes = (post [] s y).tally.processes :=
    congrArg CaptureCxx.processes (absorb_tally [] y s (by simp))
  have hkeys : (absorb y.1 y.2 s).processes = (post [] s y).processes := hprocesses
  rw [hkeys]
  exact (Table.mem_keys_insert _ _ _ _).mpr (Or.inr hp)

theorem tally_creditAll (known : List Pid) (ys : List (Frame × Attributed)) (s : CaptureCxx)
    (hknown : ∀ p ∈ known, p ∈ s.processes.keys) : (creditAll ys s).tally = (ys.foldl (post known) s).tally := by
  induction ys generalizing s with
  | nil => rfl
  | cons y ys ih =>
    have hfirst := shown_tally.congr (Region.Spared.foldl (spared_post known) ys) (absorb_tally known y s hknown)
    exact (ih (absorb y.1 y.2 s) fun p hp => absorb_keys y s p (hknown p hp)).trans hfirst

theorem dispatched_tally (known : List Pid) (u : UpdateInput) (s : CaptureCxx)
    (hknown : ∀ p ∈ known, p ∈ s.processes.keys) :
    (dispatched u s).tally = ((credits u s).foldl (post known) (beginUpdate u s)).tally :=
  (tally_of_lasting (lasting_dispatched u s)).trans (tally_creditAll known (credits u s) (beginUpdate u s) hknown)

/-! ## Changes commute -/

/-- The frames that bring in a process find the same files of it. -/
def Steady (known : List Pid) (ys : List (Frame × Attributed)) : Prop :=
  ∀ y ∈ ys, ∀ z ∈ ys, y.2.pid = z.2.pid → y.2.pid ∉ known → y.1.files y.2.pid = z.1.files z.2.pid

theorem post_comm {known : List Pid} {ys : List (Frame × Attributed)} (hsteady : Steady known ys)
    (y : Frame × Attributed) (hy : y ∈ ys) (z : Frame × Attributed) (hz : z ∈ ys) (s : CaptureCxx) :
    post known (post known s y) z = post known (post known s z) y := by
  unfold post
  dsimp only
  rw [Table.upsert_comm]
  intro hpid
  refine ⟨?_, CapProcess.addPacket_comm s.devices y.2.cap z.2.cap⟩
  by_cases hin : y.2.pid ∈ known
  · rw [if_pos hin, if_pos (hpid ▸ hin), hpid]
  · rw [if_neg hin, if_neg (hpid ▸ hin), hsteady y hy z hz hpid hin, hpid]

theorem foldl_post_perm {known : List Pid} {ys zs : List (Frame × Attributed)} (hperm : zs.Perm ys)
    (hsteady : Steady known ys) (s : CaptureCxx) : zs.foldl (post known) s = ys.foldl (post known) s :=
  (hperm.symm.foldl_eq' (post_comm hsteady) s).symm

/-! ## Every run -/

theorem credits_tally (u : UpdateInput) (s : CaptureCxx) : credits u s.tally = credits u s :=
  credits_lasting u s

theorem tally_update {u u' : UpdateInput} {s s' : CaptureCxx} (h : s.tally = s'.tally)
    (hu : u' = { u with dispatch := u'.dispatch }) (hperm : (credits u' s').Perm (credits u s))
    (hsteady : Steady s.processes.keys (credits u s)) : (update u s).2.tally = (update u' s').2.tally := by
  have hbegin : beginUpdate u' s' = beginUpdate u s' := by rw [hu]; rfl
  have hprocesses : s.processes = s'.processes := (congrArg CaptureCxx.processes h :)
  refine follows_tally.update hu ?_
  calc (dispatched u s).tally
    _ = ((credits u s).foldl (post s.processes.keys) (beginUpdate u s)).tally :=
        dispatched_tally s.processes.keys u s fun _ hp => hp
    _ = ((credits u s).foldl (post s.processes.keys) (beginUpdate u s')).tally :=
        shown_tally.congr (Region.Spared.foldl (spared_post s.processes.keys) (credits u s)) (follows_tally.beginUpdate u h)
    _ = ((credits u' s').foldl (post s.processes.keys) (beginUpdate u s')).tally := by
        rw [foldl_post_perm hperm hsteady]
    _ = (dispatched u' s').tally := by
        rw [← hbegin]
        exact (dispatched_tally s.processes.keys u' s' fun _ hp => hprocesses ▸ hp).symm

/-- Handles that are passed the same frames in another order credit the same frames. -/
theorem credits_perm {u u' : UpdateInput} (hu : u' = { u with dispatch := u'.dispatch })
    (h : ∀ idx, (u'.dispatch idx).frames.Perm (u.dispatch idx).frames) (s : CaptureCxx) :
    (credits u' s).Perm (credits u s) := by
  have hdelivered : ∀ (hs : List CapHandle) (idx : ℕ), (delivered u'.dispatch idx hs).Perm (delivered u.dispatch idx hs) := by
    intro hs
    induction hs with
    | nil => exact fun _ => List.Perm.nil
    | cons g hs ih =>
      intro idx
      refine List.Perm.append (List.Perm.map _ ?_) (ih (idx + 1))
      unfold CapHandle.dispatch
      split
      · exact List.Perm.nil
      · exact h idx
  have hinodes : refreshedInodes u' s = refreshedInodes u s := by rw [hu]; rfl
  unfold credits
  rw [hinodes]
  exact (hdelivered s.handles 0).filterMap _

/-- Frames of one call that all find the same files are steady. -/
theorem steady_of_files {u : UpdateInput} (files : Pid → ProcFiles)
    (h : ∀ idx, ∀ f ∈ (u.dispatch idx).frames, f.files = files) (known : List Pid) (s : CaptureCxx) :
    Steady known (credits u s) := by
  have hcredits : ∀ y ∈ credits u s, y.1.files = files := by
    intro y hy
    obtain ⟨x, hx, hxy⟩ := List.mem_filterMap.mp hy
    obtain ⟨a, -, rfl⟩ := Option.map_eq_some_iff.mp hxy
    obtain ⟨idx, hf⟩ := frame_of_mem_delivered u.dispatch s.handles 0 x hx
    exact h idx x.2 hf
  intro y hy z hz hpid _
  rw [hcredits y hy, hcredits z hz, hpid]

/-- The two calls are the same, up to the order of the frames that an `Update` in state `s` credits. -/
def SameFrames (s : CaptureCxx) : Call → Call → Prop
  | .update u, .update u' =>
      u' = { u with dispatch := u'.dispatch } ∧ (credits u' s).Perm (credits u s) ∧
        Steady s.processes.keys (credits u s)
  | c, c' => c' = c

theorem tally_next {s s' : CaptureCxx} {c c' : Call} (h : s.tally = s'.tally) (hc : SameFrames s c c') :
    (next s c).tally = (next s' c').tally := by
  cases c with
  | init i =>
    cases (show c' = .init i from hc)
    exact follows_tally.init_same shown_tally i h
  | update u =>
    cases c' with
    | update u' =>
      obtain ⟨hu, hperm, hsteady⟩ := hc
      refine tally_update h hu ?_ hsteady
      rw [← credits_tally u' s', ← h, credits_tally u' s]
      exact hperm
    | init i => cases (show Call.init i = .update u from hc)
    | shutdown => cases (show Call.shutdown = .update u from hc)
  | shutdown =>
    cases (show c' = .shutdown from hc)
    exact h

/-- Two runs whose calls agree, up to the order in which an `Update` is handed the frames it
credits, agree in the process table with all its counters, in the process records, and in
the removals and the process callbacks of the last call in their order. -/
theorem frame_order_invisible (cs : List (Call × Call))
    (h : ∀ t ∈ RunTrace.steps (fun s c => next s c.1) initial cs, SameFrames t.before t.call.1 t.call.2) :
    (reached (cs.map Prod.fst)).tally = (reached (cs.map Prod.snd)).tally :=
  RunTrace.related_of_foldl next (fun s s' => s.tally = s'.tally) SameFrames
    (fun _ _ _ _ hs hc => tally_next hs hc) cs initial initial rfl h

def segmentFirst (_ : ℕ) : Dispatch := ⟨[webFrame, datagram], 2, Or.inl rfl, by decide⟩

def datagramFirst (_ : ℕ) : Dispatch := ⟨[datagram, webFrame], 2, Or.inl rfl, by decide⟩

/-- A TCP segment and a datagram of one process may come in either order. -/
theorem frame_order_invisible_web :
    (reached [.init (lanInit [1]), .update (webUpdate segmentFirst)]).tally =
      (reached [.init (lanInit [1]), .update (webUpdate datagramFirst)]).tally := by
  refine frame_order_invisible [(.init (lanInit [1]), .init (lanInit [1])),
    (.update (webUpdate segmentFirst), .update (webUpdate datagramFirst))] ?_
  refine List.forall_mem_cons.mpr ⟨rfl, List.forall_mem_cons.mpr ⟨⟨rfl, ?_, ?_⟩, fun _ h => by cases h⟩⟩
  · exact credits_perm (u := webUpdate segmentFirst) rfl (fun _ => List.Perm.swap _ _ _) _
  · refine steady_of_files (fun _ => ProcFiles.absent) (fun idx f hf => ?_) _ _
    rcases List.mem_pair.mp hf with rfl | rfl <;> rfl

end CaptureCxx
end Capture
