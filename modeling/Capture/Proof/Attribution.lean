import Capture.Proof.PacketDelivery
import Capture.Proof.RefreshEffect

/-! # Which process a frame is credited to

A frame is handled in a state that differs from the one `Refresh` left only in the process
table, the packet buffer and the log. So the pid it is credited to is one that the two maps
of this `Update` give: it is in the snapshot, and it holds a socket that a row of the four
files lists under the key of the frame. The key does not say which transport it is for. -/
namespace Capture
open SeparatedText AddressText OrderedTable

set_option autoImplicit false

namespace CaptureCxx

/-! ## The states frames are handled in -/

/-- In the `Update` with input `u` made in `s`, the frame `x` is handled in the state `σ`. -/
def Handles (u : UpdateInput) (s σ : CaptureCxx) (x : CapHandle × Frame) : Prop :=
  ∃ pre post, delivered u.dispatch 0 s.handles = pre ++ x :: post ∧ σ = pre.foldl feed (beginUpdate u s)

theorem Handles.settings {u : UpdateInput} {s σ : CaptureCxx} {x : CapHandle × Frame} (h : Handles u s σ x) :
    σ.settings = (beginUpdate u s).settings := by
  obtain ⟨pre, post, -, rfl⟩ := h
  exact foldl_feed_settings pre (beginUpdate u s)

theorem Handles.devices {u : UpdateInput} {s σ : CaptureCxx} {x : CapHandle × Frame} (h : Handles u s σ x) :
    σ.devices = s.devices := (congrArg CaptureCxx.devices h.settings :)

theorem Handles.pids {u : UpdateInput} {s σ : CaptureCxx} {x : CapHandle × Frame} (h : Handles u s σ x) :
    σ.pids = snapshot u.proc := (congrArg CaptureCxx.pids h.settings :)

theorem Handles.inodes {u : UpdateInput} {s σ : CaptureCxx} {x : CapHandle × Frame} (h : Handles u s σ x) :
    σ.inodes = refreshedInodes u s := (congrArg CaptureCxx.inodes h.settings :)

/-! ## The process a frame is credited to -/

/-- Handling the frame changes the byte counters under `p`, or creates the entry. -/
def Credits (σ : CaptureCxx) (x : CapHandle × Frame) (p : Pid) : Prop :=
  ((feed σ x).processes.find p).map CapProcess.traffic ≠ (σ.processes.find p).map CapProcess.traffic

theorem attribute_of_credits {σ : CaptureCxx} {x : CapHandle × Frame} {p : Pid} (h : Credits σ x p) :
    ∃ a, x.1.attribute σ.devices σ.inodes x.2 = some a ∧ a.pid = p := by
  unfold Credits at h
  rw [feed_processes] at h
  cases ha : x.1.attribute σ.devices σ.inodes x.2 with
  | none =>
    rw [ha] at h
    exact absurd rfl h
  | some a =>
    refine ⟨a, rfl, ?_⟩
    by_contra hne
    rw [ha] at h
    dsimp only at h
    rw [Table.find_insert, if_neg (Ne.symm hne)] at h
    exact h rfl

theorem segment_of_credits {σ : CaptureCxx} {x : CapHandle × Frame} {p : Pid} (h : Credits σ x p) :
    ∃ g cap, CapProtocol.decode x.1.linktype x.2 = some g ∧
      packetOf σ.devices g.context x.2 g.offset = some cap ∧
      (σ.inodes.getPidByIp (cap.hash σ.devices).1).2 = some p := by
  obtain ⟨a, ha, rfl⟩ := attribute_of_credits h
  unfold CapHandle.attribute at ha
  split at ha
  · obtain ⟨g, hg, ha⟩ := Option.bind_eq_some_iff.mp ha
    obtain ⟨cap, hcap, ha⟩ := Option.bind_eq_some_iff.mp ha
    obtain ⟨pid, hpid, rfl⟩ := Option.map_eq_some_iff.mp ha
    exact ⟨g, cap, hg, hcap, hpid⟩
  · cases ha

/-- A call credits frames to pids of its snapshot only. -/
theorem credits_live {u : UpdateInput} {s : CaptureCxx} {y : Frame × Attributed} (h : y ∈ credits u s) :
    y.2.pid ∈ livePids u := by
  obtain ⟨x, -, hx⟩ := List.mem_filterMap.mp h
  obtain ⟨a, ha, rfl⟩ := Option.map_eq_some_iff.mp hx
  unfold CapHandle.attribute at ha
  split at ha
  · obtain ⟨g, -, ha⟩ := Option.bind_eq_some_iff.mp ha
    obtain ⟨cap, -, ha⟩ := Option.bind_eq_some_iff.mp ha
    obtain ⟨pid, hpid, rfl⟩ := Option.map_eq_some_iff.mp ha
    obtain ⟨hmem, -⟩ := CapInodeHelper.row_of_getPidByIp _ _ _ _ _ hpid
    exact (Table.mem_keySet _ _).mpr hmem
  · cases ha

/-- A frame of a call is credited to a pid of the snapshot that holds a socket listed under
the key of the frame, in the files of its own transport if these are the ones that decide
the key: the UDP files if one of their rows is stored under it, the TCP files otherwise. -/
theorem credited_socket_transport (u : UpdateInput) (s σ : CaptureCxx) (x : CapHandle × Frame) (g : Segment) (p : Pid)
    (hx : Handles u s σ x) (hg : CapProtocol.decode x.1.linktype x.2 = some g) (hp : Credits σ x p) :
    p ∈ (snapshot u.proc).keys ∧ ∃ cap, packetOf s.devices g.context x.2 g.offset = some cap ∧
      (∃ r ∈ filesRows (u.refresh.transportFiles .tcp) ++ filesRows (u.refresh.transportFiles .udp),
        r.Stores s.devices (cap.hash s.devices).1 ∧ r.inode.toUInt32 ∈ u.refresh.heldInodes p) ∧
      ((g.family = .udp ↔
          ∃ r ∈ filesRows (u.refresh.transportFiles .udp), r.Stores s.devices (cap.hash s.devices).1) →
        ∃ r ∈ filesRows (u.refresh.transportFiles g.family),
          r.Stores s.devices (cap.hash s.devices).1 ∧ r.inode.toUInt32 ∈ u.refresh.heldInodes p) := by
  obtain ⟨g', cap, hg', hcap, hpid⟩ := segment_of_credits hp
  cases hg'.symm.trans hg
  rw [hx.devices] at hcap hpid
  rw [hx.inodes] at hpid
  obtain ⟨hmem, r, hstores, hholds, hr⟩ := CapInodeHelper.row_of_getPidByIp _ _ _ _ _ hpid
  refine ⟨hmem, cap, hcap, ⟨r, ?_, hstores, hholds⟩, fun hdecides => ⟨r, ?_, hstores, hholds⟩⟩
  · rcases hr with hr | ⟨-, hr⟩
    · exact List.mem_append_right _ hr
    · exact List.mem_append_left _ hr
  · rcases hr with hr | ⟨hnone, hr⟩
    · rw [hdecides.mpr ⟨r, hr, hstores⟩]
      exact hr
    · have hudp : g.family ≠ .udp := by
        intro h
        obtain ⟨r', hr', hstores'⟩ := hdecides.mp h
        exact hnone r' hr' hstores'
      cases hfamily : g.family with
      | tcp => exact hr
      | udp => exact absurd hfamily hudp

/-! ### A TCP frame on the small host -/

def lanHandle : CapHandle := ⟨some ⟨0, ['e']⟩, dltEn10mb, .unspec, true⟩

/-- The row of `webRefresh`, listed in `/proc/net/udp`. -/
def crossedUpdate : UpdateInput :=
  { webUpdate mixedDispatch with refresh := { webRefresh with tcp := some [], udp := webRefresh.tcp } }

/-- The handle of the small host, the credit of the frame there, and its empty UDP table. -/
theorem lan_host :
    (next initial (.init (lanInit [1]))).handles = [lanHandle] ∧
      Credits (beginUpdate (webUpdate mixedDispatch) (next initial (.init (lanInit [1])))) (lanHandle, webFrame) 1 ∧
      filesRows (webRefresh.transportFiles .udp) = [] := by
  unfold Credits
  decide +kernel

theorem lan_handles (u : UpdateInput) (h : u.dispatch = mixedDispatch) :
    Handles u (next initial (.init (lanInit [1]))) (beginUpdate u (next initial (.init (lanInit [1]))))
      (lanHandle, webFrame) := by
  refine ⟨[], [(lanHandle, arpFrame)], ?_, rfl⟩
  rw [lan_host.1, h]
  rfl

def webSegment : Segment := ⟨.tcp, .ip4 (webFrame.addr4 26) (webFrame.addr4 30), 34⟩

theorem decode_webFrame : CapProtocol.decode lanHandle.linktype webFrame = some webSegment := rfl

theorem credited_socket_transport_web :
    ∃ s σ, Handles (webUpdate mixedDispatch) s σ (lanHandle, webFrame) ∧ Credits σ (lanHandle, webFrame) 1 ∧
      ∃ r ∈ filesRows (webRefresh.transportFiles .tcp), r.inode.toUInt32 ∈ webRefresh.heldInodes 1 := by
  obtain ⟨-, hcredits, hnone⟩ := lan_host
  obtain ⟨-, cap, -, -, hown⟩ := credited_socket_transport (webUpdate mixedDispatch) _ _ (lanHandle, webFrame) webSegment 1
    (lan_handles _ rfl) decode_webFrame hcredits
  obtain ⟨r, hr, -, hholds⟩ := hown (by
    show PacketType.tcp = .udp ↔ ∃ r ∈ filesRows (webRefresh.transportFiles .udp), _
    rw [hnone]
    simp)
  exact ⟨_, _, lan_handles _ rfl, hcredits, r, hr, hholds⟩

/-- The bytes of a TCP frame go to the holder of a UDP socket, with no TCP socket listed. -/
theorem tcp_frame_credited_to_udp_socket :
    ∃ t ∈ run [.init (lanInit [1]), .update crossedUpdate], ∃ σ,
      Handles crossedUpdate t.before σ (lanHandle, webFrame) ∧
        CapProtocol.decode lanHandle.linktype webFrame = some webSegment ∧ webSegment.family = .tcp ∧
        Credits σ (lanHandle, webFrame) 1 ∧ filesRows (crossedUpdate.refresh.transportFiles .tcp) = [] := by
  refine ⟨_, List.mem_cons_of_mem _ List.mem_cons_self, _, lan_handles _ rfl, decode_webFrame, rfl, ?_, ?_⟩
  · unfold Credits
    decide +kernel
  · decide +kernel

/-! ## The pids of the snapshot -/

/-- The three pieces of state agree: a socket belongs to a pid of the snapshot, and an entry
of the process table is stored under its own pid. -/
structure Linked (s : CaptureCxx) : Prop where
  sockets : ∀ n p, s.inodes.inodeToPids n = some p → p ∈ s.pids.keySet
  processes : ∀ k q, s.processes.find k = some q → q.pid = k

theorem sockets_of_refresh {s : CaptureCxx} {devices : List CapDevice} {proc : Option (List ProcEntry)}
    {i : RefreshInput} (hpids : s.pids = snapshot proc)
    (hinodes : s.inodes = (CapInodeHelper.refresh devices (snapshot proc).keys i).2) :
    ∀ n p, s.inodes.inodeToPids n = some p → p ∈ s.pids.keySet := by
  intro n p h
  rw [hinodes] at h
  rw [hpids, Table.mem_keySet]
  exact (CapInodeHelper.holds_of_refresh _ _ _ n p h).2.1

/-- An `Init` that finds no device leaves both maps and the snapshot alone; any other takes
a new snapshot and refreshes from it, whatever the two report. -/
theorem init_maps (i : InitInput) (s : CaptureCxx) :
    (init i s).2.pids = s.pids ∧ (init i s).2.inodes = s.inodes ∨
      ∃ devices, (init i s).2.pids = snapshot i.proc ∧
        (init i s).2.inodes = (CapInodeHelper.refresh devices (snapshot i.proc).keys i.refresh).2 := by
  by_cases hnil : (prepare i s).devices = []
  · rw [init_of_no_device i s hnil, prepare_eq]
    exact Or.inl ⟨rfl, rfl⟩
  · have hframe := frameOf_foldl_newProcess i.files (snapshot i.proc).keys (surveyed i s)
    rw [init_of_devices i s hnil]
    refine Or.inr ⟨(withHandles i s).devices, ?_, ?_⟩
    · exact (congrArg CaptureCxx.pids hframe :)
    · exact (congrArg CaptureCxx.inodes hframe :)

theorem update_maps (u : UpdateInput) (s : CaptureCxx) :
    (update u s).2.pids = snapshot u.proc ∧ (update u s).2.inodes = refreshedInodes u s := by
  obtain ⟨hs, -, hstate⟩ := dispatched_eq u s
  have hset := foldl_feed_settings (delivered u.dispatch 0 s.handles) (beginUpdate u s)
  have hupdate := undisturbed_update u s
  rw [hstate] at hupdate
  constructor
  · exact (congrArg CaptureCxx.pids hupdate :).trans (congrArg CaptureCxx.pids hset :)
  · exact (congrArg CaptureCxx.inodes hupdate :).trans (congrArg CaptureCxx.inodes hset :)

theorem Linked.next {s : CaptureCxx} (h : Linked s) (hwf : WellFormed s) (c : Call) : Linked (next s c) := by
  refine ⟨?_, fun k q hq => ((hwf.next c).stored k q hq).1⟩
  cases c with
  | init i =>
    rcases init_maps i s with ⟨hpids, hinodes⟩ | ⟨devices, hpids, hinodes⟩
    · show ∀ n p, (init i s).2.inodes.inodeToPids n = some p → p ∈ (init i s).2.pids.keySet
      rw [hpids, hinodes]
      exact h.sockets
    · exact sockets_of_refresh hpids hinodes
  | update u => exact sockets_of_refresh (update_maps u s).1 (update_maps u s).2
  | shutdown => exact h.sockets

theorem initial_linked : Linked initial where
  sockets := by
    intro n p h
    cases h
  processes := by
    intro k q h
    cases h

theorem linked_of_mem_run {cs : List Call} {t : RunTrace.Step CaptureCxx Call} (h : t ∈ run cs) : Linked t.before := by
  have hboth := RunTrace.invariant_of_mem_steps CaptureCxx.next (fun s => Linked s ∧ WellFormed s)
    (fun _ c hs => ⟨hs.1.next hs.2 c, hs.2.next c⟩) initial
    ⟨initial_linked, initial_wellFormed⟩ cs t h
  exact hboth.1

theorem linked_of_handles {u : UpdateInput} {s σ : CaptureCxx} {x : CapHandle × Frame} (hs : Linked s)
    (h : Handles u s σ x) : Linked σ := by
  refine ⟨sockets_of_refresh h.pids h.inodes, fun k q hq => ?_⟩
  obtain ⟨pre, post, -, rfl⟩ := h
  rcases foldl_feed_origin pre (beginUpdate u s) k q hq with ⟨e, he, hpid, -⟩ | ⟨-, hpid, -⟩
  · exact hpid.trans (hs.processes k e he)
  · exact hpid

theorem Linked.feed {σ : CaptureCxx} (h : Linked σ) (x : CapHandle × Frame) : Linked (feed σ x) := by
  refine ⟨?_, fun k q hq => ?_⟩
  · rw [feed_pids, feed_inodes]
    exact h.sockets
  · rcases feed_origin σ x k q hq with ⟨e, he, hpid, -⟩ | ⟨-, hpid, -⟩
    · exact hpid.trans (h.processes k e he)
    · exact hpid

/-- Over every run: before and after every call, and before and after every frame, the
sockets belong to pids of the last snapshot and the processes are stored under their pids;
a frame is credited only to a pid of the snapshot. -/
theorem credited_pids_in_snapshot (cs : List Call) (t : RunTrace.Step CaptureCxx Call) (ht : t ∈ run cs) :
    Linked t.before ∧ Linked t.after ∧ ∀ u, t.call = .update u → ∀ σ x, Handles u t.before σ x →
      σ.pids = snapshot u.proc ∧ Linked σ ∧ Linked (feed σ x) ∧ ∀ p, Credits σ x p → p ∈ σ.pids.keySet := by
  have hbefore := linked_of_mem_run ht
  refine ⟨hbefore, ?_, fun u _ σ x hx => ⟨hx.pids, linked_of_handles hbefore hx, ?_, fun p hp => ?_⟩⟩
  · rw [RunTrace.after_of_mem_steps CaptureCxx.next initial cs t ht]
    exact hbefore.next (wellFormed_of_mem_run ht) t.call
  · exact (linked_of_handles hbefore hx).feed x
  · obtain ⟨g, cap, -, -, hpid⟩ := segment_of_credits hp
    obtain ⟨n, -, hn⟩ := (CapInodeHelper.getPidByIp_eq_some_iff _ _ _).mp hpid
    exact (linked_of_handles hbefore hx).sockets n p hn

theorem credited_pids_in_snapshot_web :
    ∃ t ∈ run [.init (lanInit [1]), .update (webUpdate mixedDispatch)], ∃ σ,
      Handles (webUpdate mixedDispatch) t.before σ (lanHandle, webFrame) ∧ Credits σ (lanHandle, webFrame) 1 ∧
        1 ∈ σ.pids.keySet := by
  have ht : (⟨_, .update (webUpdate mixedDispatch), _⟩ : RunTrace.Step CaptureCxx Call) ∈
      run [.init (lanInit [1]), .update (webUpdate mixedDispatch)] := List.mem_cons_of_mem _ List.mem_cons_self
  obtain ⟨-, -, h⟩ := credited_pids_in_snapshot _ _ ht
  obtain ⟨-, -, -, hpids⟩ := h _ rfl _ _ (lan_handles (webUpdate mixedDispatch) rfl)
  exact ⟨_, ht, _, lan_handles _ rfl, lan_host.2.1, hpids 1 lan_host.2.1⟩

end CaptureCxx
end Capture
