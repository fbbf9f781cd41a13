import Capture.Proof.PacketDelivery

/-! # One handle per interface

`Init` opens a handle for every device, and a device is one address of an interface. It
also opens the devices of earlier calls again. The interfaces of the handles are distinct
exactly when no call of `Init` opens a name twice or opens one that is already captured
on; while they are, a frame seen on an interface is parsed at most once. -/
namespace Capture
open SeparatedText OrderedTable

set_option autoImplicit false

namespace CaptureCxx

/-! ## The handles `Init` opens -/

def keepsHandle (fliter : Bool) (o : PcapOpen) : Bool :=
  o.opened && (!fliter || (o.compiled && o.filtered)) && o.nonblock = 0

/-- The interface names of the devices from number `idx` on whose handles are kept. -/
def keptNames (fliter : Bool) (pcap : ℕ → PcapOpen) : ℕ → List CapDevice → List Text
  | _, [] => []
  | idx, d :: ds =>
      (if keepsHandle fliter (pcap idx) then [d.name] else []) ++ keptNames fliter pcap (idx + 1) ds

/-- The interfaces a call of `Init` opens handles on: every device known before the call
and every usable entry of the list, one by one. -/
def openedNames (i : InitInput) (s : CaptureCxx) : List Text :=
  keptNames i.fliter i.pcap 0 (s.devices ++ (i.ifaddrs.getD []).filterMap usableDevice)

def interfaces (s : CaptureCxx) : List Text := s.handles.map CapHandle.device

theorem keepsHandle_eq (fliter : Bool) (o : PcapOpen) :
    keepsHandle fliter o = (o.opened && !leaksHandle fliter o && o.nonblock = 0) := by
  unfold keepsHandle leaksHandle
  cases o.opened <;> cases fliter <;> cases o.compiled <;> cases o.filtered <;> rfl

theorem openDevice_interfaces (fliter : Bool) (device : Text) (o : PcapOpen) (s : CaptureCxx) :
    (openDevice fliter device o s).interfaces =
      s.interfaces ++ if keepsHandle fliter o then [device] else [] := by
  rw [keepsHandle_eq]
  cases h : o.opened with
  | false =>
    rw [openDevice_unopened fliter device o s h, Bool.false_and, Bool.false_and, if_neg (by decide)]
    exact (List.append_nil _).symm
  | true =>
    rcases openDevice_cases fliter device o s h with ⟨hleak, heq⟩ | ⟨hleak, hn, heq⟩ | ⟨hleak, hn, heq⟩
    · rw [heq, hleak]
      exact (List.append_nil _).symm
    · rw [heq, hleak]
      simp [hn, interfaces, emit, grantPcap]
    · rw [heq, hleak]
      simp [hn, interfaces, CapHandle.device]

theorem openHandles_interfaces (fliter : Bool) (pcap : ℕ → PcapOpen) (ds : List CapDevice) (idx : ℕ) (s : CaptureCxx) :
    (openHandles fliter pcap idx ds s).interfaces = s.interfaces ++ keptNames fliter pcap idx ds := by
  induction ds generalizing idx s with
  | nil => simp [openHandles, keptNames]
  | cons d ds ih => rw [openHandles, ih, openDevice_interfaces, keptNames, List.append_assoc]

theorem init_interfaces (i : InitInput) (s : CaptureCxx) :
    (init i s).2.interfaces = s.interfaces ++ openedNames i s := by
  have hopen := openHandles_interfaces i.fliter i.pcap (prepare i s).devices 0 (prepare i s)
  unfold openedNames
  by_cases hnil : (prepare i s).devices = []
  · rw [init_of_no_device i s hnil, ← prepare_devices, hnil, interfaces, prepare_handles]
    simp [keptNames, interfaces]
  · have hframe := frameOf_foldl_newProcess i.files (snapshot i.proc).keys (surveyed i s)
    have hentries : ((snapshot i.proc).keys.foldl (newProcess i.files) (surveyed i s)).handles =
        (withHandles i s).handles := (congrArg CaptureCxx.handles hframe :)
    rw [init_of_devices i s hnil]
    refine (congrArg (List.map CapHandle.device) hentries).trans ?_
    refine Eq.trans hopen ?_
    rw [prepare_devices, interfaces, prepare_handles]
    rfl

/-! ## `Update` keeps the handles -/

theorem interfaces_of_contexts {hs hs' : List CapHandle}
    (h : hs'.map (·.setContext .unspec) = hs.map (·.setContext .unspec)) :
    hs'.map CapHandle.device = hs.map CapHandle.device := by
  have := congrArg (List.map CapHandle.device) h
  rw [List.map_map, List.map_map] at this
  exact this

/-- Frames leave their contexts in the handles; nothing else about the handles changes. -/
theorem update_handles (u : UpdateInput) (s : CaptureCxx) :
    (update u s).2.handles.map (·.setContext .unspec) = s.handles.map (·.setContext .unspec) := by
  obtain ⟨hs, hctx, hstate⟩ := dispatched_eq u s
  have hupdate : (update u s).2.handles = (dispatched u s).handles :=
    (congrArg CaptureCxx.handles (undisturbed_update u s) :)
  rw [hupdate, hstate]
  exact hctx

theorem update_interfaces (u : UpdateInput) (s : CaptureCxx) : (update u s).2.interfaces = s.interfaces :=
  interfaces_of_contexts (update_handles u s)

/-! ## Frames -/

theorem mem_of_mem_delivered (dispatch : ℕ → Dispatch) (hs : List CapHandle) (idx : ℕ) (x : CapHandle × Frame)
    (h : x ∈ delivered dispatch idx hs) : x.1 ∈ hs := by
  induction hs generalizing idx with
  | nil => cases h
  | cons g hs ih =>
    rcases List.mem_append.mp h with h | h
    · obtain ⟨f, -, rfl⟩ := List.mem_map.mp h
      exact List.mem_cons_self
    · exact List.mem_cons_of_mem g (ih (idx + 1) h)

theorem delivered_nodup (dispatch : ℕ → Dispatch) (hserial : ∀ idx, ((dispatch idx).frames.map Frame.serial).Nodup)
    (hs : List CapHandle) (hnodup : (hs.map CapHandle.device).Nodup) (idx : ℕ) :
    ((delivered dispatch idx hs).map fun x => (x.1.device, x.2.serial)).Nodup := by
  induction hs generalizing idx with
  | nil => exact List.nodup_nil
  | cons g hs ih =>
    obtain ⟨hg, htail⟩ := List.nodup_cons.mp hnodup
    have hframes : ((g.dispatch (dispatch idx)).2.map Frame.serial).Nodup := by
      unfold CapHandle.dispatch
      split
      · exact List.nodup_nil
      · exact hserial idx
    rw [delivered, List.map_append, List.map_map]
    refine List.nodup_append.mpr ⟨?_, ih htail (idx + 1), ?_⟩
    · have hpair := hframes.map (f := fun n => (g.device, n)) (fun a b h => (Prod.mk.inj h).2)
      rw [List.map_map] at hpair
      exact hpair
    · intro a ha b hb hab
      obtain ⟨f, -, rfl⟩ := List.mem_map.mp ha
      obtain ⟨x, hx, rfl⟩ := List.mem_map.mp hb
      have hdev : g.device = x.1.device := (Prod.mk.inj hab).1
      exact hg (hdev ▸ List.mem_map_of_mem (mem_of_mem_delivered dispatch hs (idx + 1) x hx))

theorem dispatched_parsedFrames (u : UpdateInput) (s : CaptureCxx) :
    (dispatched u s).parsedFrames =
      ((delivered u.dispatch 0 s.handles).filter (·.1.callback)).map fun x => (x.1.device, x.2.serial) := by
  obtain ⟨hs, -, hstate⟩ := dispatched_eq u s
  have hfold := foldl_feed_parsedFrames (delivered u.dispatch 0 s.handles) (beginUpdate u s)
  rw [hstate]
  exact hfold

theorem update_parsedFrames (u : UpdateInput) (s : CaptureCxx) :
    (update u s).2.parsedFrames = (dispatched u s).parsedFrames := by
  by_cases hstat : u.stat = none
  · rw [update_of_stat_none u s hstat]
  · have hupkeep : (reconcileEvents u s ++ processReport (reconciled u s)).filterMap Event.parsedFrame = [] :=
      List.filterMap_eq_nil_iff.mpr fun e he => (upkeep_events u s e he).silent.2.2
    have hreport : (packetReport (lastReturn u.dispatch s.handles) (reconciled u s)).filterMap Event.parsedFrame = [] := by
      unfold packetReport
      split <;> rfl
    unfold parsedFrames
    rw [(afterUpdate u s hstat).log, ← List.append_assoc (reconcileEvents u s), List.filterMap_append,
      List.filterMap_append, hupkeep, hreport, List.append_nil, List.append_nil]

/-! ## Every run -/

theorem update_parsedFrames_nodup (u : UpdateInput) (s : CaptureCxx) (h : s.interfaces.Nodup)
    (hserial : ∀ idx, ((u.dispatch idx).frames.map Frame.serial).Nodup) : (update u s).2.parsedFrames.Nodup := by
  rw [update_parsedFrames, dispatched_parsedFrames]
  exact (delivered_nodup u.dispatch hserial s.handles h 0).sublist (List.filter_sublist.map _)

/-- After an `Init` the handles capture on pairwise distinct interfaces, and an `Update`
passes no frame of an interface to `CapProtocol::Parse` twice if libpcap passes none to a
handle twice. -/
def CapturesOnce (t : RunTrace.Step CaptureCxx Call) : Prop :=
  (∀ i, t.call = .init i → t.after.interfaces.Nodup) ∧
    ∀ u, t.call = .update u → (∀ idx, ((u.dispatch idx).frames.map Frame.serial).Nodup) →
      t.after.parsedFrames.Nodup

def OpensNew (i : InitInput) (s : CaptureCxx) : Prop :=
  (openedNames i s).Nodup ∧ ∀ name ∈ openedNames i s, name ∉ s.interfaces

theorem nodup_init_iff (i : InitInput) (s : CaptureCxx) :
    (init i s).2.interfaces.Nodup ↔ s.interfaces.Nodup ∧ OpensNew i s := by
  rw [init_interfaces, List.nodup_append, OpensNew]
  refine and_congr_right fun _ => and_congr_right fun _ => ?_
  exact ⟨fun h name hn hs => h name hs name hn rfl, fun h a ha b hb hab => h b hb (hab ▸ ha)⟩

/-- Over every run, the handles an `Init` leaves open capture on distinct interfaces, and
so each frame is parsed at most once per `Update`, exactly when each `Init` meets
`OpensNew`. -/
theorem interface_captured_once_iff (cs : List Call) :
    (∀ t ∈ run cs, CapturesOnce t) ↔ ∀ t ∈ run cs, ∀ i, t.call = .init i → OpensNew i t.before := by
  have hafter : ∀ t ∈ run cs, ∀ i, t.call = .init i → t.after = (init i t.before).2 := by
    intro t ht i hi
    rw [RunTrace.after_of_mem_steps next initial cs t ht, hi]
    rfl
  constructor
  · intro h t ht i hi
    have hnodup := (h t ht).1 i hi
    rw [hafter t ht i hi] at hnodup
    exact ((nodup_init_iff i t.before).mp hnodup).2
  · intro h t ht
    have hbefore : t.before.interfaces.Nodup := by
      refine RunTrace.invariant_of_steps_ok next (fun t => ∀ i, t.call = .init i → OpensNew i t.before)
        (fun s => s.interfaces.Nodup) ?_ initial List.nodup_nil cs h t ht
      intro s c hok hs
      cases c with
      | init i => exact (nodup_init_iff i s).mpr ⟨hs, hok i rfl⟩
      | update u =>
        show (update u s).2.interfaces.Nodup
        rw [update_interfaces]
        exact hs
      | shutdown => exact hs
    constructor
    · intro i hi
      rw [hafter t ht i hi]
      exact (nodup_init_iff i t.before).mpr ⟨hbefore, h t ht i hi⟩
    · intro u hu hserial
      rw [after_update ht hu]
      exact update_parsedFrames_nodup u t.before hbefore hserial

/-- One interface as `getifaddrs` lists it: a link address, an IPv4 and an IPv6 address. -/
def dualStackInit (pids : List (Fin 10)) : InitInput :=
  { lanInit pids with
    ifaddrs := some [⟨some ['e'], 0x41, some .packet⟩, ⟨some ['e'], 0x41, some (.inet ![10, 0, 0, 1])⟩,
      ⟨some ['e'], 0x41, some (.inet6 ![0xfe, 0x80, 0, 0, 0, 0, 0, 0, 0, 0, 0, 0, 0, 0, 0, 1])⟩] }

/-- One interface with two addresses gets three handles. -/
theorem interface_captured_thrice :
    ∃ t ∈ run [.init (dualStackInit [1])], t.call = .init (dualStackInit [1]) ∧ t.after.interfaces = [['e'], ['e'], ['e']] ∧
      ¬ CapturesOnce t := by
  have hthree : (next initial (.init (dualStackInit [1]))).interfaces = [['e'], ['e'], ['e']] := by decide +kernel
  refine ⟨_, List.mem_cons_self, rfl, hthree, fun h => ?_⟩
  have hnodup : (next initial (.init (dualStackInit [1]))).interfaces.Nodup := h.1 _ rfl
  rw [hthree] at hnodup
  exact absurd hnodup (by decide)

end CaptureCxx
end Capture
