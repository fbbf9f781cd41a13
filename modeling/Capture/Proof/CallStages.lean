import Capture.Foundations.StateFrame
import Capture.Proof.InitEffect
import Capture.Proof.UpdateEffect

/-! # Following a call stage by stage

The stages of a call read neither the handles nor the log. But for `storePacket` and
`reportPackets` they do not touch the packet buffer either, and few of them ask for the
devices. So two states that look alike under a view that shows the rest look alike after a
stage, and after the whole of an `Init` or of an `Update` (`Follows.init`,
`Follows.update`), once the handles are opened or the frames dealt with. -/
namespace Capture
open SeparatedText AddressText OrderedTable StateFrame

set_option autoImplicit false

namespace CaptureCxx

/-! ## The parts -/

/-- The handles and the log. -/
def journal : Region CaptureCxx where
  strip s := { s with handles := [], log := [] }
  restore s t := { t with handles := s.handles ++ t.handles, log := s.log ++ t.log }
  strip_restore _ _ := rfl
  restore_strip s := by simp
  restore_restore s t w := by simp

/-- The handles, the log and the packet buffer. -/
def packetJournal : Region CaptureCxx where
  strip s := { s with handles := [], log := [], packetData := [], packetIdx := 0 }
  restore s t := { t with
    handles := s.handles ++ t.handles, log := s.log ++ t.log, packetData := s.packetData, packetIdx := s.packetIdx }
  strip_restore _ _ := rfl
  restore_strip s := by simp
  restore_restore s t w := by simp

/-- What surrounds the accounts: the devices, the handles, the log and the packet buffer. -/
def surroundings : Region CaptureCxx where
  strip s := { s with devices := [], handles := [], log := [], packetData := [], packetIdx := 0, pcaps := 0 }
  restore s t := { t with
    devices := s.devices, handles := s.handles ++ t.handles, log := s.log ++ t.log, packetData := s.packetData
    packetIdx := s.packetIdx, pcaps := s.pcaps }
  strip_restore _ _ := rfl
  restore_strip s := by simp
  restore_restore s t w := by simp

/-- All but the buffer a packet is stored in and the settings that say how. -/
def exceptBuffer : Region CaptureCxx where
  strip s :=
    { packetCallback := s.packetCallback, captureAll := s.captureAll, packetData := s.packetData
      packetIdx := s.packetIdx }
  restore s t := { s with
    packetCallback := t.packetCallback, captureAll := t.captureAll, packetData := t.packetData
    packetIdx := t.packetIdx, log := s.log ++ t.log }
  strip_restore _ _ := rfl
  restore_strip s := by simp
  restore_restore s t w := by simp

/-- All but the number of the next libpcap handle. -/
def exceptPcaps : Region CaptureCxx where
  strip s := { pcaps := s.pcaps }
  restore s t := { s with handles := s.handles ++ t.handles, log := s.log ++ t.log, pcaps := t.pcaps }
  strip_restore _ _ := rfl
  restore_strip s := by simp
  restore_restore s t w := by simp

theorem journal_within : journal.Within packetJournal := ⟨fun _ => rfl, fun s t => by simp [packetJournal, journal]⟩

theorem packetJournal_within : packetJournal.Within surroundings :=
  ⟨fun _ => rfl, fun s t => by simp [surroundings, packetJournal]⟩

theorem packetJournal_within_pcaps : packetJournal.Within exceptPcaps :=
  ⟨fun _ => rfl, fun s t => by simp [exceptPcaps, packetJournal]⟩

/-! ## The stages -/

theorem spared_removeProcess (pid : Pid) : surroundings.Spared (removeProcess pid) := by
  intro s
  unfold removeProcess
  by_cases hcb : s.processCallback = true
  · simp [surroundings, emit, hcb]
  · simp [surroundings, emit, hcb]

theorem spared_parseProcess (files : Pid → ProcFiles) (pid : Pid) : surroundings.Spared (parseProcess files pid) := by
  intro s
  unfold parseProcess
  cases hfind : s.processes.find pid with
  | none => simp [surroundings, hfind]
  | some ptr => simp [surroundings, emit, hfind]

theorem spared_reconcileLoop (files : Pid → ProcFiles) (ps ks : List Pid) :
    surroundings.Spared (reconcileLoop files ps ks) := by
  induction ks generalizing ps with
  | nil => cases ps <;> exact surroundings.spared_id
  | cons k ks ih =>
    cases ps with
    | nil => exact surroundings.spared_id
    | cons p ps =>
      by_cases hpk : p = k
      · have hloop : reconcileLoop files (p :: ps) (k :: ks) = fun s => reconcileLoop files ps ks (parseProcess files k s) :=
          funext fun s => if_neg (not_not_intro hpk)
        rw [hloop]
        exact (spared_parseProcess files k).comp (ih ps)
      · have hloop : reconcileLoop files (p :: ps) (k :: ks) = fun s => reconcileLoop files (p :: ps) ks (removeProcess k s) :=
          funext fun s => if_pos hpk
        rw [hloop]
        exact (spared_removeProcess k).comp (ih (p :: ps))

theorem spared_reconcile (files : Pid → ProcFiles) : surroundings.Spared (reconcile files) := by
  intro s
  unfold reconcile
  by_cases hsize : s.pids.size = s.processes.size
  · have hstrip : ¬ (surroundings.strip s).pids.size ≠ (surroundings.strip s).processes.size := not_not_intro hsize
    rw [if_neg (not_not_intro hsize), if_neg hstrip]
    exact surroundings.spared_id s
  · have hstrip : (surroundings.strip s).pids.size ≠ (surroundings.strip s).processes.size := hsize
    rw [if_pos hsize, if_pos hstrip]
    exact spared_reconcileLoop files s.pids.keys s.processes.keys s

theorem spared_reportProcesses : surroundings.Spared reportProcesses := by
  intro s
  rw [reportProcesses_eq, reportProcesses_eq]
  by_cases hcb : s.processCallback = true
  · simp [surroundings, emit, hcb, reportData]
  · have hstrip : (surroundings.strip s).processCallback ≠ true := hcb
    rw [if_neg hcb, if_neg hstrip]
    exact surroundings.spared_id s

theorem spared_getCpuTotal (stat : Option (List Text)) : surroundings.Spared fun s => (getCpuTotal stat s).2 := by
  intro s
  unfold getCpuTotal
  cases stat with
  | none => exact surroundings.spared_id s
  | some lines =>
    dsimp only
    cases lines.findSome? cpuTicks with
    | none => exact surroundings.spared_id s
    | some now => simp [surroundings]

theorem spared_sample : surroundings.Spared sample := fun s => by simp [surroundings, sample]

theorem spared_updatePids (proc : Option (List ProcEntry)) : surroundings.Spared fun s => (updatePids proc s).2 :=
  fun s => by simp [surroundings, updatePids]

theorem spared_newProcess (files : Pid → ProcFiles) (pid : Pid) :
    surroundings.Spared fun s => newProcess files s pid :=
  fun s => by simp [surroundings, emit, newProcess]

theorem spared_storePacket (reused appended : PacketType) (cap : CapPacket) (f : Frame) (offset : ℕ) :
    exceptBuffer.Spared (storePacket reused appended cap f offset) := by
  intro s
  unfold storePacket
  by_cases hcb : s.packetCallback = true
  · by_cases hall : s.captureAll = true
    · by_cases hidx : s.packetIdx < s.packetData.length
      · simp [exceptBuffer, emit, hcb, hall, hidx]
      · simp [exceptBuffer, emit, hcb, hall, hidx]
    · by_cases hidx : s.packetIdx < s.packetData.length
      · simp [exceptBuffer, emit, hcb, hall, hidx]
      · simp [exceptBuffer, emit, hcb, hall, hidx]
  · have hstrip : (exceptBuffer.strip s).packetCallback ≠ true := hcb
    rw [if_neg hcb, if_neg hstrip]
    exact exceptBuffer.spared_id s

/-! ## The stages that ask for the devices -/

theorem spared_addPacket (files : Pid → ProcFiles) (pid : Pid) (cap : CapPacket) :
    packetJournal.Spared (addPacket files pid cap) := by
  intro s
  unfold addPacket
  cases hfind : s.processes.find pid with
  | none => simp [packetJournal, emit, hfind]
  | some ptr => simp [packetJournal, hfind]

theorem spared_refresh (i : RefreshInput) : packetJournal.Spared (refresh i) :=
  fun s => by simp [packetJournal, refresh]

theorem spared_openDevice (fliter : Bool) (device : Text) (o : PcapOpen) :
    exceptPcaps.Spared (openDevice fliter device o) := by
  intro s
  have hpcaps : (exceptPcaps.strip s).pcaps = s.pcaps := rfl
  unfold openDevice
  dsimp only
  rw [hpcaps]
  unfold dropHandle
  repeat' split
  all_goals simp_all [exceptPcaps, emit]

theorem spared_openHandles (fliter : Bool) (pcap : ℕ → PcapOpen) (ds : List CapDevice) (idx : ℕ) :
    exceptPcaps.Spared (openHandles fliter pcap idx ds) := by
  induction ds generalizing idx with
  | nil => exact exceptPcaps.spared_id
  | cons d ds ih => exact (spared_openDevice fliter d.name (pcap idx)).comp (ih (idx + 1))

/-- `prepare`, once the call has begun. -/
def configure (i : InitInput) (s : CaptureCxx) : CaptureCxx :=
  (getMemTotal i.meminfo (initDevice i.ifaddrs
    { s with processCallback := i.processCallback, packetCallback := i.packetCallback })).2

theorem spared_configure (i : InitInput) : packetJournal.Spared (configure i) := by
  intro s
  unfold configure getMemTotal
  cases i.meminfo <;> simp [packetJournal, initDevice]

/-! ## The calls -/

/-- A view under which a call can be followed. -/
structure Follows {τ : Type} (view : CaptureCxx → τ) : Prop where
  shown : surroundings.Shown view
  enter : ∀ s s', view s = view s' → view (enter s) = view (enter s')
  rewind : ∀ s s', view s = view s' → view { s with packetIdx := 0 } = view { s' with packetIdx := 0 }
  refresh : ∀ i s s', view s = view s' → view (refresh i s) = view (refresh i s')
  reportPackets : ∀ ret s, view (reportPackets ret s) = view s

namespace Follows

variable {τ : Type} {view : CaptureCxx → τ}

theorem beginUpdate (hview : Follows view) (u : UpdateInput) {s s' : CaptureCxx} (h : view s = view s') :
    view (beginUpdate u s) = view (beginUpdate u s') :=
  hview.refresh u.refresh _ _ (hview.shown.congr (spared_updatePids u.proc) (hview.rewind _ _ (hview.enter s s' h)))

theorem update (hview : Follows view) {u u' : UpdateInput} {s s' : CaptureCxx}
    (hu : u' = { u with dispatch := u'.dispatch }) (h : view (dispatched u s) = view (dispatched u' s')) :
    view (update u s).2 = view (update u' s').2 := by
  have hstat : u'.stat = u.stat := by rw [hu]
  have hfiles : u'.files = u.files := by rw [hu]
  by_cases hnone : u.stat = none
  · rw [update_of_stat_none u s hnone, update_of_stat_none u' s' (hstat.trans hnone)]
    exact h
  · have hreported := hview.shown.congr (((spared_getCpuTotal u.stat).comp (spared_reconcile u.files)).comp
      spared_reportProcesses) h
    rw [update_of_stat_some u s hnone, update_of_stat_some u' s' (hstat ▸ hnone)]
    refine hview.shown.congr spared_sample ?_
    rw [hview.reportPackets, hview.reportPackets, reconciled, reconciled, timed, timed, hstat, hfiles]
    exact hreported

theorem init (hview : Follows view) {i i' : InitInput} {s s' : CaptureCxx}
    (hi : i' = { i with ifaddrs := i'.ifaddrs, pcap := i'.pcap })
    (hprepare : view (prepare i s) = view (prepare i' s'))
    (hdevices : (prepare i s).devices = [] ↔ (prepare i' s').devices = [])
    (hopened : view (withHandles i s) = view (withHandles i' s')) : view (init i s).2 = view (init i' s').2 := by
  have hproc : i'.proc = i.proc := by rw [hi]
  have hrefresh : i'.refresh = i.refresh := by rw [hi]
  have hfiles : i'.files = i.files := by rw [hi]
  by_cases hnil : (prepare i s).devices = []
  · rw [init_of_no_device i s hnil, init_of_no_device i' s' (hdevices.mp hnil)]
    exact hprepare
  · have hsurveyed := hview.refresh i.refresh _ _ (hview.shown.congr (spared_updatePids i.proc) hopened)
    have hentries := hview.shown.congr (Region.Spared.foldl (spared_newProcess i.files) (snapshot i.proc).keys) hsurveyed
    rw [init_of_devices i s hnil, init_of_devices i' s' (mt hdevices.mpr hnil)]
    refine hview.shown.congr spared_sample ?_
    rw [surveyed, surveyed, hproc, hrefresh, hfiles]
    exact hentries

/-- The same `Init` on states that differ in handles, log and packet buffer only. -/
theorem init_same (hview : Follows view) (hshown : packetJournal.Shown view) (i : InitInput) {s s' : CaptureCxx}
    (h : view s = view s') : view (CaptureCxx.init i s).2 = view (CaptureCxx.init i s').2 := by
  have hprepare : view (prepare i s) = view (prepare i s') :=
    hshown.congr (spared_configure i) (hview.enter s s' h)
  have hdevices : (prepare i s').devices = (prepare i s).devices :=
    (congrArg CaptureCxx.devices (hshown.strip_eq _ _ hprepare) :).symm
  refine hview.init rfl hprepare (by rw [hdevices]) ?_
  rw [withHandles, withHandles, hdevices]
  exact hshown.congr ((spared_openHandles i.fliter i.pcap (prepare i s).devices 0).mono packetJournal_within_pcaps) hprepare

end Follows

end CaptureCxx
end Capture
