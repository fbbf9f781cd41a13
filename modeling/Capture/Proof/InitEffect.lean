import Capture.Proof.Reconcile

/-! # The effect of an `Init`

`Init` reads the settings, the devices and the memory total, and stops there if no device was
found. Otherwise it opens a handle for every device, takes a snapshot of the pids, refreshes
the socket maps from it and makes an entry for every pid. What each stage leaves alone is
stated once; what a whole call leaves alone follows (`init_carried`). -/
namespace Capture
open SeparatedText OrderedTable

set_option autoImplicit false

namespace CaptureCxx

/-! ## Settings and devices -/

theorem prepare_eq (i : InitInput) (s : CaptureCxx) :
    prepare i s =
      { s with
        calls := s.calls + 1
        log := []
        processCallback := i.processCallback
        packetCallback := i.packetCallback
        devices := s.devices ++ (i.ifaddrs.getD []).filterMap usableDevice
        memory := (i.meminfo.bind fun lines => lines.findSome? memTotal).getD s.memory } := by
  unfold prepare getMemTotal
  cases i.meminfo <;> rfl

theorem prepare_calls (i : InitInput) (s : CaptureCxx) : (prepare i s).calls = s.calls + 1 := by
  rw [prepare_eq]

theorem prepare_log (i : InitInput) (s : CaptureCxx) : (prepare i s).log = [] := by
  rw [prepare_eq]

theorem prepare_handles (i : InitInput) (s : CaptureCxx) : (prepare i s).handles = s.handles := by
  rw [prepare_eq]

theorem prepare_devices (i : InitInput) (s : CaptureCxx) :
    (prepare i s).devices = s.devices ++ (i.ifaddrs.getD []).filterMap usableDevice := by
  rw [prepare_eq]

theorem prepare_processes (i : InitInput) (s : CaptureCxx) : (prepare i s).processes = s.processes := by
  rw [prepare_eq]

theorem prepare_deltaCpu (i : InitInput) (s : CaptureCxx) : (prepare i s).deltaCpu = s.deltaCpu := by
  rw [prepare_eq]

/-! ## Handles -/

/-- `OpenLive` overwrites the pointer of a handle it has opened. -/
def leaksHandle (fliter : Bool) (o : PcapOpen) : Bool := o.opened && (fliter && !(o.compiled && o.filtered))

/-- libpcap opens a handle: it gets the next number. -/
def grantPcap (s : CaptureCxx) : CaptureCxx := emit (.pcapOpen s.pcaps) { s with pcaps := s.pcaps + 1 }

theorem openDevice_unopened (fliter : Bool) (device : Text) (o : PcapOpen) (s : CaptureCxx) (h : o.opened = false) :
    openDevice fliter device o s = s := by
  simp [openDevice, CapHandle.openLive, h, capOpenDevice, dropHandle]

theorem openDevice_opened (fliter : Bool) (device : Text) (o : PcapOpen) (s : CaptureCxx) (h : o.opened = true) :
    openDevice fliter device o s =
      let handle := CapHandle.openLive device fliter s.pcaps o {}
      if handle.1 ≠ 0 then dropHandle handle.2 (grantPcap s)
      else if handle.2.setCallback.setNonBlock o ≠ 0 then dropHandle handle.2.setCallback (grantPcap s)
      else { grantPcap s with handles := s.handles ++ [handle.2.setCallback] } := by
  unfold openDevice
  dsimp only
  rw [if_pos h]
  rfl

theorem openLive_leaks (fliter : Bool) (device : Text) (id : ℕ) (o : PcapOpen) (h : leaksHandle fliter o = true) :
    ∃ e, e ≠ 0 ∧ CapHandle.openLive device fliter id o {} = (e, {}) := by
  obtain ⟨opened, compiled, filtered, datalink, nonblock⟩ := o
  unfold leaksHandle at h
  cases opened
  · cases h
  · cases fliter
    · cases h
    · cases compiled
      · exact ⟨capCompile, by decide, rfl⟩
      · cases filtered
        · exact ⟨capFilter, by decide, rfl⟩
        · cases h

theorem openLive_keeps (fliter : Bool) (device : Text) (id : ℕ) (o : PcapOpen) (ho : o.opened = true)
    (h : leaksHandle fliter o = false) :
    CapHandle.openLive device fliter id o {} = (0, { handle := some ⟨id, device⟩, linktype := o.datalink }) := by
  obtain ⟨opened, compiled, filtered, datalink, nonblock⟩ := o
  unfold leaksHandle at h
  cases ho
  cases fliter
  · rfl
  · cases compiled
    · cases h
    · cases filtered
      · cases h
      · rfl

/-- A handle that libpcap opened is forgotten, closed by the destructor, or kept. -/
theorem openDevice_cases (fliter : Bool) (device : Text) (o : PcapOpen) (s : CaptureCxx) (h : o.opened = true) :
    leaksHandle fliter o = true ∧ openDevice fliter device o s = grantPcap s ∨
      leaksHandle fliter o = false ∧ o.nonblock ≠ 0 ∧
        openDevice fliter device o s = emit (.pcapClose s.pcaps) (grantPcap s) ∨
      leaksHandle fliter o = false ∧ o.nonblock = 0 ∧ openDevice fliter device o s =
        { grantPcap s with handles := s.handles ++ [⟨some ⟨s.pcaps, device⟩, o.datalink, .unspec, true⟩] } := by
  rw [openDevice_opened fliter device o s h]
  by_cases hleak : leaksHandle fliter o = true
  · obtain ⟨e, he, hlive⟩ := openLive_leaks fliter device s.pcaps o hleak
    refine Or.inl ⟨hleak, ?_⟩
    rw [hlive]
    exact if_pos he
  · rw [Bool.not_eq_true] at hleak
    rw [openLive_keeps fliter device s.pcaps o h hleak]
    refine Or.inr ?_
    by_cases hn : o.nonblock = 0
    · exact Or.inr ⟨hleak, hn, if_neg (not_not_intro hn)⟩
    · exact Or.inl ⟨hleak, hn, if_pos hn⟩

/-- The state without what opening handles changes. -/
def closed (s : CaptureCxx) : CaptureCxx := { s with handles := [], pcaps := 0, log := [] }

theorem closed_openDevice (fliter : Bool) (device : Text) (o : PcapOpen) (s : CaptureCxx) :
    (openDevice fliter device o s).closed = s.closed := by
  cases h : o.opened with
  | false => rw [openDevice_unopened fliter device o s h]
  | true =>
    rcases openDevice_cases fliter device o s h with ⟨-, heq⟩ | ⟨-, -, heq⟩ | ⟨-, -, heq⟩
    · rw [heq]
      rfl
    · rw [heq]
      rfl
    · rw [heq]
      rfl

theorem closed_openHandles (fliter : Bool) (pcap : ℕ → PcapOpen) (ds : List CapDevice) (idx : ℕ) (s : CaptureCxx) :
    (openHandles fliter pcap idx ds s).closed = s.closed := by
  induction ds generalizing idx s with
  | nil => rfl
  | cons d ds ih => exact (ih (idx + 1) _).trans (closed_openDevice fliter d.name (pcap idx) s)

/-- The state after the loop over the devices. -/
def withHandles (i : InitInput) (s : CaptureCxx) : CaptureCxx :=
  openHandles i.fliter i.pcap 0 (prepare i s).devices (prepare i s)

theorem closed_withHandles (i : InitInput) (s : CaptureCxx) : (withHandles i s).closed = (prepare i s).closed :=
  closed_openHandles i.fliter i.pcap (prepare i s).devices 0 (prepare i s)

/-! ## Entries -/

/-- The state in which the entries are made. -/
def surveyed (i : InitInput) (s : CaptureCxx) : CaptureCxx :=
  refresh i.refresh (updatePids i.proc (withHandles i s)).2

theorem surveyed_calls (i : InitInput) (s : CaptureCxx) : (surveyed i s).calls = s.calls + 1 :=
  (congrArg CaptureCxx.calls (closed_withHandles i s) :).trans (prepare_calls i s)

theorem surveyed_processes (i : InitInput) (s : CaptureCxx) : (surveyed i s).processes = s.processes :=
  (congrArg CaptureCxx.processes (closed_withHandles i s) :).trans (prepare_processes i s)

theorem surveyed_memory (i : InitInput) (s : CaptureCxx) : (surveyed i s).memory = (prepare i s).memory :=
  (congrArg CaptureCxx.memory (closed_withHandles i s) :)

theorem surveyed_deltaCpu (i : InitInput) (s : CaptureCxx) : (surveyed i s).deltaCpu = s.deltaCpu :=
  (congrArg CaptureCxx.deltaCpu (closed_withHandles i s) :).trans (prepare_deltaCpu i s)

theorem frameOf_foldl_newProcess (files : Pid → ProcFiles) (pids : List Pid) (s : CaptureCxx) :
    (pids.foldl (newProcess files) s).frameOf = s.frameOf := by
  induction pids generalizing s with
  | nil => rfl
  | cons pid pids ih => exact ih (newProcess files s pid)

/-- Every pid of the list has a new process, whatever was stored under it. -/
theorem find_foldl_newProcess (files : Pid → ProcFiles) (pids : List Pid) (s : CaptureCxx) (p : Pid) :
    (pids.foldl (newProcess files) s).processes.find p =
      if p ∈ pids then some (CapProcess.parse s.calls (files p) s.memory s.deltaCpu { pid := p })
      else s.processes.find p := by
  induction pids generalizing s with
  | nil => rfl
  | cons pid pids ih =>
    have hfind : (newProcess files s pid).processes.find p =
        if p = pid then some (CapProcess.parse s.calls (files pid) s.memory s.deltaCpu { pid := pid })
        else s.processes.find p := Table.find_insert _ _ _ _
    rw [List.foldl_cons, ih, hfind]
    show (if p ∈ pids then some (CapProcess.parse s.calls (files p) s.memory s.deltaCpu { pid := p }) else _) = _
    by_cases hp : p = pid
    · subst hp
      simp
    · simp [hp]

/-! ## The call -/

theorem init_of_no_device (i : InitInput) (s : CaptureCxx) (h : (prepare i s).devices = []) :
    (init i s).2 = prepare i s := by
  unfold init
  dsimp only
  rw [if_pos h]

theorem init_of_devices (i : InitInput) (s : CaptureCxx) (h : (prepare i s).devices ≠ []) :
    (init i s).2 = sample ((snapshot i.proc).keys.foldl (newProcess i.files) (surveyed i s)) := by
  unfold init
  dsimp only
  rw [if_neg h]
  rfl

/-- Every pid of the snapshot has a new process after an `Init` that finds a device. -/
theorem init_find (i : InitInput) (s : CaptureCxx) (p : Pid) :
    (init i s).2.processes.find p =
      if (prepare i s).devices ≠ [] ∧ p ∈ (snapshot i.proc).keys then
        some (CapProcess.parse (s.calls + 1) (i.files p) (prepare i s).memory s.deltaCpu { pid := p })
      else s.processes.find p := by
  by_cases hnil : (prepare i s).devices = []
  · rw [init_of_no_device i s hnil, if_neg fun h => h.1 hnil, prepare_processes]
  · have hfind := find_foldl_newProcess i.files (snapshot i.proc).keys (surveyed i s) p
    rw [surveyed_calls, surveyed_memory, surveyed_deltaCpu, surveyed_processes] at hfind
    rw [init_of_devices i s hnil]
    simp only [hnil, ne_eq, not_false_eq_true, true_and]
    exact hfind

/-- The fields no stage of an `Init` assigns. -/
def carried (s : CaptureCxx) : CaptureCxx :=
  { s with
    handles := [], devices := [], pids := Table.empty, processes := Table.empty, processCallback := false
    packetCallback := false, memory := 0, inodes := {}, pcaps := 0, calls := 0, sampled := none, log := [] }

theorem init_carried (i : InitInput) (s : CaptureCxx) : (init i s).2.carried = s.carried := by
  have hprepare : (prepare i s).carried = s.carried := by
    rw [prepare_eq]
    rfl
  by_cases hnil : (prepare i s).devices = []
  · rw [init_of_no_device i s hnil]
    exact hprepare
  · have hopened : (withHandles i s).carried = (prepare i s).carried := (congrArg carried (closed_withHandles i s) :)
    have hentries := frameOf_foldl_newProcess i.files (snapshot i.proc).keys (surveyed i s)
    have hsurveyed : ((snapshot i.proc).keys.foldl (newProcess i.files) (surveyed i s)).carried =
        (withHandles i s).carried := (congrArg carried hentries :)
    rw [init_of_devices i s hnil]
    exact hsurveyed.trans (hopened.trans hprepare)

end CaptureCxx
end Capture
