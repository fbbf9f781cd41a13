import Capture.Proof.Attribution
import Capture.Proof.InterfaceHandles
import Capture.Proof.PacketKeys

/-! # Devices and handles of every run

A device is made from an entry of the interface list that is up, running and no loopback,
and a handle is kept only when it is open and has its callback. So in every state a run
reaches `Dispatch` finds a `pcap_t`, and every frame libpcap hands over is parsed
(`frames_all_parsed`). -/
namespace Capture
open SeparatedText AddressText OrderedTable

set_option autoImplicit false

namespace CaptureCxx

/-! ## The invariant -/

/-- The device is that of an address of an interface in use. -/
def Usable (d : CapDevice) : Prop := d.upRunning = true ∧ ∃ name flags addr, d = CapDevice.init name flags addr

/-- The handle is open on one of the devices and passes its frames on. -/
def Working (ds : List CapDevice) (h : CapHandle) : Prop :=
  h.callback = true ∧ ∃ id, ∃ d ∈ ds, h.handle = some ⟨id, d.name⟩

structure Configured (s : CaptureCxx) : Prop where
  devices : ∀ d ∈ s.devices, Usable d
  handles : ∀ h ∈ s.handles, Working s.devices h

theorem initial_configured : Configured initial where
  devices := by
    intro d h
    cases h
  handles := by
    intro h hh
    cases hh

theorem usableDevice_usable {e : Ifaddr} {d : CapDevice} (h : usableDevice e = some d) : Usable d := by
  unfold usableDevice at h
  split at h
  · cases h
  · dsimp only at h
    split at h
    · next hup =>
      cases h
      exact ⟨hup, _, _, _, rfl⟩
    · cases h

theorem Working.mono {ds ds' : List CapDevice} {h : CapHandle} (hw : Working ds h) (hds : ∀ d ∈ ds, d ∈ ds') :
    Working ds' h :=
  ⟨hw.1, hw.2.imp fun _ ⟨d, hd, heq⟩ => ⟨d, hds d hd, heq⟩⟩

/-! ## `Init` -/

theorem Configured.prepare {s : CaptureCxx} (hs : Configured s) (i : InitInput) : Configured (prepare i s) := by
  refine ⟨fun d hd => ?_, fun h hh => ?_⟩
  · rw [prepare_devices] at hd
    rcases List.mem_append.mp hd with hd | hd
    · exact hs.devices d hd
    · obtain ⟨e, -, he⟩ := List.mem_filterMap.mp hd
      exact usableDevice_usable he
  · rw [prepare_handles] at hh
    rw [prepare_devices]
    exact (hs.handles h hh).mono fun d hd => List.mem_append_left _ hd

theorem working_openDevice (fliter : Bool) (d : CapDevice) (o : PcapOpen) (s : CaptureCxx) (h : CapHandle)
    (hh : h ∈ (openDevice fliter d.name o s).handles) : h ∈ s.handles ∨ Working [d] h := by
  cases ho : o.opened with
  | false =>
    rw [openDevice_unopened fliter d.name o s ho] at hh
    exact Or.inl hh
  | true =>
    rcases openDevice_cases fliter d.name o s ho with ⟨-, heq⟩ | ⟨-, -, heq⟩ | ⟨-, -, heq⟩
    · rw [heq] at hh
      exact Or.inl hh
    · rw [heq] at hh
      exact Or.inl hh
    · rw [heq] at hh
      rcases List.mem_append.mp hh with hh | hh
      · exact Or.inl hh
      · cases List.mem_singleton.mp hh
        exact Or.inr ⟨rfl, s.pcaps, d, List.mem_singleton_self d, rfl⟩

theorem working_openHandles (fliter : Bool) (pcap : ℕ → PcapOpen) (ds : List CapDevice) (idx : ℕ) (s : CaptureCxx)
    (h : CapHandle) (hh : h ∈ (openHandles fliter pcap idx ds s).handles) : h ∈ s.handles ∨ Working ds h := by
  induction ds generalizing idx s with
  | nil => exact Or.inl hh
  | cons d ds ih =>
    rcases ih (idx + 1) _ hh with hold | hnew
    · refine (working_openDevice fliter d (pcap idx) s h hold).imp_right fun hw => hw.mono fun d' hd' => ?_
      exact List.mem_singleton.mp hd' ▸ List.mem_cons_self
    · exact Or.inr (hnew.mono fun d' hd' => List.mem_cons_of_mem d hd')

theorem Configured.init {s : CaptureCxx} (hs : Configured s) (i : InitInput) : Configured (init i s).2 := by
  have hprepare := hs.prepare i
  by_cases hnil : (CaptureCxx.prepare i s).devices = []
  · rw [init_of_no_device i s hnil]
    exact hprepare
  · have hframe := frameOf_foldl_newProcess i.files (snapshot i.proc).keys (surveyed i s)
    have hhandles : (CaptureCxx.init i s).2.handles = (withHandles i s).handles := by
      rw [init_of_devices i s hnil]
      exact (congrArg CaptureCxx.handles hframe :)
    have hdevices : (CaptureCxx.init i s).2.devices = (CaptureCxx.prepare i s).devices := by
      rw [init_of_devices i s hnil]
      exact (congrArg CaptureCxx.devices hframe :).trans (congrArg CaptureCxx.devices (closed_withHandles i s) :)
    refine ⟨fun d hd => hprepare.devices d (hdevices ▸ hd), fun h hh => ?_⟩
    rw [hhandles] at hh
    rw [hdevices]
    rcases working_openHandles i.fliter i.pcap (CaptureCxx.prepare i s).devices 0 _ h hh with hold | hnew
    · exact hprepare.handles h hold
    · exact hnew

/-! ## `Update` -/

theorem update_devices (u : UpdateInput) (s : CaptureCxx) : (update u s).2.devices = s.devices :=
  (congrArg CaptureCxx.devices (update_kept u s) :)

theorem Configured.update {s : CaptureCxx} (hs : Configured s) (u : UpdateInput) : Configured (update u s).2 := by
  refine ⟨fun d hd => hs.devices d (update_devices u s ▸ hd), fun h hh => ?_⟩
  have hmem : h.setContext .unspec ∈ s.handles.map (·.setContext .unspec) := by
    rw [← update_handles u s]
    exact List.mem_map_of_mem hh
  obtain ⟨g, hg, hgh⟩ := List.mem_map.mp hmem
  have hhandle : g.handle = h.handle := (congrArg CapHandle.handle hgh :)
  have hcallback : g.callback = h.callback := (congrArg CapHandle.callback hgh :)
  obtain ⟨hcb, id, d, hd, heq⟩ := hs.handles g hg
  rw [update_devices]
  exact ⟨hcallback ▸ hcb, id, d, hd, hhandle ▸ heq⟩

theorem Configured.next {s : CaptureCxx} (hs : Configured s) (c : Call) : Configured (next s c) := by
  cases c with
  | init i => exact hs.init i
  | update u => exact hs.update u
  | shutdown => exact hs

theorem reached_configured (cs : List Call) : Configured (reached cs) :=
  RunTrace.invariant_of_foldl next Configured (fun _ c hs => hs.next c) initial initial_configured cs

theorem configured_of_mem_run {cs : List Call} {t : RunTrace.Step CaptureCxx Call} (h : t ∈ run cs) :
    Configured t.before :=
  RunTrace.invariant_of_mem_steps next Configured (fun _ c hs => hs.next c) initial initial_configured cs t h

/-! ## What a working handle passes on -/

theorem Working.dispatch {ds : List CapDevice} {h : CapHandle} (hw : Working ds h) (d : Dispatch) :
    h.dispatch d = (d.ret, d.frames) := by
  obtain ⟨-, id, dev, -, heq⟩ := hw
  exact if_neg (by rw [heq]; exact Option.some_ne_none _)

theorem delivered_of_working {ds : List CapDevice} (dispatch : ℕ → Dispatch) (hs : List CapHandle)
    (hw : ∀ h ∈ hs, Working ds h) (idx : ℕ) :
    delivered dispatch idx hs = (hs.zipIdx idx).flatMap fun h => (dispatch h.2).frames.map (h.1, ·) := by
  induction hs generalizing idx with
  | nil => rfl
  | cons h hs ih =>
    obtain ⟨hh, hhs⟩ := List.forall_mem_cons.mp hw
    rw [delivered, hh.dispatch, ih hhs, List.zipIdx_cons, List.flatMap_cons]

/-- In every run every handle is open on an interface in use and has its callback; so in
each `Update` the frames libpcap hands over, handle by handle and in order, are those
passed to `CapProtocol::Parse`, none left out and none repeated, and the value the loop
leaves is the one `pcap_dispatch` returned for the last handle. -/
theorem frames_all_parsed (cs : List Call) (t : RunTrace.Step CaptureCxx Call) (ht : t ∈ run cs) :
    (∀ d ∈ t.before.devices, Usable d) ∧ (∀ h ∈ t.before.handles, Working t.before.devices h) ∧
      ∀ u, t.call = .update u →
        t.after.parsedFrames = (t.before.handles.zipIdx.flatMap fun h =>
          (u.dispatch h.2).frames.map fun f => (h.1.device, f.serial)) ∧
        (t.before.handles ≠ [] →
          lastReturn u.dispatch t.before.handles = (u.dispatch (t.before.handles.length - 1)).ret) := by
  have hconf := configured_of_mem_run ht
  refine ⟨hconf.devices, hconf.handles, fun u hu => ⟨?_, fun hne => ?_⟩⟩
  · have hcallback : ∀ x ∈ delivered u.dispatch 0 t.before.handles, x.1.callback = true := fun x hx =>
      (hconf.handles x.1 (mem_of_mem_delivered u.dispatch _ 0 x hx)).1
    rw [after_update ht hu, update_parsedFrames, dispatched_parsedFrames, List.filter_eq_self.mpr hcallback,
      delivered_of_working u.dispatch _ hconf.handles, List.map_flatMap]
    simp only [List.map_map]
    rfl
  · unfold lastReturn
    rw [List.getLast?_eq_getLast_of_ne_nil hne]
    exact congrArg Prod.fst ((hconf.handles _ (List.getLast_mem hne)).dispatch _)

/-- Of the two frames of an `Update` none is left out. -/
theorem frames_all_parsed_web :
    ∃ t ∈ run [.init (lanInit [1]), .update (webUpdate mixedDispatch)],
      t.after.parsedFrames = [(['e'], webFrame.serial), (['e'], arpFrame.serial)] := by
  have ht : (⟨_, .update (webUpdate mixedDispatch), _⟩ : RunTrace.Step CaptureCxx Call) ∈
      run [.init (lanInit [1]), .update (webUpdate mixedDispatch)] := List.mem_cons_of_mem _ List.mem_cons_self
  refine ⟨_, ht, ((frames_all_parsed _ _ ht).2.2 _ rfl).1.trans ?_⟩
  rw [lan_host.1]
  rfl

end CaptureCxx
end Capture
