import Capture.Proof.AccountBook
import Capture.Proof.BufferHistory
import Capture.Proof.Configured
import Capture.Proof.CreditedOnly

/-! # Updates that find no process

When `/proc` cannot be listed, `UpdatePids` returns an error nobody looks at, and the `Update`
goes on with an empty snapshot. Then no socket has a pid, so its frames are lost; the loop
that compares the two tables ends at once, so nothing is erased and nothing parsed; and the
report hands out what the processes were before. The call leaves no trace: a run without
its outages ends with the same devices, handles, packets and processes, up to what is
sampled of the cpu (`outages_leave_no_trace`). -/
namespace Capture
open SeparatedText AddressText OrderedTable StateFrame ReusedBuffer

set_option autoImplicit false

/-! ## Processes without the cpu -/

namespace CapProcess

/-- The process without what is sampled of the cpu. -/
def untimed (p : CapProcess) : CapProcess :=
  { p with cpuPercent := none, cpu := Sample.initial, deltaCpu := Interval.initial }

/-- What `f` does to a process, it does to it without the cpu. -/
def IgnoresCpu (f : CapProcess → CapProcess) : Prop := ∀ p, f p.untimed = (f p).untimed

theorem IgnoresCpu.comp {f g : CapProcess → CapProcess} (hf : IgnoresCpu f) (hg : IgnoresCpu g) :
    IgnoresCpu fun p => g (f p) := fun p => (congrArg g (hf p)).trans (hg (f p))

theorem IgnoresCpu.foldl {β : Type} {f : CapProcess → β → CapProcess} (hf : ∀ x, IgnoresCpu (f · x)) (xs : List β) :
    IgnoresCpu fun p => xs.foldl f p := by
  induction xs with
  | nil => exact fun p => rfl
  | cons x xs ih => exact (hf x).comp ih

theorem parseStatusLine_ignoresCpu (buffer : Text) : IgnoresCpu (parseStatusLine · buffer) := by
  have hname : IgnoresCpu (readName buffer) := by
    intro p
    have hread : p.untimed.name = p.name := rfl
    unfold readName
    dsimp only
    rw [hread]
    split <;> rfl
  have hmemory : IgnoresCpu (readMemory buffer) := fun p => by unfold readMemory; dsimp only; split <;> rfl
  have huid : IgnoresCpu (readUid buffer) := fun p => by unfold readUid; split <;> rfl
  have hgid : IgnoresCpu (readGid buffer) := fun p => by unfold readGid; split <;> rfl
  intro p
  unfold parseStatusLine
  split
  · rfl
  · exact (((hname.comp hmemory).comp huid).comp hgid) p

theorem parseStatus_ignoresCpu (files : ProcFiles) : IgnoresCpu fun p => (parseStatus files p).2 := by
  intro p
  unfold parseStatus
  split
  · rfl
  · next lines _ => exact IgnoresCpu.foldl parseStatusLine_ignoresCpu lines p

theorem parseCmdline_ignoresCpu (files : ProcFiles) : IgnoresCpu fun p => (parseCmdline files p).2 := by
  intro p
  unfold parseCmdline
  split
  · rfl
  · dsimp only
    unfold readCmdline
    split <;> rfl

theorem parseIo_ignoresCpu (files : ProcFiles) : IgnoresCpu fun p => (parseIo files p).2 := by
  have hline : ∀ buffer, IgnoresCpu (parseIoLine · buffer) := by
    intro buffer p
    have hrchar : IgnoresCpu (readRchar buffer) := fun p => by unfold readRchar; dsimp only; split <;> rfl
    have hwchar : IgnoresCpu (readWchar buffer) := fun p => by unfold readWchar; dsimp only; split <;> rfl
    unfold parseIoLine
    split
    · rfl
    · exact (hrchar.comp hwchar) p
  intro p
  unfold parseIo
  split
  · rfl
  · next lines _ => exact IgnoresCpu.foldl hline lines p

theorem parseRest_ignoresCpu (files : ProcFiles) (imemory : UInt64) : IgnoresCpu (parseRest files imemory) := by
  have huser : IgnoresCpu (setUser files) := by
    intro p
    have huid : p.untimed.uid = p.uid := rfl
    unfold setUser
    rw [huid]
    cases files.getpwuid p.uid <;> rfl
  have hgroup : IgnoresCpu (setGroup files) := by
    intro p
    have hgid : p.untimed.gid = p.gid := rfl
    unfold setGroup
    rw [hgid]
    cases files.getgrgid p.gid <;> rfl
  have hhandle : IgnoresCpu fun p => (parseHandle files p).2 := fun p => by unfold parseHandle; split <;> rfl
  intro p
  have hread := (((parseIo_ignoresCpu files).comp (huser.comp hgroup)).comp hhandle) p
  exact congrArg (fun q : CapProcess => { q with memPercent := percent q.memory imemory }) hread

/-- What a parse reads but for the ticks. -/
def readFiles (files : ProcFiles) (imemory : UInt64) (p : CapProcess) : CapProcess :=
  if p.pid = -1 then p
  else if (parseStatus files p).1 ≠ 0 then (parseStatus files p).2
  else if (parseCmdline files (parseStatus files p).2).1 ≠ 0 then (parseCmdline files (parseStatus files p).2).2
  else parseRest files imemory (parseCmdline files (parseStatus files p).2).2

theorem readFiles_ignoresCpu (files : ProcFiles) (imemory : UInt64) : IgnoresCpu (readFiles files imemory) := by
  intro p
  have hpid : p.untimed.pid = p.pid := rfl
  have hstatus := parseStatus_ignoresCpu files p
  have hcmdline := parseCmdline_ignoresCpu files (parseStatus files p).2
  have hcode : (parseStatus files p.untimed).1 = (parseStatus files p).1 := by
    unfold parseStatus
    split <;> rfl
  have hcode' : (parseCmdline files (parseStatus files p).2.untimed).1 =
      (parseCmdline files (parseStatus files p).2).1 := by
    unfold parseCmdline
    split <;> rfl
  dsimp only at hstatus hcmdline
  unfold readFiles
  rw [hpid, hcode, hstatus, hcode', hcmdline, parseRest_ignoresCpu]
  split
  · rfl
  · split
    · rfl
    · split <;> rfl

theorem parseStat_untimed (call : ℕ) (files : ProcFiles) (p : CapProcess) :
    (parseStat call files p).2.untimed = p.untimed := by
  unfold parseStat
  split
  · rfl
  · next lines _ =>
    dsimp only
    generalize lines.filterMap statTicks = ts
    induction ts generalizing p with
    | nil => rfl
    | cons t ts ih => exact (ih (advance call p t)).trans rfl

/-- When a process is parsed, and over which interval, shows in the cpu only. -/
theorem parse_untimed (call : ℕ) (files : ProcFiles) (imemory : UInt64) (ideltacpu : Interval) (p : CapProcess) :
    (parse call files imemory ideltacpu p).untimed = readFiles files imemory p.untimed := by
  rw [readFiles_ignoresCpu]
  unfold parse parseProc readFiles
  dsimp only
  split
  · rfl
  · split
    · rfl
    · split
      · rfl
      · have hstat := parseStat_untimed call files (parseRest files imemory (parseCmdline files (parseStatus files p).2).2)
        split
        · exact hstat
        · exact hstat

theorem addPacket_untimed (devices : List CapDevice) (cap : CapPacket) (p : CapProcess) :
    (p.addPacket devices cap).untimed = p.untimed.addPacket devices cap := by
  unfold addPacket
  split <;> rfl

end CapProcess

namespace CaptureCxx

/-! ## States that agree but in the cpu -/

/-- The same devices, handles, packets and processes, up to what is sampled of the cpu and what
the frames have left in the handles. -/
structure Agree (s s' : CaptureCxx) : Prop where
  kept : s.kept = s'.kept
  handles : s.handles.map (·.setContext .unspec) = s'.handles.map (·.setContext .unspec)
  packetData : s.packetData = s'.packetData
  processes : ∀ k, (s.processes.find k).map CapProcess.untimed = (s'.processes.find k).map CapProcess.untimed

namespace Agree

variable {s s' : CaptureCxx}

theorem devices (h : Agree s s') : s.devices = s'.devices := (congrArg CaptureCxx.devices h.kept :)

theorem memory (h : Agree s s') : s.memory = s'.memory := (congrArg CaptureCxx.memory h.kept :)

theorem packetCallback (h : Agree s s') : s.packetCallback = s'.packetCallback :=
  (congrArg CaptureCxx.packetCallback h.kept :)

theorem captureAll (h : Agree s s') : s.captureAll = s'.captureAll := (congrArg CaptureCxx.captureAll h.kept :)

theorem keySet (h : Agree s s') : s.processes.keySet = s'.processes.keySet := by
  ext k
  have hfind := h.processes k
  rw [Table.mem_keySet, Table.mem_keySet, ← not_iff_not, ← Table.find_eq_none_iff, ← Table.find_eq_none_iff]
  rw [← Option.map_eq_none_iff (f := CapProcess.untimed), hfind, Option.map_eq_none_iff]

theorem credits (h : Agree s s') (u : UpdateInput) : CaptureCxx.credits u s = CaptureCxx.credits u s' := by
  have hinodes : refreshedInodes u s = refreshedInodes u s' := by rw [refreshedInodes, refreshedInodes, h.devices]
  unfold CaptureCxx.credits
  rw [← attributions_setContext, h.handles, attributions_setContext, h.devices, hinodes]

theorem trackedPids (h : Agree s s') (u : UpdateInput) : CaptureCxx.trackedPids u s = CaptureCxx.trackedPids u s' := by
  rw [CaptureCxx.trackedPids, CaptureCxx.trackedPids, h.keySet, h.credits]

end Agree

/-! ## The frames of a call -/

theorem absorb_untimed (y : Frame × Attributed) {s s' : CaptureCxx} (hdevices : s.devices = s'.devices)
    (hmemory : s.memory = s'.memory)
    (h : ∀ k, (s.processes.find k).map CapProcess.untimed = (s'.processes.find k).map CapProcess.untimed) (k : Pid) :
    ((absorb y.1 y.2 s).processes.find k).map CapProcess.untimed =
      ((absorb y.1 y.2 s').processes.find k).map CapProcess.untimed := by
  have hcredited : (credited y.1 y.2 s).untimed = (credited y.1 y.2 s').untimed := by
    have hfind := h y.2.pid
    unfold credited
    rw [CapProcess.addPacket_untimed, CapProcess.addPacket_untimed, hdevices]
    refine congrArg (CapProcess.addPacket s'.devices y.2.cap) ?_
    generalize s.processes.find y.2.pid = p, s'.processes.find y.2.pid = p' at hfind
    cases p with
    | none =>
      cases Option.map_eq_none_iff.mp hfind.symm
      rw [Option.getD_none, Option.getD_none, CapProcess.parse_untimed, CapProcess.parse_untimed, hmemory]
    | some q =>
      obtain ⟨q', rfl, hq⟩ := Option.map_eq_some_iff.mp hfind.symm
      exact hq.symm
  rw [absorb_processes, absorb_processes, Table.find_insert, Table.find_insert]
  split
  · exact congrArg some hcredited
  · exact h k

theorem creditAll_untimed (ys : List (Frame × Attributed)) {s s' : CaptureCxx} (hdevices : s.devices = s'.devices)
    (hmemory : s.memory = s'.memory)
    (h : ∀ k, (s.processes.find k).map CapProcess.untimed = (s'.processes.find k).map CapProcess.untimed) (k : Pid) :
    ((creditAll ys s).processes.find k).map CapProcess.untimed =
      ((creditAll ys s').processes.find k).map CapProcess.untimed := by
  induction ys generalizing s s' with
  | nil => exact h k
  | cons y ys ih =>
    have hset : ∀ t : CaptureCxx, (absorb y.1 y.2 t).devices = t.devices ∧ (absorb y.1 y.2 t).memory = t.memory :=
      fun t => ⟨(congrArg CaptureCxx.devices (settings_settle y.1 (some y.2) t) :),
        (congrArg CaptureCxx.memory (settings_settle y.1 (some y.2) t) :)⟩
    refine ih ?_ ?_ (absorb_untimed y hdevices hmemory h)
    · rw [(hset s).1, (hset s').1, hdevices]
    · rw [(hset s).2, (hset s').2, hmemory]

theorem dispatched_processes (u : UpdateInput) (s : CaptureCxx) :
    (dispatched u s).processes = (creditAll (credits u s) (beginUpdate u s)).processes :=
  (congrArg CaptureCxx.processes (lasting_dispatched u s) :)

theorem Agree.dispatched {s s' : CaptureCxx} (h : Agree s s') (u : UpdateInput) (k : Pid) :
    ((dispatched u s).processes.find k).map CapProcess.untimed =
      ((dispatched u s').processes.find k).map CapProcess.untimed := by
  have hdevices : (beginUpdate u s).devices = (beginUpdate u s').devices := h.devices
  have hmemory : (beginUpdate u s).memory = (beginUpdate u s').memory := h.memory
  rw [dispatched_processes, dispatched_processes, h.credits]
  exact creditAll_untimed (CaptureCxx.credits u s') hdevices hmemory h.processes k

/-! ## One call -/

theorem update_packetData (u : UpdateInput) (s : CaptureCxx) :
    (update u s).2.packetData = writePass s.packetData ((dispatched u s).records.map Prod.snd) :=
  (laterStages_buffer u s (update u s).2 (by simp [laterStages])).1.trans (dispatched_packetData u s)

theorem Agree.update {s s' : CaptureCxx} (h : Agree s s') (u : UpdateInput) :
    Agree (update u s).2 (update u s').2 where
  kept := (update_kept u s).trans (h.kept.trans (update_kept u s').symm)
  handles := (update_handles u s).trans (h.handles.trans (update_handles u s').symm)
  packetData := by
    have hrecords : (CaptureCxx.dispatched u s).records.map Prod.snd =
        (CaptureCxx.dispatched u s').records.map Prod.snd := by
      cases hcb : s.packetCallback with
      | false => rw [dispatched_records_off u s hcb, dispatched_records_off u s' (h.packetCallback ▸ hcb)]
      | true =>
        rw [dispatched_records u s hcb, dispatched_records u s' (h.packetCallback ▸ hcb), h.credits, h.packetData,
          h.captureAll]
    rw [update_packetData, update_packetData, hrecords, h.packetData]
  processes k := by
    by_cases hstat : u.stat = none
    · rw [update_of_stat_none u s hstat, update_of_stat_none u s' hstat]
      exact h.dispatched u k
    · have hmet : Met u s k ↔ Met u s' k := by rw [Met, Met, h.trackedPids]
      have hdropped : Dropped u s k ↔ Dropped u s' k := by rw [Dropped, Dropped, hmet, Left, Left, h.trackedPids]
      have hsize : SizesDiffer u s ↔ SizesDiffer u s' := by rw [SizesDiffer, SizesDiffer, h.trackedPids]
      have hfind := h.dispatched u k
      rw [(afterUpdate u s hstat).processes, (afterUpdate u s' hstat).processes, reconciled_find, reconciled_find,
        hsize, hdropped, hmet]
      split
      · rfl
      · split
        · have hparse : ∀ t : CaptureCxx, CapProcess.untimed ∘
              CapProcess.parse (t.calls + 1) (u.files k) t.memory (newDelta u t) =
                CapProcess.readFiles (u.files k) t.memory ∘ CapProcess.untimed :=
            fun t => funext fun p => CapProcess.parse_untimed _ _ _ _ p
          rw [Option.map_map, Option.map_map, hparse, hparse, ← Option.map_map, ← Option.map_map, hfind, h.memory]
        · exact hfind

theorem Agree.prepare {s s' : CaptureCxx} (h : Agree s s') (i : InitInput) : Agree (prepare i s) (prepare i s') := by
  have hkept : ∀ t : CaptureCxx, (CaptureCxx.prepare i t).kept = (CaptureCxx.prepare i t.kept).kept := by
    intro t
    rw [prepare_eq, prepare_eq]
    rfl
  refine ⟨by rw [hkept, h.kept, ← hkept], ?_, ?_, fun k => ?_⟩
  · rw [prepare_handles, prepare_handles]
    exact h.handles
  · rw [prepare_eq, prepare_eq]
    exact h.packetData
  · rw [prepare_processes, prepare_processes]
    exact h.processes k

theorem Agree.withHandles {s s' : CaptureCxx} (h : Agree s s') (i : InitInput) :
    (withHandles i s).kept = (withHandles i s').kept ∧
      (withHandles i s).handles.map (·.setContext .unspec) = (withHandles i s').handles.map (·.setContext .unspec) := by
  have hprepared := h.prepare i
  have hstrip : exceptPcaps.strip (CaptureCxx.prepare i s) = exceptPcaps.strip (CaptureCxx.prepare i s') :=
    (congrArg exceptPcaps.strip hprepared.kept :)
  have hopen := spared_openHandles i.fliter i.pcap (CaptureCxx.prepare i s').devices 0
  unfold CaptureCxx.withHandles
  rw [hprepared.devices, hopen (CaptureCxx.prepare i s), hopen (CaptureCxx.prepare i s'), hstrip]
  generalize openHandles i.fliter i.pcap 0 (CaptureCxx.prepare i s').devices
    (exceptPcaps.strip (CaptureCxx.prepare i s')) = t
  refine ⟨(congrArg (fun s : CaptureCxx => { s with pcaps := t.pcaps }) hprepared.kept :), ?_⟩
  rw [exceptPcaps, List.map_append, List.map_append, hprepared.handles]

theorem init_closed (i : InitInput) (s : CaptureCxx) (hnil : (prepare i s).devices ≠ []) :
    (init i s).2.kept = (withHandles i s).kept ∧ (init i s).2.handles = (withHandles i s).handles := by
  have hentries := frameOf_foldl_newProcess i.files (snapshot i.proc).keys (surveyed i s)
  rw [init_of_devices i s hnil]
  exact ⟨(congrArg kept hentries :), (congrArg CaptureCxx.handles hentries :)⟩

theorem Agree.init {s s' : CaptureCxx} (h : Agree s s') (i : InitInput) : Agree (init i s).2 (init i s').2 := by
  have hprepared := h.prepare i
  have hdevices := hprepared.devices
  have hprocesses : ∀ k, ((CaptureCxx.init i s).2.processes.find k).map CapProcess.untimed =
      ((CaptureCxx.init i s').2.processes.find k).map CapProcess.untimed := by
    intro k
    rw [init_find, init_find, hdevices]
    split
    · rw [Option.map_some, Option.map_some, CapProcess.parse_untimed, CapProcess.parse_untimed, hprepared.memory]
    · exact h.processes k
  have hpackets : (CaptureCxx.init i s).2.packetData = (CaptureCxx.init i s').2.packetData := by
    rw [(init_buffer i s).1, (init_buffer i s').1, h.packetData]
  by_cases hnil : (CaptureCxx.prepare i s).devices = []
  · rw [init_of_no_device i s hnil, init_of_no_device i s' (hdevices ▸ hnil)]
    exact hprepared
  · obtain ⟨hkept, hhandles⟩ := init_closed i s hnil
    obtain ⟨hkept', hhandles'⟩ := init_closed i s' (hdevices ▸ hnil)
    obtain ⟨hsame, hopened⟩ := h.withHandles i
    refine ⟨?_, ?_, hpackets, hprocesses⟩
    · rw [hkept, hkept', hsame]
    · rw [hhandles, hhandles', hopened]

/-! ## Outages -/

/-- An `Update` that finds no process. -/
def Call.outage : Call → Bool
  | .update u => (snapshot u.proc).keys.isEmpty
  | _ => false

theorem livePids_of_outage {u : UpdateInput} (h : (snapshot u.proc).keys.isEmpty = true) : livePids u = ∅ := by
  unfold livePids Table.keySet
  rw [List.isEmpty_iff.mp h]
  rfl

theorem credits_of_outage {u : UpdateInput} (h : livePids u = ∅) (s : CaptureCxx) : credits u s = [] := by
  refine List.eq_nil_iff_forall_not_mem.mpr fun y hy => ?_
  have hlive := credits_live hy
  rw [h] at hlive
  exact absurd hlive (Finset.notMem_empty _)

/-- Whatever is tracked lies beyond an empty snapshot. -/
theorem not_dropped_of_outage {u : UpdateInput} (h : livePids u = ∅) (s : CaptureCxx) (q : Pid) : ¬ Dropped u s q := by
  rintro ⟨htracked, -, hleft⟩
  refine hleft ⟨htracked, ?_, fun r hr => ?_⟩
  · rw [h]
    exact Finset.empty_subset _
  · rw [h] at hr
    exact absurd hr (Finset.notMem_empty _)

theorem dispatched_of_outage {u : UpdateInput} (h : livePids u = ∅) (s : CaptureCxx) :
    (dispatched u s).processes = s.processes ∧ (dispatched u s).packetData = s.packetData := by
  have hlasting := lasting_dispatched u s
  rw [credits_of_outage h] at hlasting
  exact ⟨(congrArg CaptureCxx.processes hlasting :), (congrArg CaptureCxx.packetData hlasting :)⟩

theorem update_of_outage {u : UpdateInput} (h : livePids u = ∅) (s : CaptureCxx) :
    (update u s).2.processes = s.processes := by
  obtain ⟨hdispatched, -⟩ := dispatched_of_outage h s
  by_cases hstat : u.stat = none
  · rw [update_of_stat_none u s hstat]
    exact hdispatched
  · refine Table.ext_find fun q => ?_
    have hmet : ¬ Met u s q := by
      rintro ⟨hq, -⟩
      rw [h] at hq
      exact absurd hq (Finset.notMem_empty _)
    rw [(afterUpdate u s hstat).processes, reconciled_find, if_neg fun hd => not_dropped_of_outage h s q hd.2,
      if_neg fun hm => hmet hm.2, hdispatched]

theorem Agree.skip {s s' : CaptureCxx} (h : Agree s s') {u : UpdateInput} (hu : livePids u = ∅) :
    Agree (CaptureCxx.update u s).2 s' where
  kept := (update_kept u s).trans h.kept
  handles := (update_handles u s).trans h.handles
  packetData := by
    obtain ⟨hdata, -, -⟩ := laterStages_buffer u s (CaptureCxx.update u s).2 (by simp [laterStages])
    rw [hdata, (dispatched_of_outage hu s).2, h.packetData]
  processes k := by rw [update_of_outage hu s, h.processes k]

/-- In every run, the calls that find no process leave no trace: without them the run ends
with the same devices, handles, packets and processes, up to what is sampled of the cpu.
None of them removes a process, and what they report are the processes from before. -/
theorem outages_leave_no_trace (cs : List Call) :
    Agree (reached cs) (reached (cs.filter fun c => !c.outage)) ∧
      ∀ t ∈ run cs, t.call.outage = true →
        t.after.processes = t.before.processes ∧ (∀ p, ¬ t.after.Removes p) ∧
          ∀ data size, .processCallback .update data size ∈ t.after.log →
            data.take size = t.before.processes.entries.map fun e => processRecord e.2 := by
  constructor
  · refine RunTrace.related_of_filter next Agree _ (fun s s' c _ h => ?_) (fun s s' c hc h => ?_) cs initial initial
      ⟨rfl, rfl, rfl, fun _ => rfl⟩
    · cases c with
      | init i => exact h.init i
      | update u => exact h.update u
      | shutdown => exact h
    · cases c with
      | init i => cases hc
      | update u => exact h.skip (livePids_of_outage (by simpa [Call.outage] using hc))
      | shutdown => cases hc
  · intro t ht hout
    obtain ⟨u, hu⟩ : ∃ u, t.call = .update u := by
      cases hcall : t.call with
      | update u => exact ⟨u, rfl⟩
      | init i => rw [hcall] at hout; cases hout
      | shutdown => rw [hcall] at hout; cases hout
    have hlive : livePids u = ∅ := by
      rw [hu] at hout
      exact livePids_of_outage hout
    rw [after_update ht hu]
    refine ⟨update_of_outage hlive t.before, fun p hp => ?_, fun data size hlog => ?_⟩
    · exact not_dropped_of_outage hlive t.before p ((removes_update_iff u t.before p).mp hp).2.2
    · rw [reported_entries hlog, update_of_outage hlive]

end CaptureCxx
end Capture
