import Capture.Foundations.ReusedBuffer
import Capture.Proof.Reconcile

/-! # The effect of one `Update`

An `Update` runs in stages: snapshot and refresh, dispatch, system ticks, reconciliation,
the two reports. Two finite sets decide what the reconciliation does: `livePids`, the
snapshot, and `trackedPids`, the keys of the process table once the frames of the call
have been handled. Both are functions of the state before the call and of its input, and
so is everything else the results about `Update` are stated in. -/
namespace Capture
open SeparatedText FormattedScan OrderedTable PrefixSweep ReusedBuffer

set_option autoImplicit false

namespace CaptureCxx

/-! ## What an `Update` is determined by -/

def livePids (u : UpdateInput) : Finset Pid := (snapshot u.proc).keySet

theorem mem_snapshot_keys (proc : Option (List ProcEntry)) (k : Pid) :
    k ∈ (snapshot proc).keys ↔ k ∈ (proc.getD []).filterMap entryPid := by
  have hfold : snapshot proc = (((proc.getD []).filterMap entryPid).map fun p => (p, ())).foldl
      (fun t e => t.insert e.1 e.2) Table.empty := by
    rw [List.foldl_map]
    rfl
  rw [hfold, Table.mem_keys_foldl_insert, List.map_map]
  simp [Table.keys, Table.empty]

def refreshedInodes (u : UpdateInput) (s : CaptureCxx) : CapInodeHelper :=
  (CapInodeHelper.refresh s.devices (snapshot u.proc).keys u.refresh).2

/-- The frames of the call that resolve to a process, in the order they are handled. -/
def credits (u : UpdateInput) (s : CaptureCxx) : List (Frame × Attributed) :=
  attributions s.devices (refreshedInodes u s) (delivered u.dispatch 0 s.handles)

/-- The keys of the process table when the reconciliation begins. -/
def trackedPids (u : UpdateInput) (s : CaptureCxx) : Finset Pid :=
  s.processes.keySet ∪ ((credits u s).map (·.2.pid)).toFinset

def cpuReading (u : UpdateInput) : Option UInt64 := u.stat.bind (·.findSome? cpuTicks)

def newDelta (u : UpdateInput) (s : CaptureCxx) : Interval :=
  match cpuReading u with
  | none => s.deltaCpu
  | some now => ⟨s.cpu, ⟨now, some (s.calls + 1)⟩⟩

/-! ## The stages -/

def dispatched (u : UpdateInput) (s : CaptureCxx) : CaptureCxx := (dispatchAll u.dispatch (beginUpdate u s)).2

def timed (u : UpdateInput) (s : CaptureCxx) : CaptureCxx := (getCpuTotal u.stat (dispatched u s)).2

def reconciled (u : UpdateInput) (s : CaptureCxx) : CaptureCxx := reconcile u.files (timed u s)

structure AfterDispatch (u : UpdateInput) (s s' : CaptureCxx) : Prop where
  pids : s'.pids = snapshot u.proc
  calls : s'.calls = s.calls + 1
  memory : s'.memory = s.memory
  cpu : s'.cpu = s.cpu
  deltaCpu : s'.deltaCpu = s.deltaCpu
  sampled : s'.sampled = s.sampled
  processCallback : s'.processCallback = s.processCallback
  packetCallback : s'.packetCallback = s.packetCallback
  keySet : s'.processes.keySet = trackedPids u s
  origin : ∀ k q, s'.processes.find k = some q → Origin (beginUpdate u s) k q
  log : ∀ e ∈ s'.log, e.FromFrame s.memory s.deltaCpu
  recorded : s.packetCallback = true → Recorded s.packetData s' ∧ s'.records.length = (credits u s).length

theorem dispatched_eq (u : UpdateInput) (s : CaptureCxx) :
    ∃ hs, hs.map (·.setContext .unspec) = s.handles.map (·.setContext .unspec) ∧
      dispatched u s = { (delivered u.dispatch 0 s.handles).foldl feed (beginUpdate u s) with handles := hs } :=
  (dispatchAll_eq u.dispatch (beginUpdate u s)).2

theorem afterDispatch (u : UpdateInput) (s : CaptureCxx) : AfterDispatch u s (dispatched u s) := by
  obtain ⟨hs, -, hstate⟩ := dispatched_eq u s
  have hset := foldl_feed_settings (delivered u.dispatch 0 s.handles) (beginUpdate u s)
  have hlog := foldl_feed_log (delivered u.dispatch 0 s.handles) (beginUpdate u s)
  have hstart : Recorded s.packetData (beginUpdate u s) := ⟨rfl, rfl, rfl⟩
  rw [hstate]
  exact
    { pids := (congrArg CaptureCxx.pids hset :)
      calls := (congrArg CaptureCxx.calls hset :)
      memory := (congrArg CaptureCxx.memory hset :)
      cpu := (congrArg CaptureCxx.cpu hset :)
      deltaCpu := (congrArg CaptureCxx.deltaCpu hset :)
      sampled := (congrArg CaptureCxx.sampled hset :)
      processCallback := (congrArg CaptureCxx.processCallback hset :)
      packetCallback := (congrArg CaptureCxx.packetCallback hset :)
      keySet := foldl_feed_keySet (delivered u.dispatch 0 s.handles) (beginUpdate u s)
      origin := foldl_feed_origin (delivered u.dispatch 0 s.handles) (beginUpdate u s)
      log := by
        obtain ⟨es, hes, hmem⟩ := hlog
        intro e he
        have he' : e ∈ ((delivered u.dispatch 0 s.handles).foldl feed (beginUpdate u s)).log := he
        rw [hes] at he'
        exact hmem e he'
      recorded := by
        intro hcb
        obtain ⟨hr, hlen⟩ := foldl_feed_recorded (delivered u.dispatch 0 s.handles) _ hstart hcb
        refine ⟨⟨hr.idx, hr.slots, hr.data⟩, hlen.trans ?_⟩
        exact Nat.zero_add _ }

/-! ## The reconciliation of the call -/

/-- The two sets have different sizes, which is when the reconciliation runs. -/
def SizesDiffer (u : UpdateInput) (s : CaptureCxx) : Prop := (livePids u).card ≠ (trackedPids u s).card

/-- The pids the two cursors meet at: no pid of the snapshot up to them is untracked. -/
def Met (u : UpdateInput) (s : CaptureCxx) (q : Pid) : Prop :=
  q ∈ livePids u ∧ ∀ r ∈ livePids u, r ≤ q → r ∈ trackedPids u s

/-- The pids beyond the end of a snapshot that was met in full. -/
def Left (u : UpdateInput) (s : CaptureCxx) (q : Pid) : Prop :=
  q ∈ trackedPids u s ∧ livePids u ⊆ trackedPids u s ∧ ∀ r ∈ livePids u, r < q

def Dropped (u : UpdateInput) (s : CaptureCxx) (q : Pid) : Prop :=
  q ∈ trackedPids u s ∧ ¬ Met u s q ∧ ¬ Left u s q

theorem timed_eq (u : UpdateInput) (s : CaptureCxx) :
    timed u s =
      { dispatched u s with
        deltaCpu := newDelta u s
        cpu := ((cpuReading u).map fun now => ⟨now, some (s.calls + 1)⟩).getD s.cpu } := by
  have hd := afterDispatch u s
  unfold timed getCpuTotal newDelta cpuReading
  cases u.stat with
  | none =>
    dsimp only [Option.bind_none, Option.map_none, Option.getD_none]
    rw [← hd.cpu, ← hd.deltaCpu]
  | some lines =>
    dsimp only [Option.bind_some]
    cases lines.findSome? cpuTicks with
    | none =>
      dsimp only [Option.map_none, Option.getD_none]
      rw [← hd.cpu, ← hd.deltaCpu]
    | some now =>
      dsimp only [Option.map_some, Option.getD_some]
      rw [hd.cpu, hd.calls]

theorem timed_frame (u : UpdateInput) (s : CaptureCxx) :
    (timed u s).processes = (dispatched u s).processes ∧ (timed u s).log = (dispatched u s).log ∧
      (timed u s).pids = snapshot u.proc ∧ (timed u s).calls = s.calls + 1 ∧ (timed u s).memory = s.memory ∧
      (timed u s).processCallback = s.processCallback ∧ (timed u s).packetCallback = s.packetCallback ∧
      (timed u s).packetData = (dispatched u s).packetData ∧ (timed u s).deltaCpu = newDelta u s := by
  have hd := afterDispatch u s
  rw [timed_eq]
  exact ⟨rfl, rfl, hd.pids, hd.calls, hd.memory, hd.processCallback, hd.packetCallback, rfl, rfl⟩

theorem timed_keys (u : UpdateInput) (s : CaptureCxx) (q : Pid) :
    q ∈ (timed u s).processes.keys ↔ q ∈ trackedPids u s := by
  rw [(timed_frame u s).1, ← Table.mem_keySet, (afterDispatch u s).keySet]

theorem timed_pids (u : UpdateInput) (s : CaptureCxx) (q : Pid) :
    q ∈ (timed u s).pids.keys ↔ q ∈ livePids u := by
  rw [(timed_frame u s).2.2.1, livePids, Table.mem_keySet]

theorem timed_sizes (u : UpdateInput) (s : CaptureCxx) :
    (timed u s).pids.size ≠ (timed u s).processes.size ↔ SizesDiffer u s := by
  have hp : (timed u s).pids.size = (livePids u).card := by
    rw [(timed_frame u s).2.2.1, ← Table.card_keySet, livePids]
  have hk : (timed u s).processes.size = (trackedPids u s).card := by
    rw [(timed_frame u s).1, ← Table.card_keySet, (afterDispatch u s).keySet]
  rw [hp, hk, SizesDiffer]

theorem mem_met_keys (u : UpdateInput) (s : CaptureCxx) (q : Pid) :
    q ∈ met (timed u s).pids.keys (timed u s).processes.keys ↔ Met u s q := by
  rw [mem_met_iff _ _ (Table.keys_sorted _) (Table.keys_sorted _), Met]
  simp only [timed_pids, timed_keys]

theorem mem_left_keys (u : UpdateInput) (s : CaptureCxx) (q : Pid) :
    q ∈ left (timed u s).pids.keys (timed u s).processes.keys ↔ Left u s q := by
  rw [mem_left_iff _ _ (Table.keys_sorted _) (Table.keys_sorted _), Left]
  simp only [timed_pids, timed_keys, Finset.subset_iff]

theorem mem_dropped_keys (u : UpdateInput) (s : CaptureCxx) (q : Pid) :
    q ∈ dropped (timed u s).pids.keys (timed u s).processes.keys ↔ Dropped u s q := by
  rw [mem_dropped_iff _ _ (Table.keys_sorted _), mem_met_keys, mem_left_keys, timed_keys, Dropped]

open Classical in
theorem reconciled_find (u : UpdateInput) (s : CaptureCxx) (q : Pid) :
    (reconciled u s).processes.find q =
      if SizesDiffer u s ∧ Dropped u s q then none
      else if SizesDiffer u s ∧ Met u s q then
        ((dispatched u s).processes.find q).map
          (CapProcess.parse (s.calls + 1) (u.files q) s.memory (newDelta u s))
      else (dispatched u s).processes.find q := by
  obtain ⟨hproc, -, -, hcalls, hmem, -, -, -, hdelta⟩ := timed_frame u s
  unfold reconciled reconcile
  by_cases hsize : SizesDiffer u s
  · rw [if_pos ((timed_sizes u s).mpr hsize), reconcileLoop_find _ _ _ (Table.keys_nodup _)]
    simp only [mem_dropped_keys, mem_met_keys, hsize, true_and]
    unfold reparsed
    rw [hcalls, hmem, hdelta, hproc]
  · rw [if_neg (fun h => hsize ((timed_sizes u s).mp h)), hproc]
    simp [hsize]

theorem reconciled_keys (u : UpdateInput) (s : CaptureCxx) (q : Pid) :
    q ∈ (reconciled u s).processes.keys ↔ q ∈ trackedPids u s ∧ ¬ (SizesDiffer u s ∧ Dropped u s q) := by
  have hkeys : q ∈ trackedPids u s ↔ ∃ e, (dispatched u s).processes.find q = some e := by
    rw [← timed_keys, (timed_frame u s).1, Table.find_isSome_iff]
  rw [← Table.find_isSome_iff, reconciled_find, hkeys]
  split
  · next h => simp [h]
  · next h =>
    split <;> simp [h]

def reconcileEvents (u : UpdateInput) (s : CaptureCxx) : List Event :=
  if (timed u s).pids.size ≠ (timed u s).processes.size then
    sweepEvents s.processCallback s.memory (newDelta u s) (timed u s).pids.keys (timed u s).processes.keys
  else []

theorem reconciled_log (u : UpdateInput) (s : CaptureCxx) :
    (reconciled u s).log = (dispatched u s).log ++ reconcileEvents u s := by
  obtain ⟨-, hlog, -, -, hmem, hcb, -, -, hdelta⟩ := timed_frame u s
  unfold reconciled reconcile reconcileEvents
  split
  · rw [reconcileLoop_log _ _ _ (Table.keys_nodup _) _ (fun k hk => hk), hlog, hcb, hmem, hdelta]
  · rw [hlog, List.append_nil]

theorem mem_reconcileEvents (u : UpdateInput) (s : CaptureCxx) (e : Event) :
    e ∈ reconcileEvents u s ↔ SizesDiffer u s ∧
      ((∃ k, Dropped u s k ∧ e ∈ removeEvents s.processCallback k) ∨
        ∃ k, Met u s k ∧ e = .parse k s.memory (newDelta u s)) := by
  unfold reconcileEvents
  split
  · next h =>
    rw [mem_sweepEvents]
    simp only [mem_dropped_keys, mem_met_keys, (timed_sizes u s).mp h, true_and]
  · next h =>
    have hsize : ¬ SizesDiffer u s := fun hd => h ((timed_sizes u s).mpr hd)
    simp [hsize]

/-! ## The whole call -/

theorem update_of_stat_none (u : UpdateInput) (s : CaptureCxx) (h : u.stat = none) :
    update u s = (capProcessOpen, dispatched u s) := by
  simp [update, getCpuTotal, h, dispatched, capProcessOpen]

theorem update_of_stat_some (u : UpdateInput) (s : CaptureCxx) (h : u.stat ≠ none) :
    update u s = (0, sample (reportPackets (lastReturn u.dispatch s.handles)
      (reportProcesses (reconciled u s)))) := by
  obtain ⟨lines, hlines⟩ := Option.ne_none_iff_exists'.mp h
  have hcode : (getCpuTotal u.stat (dispatched u s)).1 = 0 := by
    rw [hlines, getCpuTotal]
    cases lines.findSome? cpuTicks <;> rfl
  have hret : (dispatchAll u.dispatch (beginUpdate u s)).1 = lastReturn u.dispatch s.handles :=
    (dispatchAll_eq u.dispatch (beginUpdate u s)).1
  unfold update
  dsimp only
  rw [hret]
  exact if_neg (fun hne => hne hcode)

/-- An `Update` returns 0 exactly when it can open `/proc/stat`. -/
theorem update_fst (u : UpdateInput) (s : CaptureCxx) : (update u s).1 = 0 ↔ u.stat ≠ none := by
  constructor
  · intro h hnone
    rw [update_of_stat_none u s hnone] at h
    cases h
  · intro h
    rw [update_of_stat_some u s h]

/-! ## The reports -/

theorem reuseSlots_eq (ps : List CapProcess) (idx : ℕ) (data : List ProcessRecord) :
    reuseSlots idx ps data = overwrite (fun p _ => processRecord p) idx ps data := by
  induction ps generalizing idx data with
  | nil => rfl
  | cons p ps ih =>
    by_cases hidx : idx < data.length
    · simp [reuseSlots, overwrite, hidx, ih]
    · simp [reuseSlots, overwrite, hidx]

/-- The records of the processes in ascending order, then what is left of the old ones. -/
def reportData (s : CaptureCxx) : List ProcessRecord :=
  s.processes.entries.map (fun e => processRecord e.2) ++ s.processData.drop s.processes.size

theorem reportProcesses_eq (s : CaptureCxx) :
    reportProcesses s = if s.processCallback then
      emit (.processCallback .update (reportData s) s.processes.size) { s with processData := reportData s }
    else s := by
  have hdata : (if (reuseSlots 0 (s.processes.entries.map Prod.snd) s.processData).2.length < s.processes.size then
      (reuseSlots 0 (s.processes.entries.map Prod.snd) s.processData).2 ++
        (reuseSlots 0 (s.processes.entries.map Prod.snd) s.processData).1.map processRecord
      else (reuseSlots 0 (s.processes.entries.map Prod.snd) s.processData).2) = reportData s := by
    have hrefill := refill_eq (fun p _ => processRecord p) processRecord (fun _ _ => rfl)
      (s.processes.entries.map Prod.snd) s.processData
    have hsize : s.processes.size = (s.processes.entries.map Prod.snd).length := by simp [Table.size]
    rw [reuseSlots_eq, reportData, hsize, ← Function.comp_def processRecord, ← List.map_map]
    exact hrefill
  unfold reportProcesses
  dsimp only
  rw [hdata]

def processReport (s : CaptureCxx) : List Event :=
  if s.processCallback then [.processCallback .update (reportData s) s.processes.size] else []

def packetReport (ret : ℤ) (s : CaptureCxx) : List Event :=
  if s.packetCallback ∧ 0 < ret ∧ s.packetData ≠ [] then [.packetCallback s.packetData ret.toNat] else []

theorem mem_processReport_iff (s : CaptureCxx) (e : Event) :
    e ∈ processReport s ↔
      s.processCallback = true ∧ e = .processCallback .update (reportData s) s.processes.size := by
  unfold processReport
  split
  · next h => simp [h]
  · next h => simp [h]

theorem mem_packetReport_iff (ret : ℤ) (s : CaptureCxx) (e : Event) :
    e ∈ packetReport ret s ↔
      (s.packetCallback ∧ 0 < ret ∧ s.packetData ≠ []) ∧ e = .packetCallback s.packetData ret.toNat := by
  unfold packetReport
  split
  · next h => simp [h]
  · next h => simp [h]

theorem reportProcesses_frame (s : CaptureCxx) :
    ∃ data, reportProcesses s = { s with processData := data, log := s.log ++ processReport s } := by
  rw [reportProcesses_eq]
  unfold processReport
  split
  · exact ⟨reportData s, rfl⟩
  · exact ⟨s.processData, by simp⟩

theorem reportPackets_frame (ret : ℤ) (s : CaptureCxx) :
    reportPackets ret s = { s with log := s.log ++ packetReport ret s } := by
  unfold reportPackets packetReport
  split
  · rfl
  · simp

theorem reconciled_frame (u : UpdateInput) (s : CaptureCxx) :
    (reconciled u s).pids = snapshot u.proc ∧ (reconciled u s).calls = s.calls + 1 ∧
      (reconciled u s).processCallback = s.processCallback ∧ (reconciled u s).packetCallback = s.packetCallback ∧
      (reconciled u s).packetData = (dispatched u s).packetData ∧ (reconciled u s).deltaCpu = newDelta u s ∧
      (reconciled u s).cpu = (timed u s).cpu := by
  have hframe := frameOf_reconcile u.files (timed u s)
  obtain ⟨-, -, hpids, hcalls, -, hcb, hpcb, hdata, hdelta⟩ := timed_frame u s
  exact ⟨(congrArg CaptureCxx.pids hframe :).trans hpids, (congrArg CaptureCxx.calls hframe :).trans hcalls,
    (congrArg CaptureCxx.processCallback hframe :).trans hcb, (congrArg CaptureCxx.packetCallback hframe :).trans hpcb,
    (congrArg CaptureCxx.packetData hframe :).trans hdata, (congrArg CaptureCxx.deltaCpu hframe :).trans hdelta,
    (congrArg CaptureCxx.cpu hframe :)⟩

structure AfterUpdate (u : UpdateInput) (s s' : CaptureCxx) : Prop where
  pids : s'.pids = snapshot u.proc
  calls : s'.calls = s.calls + 1
  cpu : s'.cpu = (timed u s).cpu
  deltaCpu : s'.deltaCpu = newDelta u s
  sampled : s'.sampled = some (s.calls + 1)
  processes : s'.processes = (reconciled u s).processes
  log : s'.log = (dispatched u s).log ++ (reconcileEvents u s ++
    (processReport (reconciled u s) ++ packetReport (lastReturn u.dispatch s.handles) (reconciled u s)))

theorem afterUpdate (u : UpdateInput) (s : CaptureCxx) (h : u.stat ≠ none) : AfterUpdate u s (update u s).2 := by
  obtain ⟨hpids, hcalls, -, -, -, hdelta, hcpu⟩ := reconciled_frame u s
  obtain ⟨data, hdata⟩ := reportProcesses_frame (reconciled u s)
  rw [update_of_stat_some u s h, reportPackets_frame, hdata]
  refine ⟨hpids, hcalls, hcpu, hdelta, congrArg some hcalls, rfl, ?_⟩
  show (reconciled u s).log ++ processReport (reconciled u s) ++
    packetReport (lastReturn u.dispatch s.handles) (reconciled u s) = _
  rw [reconciled_log, List.append_assoc, List.append_assoc]

/-- Every event of a call that returns 0 belongs to one of its four stages. -/
theorem mem_log_update_iff (u : UpdateInput) (s : CaptureCxx) (h : u.stat ≠ none) (e : Event) :
    e ∈ (update u s).2.log ↔ e ∈ (dispatched u s).log ∨ e ∈ reconcileEvents u s ∨
      e ∈ processReport (reconciled u s) ∨
      e ∈ packetReport (lastReturn u.dispatch s.handles) (reconciled u s) := by
  rw [(afterUpdate u s h).log, List.mem_append, List.mem_append, List.mem_append]

/-! ## What an `Update` leaves alone -/

/-- The state without what the stages after the dispatch loop assign. -/
def undisturbed (s : CaptureCxx) : CaptureCxx :=
  { s with
    processes := Table.empty, processData := [], cpu := Sample.initial, deltaCpu := Interval.initial
    sampled := none, log := [] }

theorem undisturbed_timed (u : UpdateInput) (s : CaptureCxx) : (timed u s).undisturbed = (dispatched u s).undisturbed := by
  rw [timed_eq]
  rfl

theorem undisturbed_reconciled (u : UpdateInput) (s : CaptureCxx) :
    (reconciled u s).undisturbed = (dispatched u s).undisturbed :=
  (congrArg undisturbed (frameOf_reconcile u.files (timed u s)) :).trans (undisturbed_timed u s)

theorem undisturbed_reported (u : UpdateInput) (s : CaptureCxx) :
    (reportProcesses (reconciled u s)).undisturbed = (dispatched u s).undisturbed := by
  obtain ⟨data, hdata⟩ := reportProcesses_frame (reconciled u s)
  rw [hdata]
  exact undisturbed_reconciled u s

theorem undisturbed_update (u : UpdateInput) (s : CaptureCxx) :
    (update u s).2.undisturbed = (dispatched u s).undisturbed := by
  by_cases hstat : u.stat = none
  · rw [update_of_stat_none u s hstat]
  · rw [update_of_stat_some u s hstat, reportPackets_frame]
    exact undisturbed_reported u s

/-- The fields no stage of an `Update` assigns. -/
def kept (s : CaptureCxx) : CaptureCxx :=
  { s with
    handles := [], pids := Table.empty, processes := Table.empty, processData := [], packetData := []
    packetIdx := 0, cpu := Sample.initial, deltaCpu := Interval.initial, inodes := {}, calls := 0
    sampled := none, log := [] }

theorem update_kept (u : UpdateInput) (s : CaptureCxx) : (update u s).2.kept = s.kept := by
  obtain ⟨hs, -, hstate⟩ := dispatched_eq u s
  have hset := foldl_feed_settings (delivered u.dispatch 0 s.handles) (beginUpdate u s)
  have hdispatched : (dispatched u s).kept = s.kept := by
    rw [hstate]
    exact (congrArg kept hset :)
  exact (congrArg kept (undisturbed_update u s) :).trans hdispatched

end CaptureCxx
end Capture
