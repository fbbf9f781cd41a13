import Capture.Proof.CallbackStream
import Capture.Proof.CaptureAll
import Capture.Proof.RunInvariant

/-! # What is in the two buffers

`processData` and `packetData` are never cleared. Every `Update` passes over them from the
first slot on, so after any run a slot holds what the last call that got as far as it put
there, and a buffer is as long as the longest pass over it. This is where the records come
from that a callback is handed beyond those of its own call. -/
namespace Capture
open SeparatedText OrderedTable ReusedBuffer

set_option autoImplicit false

/-- The records of a process report. -/
def Event.processRecords : Event → Option (List ProcessRecord)
  | .processCallback .update data size => some (data.take size)
  | _ => none

namespace CaptureCxx

/-- The process records a call reported. -/
def reportedBy (t : RunTrace.Step CaptureCxx Call) : List ProcessRecord :=
  match t.call with
  | .update _ => (t.after.log.filterMap Event.processRecords).flatten
  | _ => []

/-- The packet records a call wrote. -/
def recordedBy (t : RunTrace.Step CaptureCxx Call) : List PacketRecord :=
  match t.call with
  | .update _ => t.after.records.map Prod.snd
  | _ => []

/-! ## The process buffer -/

theorem update_processRecords (u : UpdateInput) (s : CaptureCxx) :
    (update u s).2.log.filterMap Event.processRecords =
      if u.stat ≠ none ∧ s.processCallback then
        [(reconciled u s).processes.entries.map fun e => processRecord e.2]
      else [] := by
  have hframe : (dispatched u s).log.filterMap Event.processRecords = [] := by
    refine List.filterMap_eq_nil_iff.mpr fun e he => ?_
    have hfrom := (afterDispatch u s).log e he
    cases e <;> first | rfl | cases hfrom
  by_cases hstat : u.stat = none
  · rw [update_of_stat_none u s hstat, hframe, if_neg fun h => h.1 hstat]
  · have hsweep : (reconcileEvents u s).filterMap Event.processRecords = [] := by
      refine List.filterMap_eq_nil_iff.mpr fun e he => ?_
      obtain ⟨-, ⟨k, -, hk⟩ | ⟨k, -, rfl⟩⟩ := (mem_reconcileEvents u s e).mp he
      · obtain ⟨-, rfl⟩ | rfl := (mem_removeEvents_iff _ _ _).mp hk <;> rfl
      · rfl
    have hpackets : (packetReport (lastReturn u.dispatch s.handles) (reconciled u s)).filterMap
        Event.processRecords = [] := by
      refine List.filterMap_eq_nil_iff.mpr fun e he => ?_
      rw [((mem_packetReport_iff _ _ e).mp he).2]
      rfl
    obtain ⟨-, -, hcb, -⟩ := reconciled_frame u s
    rw [(afterUpdate u s hstat).log, List.filterMap_append, List.filterMap_append, List.filterMap_append, hframe, hsweep,
      hpackets, List.nil_append, List.nil_append, List.append_nil, processReport, hcb]
    by_cases hon : s.processCallback = true
    · have htake : (reportData (reconciled u s)).take (reconciled u s).processes.size =
          (reconciled u s).processes.entries.map fun e => processRecord e.2 := by
        rw [reportData, List.take_append_of_le_length (by simp [Table.size]), List.take_of_length_le (by simp [Table.size])]
      simp [hon, hstat, Event.processRecords, htake]
    · simp [hon]

theorem dispatched_processData (u : UpdateInput) (s : CaptureCxx) : (dispatched u s).processData = s.processData := by
  obtain ⟨hs, -, hstate⟩ := dispatched_eq u s
  have hset := foldl_feed_settings (delivered u.dispatch 0 s.handles) (beginUpdate u s)
  rw [hstate]
  exact (congrArg CaptureCxx.processData hset :)

theorem reconciled_processData (u : UpdateInput) (s : CaptureCxx) : (reconciled u s).processData = s.processData := by
  have hframe := frameOf_reconcile u.files (timed u s)
  refine (congrArg CaptureCxx.processData hframe :).trans (Eq.trans ?_ (dispatched_processData u s))
  rw [timed_eq]
  rfl

theorem next_processData (s : CaptureCxx) (c : Call) :
    (next s c).processData = writePass s.processData (reportedBy ⟨s, c, next s c⟩) := by
  cases c with
  | init i =>
    rw [reportedBy, writePass_nil]
    exact (congrArg CaptureCxx.processData (init_carried i s) :)
  | update u =>
    show (update u s).2.processData =
      writePass s.processData ((update u s).2.log.filterMap Event.processRecords).flatten
    rw [update_processRecords]
    by_cases hstat : u.stat = none
    · rw [update_of_stat_none u s hstat, if_neg fun h => h.1 hstat, List.flatten_nil, writePass_nil]
      exact dispatched_processData u s
    · obtain ⟨-, -, hcb, -⟩ := reconciled_frame u s
      rw [update_of_stat_some u s hstat, reportPackets_frame]
      show (reportProcesses (reconciled u s)).processData = _
      rw [reportProcesses_eq, hcb]
      by_cases hon : s.processCallback = true
      · rw [if_pos hon, if_pos ⟨hstat, hon⟩]
        show reportData (reconciled u s) = _
        rw [reportData, reconciled_processData, List.flatten_singleton, writePass, List.length_map]
        rfl
      · rw [if_neg hon, if_neg fun h => hon h.2, List.flatten_nil, writePass_nil]
        exact reconciled_processData u s
  | shutdown => exact (writePass_nil s.processData).symm

/-! ## The packet buffer -/

theorem dispatched_packetData (u : UpdateInput) (s : CaptureCxx) :
    (dispatched u s).packetData = writePass s.packetData ((dispatched u s).records.map Prod.snd) := by
  by_cases hcb : s.packetCallback = true
  · rw [((afterDispatch u s).recorded hcb).1.data, writePass, List.length_map]
  · obtain ⟨hs, -, hstate⟩ := dispatched_eq u s
    obtain ⟨hdata, hrecords⟩ := foldl_feed_off (delivered u.dispatch 0 s.handles) (beginUpdate u s)
      (Bool.eq_false_iff.mpr hcb)
    have hnone : (dispatched u s).records = [] := by
      rw [hstate]
      exact hrecords
    rw [hnone, List.map_nil, writePass_nil, hstate]
    exact hdata

theorem next_packetData (s : CaptureCxx) (c : Call) :
    (next s c).packetData = writePass s.packetData (recordedBy ⟨s, c, next s c⟩) := by
  cases c with
  | init i =>
    rw [recordedBy, writePass_nil]
    exact (init_buffer i s).1
  | update u =>
    obtain ⟨hdata, -, -⟩ := laterStages_buffer u s (update u s).2 (by simp [laterStages])
    show (update u s).2.packetData = writePass s.packetData ((update u s).2.records.map Prod.snd)
    rw [hdata, update_records]
    exact dispatched_packetData u s
  | shutdown => exact (writePass_nil s.packetData).symm

/-! ## Every run -/

theorem reached_processData (cs : List Call) : (reached cs).processData = ((run cs).map reportedBy).foldl writePass [] :=
  RunTrace.foldl_of_steps next CaptureCxx.processData reportedBy writePass next_processData initial cs

theorem reached_packetData (cs : List Call) : (reached cs).packetData = ((run cs).map recordedBy).foldl writePass [] :=
  RunTrace.foldl_of_steps next CaptureCxx.packetData recordedBy writePass next_packetData initial cs

/-- After every run slot `i` of either buffer holds the record the last call wrote there
that wrote more than `i` records, and a buffer has as many slots as any call wrote records. -/
theorem slots_hold_last_write (cs : List Call) :
    (∀ i : ℕ, (reached cs).processData[i]? = (run cs).reverse.findSome? fun t => (reportedBy t)[i]?) ∧
      (reached cs).processData.length = ((run cs).map fun t => (reportedBy t).length).foldl max 0 ∧
      (∀ i : ℕ, (reached cs).packetData[i]? = (run cs).reverse.findSome? fun t => (recordedBy t)[i]?) ∧
      (reached cs).packetData.length = ((run cs).map fun t => (recordedBy t).length).foldl max 0 := by
  rw [reached_processData, reached_packetData]
  refine ⟨fun i => ?_, ?_, fun i => ?_, ?_⟩
  · rw [getElem?_foldl_writePass, ← List.map_reverse, List.findSome?_map, List.getElem?_nil, Option.or_none]
    rfl
  · rw [length_foldl_writePass, List.map_map]
    rfl
  · rw [getElem?_foldl_writePass, ← List.map_reverse, List.findSome?_map, List.getElem?_nil, Option.or_none]
    rfl
  · rw [length_foldl_writePass, List.map_map]
    rfl

end CaptureCxx
end Capture
