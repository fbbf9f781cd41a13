import Capture.Model.ProcessSlots
import Capture.Proof.RunInvariant

/-! # The process report

What the loops of the report leave in memory reads as the records of the table, in order:
a slot that is overwritten ends up as a new one would (`assign_memset`), so the callback is
handed a snapshot of the table whatever was in the buffer (`process_report_snapshot`). -/
namespace Capture
open SeparatedText FormattedScan OrderedTable ReusedBuffer

set_option autoImplicit false

namespace ProcessSlot

theorem memset_eq (slot : ProcessSlot) : slot.memset = zeroed := by
  unfold memset
  rw [CharArray.memset_eq, CharArray.memset_eq, CharArray.memset_eq, CharArray.memset_eq]
  rfl

theorem assign_memset (p : CapProcess) (slot : ProcessSlot) : slot.memset.assign p = zeroed.assign p := by
  rw [memset_eq]

/-- The last character of each array is NUL. -/
structure Terminated (slot : ProcessSlot) : Prop where
  name : slot.name.chars[captureCommanSize - 1]? = some '\x00'
  cmdline : slot.cmdline.chars[captureCmdlineSize - 1]? = some '\x00'
  user : slot.user.chars[captureCommanSize - 1]? = some '\x00'
  group : slot.group.chars[captureCommanSize - 1]? = some '\x00'

theorem terminated_assign (p : CapProcess) : (zeroed.assign p).Terminated := by
  have hcomman : captureCommanSize - 1 < captureCommanSize := by decide
  have hcmdline : captureCmdlineSize - 1 < captureCmdlineSize := by decide
  exact ⟨CharArray.strncpy_zeroed_tail hcomman _ _ le_rfl hcomman,
    CharArray.strncpy_zeroed_tail hcmdline _ _ le_rfl hcmdline,
    CharArray.strncpy_zeroed_tail hcomman _ _ le_rfl hcomman,
    CharArray.strncpy_zeroed_tail hcomman _ _ le_rfl hcomman⟩

theorem read_assign (p : CapProcess) : (zeroed.assign p).read = CaptureCxx.processRecord p := by
  have hcomman : captureCommanSize - 1 < captureCommanSize := by decide
  have hcmdline : captureCmdlineSize - 1 < captureCmdlineSize := by decide
  simp only [read, assign, zeroed, CharArray.text_strncpy_zeroed hcomman, CharArray.text_strncpy_zeroed hcmdline]
  rfl

end ProcessSlot

namespace CaptureCxx

theorem reportSlots_eq (processes : Table Pid CapProcess) (data : List ProcessSlot) :
    reportSlots processes data =
      processes.entries.map (fun e => ProcessSlot.zeroed.assign e.2) ++ data.drop processes.size := by
  rw [reportSlots, refill_eq _ _ fun p slot => slot.assign_memset p, List.map_map, List.length_map]
  rfl

/-- The loops in memory compute the buffer of the model. -/
theorem reportSlots_read (s : CaptureCxx) (raw : List ProcessSlot) (h : raw.map ProcessSlot.read = s.processData)
    (hcb : s.processCallback = true) :
    (reportSlots s.processes raw).map ProcessSlot.read = (reportProcesses s).processData := by
  have hreport : (reportProcesses s).processData = reportData s := by
    rw [reportProcesses_eq, if_pos hcb]
    rfl
  rw [hreport, reportData, reportSlots_eq, List.map_append, List.map_drop, h, List.map_map]
  exact congrArg (· ++ _) (List.map_congr_left fun e _ => ProcessSlot.read_assign e.2)

/-- What a report hands out: the number of processes, and first in the buffer their records. -/
structure SnapshotOf (processes : Table Pid CapProcess) (data : List ProcessRecord) (size : ℕ) : Prop where
  size_eq : size = processes.size
  enough : size ≤ data.length
  records : ∀ (i : ℕ) (e : Pid × CapProcess), processes.entries[i]? = some e → data[i]? = some (processRecord e.2)

theorem snapshotOf_reportData (s : CaptureCxx) : SnapshotOf s.processes (reportData s) s.processes.size := by
  refine ⟨rfl, ?_, fun i e he => ?_⟩
  · rw [reportData, List.length_append, List.length_map]
    exact Nat.le_add_right _ _
  · have hi : i < s.processes.entries.length := (List.getElem?_eq_some_iff.mp he).1
    rw [reportData, List.getElem?_append_left (by rw [List.length_map]; exact hi), List.getElem?_map, he]
    rfl

theorem update_snapshot (u : UpdateInput) (s : CaptureCxx) (data : List ProcessRecord) (size : ℕ)
    (h : .processCallback .update data size ∈ (update u s).2.log) :
    SnapshotOf (update u s).2.processes data size := by
  by_cases hstat : u.stat = none
  · rw [update_of_stat_none u s hstat] at h
    cases (afterDispatch u s).log _ h
  · rw [(afterUpdate u s hstat).processes]
    rcases (mem_log_update_iff u s hstat _).mp h with h | h | h | h
    · cases (afterDispatch u s).log _ h
    · obtain ⟨-, ⟨k, -, hk⟩ | ⟨k, -, hk⟩⟩ := (mem_reconcileEvents u s _).mp h
      · obtain ⟨-, hk⟩ | hk := (mem_removeEvents_iff _ _ _).mp hk <;> cases hk
      · cases hk
    · cases ((mem_processReport_iff _ _).mp h).2
      exact snapshotOf_reportData (reconciled u s)
    · cases ((mem_packetReport_iff _ _ _).mp h).2

/-- The report is a snapshot: both loops build the same record of a process, whatever the
slot held; the buffer in memory is the one of the model, for any contents; and in every
run each report hands out the table as it is then. -/
theorem process_report_snapshot :
    (∀ p (slot : ProcessSlot), slot.memset.assign p = ProcessSlot.zeroed.assign p) ∧
      (∀ p, (ProcessSlot.zeroed.assign p).Terminated ∧ (ProcessSlot.zeroed.assign p).read = processRecord p) ∧
      (∀ s raw, s.processCallback = true → raw.map ProcessSlot.read = s.processData →
        (reportSlots s.processes raw).map ProcessSlot.read = (reportProcesses s).processData ∧
          (reportSlots s.processes raw).take s.processes.size =
            s.processes.entries.map fun e => ProcessSlot.zeroed.assign e.2) ∧
      ∀ cs, ∀ t ∈ run cs, ∀ u, t.call = .update u → ∀ data size,
        .processCallback .update data size ∈ t.after.log → SnapshotOf t.after.processes data size := by
  refine ⟨ProcessSlot.assign_memset, fun p => ⟨ProcessSlot.terminated_assign p, ProcessSlot.read_assign p⟩,
    fun s raw hcb hraw => ⟨reportSlots_read s raw hraw hcb, ?_⟩, fun cs t ht u hu data size h => ?_⟩
  · rw [reportSlots_eq, List.take_left' (by simp [Table.size])]
  · rw [after_update ht hu] at h ⊢
    exact update_snapshot u t.before data size h

end CaptureCxx
end Capture
