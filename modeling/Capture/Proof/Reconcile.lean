import Capture.Proof.DispatchRun

/-! # The reconciliation

The loop of `Update` over the pid snapshot and the process table is the two-cursor sweep
of `PrefixSweep`: a key is erased when it is dropped, parsed when it is met, and left as
it is otherwise (`reconcileLoop_find`). The log gets the sweep's events in the order of
the keys (`reconcileLoop_log`). -/
namespace Capture
open OrderedTable PrefixSweep

set_option autoImplicit false

namespace CaptureCxx

/-! ## What the loop leaves alone -/

/-- The state without the process table and the log. -/
def frameOf (s : CaptureCxx) : CaptureCxx := { s with processes := Table.empty, log := [] }

theorem frameOf_removeProcess (pid : Pid) (s : CaptureCxx) : (removeProcess pid s).frameOf = s.frameOf := by
  unfold removeProcess
  dsimp only
  split <;> rfl

theorem frameOf_parseProcess (files : Pid → ProcFiles) (pid : Pid) (s : CaptureCxx) :
    (parseProcess files pid s).frameOf = s.frameOf := by
  unfold parseProcess
  split <;> rfl

theorem frameOf_reconcileLoop (files : Pid → ProcFiles) (ps ks : List Pid) (s : CaptureCxx) :
    (reconcileLoop files ps ks s).frameOf = s.frameOf := by
  induction ks generalizing ps s with
  | nil => cases ps <;> rfl
  | cons k ks ih =>
    cases ps with
    | nil => rfl
    | cons p ps =>
      rw [reconcileLoop]
      split
      · exact (ih (p :: ps) _).trans (frameOf_removeProcess k s)
      · exact (ih ps _).trans (frameOf_parseProcess files k s)

theorem frameOf_reconcile (files : Pid → ProcFiles) (s : CaptureCxx) : (reconcile files s).frameOf = s.frameOf := by
  unfold reconcile
  split
  · exact frameOf_reconcileLoop files _ _ s
  · rfl

/-! ## The table -/

theorem removeProcess_processes (pid : Pid) (s : CaptureCxx) :
    (removeProcess pid s).processes = s.processes.erase pid := by
  unfold removeProcess
  dsimp only
  split <;> rfl

def reparsed (files : Pid → ProcFiles) (s : CaptureCxx) (k : Pid) (p : CapProcess) : CapProcess :=
  CapProcess.parse s.calls (files k) s.memory s.deltaCpu p

theorem parseProcess_find (files : Pid → ProcFiles) (pid : Pid) (s : CaptureCxx) (q : Pid) :
    (parseProcess files pid s).processes.find q =
      if q = pid then (s.processes.find q).map (reparsed files s q) else s.processes.find q := by
  unfold parseProcess
  cases h : s.processes.find pid with
  | none =>
    by_cases hq : q = pid
    · subst hq
      simp [h]
    · simp [hq]
  | some ptr =>
    by_cases hq : q = pid
    · subst hq
      simp [h, emit, Table.find_insert, reparsed]
    · simp [hq, emit, Table.find_insert]

theorem reparsed_congr (files : Pid → ProcFiles) {s s' : CaptureCxx} (h : s'.frameOf = s.frameOf) :
    reparsed files s' = reparsed files s := by
  have hcalls : s'.calls = s.calls := (congrArg CaptureCxx.calls h :)
  have hmem : s'.memory = s.memory := (congrArg CaptureCxx.memory h :)
  have hcpu : s'.deltaCpu = s.deltaCpu := (congrArg CaptureCxx.deltaCpu h :)
  funext k p
  rw [reparsed, reparsed, hcalls, hmem, hcpu]

theorem reconcileLoop_find (files : Pid → ProcFiles) (ps ks : List Pid) (hk : ks.Nodup) (s : CaptureCxx) (q : Pid) :
    (reconcileLoop files ps ks s).processes.find q =
      if q ∈ dropped ps ks then none
      else if q ∈ met ps ks then (s.processes.find q).map (reparsed files s q)
      else s.processes.find q := by
  induction ks generalizing ps s with
  | nil => cases ps <;> simp [reconcileLoop, dropped, met]
  | cons k ks ih =>
    obtain ⟨hnk, hks⟩ := List.nodup_cons.mp hk
    cases ps with
    | nil => simp [reconcileLoop]
    | cons p ps =>
      by_cases hpk : p = k
      · subst hpk
        rw [reconcileLoop, if_neg (by simp), ih ps hks, parseProcess_find,
          reparsed_congr files (frameOf_parseProcess files p s), dropped, if_pos rfl, met, if_pos rfl]
        by_cases hq : q = p
        · subst hq
          have hd : q ∉ dropped ps ks := fun h => hnk (mem_of_mem_dropped ps ks q h)
          have hm : q ∉ met ps ks := fun h => hnk (mem_of_mem_met ps ks q h)
          simp [hd, hm]
        · simp [hq]
      · rw [reconcileLoop, if_pos hpk, ih (p :: ps) hks, removeProcess_processes, Table.find_erase,
          reparsed_congr files (frameOf_removeProcess k s), dropped, if_neg hpk, met, if_neg hpk]
        by_cases hq : q = k
        · simp [hq]
        · simp [hq]

/-! ## The log -/

def removeEvents (callback : Bool) (k : Pid) : List Event :=
  (if callback then [.processCallback .remove [{ pid := k }] 1] else []) ++ [.erase k]

def sweepEvents (callback : Bool) (memory : UInt64) (deltaCpu : Interval) : List Pid → List Pid → List Event
  | p :: ps, k :: ks =>
      if p ≠ k then removeEvents callback k ++ sweepEvents callback memory deltaCpu (p :: ps) ks
      else .parse k memory deltaCpu :: sweepEvents callback memory deltaCpu ps ks
  | _, _ => []

theorem mem_removeEvents_iff (callback : Bool) (k : Pid) (e : Event) :
    e ∈ removeEvents callback k ↔
      callback = true ∧ e = .processCallback .remove [{ pid := k }] 1 ∨ e = .erase k := by
  unfold removeEvents
  cases callback <;> simp

theorem removeProcess_log (pid : Pid) (s : CaptureCxx) :
    (removeProcess pid s).log = s.log ++ removeEvents s.processCallback pid := by
  unfold removeProcess removeEvents
  cases s.processCallback <;> simp [emit]

theorem sweepEvents_congr {s s' : CaptureCxx} (h : s'.frameOf = s.frameOf) (ps ks : List Pid) :
    sweepEvents s'.processCallback s'.memory s'.deltaCpu ps ks =
      sweepEvents s.processCallback s.memory s.deltaCpu ps ks := by
  have hcb : s'.processCallback = s.processCallback := (congrArg CaptureCxx.processCallback h :)
  have hmem : s'.memory = s.memory := (congrArg CaptureCxx.memory h :)
  have hcpu : s'.deltaCpu = s.deltaCpu := (congrArg CaptureCxx.deltaCpu h :)
  rw [hcb, hmem, hcpu]

/-- Every key of the second list is in the table when its turn comes, because only keys
before it have been erased. -/
theorem reconcileLoop_log (files : Pid → ProcFiles) (ps ks : List Pid) (hk : ks.Nodup) (s : CaptureCxx)
    (hs : ∀ k ∈ ks, k ∈ s.processes.keys) :
    (reconcileLoop files ps ks s).log =
      s.log ++ sweepEvents s.processCallback s.memory s.deltaCpu ps ks := by
  induction ks generalizing ps s with
  | nil => cases ps <;> simp [reconcileLoop, sweepEvents]
  | cons k ks ih =>
    obtain ⟨hnk, hks⟩ := List.nodup_cons.mp hk
    cases ps with
    | nil => simp [reconcileLoop, sweepEvents]
    | cons p ps =>
      rw [reconcileLoop, sweepEvents]
      split
      · rw [ih (p :: ps) hks, removeProcess_log, sweepEvents_congr (frameOf_removeProcess k s), List.append_assoc]
        intro x hx
        rw [removeProcess_processes, Table.mem_keys_erase]
        exact ⟨fun h => hnk (h ▸ hx), hs x (List.mem_cons_of_mem k hx)⟩
      · obtain ⟨ptr, hptr⟩ := (Table.find_isSome_iff _ k).mpr (hs k List.mem_cons_self)
        have hlog : (parseProcess files k s).log = s.log ++ [.parse k s.memory s.deltaCpu] := by
          simp [parseProcess, hptr, emit]
        rw [ih ps hks, hlog, sweepEvents_congr (frameOf_parseProcess files k s), List.append_assoc]
        · rfl
        · intro x hx
          simp only [parseProcess, hptr, emit, Table.mem_keys_insert]
          exact Or.inr (hs x (List.mem_cons_of_mem k hx))

theorem mem_sweepEvents (callback : Bool) (memory : UInt64) (deltaCpu : Interval) (ps ks : List Pid) (e : Event) :
    e ∈ sweepEvents callback memory deltaCpu ps ks ↔
      (∃ k ∈ dropped ps ks, e ∈ removeEvents callback k) ∨ ∃ k ∈ met ps ks, e = .parse k memory deltaCpu := by
  induction ks generalizing ps with
  | nil => cases ps <;> simp [sweepEvents, dropped, met]
  | cons k ks ih =>
    cases ps with
    | nil => simp [sweepEvents]
    | cons p ps =>
      by_cases hpk : p = k
      · simp [sweepEvents, dropped, met, hpk, ih, or_left_comm]
      · simp [sweepEvents, dropped, met, hpk, ih, or_assoc]

end CaptureCxx
end Capture
