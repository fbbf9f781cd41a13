import Capture.Proof.Reconcile

/-! # The exact effect of the reconciliation

The loop over the two iterators ends, within one test per entry of the table and one more,
in the state `reconcileLoop` computes from the key lists (`reconcileTurns_eq`). What that
state is, for every snapshot and every table, is `reconcile_effect`. -/
namespace Capture
open OrderedTable PrefixSweep

set_option autoImplicit false

namespace CaptureCxx

/-! ## The iterators -/

theorem removeProcess_keys (s : CaptureCxx) {pre ks : List Pid} {k : Pid} (h : s.processes.keys = pre ++ k :: ks) :
    (removeProcess k s).processes.keys = pre ++ ks := by
  have hnodup := h ▸ s.processes.keys_nodup
  obtain ⟨-, hk, hdisj⟩ := List.nodup_append.mp hnodup
  have hpre : pre.filter (· ≠ k) = pre :=
    List.filter_eq_self.mpr fun x hx => by simpa using hdisj x hx k List.mem_cons_self
  have hks : ks.filter (· ≠ k) = ks :=
    List.filter_eq_self.mpr fun x hx => by simpa using fun he : x = k => (List.nodup_cons.mp hk).1 (he ▸ hx)
  rw [removeProcess_processes, Table.keys_erase, h, List.filter_append, List.filter_cons_of_neg (by simp), hpre, hks]

theorem parseProcess_keys (files : Pid → ProcFiles) (k : Pid) (s : CaptureCxx) :
    (parseProcess files k s).processes.keys = s.processes.keys := by
  unfold parseProcess
  cases hfind : s.processes.find k with
  | none => rfl
  | some ptr => exact Table.keys_insert_of_mem _ _ _ ((Table.find_isSome_iff _ k).mp ⟨ptr, hfind⟩)

theorem reconcileTurns_eq (files : Pid → ProcFiles) (ps ks donePids kept : List Pid) (s : CaptureCxx)
    (hp : s.pids.keys = donePids ++ ps) (hk : s.processes.keys = kept ++ ks) (fuel : ℕ) (hfuel : ks.length < fuel) :
    reconcileTurns files fuel ⟨ps.head?, ks.head?, s⟩ = some (reconcileLoop files ps ks s) := by
  induction ks generalizing ps donePids kept s fuel with
  | nil =>
    obtain ⟨fuel, rfl⟩ : ∃ n, fuel = n + 1 := ⟨fuel - 1, by omega⟩
    cases ps <;> rfl
  | cons k ks ih =>
    obtain ⟨fuel, rfl⟩ : ∃ n, fuel = n + 1 := ⟨fuel - 1, by omega⟩
    rw [List.length_cons, Nat.add_lt_add_iff_right] at hfuel
    cases ps with
    | nil => rfl
    | cons p ps =>
      by_cases hpk : p = k
      · subst hpk
        have hpids : (parseProcess files p s).pids = s.pids :=
          (congrArg CaptureCxx.pids (frameOf_parseProcess files p s) :)
        have hkeys := (parseProcess_keys files p s).trans hk
        have hnext := ih ps (donePids ++ [p]) (kept ++ [p]) (parseProcess files p s) (by rw [hpids, hp]; simp)
          (by rw [hkeys]; simp) fuel hfuel
        rw [← Table.after_eq _ (hpids ▸ hp), ← Table.after_eq _ hkeys] at hnext
        have hturn : reconcileTurn files ⟨some p, some p, s⟩ = some ⟨(parseProcess files p s).pids.after p,
            (parseProcess files p s).processes.after p, parseProcess files p s⟩ := by
          simp [reconcileTurn]
        rw [reconcileLoop, if_neg (by simp), ← hnext]
        simp only [reconcileTurns, List.head?_cons, hturn]
      · have hpids : (removeProcess k s).pids = s.pids := (congrArg CaptureCxx.pids (frameOf_removeProcess k s) :)
        have hnext := ih (p :: ps) donePids kept (removeProcess k s) (by rw [hpids, hp]) (removeProcess_keys s hk)
          fuel hfuel
        rw [← Table.after_eq _ hk] at hnext
        have hturn : reconcileTurn files ⟨some p, some k, s⟩ =
            some ⟨some p, s.processes.after k, removeProcess k s⟩ := by
          simp [reconcileTurn, hpk]
        rw [reconcileLoop, if_pos hpk, ← hnext]
        simp only [reconcileTurns, List.head?_cons, hturn]

/-! ## The events -/

end CaptureCxx

namespace Event

def removal : Event → Option (List ProcessRecord × ℕ)
  | .processCallback .remove processes size => some (processes, size)
  | _ => none

def erased : Event → Option Pid
  | .erase pid => some pid
  | _ => none

def parsed : Event → Option (Pid × UInt64 × Interval)
  | .parse pid imemory ideltacpu => some (pid, imemory, ideltacpu)
  | _ => none

end Event

namespace CaptureCxx

theorem sweepEvents_project (callback : Bool) (memory : UInt64) (deltaCpu : Interval) (ps ks : List Pid) :
    (sweepEvents callback memory deltaCpu ps ks).filterMap Event.removal =
        (if callback then (dropped ps ks).map fun k => ([{ pid := k }], 1) else []) ∧
      (sweepEvents callback memory deltaCpu ps ks).filterMap Event.erased = dropped ps ks ∧
      (sweepEvents callback memory deltaCpu ps ks).filterMap Event.parsed =
        (met ps ks).map fun k => (k, memory, deltaCpu) := by
  induction ks generalizing ps with
  | nil => cases ps <;> simp [sweepEvents, dropped, met]
  | cons k ks ih =>
    cases ps with
    | nil => simp [sweepEvents]
    | cons p ps =>
      by_cases hpk : p = k
      · obtain ⟨hremoval, herased, hparsed⟩ := ih ps
        rw [sweepEvents, if_neg (not_not.mpr hpk), dropped, if_pos hpk, met, if_pos hpk]
        exact ⟨hremoval, herased, by rw [List.filterMap_cons, hparsed, hpk]; rfl⟩
      · obtain ⟨hremoval, herased, hparsed⟩ := ih (p :: ps)
        rw [sweepEvents, if_pos hpk, dropped, if_neg hpk, met, if_neg hpk, List.filterMap_append, List.filterMap_append,
          List.filterMap_append, hremoval, herased, hparsed]
        cases callback <;> exact ⟨rfl, rfl, rfl⟩

/-! ## The result -/

/-- The longest initial segment of the snapshot all of whose members are in the table. -/
def presentPids (s : CaptureCxx) : List Pid := s.pids.keys.takeWhile (· ∈ s.processes.keys)

/-- The exact effect of the reconciliation, for every snapshot and every table of another
size: the loop ends, and this is the state it ends in. -/
theorem reconcile_effect (files : Pid → ProcFiles) (s : CaptureCxx) (h : s.pids.size ≠ s.processes.size) :
    (∀ fuel, s.processes.size < fuel →
        reconcileTurns files fuel (reconcileStart s) = some (reconcile files s)) ∧
      (reconcile files s).processes.keys = (if s.presentPids = s.pids.keys then
          s.presentPids ++ s.processes.keys.filter (fun k => ∀ p ∈ s.pids.keys, p < k)
        else s.presentPids) ∧
      (∃ es, (reconcile files s).log = s.log ++ es ∧
        es.filterMap Event.erased = s.processes.keys.filter (· ∉ (reconcile files s).processes.keys) ∧
        es.filterMap Event.removal = (if s.processCallback then
          (s.processes.keys.filter (· ∉ (reconcile files s).processes.keys)).map fun k => ([{ pid := k }], 1) else []) ∧
        es.filterMap Event.parsed = s.presentPids.map fun k => (k, s.memory, s.deltaCpu)) ∧
      (∀ k q', (reconcile files s).processes.find k = some q' → ∃ q, s.processes.find k = some q ∧
        q' = (if k ∈ s.presentPids then reparsed files s k q else q) ∧
        q'.pid = q.pid ∧ q'.send = q.send ∧ q'.recv = q.recv) ∧
      (reconcile files s).frameOf = s.frameOf := by
  have hloop : reconcile files s = reconcileLoop files s.pids.keys s.processes.keys s := if_pos h
  have hp := s.pids.keys_sorted
  have hk := s.processes.keys_sorted
  have hmet : met s.pids.keys s.processes.keys = s.presentPids := met_eq_takeWhile _ _ hp hk
  have hfind := reconcileLoop_find files s.pids.keys s.processes.keys (Table.keys_nodup _) s
  have hkeys : (reconcile files s).processes.keys = survivors s.pids.keys s.processes.keys := by
    refine Table.keys_eq_of_mem_iff _ (survivors_sorted _ _ hp hk) fun k => ?_
    rw [mem_survivors_iff _ _ hp hk, ← Table.find_isSome_iff, ← Table.find_isSome_iff, hloop, hfind]
    split
    · next hd => simp [hd]
    · next hd => split <;> simp [hd]
  have hdropped : dropped s.pids.keys s.processes.keys =
      s.processes.keys.filter (· ∉ (reconcile files s).processes.keys) := by
    rw [hkeys]
    exact dropped_eq_filter _ _ hp hk
  refine ⟨fun fuel hfuel => ?_, ?_, ?_, fun k q' hq' => ?_, frameOf_reconcile files s⟩
  · rw [hloop]
    exact reconcileTurns_eq files s.pids.keys s.processes.keys [] [] s rfl rfl fuel (by simpa [Table.keys, Table.size] using hfuel)
  · rw [hkeys]
    by_cases hall : s.presentPids = s.pids.keys
    · rw [if_pos hall, hall]
      exact if_pos hall
    · rw [if_neg hall]
      exact if_neg hall
  · obtain ⟨hremoval, herased, hparsed⟩ :=
      sweepEvents_project s.processCallback s.memory s.deltaCpu s.pids.keys s.processes.keys
    refine ⟨_, ?_, herased.trans hdropped, ?_, ?_⟩
    · rw [hloop]
      exact reconcileLoop_log files _ _ (Table.keys_nodup _) s fun k hk => hk
    · rw [hremoval, hdropped]
    · rw [hparsed, hmet]
  · rw [hloop, hfind, hmet] at hq'
    split at hq'
    · cases hq'
    · split at hq'
      · next hmem =>
        obtain ⟨q, hq, rfl⟩ := Option.map_eq_some_iff.mp hq'
        have htraffic := CapProcess.parse_traffic s.calls (files k) s.memory s.deltaCpu q
        exact ⟨q, hq, (if_pos hmem).symm, congrArg Prod.fst htraffic, congrArg (fun x => x.2.2) htraffic,
          congrArg (fun x => x.2.1) htraffic⟩
      · next hmem => exact ⟨q', hq', (if_neg hmem).symm, rfl, rfl, rfl⟩

/-- A snapshot of 1, 2, 3 and a table of 1, 3. -/
def missingMiddle : CaptureCxx :=
  { initial with
    pids := [1, 2, 3].foldl (fun t pid => t.insert pid ()) Table.empty
    processes := [1, 3].foldl (fun t pid => t.insert pid { pid := pid }) Table.empty }

/-- Process 3 is alive and erased all the same. -/
theorem reconcile_effect_missing_middle :
    reconcileTurns (fun _ => .absent) 3 (reconcileStart missingMiddle) =
        some (reconcile (fun _ => .absent) missingMiddle) ∧
      (reconcile (fun _ => .absent) missingMiddle).processes.keys = [1] := by
  have heffect := reconcile_effect (fun _ => .absent) missingMiddle (by decide)
  exact ⟨heffect.1 3 (by decide), heffect.2.1.trans (by decide)⟩

end CaptureCxx
end Capture
