import Capture.Proof.RunInvariant

/-! # Which processes an `Update` keeps

The reconciliation is meant to erase the processes that are gone and no others. It does
so only for some pairs of a snapshot and a table; both directions are settled exactly
here, over every run. -/
namespace Capture
open SeparatedText OrderedTable

set_option autoImplicit false

namespace CaptureCxx

/-! ## Removals -/

def Removes (s : CaptureCxx) (p : Pid) : Prop :=
  .erase p ∈ s.log ∨ ∃ ps n, .processCallback .remove ps n ∈ s.log ∧ p ∈ ps.map (·.pid)

theorem not_fromFrame_erase (memory : UInt64) (deltaCpu : Interval) (p : Pid) :
    ¬ Event.FromFrame memory deltaCpu (.erase p) := fun h => h

theorem not_fromFrame_callback (memory : UInt64) (deltaCpu : Interval) (a : CaptureAction) (ps : List ProcessRecord)
    (n : ℕ) : ¬ Event.FromFrame memory deltaCpu (.processCallback a ps n) := fun h => h

theorem removes_update_iff (u : UpdateInput) (s : CaptureCxx) (p : Pid) :
    Removes (update u s).2 p ↔ u.stat ≠ none ∧ SizesDiffer u s ∧ Dropped u s p := by
  have hframe := (afterDispatch u s).log
  by_cases hstat : u.stat = none
  · rw [update_of_stat_none u s hstat]
    constructor
    · rintro (h | ⟨ps, n, h, -⟩)
      · exact (not_fromFrame_erase _ _ _ (hframe _ h)).elim
      · exact (not_fromFrame_callback _ _ _ _ _ (hframe _ h)).elim
    · exact fun h => absurd hstat h.1
  · constructor
    · rintro (h | ⟨ps, n, h, hp⟩)
      · rcases (mem_log_update_iff u s hstat _).mp h with h | h | h | h
        · exact (not_fromFrame_erase _ _ _ (hframe _ h)).elim
        · obtain ⟨hsize, ⟨k, hk, he⟩ | ⟨k, -, he⟩⟩ := (mem_reconcileEvents u s _).mp h
          · obtain ⟨-, he⟩ | he := (mem_removeEvents_iff _ _ _).mp he
            · cases he
            · cases he
              exact ⟨hstat, hsize, hk⟩
          · cases he
        · cases ((mem_processReport_iff _ _).mp h).2
        · cases ((mem_packetReport_iff _ _ _).mp h).2
      · rcases (mem_log_update_iff u s hstat _).mp h with h | h | h | h
        · exact (not_fromFrame_callback _ _ _ _ _ (hframe _ h)).elim
        · obtain ⟨hsize, ⟨k, hk, he⟩ | ⟨k, -, he⟩⟩ := (mem_reconcileEvents u s _).mp h
          · obtain ⟨-, he⟩ | he := (mem_removeEvents_iff _ _ _).mp he
            · cases he
              exact ⟨hstat, hsize, List.mem_singleton.mp hp ▸ hk⟩
            · cases he
          · cases he
        · cases ((mem_processReport_iff _ _).mp h).2
        · cases ((mem_packetReport_iff _ _ _).mp h).2
    · rintro ⟨-, hsize, hp⟩
      refine Or.inl ((mem_log_update_iff u s hstat _).mpr (Or.inr (Or.inl ?_)))
      exact (mem_reconcileEvents u s _).mpr ⟨hsize, Or.inl ⟨p, hp, (mem_removeEvents_iff _ _ _).mpr (Or.inr rfl)⟩⟩

/-- When the sweep erases no live process: it does not run, or every pid of the snapshot
below a tracked pid of the snapshot is itself tracked. -/
def SparesLive (u : UpdateInput) (s : CaptureCxx) : Prop :=
  u.stat = none ∨ (livePids u).card = (trackedPids u s).card ∨
    ∀ q ∈ livePids u, q ∈ trackedPids u s → ∀ r ∈ livePids u, r < q → r ∈ trackedPids u s

theorem sparesLive_iff (u : UpdateInput) (s : CaptureCxx) :
    (∀ p, Removes (update u s).2 p → p ∉ livePids u) ↔ SparesLive u s := by
  simp only [removes_update_iff]
  constructor
  · intro h
    by_cases hstat : u.stat = none
    · exact Or.inl hstat
    by_cases hsize : SizesDiffer u s
    · refine Or.inr (Or.inr fun q hq hqk r hr hrq => ?_)
      -- an untracked `r` below `q` keeps the cursors from meeting at `q`
      by_contra hrk
      refine h q ⟨hstat, hsize, hqk, fun hm => hrk (hm.2 r hr hrq.le), fun hl => ?_⟩ hq
      exact hrk (hl.2.1 hr)
    · exact Or.inr (Or.inl (not_not.mp hsize))
  · rintro h p ⟨hstat, hsize, hpk, hmet, -⟩ hp
    rcases h with h | h | h
    · exact hstat h
    · exact hsize h
    · refine hmet ⟨hp, fun r hr hrp => ?_⟩
      rcases hrp.eq_or_lt with rfl | hlt
      · exact hpk
      · exact h p hp hpk r hr hlt

/-- Over every run, no `Update` removes a process of its own snapshot exactly when each
`Update` meets `SparesLive`. -/
theorem live_process_never_removed_iff (cs : List Call) :
    (∀ t ∈ run cs, ∀ u, t.call = .update u → ∀ p, t.after.Removes p → p ∉ t.after.pids.keySet) ↔
      ∀ t ∈ run cs, ∀ u, t.call = .update u → SparesLive u t.before := by
  refine forall₂_congr fun t ht => forall₂_congr fun u hu => ?_
  have hpids : (update u t.before).2.pids = snapshot u.proc := by
    by_cases hstat : u.stat = none
    · rw [update_of_stat_none u _ hstat]
      exact (afterDispatch u _).pids
    · exact (afterUpdate u _ hstat).pids
  rw [after_update ht hu, hpids]
  exact sparesLive_iff u t.before

/-! ### A small host

Calls with single-digit pids on a host with one interface, used where a result is shown
to fail. -/

def pidDir (n : Fin 10) : ProcEntry :=
  { isDir := true
    name := [Nat.digitChar n]
    numeric := by revert n; decide }

def lanInit (pids : List (Fin 10)) : InitInput :=
  { processCallback := true
    packetCallback := true
    fliter := false
    ifaddrs := some [⟨some ['e'], 0x41, some (.inet ![10, 0, 0, 1])⟩]
    meminfo := none
    pcap := fun _ => ⟨true, true, true, dltEn10mb, 0⟩
    proc := some (pids.map pidDir)
    refresh := {}
    files := fun _ => ProcFiles.absent }

def idle : Dispatch := ⟨[], 0, Or.inl rfl, by decide⟩

def idleUpdate (pids : List (Fin 10)) : UpdateInput :=
  { icaptureAll := false
    proc := some (pids.map pidDir)
    refresh := {}
    dispatch := fun _ => idle
    stat := some ["cpu  10 0 10 100 0 0 0".toList]
    files := fun _ => ProcFiles.absent }

/-- A process born between two tracked ones makes the sweep erase the upper one, which is
alive. -/
theorem live_process_removed :
    ∃ t ∈ run [.init (lanInit [1, 9]), .update (idleUpdate [1, 5, 9])],
      t.call = .update (idleUpdate [1, 5, 9]) ∧ t.after.Removes 9 ∧ 9 ∈ t.after.pids.keySet := by
  refine ⟨_, List.mem_cons_of_mem _ List.mem_cons_self, rfl, ?_, by decide +kernel⟩
  refine (removes_update_iff _ _ _).mpr ⟨by simp [idleUpdate], ?_, ?_⟩
  · unfold SizesDiffer
    decide +kernel
  · unfold Dropped Met Left
    decide +kernel

/-! ## Survivors -/

/-- When the sweep leaves no dead process: all tracked pids are live, or it runs and
either stops inside the snapshot or has no tracked pid beyond the end of it. -/
def DropsDead (u : UpdateInput) (s : CaptureCxx) : Prop :=
  trackedPids u s ⊆ livePids u ∨ (livePids u).card ≠ (trackedPids u s).card ∧
    (¬ livePids u ⊆ trackedPids u s ∨ ∀ k ∈ trackedPids u s, ∃ p ∈ livePids u, k ≤ p)

theorem dropsDead_iff (u : UpdateInput) (s : CaptureCxx) :
    (∀ q ∈ (reconciled u s).processes.keys, q ∈ livePids u) ↔ DropsDead u s := by
  simp only [reconciled_keys]
  constructor
  · intro h
    by_cases hsize : SizesDiffer u s
    · by_cases hsub : livePids u ⊆ trackedPids u s
      · refine Or.inr ⟨hsize, Or.inr fun k hk => ?_⟩
        -- beyond the snapshot nothing would erase `k`
        by_contra hbeyond
        have hlt : ∀ r ∈ livePids u, r < k := fun r hr => not_le.mp fun hkr => hbeyond ⟨r, hr, hkr⟩
        have hlive := h k ⟨hk, fun hd => hd.2.2.2 ⟨hk, hsub, hlt⟩⟩
        exact lt_irrefl k (hlt k hlive)
      · exact Or.inr ⟨hsize, Or.inl hsub⟩
    · exact Or.inl fun k hk => h k ⟨hk, fun hd => hsize hd.1⟩
  · rintro (h | ⟨hsize, h⟩) q ⟨hq, hnd⟩
    · exact h hq
    · by_cases hmet : Met u s q
      · exact hmet.1
      · by_cases hleft : Left u s q
        · rcases h with h | h
          · exact absurd hleft.2.1 h
          · obtain ⟨p, hp, hqp⟩ := h q hq
            exact absurd (hleft.2.2 p hp) (not_lt.mpr hqp)
        · exact absurd ⟨hsize, hq, hmet, hleft⟩ hnd

theorem pid_of_mem_report {u : UpdateInput} {s : CaptureCxx} (hs : WellFormed s) {data : List ProcessRecord} {n : ℕ}
    (h : .processCallback .update data n ∈ processReport (reconciled u s)) (r : ProcessRecord)
    (hr : r ∈ data.take n) : r.pid ∈ (reconciled u s).processes.keys := by
  cases ((mem_processReport_iff _ _).mp h).2
  rw [reportData, List.take_left' (by simp [Table.size])] at hr
  obtain ⟨e, he, rfl⟩ := List.mem_map.mp hr
  have hstored := reconciled_stored hs u e.1 e.2 ((Table.mem_entries_iff _ _ _).mp he)
  exact List.mem_map.mpr ⟨e, he, hstored.1.symm⟩

theorem not_mem_reconcileEvents_update (u : UpdateInput) (s : CaptureCxx) (data : List ProcessRecord) (n : ℕ) :
    .processCallback .update data n ∉ reconcileEvents u s := by
  intro h
  obtain ⟨-, ⟨k, -, he⟩ | ⟨k, -, he⟩⟩ := (mem_reconcileEvents u s _).mp h
  · obtain ⟨-, he⟩ | he := (mem_removeEvents_iff _ _ _).mp he <;> cases he
  · cases he

theorem mem_log_update_callback {u : UpdateInput} {s : CaptureCxx} (hstat : u.stat ≠ none)
    {data : List ProcessRecord} {n : ℕ} (h : .processCallback .update data n ∈ (update u s).2.log) :
    .processCallback .update data n ∈ processReport (reconciled u s) := by
  rcases (mem_log_update_iff u s hstat _).mp h with h | h | h | h
  · exact (not_fromFrame_callback _ _ _ _ _ ((afterDispatch u s).log _ h)).elim
  · exact absurd h (not_mem_reconcileEvents_update u s data n)
  · exact h
  · cases ((mem_packetReport_iff _ _ _).mp h).2

/-- Over every run, after each `Update` that returns 0 with a snapshot every tracked and
every reported pid is in that snapshot exactly when each such `Update` meets `DropsDead`. -/
theorem dead_process_never_survives_iff (cs : List Call) :
    (∀ t ∈ run cs, ∀ u, t.call = .update u → (update u t.before).1 = 0 → u.proc ≠ none →
      (∀ k ∈ t.after.processes.keySet, k ∈ t.after.pids.keySet) ∧
        ∀ data n, .processCallback .update data n ∈ t.after.log →
          ∀ r ∈ data.take n, r.pid ∈ t.after.pids.keySet) ↔
      ∀ t ∈ run cs, ∀ u, t.call = .update u → u.stat ≠ none → u.proc ≠ none → DropsDead u t.before := by
  refine forall₂_congr fun t ht => forall₂_congr fun u hu => ?_
  rw [after_update ht hu, update_fst]
  refine forall₂_congr fun hstat _ => ?_
  have ha := afterUpdate u t.before hstat
  rw [ha.pids, ha.processes, ← dropsDead_iff]
  simp only [Table.mem_keySet, livePids]
  constructor
  · exact fun h => h.1
  · intro h
    refine ⟨h, fun data n hevent r hr => h _ ?_⟩
    exact pid_of_mem_report (wellFormed_of_mem_run ht) (mem_log_update_callback hstat hevent) r hr

/-- The death of the largest tracked pid goes unnoticed. -/
theorem dead_process_survives :
    ∃ t ∈ run [.init (lanInit [1, 2]), .update (idleUpdate [1])],
      t.call = .update (idleUpdate [1]) ∧ (update (idleUpdate [1]) t.before).1 = 0 ∧
        (idleUpdate [1]).proc ≠ none ∧ 2 ∈ t.after.processes.keySet ∧ 2 ∉ t.after.pids.keySet := by
  refine ⟨_, List.mem_cons_of_mem _ List.mem_cons_self, rfl, ?_, by simp [idleUpdate], ?_⟩
  · exact (update_fst _ _).mpr (by simp [idleUpdate])
  · decide +kernel

end CaptureCxx
end Capture
