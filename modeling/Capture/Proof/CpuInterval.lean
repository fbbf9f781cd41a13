import Capture.Proof.Freshness

/-! # Which intervals a cpu percentage compares

A percentage divides the ticks of a process between two readings by the ticks of the
system between two readings. It is meaningful when both pairs of readings were made in
the same two samplings: the current call and the one that sampled before it. -/
namespace Capture
open SeparatedText FormattedScan OrderedTable

set_option autoImplicit false

namespace CapProcess

/-- The percentage of `q` was computed in call `n` from two intervals that both begin in
the sampling `previous`. -/
def EqualIntervals (previous : Option ℕ) (n : ℕ) (q : CapProcess) : Prop :=
  ∃ m c, previous = some m ∧ q.cpuPercent = some c ∧
    c.process.before.call = some m ∧ c.process.now.call = some n ∧
    c.system.before.call = some m ∧ c.system.now.call = some n

/-- The percentage, if any, was not computed with two readings of call `n`. -/
def Stale (n : ℕ) (q : CapProcess) : Prop :=
  ∀ c, q.cpuPercent = some c → ¬ (c.process.now.call = some n ∧ c.system.now.call = some n)

theorem Stale.not_equalIntervals {n : ℕ} {q : CapProcess} (h : q.Stale n) (previous : Option ℕ) :
    ¬ q.EqualIntervals previous n := by
  rintro ⟨m, c, -, hc, -, hnow, -, hsys⟩
  exact h c hc ⟨hnow, hsys⟩

theorem Stale.congr {n : ℕ} {p q : CapProcess} (h : p.Stale n) (hpq : q.cpuFields = p.cpuFields) : q.Stale n := by
  have hpercent : q.cpuPercent = p.cpuPercent := congrArg (fun x => x.2.2) hpq
  unfold Stale
  rw [hpercent]
  exact h

theorem UpTo.stale {n : ℕ} {q : CapProcess} (h : q.UpTo n) : q.Stale (n + 1) :=
  fun c hc hnow => (h.2.2 c hc).1.2.call_ne hnow.1

/-- No reading of an earlier call is left that an interval of call `n` could begin with. -/
def Newcomer (n : ℕ) (q : CapProcess) : Prop :=
  (q.cpu.call = none ∨ q.cpu.call = some n) ∧ (q.deltaCpu.before.call = none ∨ q.deltaCpu.before.call = some n)

theorem Newcomer.congr {n : ℕ} {p q : CapProcess} (h : p.Newcomer n) (hpq : q.cpuFields = p.cpuFields) :
    q.Newcomer n := by
  have hcpu : q.cpu = p.cpu := congrArg Prod.fst hpq
  have hdelta : q.deltaCpu = p.deltaCpu := congrArg (fun x => x.2.1) hpq
  unfold Newcomer
  rw [hcpu, hdelta]
  exact h

theorem foldl_advance_newcomer (n : ℕ) (ts : List UInt64) (p : CapProcess) (h : p.Newcomer n) :
    (ts.foldl (advance n) p).Newcomer n := by
  induction ts generalizing p with
  | nil => exact h
  | cons t ts ih => exact ih (advance n p t) ⟨Or.inr rfl, h.1⟩

theorem parse_new (n : ℕ) (files : ProcFiles) (imemory : UInt64) (ideltacpu : Interval) (pid : Pid) :
    (parse n files imemory ideltacpu { pid := pid }).Newcomer n ∧
      ∀ c, (parse n files imemory ideltacpu { pid := pid }).cpuPercent = some c → c.system = ideltacpu := by
  have hnew : ({ pid := pid } : CapProcess).Newcomer n := ⟨Or.inl rfl, Or.inl rfl⟩
  by_cases h : pid = -1 ∨ ticksRead files = none
  · have hfields := (parse_of_ticksRead_none n files imemory ideltacpu { pid := pid } h).2
    refine ⟨hnew.congr hfields, fun c hc => ?_⟩
    have hpercent := congrArg (fun x => x.2.2) hfields
    rw [show (parse n files imemory ideltacpu { pid := pid }).cpuPercent = none from hpercent] at hc
    cases hc
  · obtain ⟨hpid, hts⟩ := not_or.mp h
    obtain ⟨ts, hts⟩ := Option.ne_none_iff_exists'.mp hts
    rw [parse_of_ticksRead_some n files imemory ideltacpu _ ts hpid hts]
    refine ⟨foldl_advance_newcomer n ts _ (hnew.congr (beforeStat_keeps files imemory _).2), fun c hc => ?_⟩
    cases hc
    rfl

theorem foldl_advance_two (n : ℕ) (t t' : UInt64) (ts : List UInt64) (p : CapProcess) :
    ((t :: t' :: ts).foldl (advance n) p).deltaCpu.before.call = some n := by
  induction ts generalizing t t' p with
  | nil => rfl
  | cons t'' ts ih => exact ih t' t'' (advance n p t)

/-- The interval of a parse in call `n` begins in another call `m` only if one tick count
was read, or none and the interval was there before. -/
theorem foldl_advance_interval_iff {n m : ℕ} (hm : m ≠ n) (ts : List UInt64) (p : CapProcess) :
    (ts.foldl (advance n) p).deltaCpu.before.call = some m ∧ (ts.foldl (advance n) p).deltaCpu.now.call = some n ↔
      (ts = [] ∧ p.deltaCpu.before.call = some m ∧ p.deltaCpu.now.call = some n) ∨
        (∃ t, ts = [t]) ∧ p.cpu.call = some m := by
  match ts with
  | [] => simp
  | [t] => simp [advance]
  | t :: t' :: ts =>
    rw [foldl_advance_two]
    simp [hm.symm]

end CapProcess

namespace CaptureCxx

/-! ## The entries the reconciliation finds -/

/-- An entry is stale before the reconciliation, and it is either an old one that has no
interval of this call yet, or a newcomer of this call. -/
theorem dispatched_entry {s : CaptureCxx} (hs : WellFormed s) (u : UpdateInput) (p : Pid) (q : CapProcess)
    (hq : (dispatched u s).processes.find p = some q) :
    q.Stale (s.calls + 1) ∧
      ((∃ e, s.processes.find p = some e ∧ q.cpu = e.cpu ∧ q.deltaCpu.now.call ≠ some (s.calls + 1)) ∨
        s.processes.find p = none ∧ q.Newcomer (s.calls + 1)) := by
  rcases (afterDispatch u s).origin p q hq with ⟨e, he, -, hfields⟩ | ⟨hnone, -, files, hfields⟩
  · have hup : e.UpTo s.calls := (hs.stored p e he).2
    have hdelta : q.deltaCpu = e.deltaCpu := congrArg (fun x => x.2.1) hfields
    refine ⟨hup.stale.congr hfields, Or.inl ⟨e, he, congrArg Prod.fst hfields, ?_⟩⟩
    rw [hdelta]
    exact hup.2.1.2.call_ne
  · obtain ⟨hnew, hsys⟩ := CapProcess.parse_new (s.calls + 1) files s.memory s.deltaCpu p
    refine ⟨?_, Or.inr ⟨hnone, hnew.congr hfields⟩⟩
    refine CapProcess.Stale.congr (fun c hc hnow => ?_) hfields
    have hold : c.system = s.deltaCpu := hsys c hc
    rw [hold] at hnow
    exact hs.deltaCpu.2.call_ne hnow.2

/-- Of the earlier calls, only the baseline an entry had before the call is left. -/
theorem dispatched_baseline {s : CaptureCxx} (hs : WellFormed s) (u : UpdateInput) (p : Pid) (q : CapProcess)
    (hq : (dispatched u s).processes.find p = some q) {m : ℕ} (hm : m ≤ s.calls) :
    ¬ (q.deltaCpu.before.call = some m ∧ q.deltaCpu.now.call = some (s.calls + 1)) ∧
      (q.cpu.call = some m ↔ ∃ e, s.processes.find p = some e ∧ e.cpu.call = some m) := by
  rcases (dispatched_entry hs u p q hq).2 with ⟨e, he, heq, hold⟩ | ⟨hnone, hnew⟩
  · refine ⟨fun h => hold h.2, ?_⟩
    rw [heq]
    constructor
    · exact fun h => ⟨e, he, h⟩
    · intro h
      obtain ⟨e', he', hcpu⟩ := h
      rw [he] at he'
      cases he'
      exact hcpu
  · have hnever : ∀ x : Option ℕ, x = none ∨ x = some (s.calls + 1) → x ≠ some m := by
      intro x hx hxm
      rcases hx with h | h
      · rw [h] at hxm
        cases hxm
      · rw [h] at hxm
        cases hxm
        omega
    refine ⟨fun h => hnever _ hnew.2 h.1, iff_of_false (hnever _ hnew.1) ?_⟩
    intro h
    obtain ⟨e, he, -⟩ := h
    rw [hnone] at he
    cases he

def BaselinesMeet (u : UpdateInput) (s : CaptureCxx) (p : Pid) : Prop :=
  p ≠ -1 ∧ cpuReading u ≠ none ∧ ∃ m e t, s.sampled = some m ∧ s.cpu.call = some m ∧
    s.processes.find p = some e ∧ e.cpu.call = some m ∧ CapProcess.ticksRead (u.files p) = some [t]

theorem newDelta_interval_iff {s : CaptureCxx} (hs : WellFormed s) (u : UpdateInput) (m : ℕ) :
    (newDelta u s).before.call = some m ∧ (newDelta u s).now.call = some (s.calls + 1) ↔
      cpuReading u ≠ none ∧ s.cpu.call = some m := by
  rw [newDelta_now_iff hs, and_comm]
  refine and_congr_right fun hread => ?_
  obtain ⟨now, hnow⟩ := Option.ne_none_iff_exists'.mp hread
  rw [newDelta, hnow]

theorem equalIntervals_parse_iff {s : CaptureCxx} (hs : WellFormed s) (u : UpdateInput) (p : Pid) (q : CapProcess)
    (hq : (dispatched u s).processes.find p = some q) :
    (CapProcess.parse (s.calls + 1) (u.files p) s.memory (newDelta u s) q).EqualIntervals s.sampled (s.calls + 1) ↔
      BaselinesMeet u s p := by
  have hpid : q.pid = p := (dispatched_stored hs u p q hq).1
  obtain ⟨hstale, horigin⟩ := dispatched_entry hs u p q hq
  by_cases hskip : q.pid = -1 ∨ CapProcess.ticksRead (u.files p) = none
  · have hfields := (CapProcess.parse_of_ticksRead_none (s.calls + 1) (u.files p) s.memory (newDelta u s) q hskip).2
    refine iff_of_false ((hstale.congr hfields).not_equalIntervals s.sampled) ?_
    rintro ⟨hp, -, m, e, t, -, -, -, -, hticks⟩
    rcases hskip with h | h
    · exact hp (hpid ▸ h)
    · rw [h] at hticks
      cases hticks
  · obtain ⟨hp, hts⟩ := not_or.mp hskip
    obtain ⟨ts, hts⟩ := Option.ne_none_iff_exists'.mp hts
    have hkeeps := (CapProcess.beforeStat_keeps (u.files p) s.memory q).2
    have hcpu : (CapProcess.beforeStat (u.files p) s.memory q).cpu = q.cpu := congrArg Prod.fst hkeeps
    have hdelta : (CapProcess.beforeStat (u.files p) s.memory q).deltaCpu = q.deltaCpu :=
      congrArg (fun x => x.2.1) hkeeps
    rw [CapProcess.parse_of_ticksRead_some (s.calls + 1) (u.files p) s.memory (newDelta u s) q ts hp hts]
    unfold BaselinesMeet
    constructor
    · rintro ⟨m, c, hm, hc, hbefore, hnow, hsys⟩
      cases hc
      obtain ⟨hread, hscpu⟩ := (newDelta_interval_iff hs u m).mp hsys
      have hle := hs.sampled m hm
      obtain ⟨hold, hbase⟩ := dispatched_baseline hs u p q hq hle
      rcases (CapProcess.foldl_advance_interval_iff (by omega) ts _).mp ⟨hbefore, hnow⟩ with ⟨-, h⟩ | ⟨⟨t, rfl⟩, h⟩
      · rw [hdelta] at h
        exact absurd h hold
      · rw [hcpu] at h
        obtain ⟨e, he, hecpu⟩ := hbase.mp h
        exact ⟨hpid ▸ hp, hread, m, e, t, hm, hscpu, he, hecpu, hts⟩
    · rintro ⟨-, hread, m, e, t, hm, hscpu, he, hecpu, hticks⟩
      rw [hts] at hticks
      cases hticks
      have hqcpu := (dispatched_baseline hs u p q hq (hs.sampled m hm)).2.mpr ⟨e, he, hecpu⟩
      refine ⟨m, _, hm, rfl, ?_, rfl, (newDelta_interval_iff hs u m).mpr ⟨hread, hscpu⟩⟩
      exact (congrArg Sample.call hcpu).trans hqcpu

/-! ## Every `Update` -/

/-- When every tracked process of the snapshot gets a percentage over equal intervals: the
sweep does not run and no live process is tracked, or it runs and the baselines of every
process it parses meet. -/
def IntervalsAgree (u : UpdateInput) (s : CaptureCxx) : Prop :=
  ((livePids u).card = (trackedPids u s).card ∧ ∀ p ∈ livePids u, p ∉ trackedPids u s) ∨
    ((livePids u).card ≠ (trackedPids u s).card ∧ ∀ p ∈ livePids u,
      (∀ r ∈ livePids u, r ≤ p → r ∈ trackedPids u s) → BaselinesMeet u s p)

theorem intervalsAgree_iff {s : CaptureCxx} (hs : WellFormed s) (u : UpdateInput) :
    (∀ p ∈ livePids u, ∀ q, (reconciled u s).processes.find p = some q →
      q.EqualIntervals s.sampled (s.calls + 1)) ↔ IntervalsAgree u s := by
  by_cases hsize : SizesDiffer u s
  · constructor
    · intro h
      refine Or.inr ⟨hsize, fun p hp hall => ?_⟩
      have hmet : Met u s p := ⟨hp, hall⟩
      obtain ⟨q, hq⟩ := (Table.find_isSome_iff _ p).mpr
        ((mem_reconciled_keys_of_live hp).mpr ⟨hall p hp le_rfl, fun _ => hmet⟩)
      have hfind := hq
      rw [reconciled_find, if_neg (fun hd => hd.2.2.1 hmet), if_pos ⟨hsize, hmet⟩] at hfind
      obtain ⟨e, he, rfl⟩ := Option.map_eq_some_iff.mp hfind
      exact (equalIntervals_parse_iff hs u p e he).mp (h p hp _ hq)
    · rintro (⟨heq, -⟩ | ⟨-, h⟩) p hp q hq
      · exact absurd heq hsize
      · have hmet := ((mem_reconciled_keys_of_live hp).mp ((Table.find_isSome_iff _ p).mp ⟨q, hq⟩)).2 hsize
        rw [reconciled_find, if_neg (fun hd => hd.2.2.1 hmet), if_pos ⟨hsize, hmet⟩] at hq
        obtain ⟨e, he, rfl⟩ := Option.map_eq_some_iff.mp hq
        exact (equalIntervals_parse_iff hs u p e he).mpr (h p hp hmet.2)
  · have hfind : ∀ p, (reconciled u s).processes.find p = (dispatched u s).processes.find p := by
      intro p
      rw [reconciled_find, if_neg (fun h => hsize h.1), if_neg (fun h => hsize h.1)]
    constructor
    · intro h
      refine Or.inl ⟨not_not.mp hsize, fun p hp hk => ?_⟩
      obtain ⟨q, hq⟩ := (Table.find_isSome_iff _ p).mpr
        ((mem_reconciled_keys_of_live hp).mpr ⟨hk, fun hd => absurd hd hsize⟩)
      exact (dispatched_entry hs u p q (hfind p ▸ hq)).1.not_equalIntervals _ (h p hp q hq)
    · rintro (⟨-, h⟩ | ⟨hne, -⟩) p hp q hq
      · have hk := ((mem_reconciled_keys_of_live hp).mp ((Table.find_isSome_iff _ p).mp ⟨q, hq⟩)).1
        exact absurd hk (h p hp)
      · exact absurd hne hsize

/-- After the step every live tracked process has a percentage that was computed in it from
intervals beginning in the sampling before. -/
def PercentsCompareEqual (t : RunTrace.Step CaptureCxx Call) : Prop :=
  ∀ p ∈ t.after.pids.keySet, ∀ q, t.after.processes.find p = some q →
    q.EqualIntervals t.before.sampled t.after.calls

/-- In every run, an `Update` that returns 0 computes every percentage over equal intervals
exactly when it meets `IntervalsAgree`; so a run whose calls all meet it never shows a
percentage over unequal ones. -/
theorem cpu_percent_intervals_iff (cs : List Call) :
    (∀ t ∈ run cs, ∀ u, t.call = .update u → (update u t.before).1 = 0 →
      (PercentsCompareEqual t ↔ IntervalsAgree u t.before)) ∧
    ((∀ t ∈ run cs, ∀ u, t.call = .update u → u.stat ≠ none → IntervalsAgree u t.before) →
      ∀ t ∈ run cs, ∀ u, t.call = .update u → (update u t.before).1 = 0 → PercentsCompareEqual t) := by
  have hstep : ∀ t ∈ run cs, ∀ u, t.call = .update u → (update u t.before).1 = 0 →
      (PercentsCompareEqual t ↔ IntervalsAgree u t.before) := by
    intro t ht u hu hcode
    have hstat := (update_fst u t.before).mp hcode
    have ha := afterUpdate u t.before hstat
    unfold PercentsCompareEqual
    rw [after_update ht hu, ha.pids, ha.processes, ha.calls, ← intervalsAgree_iff (wellFormed_of_mem_run ht)]
    rfl
  exact ⟨hstep, fun h t ht u hu hcode =>
    (hstep t ht u hu hcode).mpr (h t ht u hu ((update_fst u t.before).mp hcode))⟩

def tickFiles (_ : Pid) : ProcFiles :=
  { ProcFiles.absent with
    status := some []
    cmdline := some []
    stat := some ["1 (a) S 0 0 0 0 0 0 0 0 0 0 5 7 0 0 0 0 0 0 0 0 0 0 0 0 0 0 0 0 0 0 0 0 0 0 0 0 0".toList] }

def tickInit (pids : List (Fin 10)) : InitInput := { lanInit pids with files := tickFiles }

def tickUpdate (pids : List (Fin 10)) : UpdateInput := { idleUpdate pids with files := tickFiles }

/-- The first `Update` after `Init` divides by all ticks since the system started. -/
theorem cpu_percent_unequal_intervals :
    ∃ t ∈ run [.init (tickInit [1]), .update (tickUpdate [1, 2])],
      t.call = .update (tickUpdate [1, 2]) ∧ (update (tickUpdate [1, 2]) t.before).1 = 0 ∧
        1 ∈ t.after.pids.keySet ∧
        ∃ q, t.after.processes.find 1 = some q ∧ ¬ q.EqualIntervals t.before.sampled t.after.calls := by
  refine ⟨_, List.mem_cons_of_mem _ List.mem_cons_self, rfl, ?_, by decide +kernel, ?_⟩
  · exact (update_fst _ _).mpr (by simp [tickUpdate, idleUpdate])
  · have hfind : ((update (tickUpdate [1, 2]) (next initial (.init (tickInit [1])))).2.processes.find 1).map
        (fun q => q.cpuPercent.map (fun c => c.system.before.call)) = some (some none) := by decide +kernel
    obtain ⟨q, hq, hc⟩ := Option.map_eq_some_iff.mp hfind
    refine ⟨q, hq, ?_⟩
    rintro ⟨m, c, -, hcp, -, -, hsys, -⟩
    rw [hcp, Option.map_some, hsys] at hc
    cases hc

end CaptureCxx
end Capture
