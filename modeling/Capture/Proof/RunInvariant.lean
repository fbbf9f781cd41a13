import Capture.Proof.InitEffect
import Capture.Proof.UpdateEffect

/-! # Invariants of every run

Two facts hold in every state a run reaches: the process stored under a key has that key
as its pid, and no tick reading is stamped with a call that has not been made. The second
is what tells a reading of the current call from all earlier ones. -/
namespace Capture
open SeparatedText OrderedTable

set_option autoImplicit false

/-! ## Stamps -/

/-- Read in call `n` or earlier, if it was read at all. -/
def Sample.UpTo (n : ℕ) (x : Sample) : Prop := ∀ c, x.call = some c → c ≤ n

def Interval.UpTo (n : ℕ) (i : Interval) : Prop := i.before.UpTo n ∧ i.now.UpTo n

def CapProcess.UpTo (n : ℕ) (p : CapProcess) : Prop :=
  p.cpu.UpTo n ∧ p.deltaCpu.UpTo n ∧ ∀ c, p.cpuPercent = some c → c.process.UpTo n ∧ c.system.UpTo n

theorem Sample.initial_upTo (n : ℕ) : Sample.initial.UpTo n := by
  intro c h
  cases h

theorem Sample.now_upTo (n : ℕ) (t : UInt64) : (⟨t, some n⟩ : Sample).UpTo n := by
  intro c h
  cases h
  exact le_rfl

theorem Sample.UpTo.mono {n m : ℕ} {x : Sample} (h : x.UpTo n) (hnm : n ≤ m) : x.UpTo m :=
  fun c hc => (h c hc).trans hnm

theorem Interval.UpTo.mono {n m : ℕ} {i : Interval} (h : i.UpTo n) (hnm : n ≤ m) : i.UpTo m :=
  ⟨h.1.mono hnm, h.2.mono hnm⟩

theorem Sample.UpTo.call_ne {n : ℕ} {x : Sample} (h : x.UpTo n) : x.call ≠ some (n + 1) :=
  fun hc => absurd (h (n + 1) hc) (by omega)

namespace CapProcess

theorem UpTo.mono {n m : ℕ} {p : CapProcess} (h : p.UpTo n) (hnm : n ≤ m) : p.UpTo m :=
  ⟨h.1.mono hnm, h.2.1.mono hnm, fun c hc => ⟨(h.2.2 c hc).1.mono hnm, (h.2.2 c hc).2.mono hnm⟩⟩

theorem UpTo.congr {n : ℕ} {p q : CapProcess} (h : p.UpTo n) (hpq : q.cpuFields = p.cpuFields) : q.UpTo n := by
  have hcpu : q.cpu = p.cpu := congrArg Prod.fst hpq
  have hdelta : q.deltaCpu = p.deltaCpu := congrArg (fun x => x.2.1) hpq
  have hpercent : q.cpuPercent = p.cpuPercent := congrArg (fun x => x.2.2) hpq
  unfold UpTo
  rw [hcpu, hdelta, hpercent]
  exact h

theorem new_upTo (n : ℕ) (pid : Pid) : ({ pid := pid } : CapProcess).UpTo n :=
  ⟨Sample.initial_upTo n, ⟨Sample.initial_upTo n, Sample.initial_upTo n⟩, fun _ h => by cases h⟩

theorem foldl_advance_upTo (n : ℕ) (ts : List UInt64) (p : CapProcess) (hc : p.cpu.UpTo n) (hd : p.deltaCpu.UpTo n) :
    (ts.foldl (advance n) p).cpu.UpTo n ∧ (ts.foldl (advance n) p).deltaCpu.UpTo n := by
  induction ts generalizing p with
  | nil => exact ⟨hc, hd⟩
  | cons t ts ih => exact ih (advance n p t) (Sample.now_upTo n t) ⟨hc, Sample.now_upTo n t⟩

theorem parse_upTo (n : ℕ) (files : ProcFiles) (imemory : UInt64) (ideltacpu : Interval) (p : CapProcess)
    (hp : p.UpTo n) (hi : ideltacpu.UpTo n) : (parse n files imemory ideltacpu p).UpTo n := by
  by_cases h : p.pid = -1 ∨ ticksRead files = none
  · exact hp.congr (parse_of_ticksRead_none n files imemory ideltacpu p h).2
  · obtain ⟨hpid, hts⟩ := not_or.mp h
    obtain ⟨ts, hts⟩ := Option.ne_none_iff_exists'.mp hts
    have hbefore := hp.congr (beforeStat_keeps files imemory p).2
    obtain ⟨hcpu, hdelta⟩ := foldl_advance_upTo n ts _ hbefore.1 hbefore.2.1
    rw [parse_of_ticksRead_some n files imemory ideltacpu p ts hpid hts]
    refine ⟨hcpu, hdelta, fun c hc => ?_⟩
    cases hc
    exact ⟨hdelta, hi⟩

theorem parse_pid (n : ℕ) (files : ProcFiles) (imemory : UInt64) (ideltacpu : Interval) (p : CapProcess) :
    (parse n files imemory ideltacpu p).pid = p.pid :=
  congrArg Prod.fst (parse_traffic n files imemory ideltacpu p)

end CapProcess

namespace CaptureCxx

/-! ## The invariant -/

def Stored (n : ℕ) (k : Pid) (q : CapProcess) : Prop := q.pid = k ∧ q.UpTo n

structure WellFormed (s : CaptureCxx) : Prop where
  stored : ∀ k q, s.processes.find k = some q → Stored s.calls k q
  cpu : s.cpu.UpTo s.calls
  deltaCpu : s.deltaCpu.UpTo s.calls
  sampled : ∀ n, s.sampled = some n → n ≤ s.calls

theorem initial_wellFormed : WellFormed initial where
  stored := by
    intro k q h
    cases h
  cpu := Sample.initial_upTo _
  deltaCpu := ⟨Sample.initial_upTo _, Sample.initial_upTo _⟩
  sampled := by
    intro n h
    cases h

theorem Stored.mono {n m : ℕ} {k : Pid} {q : CapProcess} (h : Stored n k q) (hnm : n ≤ m) : Stored m k q :=
  ⟨h.1, h.2.mono hnm⟩

theorem Stored.parse {n : ℕ} {k : Pid} {q : CapProcess} (h : Stored n k q) {deltaCpu : Interval}
    (hd : deltaCpu.UpTo n) (files : ProcFiles) (memory : UInt64) :
    Stored n k (CapProcess.parse n files memory deltaCpu q) :=
  ⟨(CapProcess.parse_pid n files memory deltaCpu q).trans h.1, CapProcess.parse_upTo n files memory deltaCpu q h.2 hd⟩

theorem stored_new (n : ℕ) (pid : Pid) : Stored n pid { pid := pid } := ⟨rfl, CapProcess.new_upTo n pid⟩

/-! ## `Init` keeps it -/

theorem WellFormed.of_closed {s s' : CaptureCxx} (h : WellFormed s) (hc : s'.closed = s.closed) : WellFormed s' := by
  have hproc : s'.processes = s.processes := (congrArg CaptureCxx.processes hc :)
  have hcalls : s'.calls = s.calls := (congrArg CaptureCxx.calls hc :)
  have hcpu : s'.cpu = s.cpu := (congrArg CaptureCxx.cpu hc :)
  have hdelta : s'.deltaCpu = s.deltaCpu := (congrArg CaptureCxx.deltaCpu hc :)
  have hsampled : s'.sampled = s.sampled := (congrArg CaptureCxx.sampled hc :)
  exact ⟨by rw [hproc, hcalls]; exact h.stored, by rw [hcpu, hcalls]; exact h.cpu,
    by rw [hdelta, hcalls]; exact h.deltaCpu, by rw [hsampled, hcalls]; exact h.sampled⟩

theorem WellFormed.prepare {s : CaptureCxx} (h : WellFormed s) (i : InitInput) : WellFormed (prepare i s) := by
  have hle : s.calls ≤ s.calls + 1 := Nat.le_succ _
  rw [prepare_eq]
  exact ⟨fun k q hq => (h.stored k q hq).mono hle, h.cpu.mono hle, h.deltaCpu.mono hle,
    fun n hn => (h.sampled n hn).trans hle⟩

theorem WellFormed.newProcess {s : CaptureCxx} (h : WellFormed s) (files : Pid → ProcFiles) (pid : Pid) :
    WellFormed (newProcess files s pid) :=
  ⟨Table.forall_insert h.stored ((stored_new s.calls pid).parse h.deltaCpu (files pid) s.memory), h.cpu, h.deltaCpu,
    h.sampled⟩

theorem WellFormed.foldl_newProcess {s : CaptureCxx} (h : WellFormed s) (files : Pid → ProcFiles) (pids : List Pid) :
    WellFormed (pids.foldl (CaptureCxx.newProcess files) s) := by
  induction pids generalizing s with
  | nil => exact h
  | cons pid pids ih => exact ih (h.newProcess files pid)

theorem WellFormed.init {s : CaptureCxx} (h : WellFormed s) (i : InitInput) : WellFormed (init i s).2 := by
  have hprep := h.prepare i
  by_cases hnil : (CaptureCxx.prepare i s).devices = []
  · rw [init_of_no_device i s hnil]
    exact hprep
  · have hopen := hprep.of_closed (closed_openHandles i.fliter i.pcap (CaptureCxx.prepare i s).devices 0 _)
    have hsurveyed : WellFormed (surveyed i s) := ⟨hopen.stored, hopen.cpu, hopen.deltaCpu, hopen.sampled⟩
    have hfold := hsurveyed.foldl_newProcess i.files (snapshot i.proc).keys
    rw [init_of_devices i s hnil]
    exact ⟨hfold.stored, hfold.cpu, hfold.deltaCpu, fun n hn => by cases hn; exact le_rfl⟩

/-! ## `Update` keeps it -/

theorem newDelta_upTo {s : CaptureCxx} (h : WellFormed s) (u : UpdateInput) :
    (newDelta u s).UpTo (s.calls + 1) := by
  unfold newDelta
  split
  · exact h.deltaCpu.mono (Nat.le_succ _)
  · exact ⟨h.cpu.mono (Nat.le_succ _), Sample.now_upTo _ _⟩

theorem timed_cpu (u : UpdateInput) (s : CaptureCxx) :
    (timed u s).cpu = ((cpuReading u).map fun now => ⟨now, some (s.calls + 1)⟩).getD s.cpu := by
  rw [timed_eq]

theorem dispatched_stored {s : CaptureCxx} (h : WellFormed s) (u : UpdateInput) (k : Pid) (q : CapProcess)
    (hq : (dispatched u s).processes.find k = some q) : Stored (s.calls + 1) k q := by
  rcases (afterDispatch u s).origin k q hq with ⟨e, he, hpid, hfields⟩ | ⟨-, hpid, files, hfields⟩
  · have hstored := (h.stored k e he).mono (Nat.le_succ _)
    exact ⟨hpid.trans hstored.1, hstored.2.congr hfields⟩
  · have hnew := (stored_new (s.calls + 1) k).parse (h.deltaCpu.mono (Nat.le_succ _)) files s.memory
    exact ⟨hpid, hnew.2.congr hfields⟩

theorem reconciled_stored {s : CaptureCxx} (h : WellFormed s) (u : UpdateInput) (k : Pid) (q : CapProcess)
    (hq : (reconciled u s).processes.find k = some q) : Stored (s.calls + 1) k q := by
  rw [reconciled_find] at hq
  split at hq
  · cases hq
  · split at hq
    · obtain ⟨e, he, rfl⟩ := Option.map_eq_some_iff.mp hq
      exact (dispatched_stored h u k e he).parse (newDelta_upTo h u) (u.files k) s.memory
    · exact dispatched_stored h u k q hq

theorem WellFormed.update {s : CaptureCxx} (h : WellFormed s) (u : UpdateInput) : WellFormed (update u s).2 := by
  by_cases hstat : u.stat = none
  · have hd := afterDispatch u s
    rw [update_of_stat_none u s hstat]
    refine ⟨?_, ?_, ?_, ?_⟩
    · rw [hd.calls]
      exact dispatched_stored h u
    · rw [hd.calls, hd.cpu]
      exact h.cpu.mono (Nat.le_succ _)
    · rw [hd.calls, hd.deltaCpu]
      exact h.deltaCpu.mono (Nat.le_succ _)
    · intro n hn
      rw [hd.sampled] at hn
      rw [hd.calls]
      exact (h.sampled n hn).trans (Nat.le_succ _)
  · have ha := afterUpdate u s hstat
    refine ⟨?_, ?_, ?_, ?_⟩
    · rw [ha.processes, ha.calls]
      exact reconciled_stored h u
    · rw [ha.cpu, ha.calls, timed_cpu]
      cases cpuReading u with
      | none => exact h.cpu.mono (Nat.le_succ _)
      | some now => exact Sample.now_upTo _ _
    · rw [ha.deltaCpu, ha.calls]
      exact newDelta_upTo h u
    · intro n hn
      rw [ha.sampled] at hn
      cases hn
      exact ha.calls.ge

/-! ## Every run -/

theorem WellFormed.next {s : CaptureCxx} (h : WellFormed s) (c : Call) : WellFormed (next s c) := by
  cases c with
  | init i => exact h.init i
  | update u => exact h.update u
  | shutdown => exact h

theorem wellFormed_of_mem_run {cs : List Call} {t : RunTrace.Step CaptureCxx Call} (h : t ∈ run cs) :
    WellFormed t.before :=
  RunTrace.invariant_of_mem_steps next WellFormed (fun _ c hs => hs.next c) initial initial_wellFormed cs t h

/-- The state the calls lead to. -/
def reached (cs : List Call) : CaptureCxx := cs.foldl next initial

theorem reached_append (cs ds : List Call) : reached (cs ++ ds) = ds.foldl next (reached cs) := List.foldl_append

theorem reached_wellFormed (cs : List Call) : WellFormed (reached cs) :=
  RunTrace.invariant_of_foldl next WellFormed (fun _ c hs => hs.next c) initial initial_wellFormed cs

theorem after_update {cs : List Call} {t : RunTrace.Step CaptureCxx Call} (h : t ∈ run cs) {u : UpdateInput}
    (hu : t.call = .update u) : t.after = (update u t.before).2 := by
  rw [RunTrace.after_of_mem_steps next initial cs t h, hu]
  rfl

end CaptureCxx
end Capture
