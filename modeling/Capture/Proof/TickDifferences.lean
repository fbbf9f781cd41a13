import Capture.Proof.Attribution

/-! # Differences of tick counts

`GetCpuTotal` and `ParseStat` subtract the previous count from the new one in `uint64_t`,
and a percentage multiplies the difference by 100. The README means the difference of the
two numbers. The previous count of a process belongs to whatever had its pid when the entry
was parsed last, and the system's includes `iowait`, so a new count can be the smaller one;
nothing in the code looks. Over every run the arithmetic is exact exactly when no count
is below the one before it and no difference is too large (`tick_differences_exact_iff`). -/
namespace Capture
open SeparatedText OrderedTable

set_option autoImplicit false

/-! ## The arithmetic -/

/-- `now - before` is the difference of the two numbers. -/
def ExactDifference (before now : UInt64) : Prop := ((now - before).toNat : ℤ) = (now.toNat : ℤ) - before.toNat

/-- `delta * 100` is the product of the two numbers. -/
def ExactScaled (delta : UInt64) : Prop := (delta * 100).toNat = delta.toNat * 100

theorem exactDifference_iff (before now : UInt64) : ExactDifference before now ↔ before ≤ now := by
  have hb := before.toNat_lt
  have hn := now.toNat_lt
  unfold ExactDifference
  rw [UInt64.toNat_sub, UInt64.le_iff_toNat_le]
  constructor
  · intro h
    omega
  · intro h
    omega

theorem exactScaled_iff (delta : UInt64) : ExactScaled delta ↔ delta.toNat * 100 < 2 ^ 64 := by
  unfold ExactScaled
  rw [UInt64.toNat_mul]
  exact Nat.mod_eq_iff_lt (by decide)

theorem exactScaled_new (pid : Pid) : ExactScaled ({ pid := pid } : CapProcess).deltaCpu.ticks := by
  have hzero : ({ pid := pid } : CapProcess).deltaCpu.ticks = 0 := UInt64.sub_self 0
  rw [hzero]
  exact (exactScaled_iff 0).mpr (by decide)

/-- Each count with the one before it, the first with `cpu`. -/
def successive (cpu : UInt64) (ts : List UInt64) : List (UInt64 × UInt64) := (cpu :: ts).zip ts

theorem successive_cons (cpu t : UInt64) (ts : List UInt64) :
    successive cpu (t :: ts) = (cpu, t) :: successive t ts := rfl

namespace CapProcess

/-- What a parse leaves in `deltaCpu`: the last of its differences, or the old value. -/
theorem foldl_advance_delta (n : ℕ) (ts : List UInt64) (p : CapProcess) :
    (ts.foldl (advance n) p).deltaCpu.ticks =
      (((successive p.cpu.ticks ts).getLast?.map fun y => y.2 - y.1).getD p.deltaCpu.ticks) := by
  induction ts generalizing p with
  | nil => rfl
  | cons t ts ih =>
    rw [List.foldl_cons, ih, successive_cons, List.getLast?_cons]
    have hcpu : (advance n p t).cpu.ticks = t := rfl
    have hdelta : (advance n p t).deltaCpu.ticks = t - p.cpu.ticks := rfl
    rw [hcpu, hdelta]
    cases (successive t ts).getLast? <;> rfl

end CapProcess

/-! ## One parse -/

/-- A call of `CapProcess::Parse` on `entry`. -/
structure EntryParse where
  call : ℕ
  files : ProcFiles
  imemory : UInt64
  ideltacpu : Interval
  entry : CapProcess

namespace EntryParse

def result (x : EntryParse) : CapProcess := CapProcess.parse x.call x.files x.imemory x.ideltacpu x.entry

/-- The counts the parse reads, if it gets as far as reading any. -/
def ticks (x : EntryParse) : Option (List UInt64) := if x.entry.pid = -1 then none else CapProcess.ticksRead x.files

/-- No subtraction and no multiplication of the parse wraps. -/
def Exact (x : EntryParse) : Prop :=
  ∀ ts, x.ticks = some ts → (∀ y ∈ successive x.entry.cpu.ticks ts, ExactDifference y.1 y.2) ∧
    ExactScaled x.result.deltaCpu.ticks

/-- The counts do not go down, and the last of them has not grown beyond what `* 100` can hold. -/
def Grows (x : EntryParse) : Prop :=
  ∀ ts, x.ticks = some ts → (∀ y ∈ successive x.entry.cpu.ticks ts, y.1 ≤ y.2) ∧
    ∀ y, (successive x.entry.cpu.ticks ts).getLast? = some y → (y.2.toNat - y.1.toNat) * 100 < 2 ^ 64

theorem result_of_ticks_none {x : EntryParse} (h : x.ticks = none) : x.result.cpuFields = x.entry.cpuFields := by
  refine (CapProcess.parse_of_ticksRead_none x.call x.files x.imemory x.ideltacpu x.entry ?_).2
  unfold ticks at h
  split at h
  · next hpid => exact Or.inl hpid
  · exact Or.inr h

theorem result_delta {x : EntryParse} {ts : List UInt64} (h : x.ticks = some ts) :
    x.result.deltaCpu.ticks =
      (((successive x.entry.cpu.ticks ts).getLast?.map fun y => y.2 - y.1).getD x.entry.deltaCpu.ticks) := by
  unfold ticks at h
  split at h
  · cases h
  · next hpid =>
    have hkeeps := (CapProcess.beforeStat_keeps x.files x.imemory x.entry).2
    have hcpu : (CapProcess.beforeStat x.files x.imemory x.entry).cpu = x.entry.cpu := congrArg Prod.fst hkeeps
    have hdelta : (CapProcess.beforeStat x.files x.imemory x.entry).deltaCpu = x.entry.deltaCpu :=
      congrArg (fun f => f.2.1) hkeeps
    rw [result, CapProcess.parse_of_ticksRead_some x.call x.files x.imemory x.ideltacpu x.entry ts hpid h]
    dsimp only
    rw [CapProcess.foldl_advance_delta, hcpu, hdelta]

theorem exactScaled_sub_iff {before now : UInt64} (h : before ≤ now) :
    ExactScaled (now - before) ↔ (now.toNat - before.toNat) * 100 < 2 ^ 64 := by
  rw [exactScaled_iff, UInt64.toNat_sub_of_le _ _ h]

theorem Exact.grows {x : EntryParse} (h : x.Exact) : x.Grows := by
  intro ts hts
  obtain ⟨hdifference, hscaled⟩ := h ts hts
  have hle : ∀ y ∈ successive x.entry.cpu.ticks ts, y.1 ≤ y.2 := fun y hy =>
    (exactDifference_iff y.1 y.2).mp (hdifference y hy)
  refine ⟨hle, fun y hy => ?_⟩
  rw [result_delta hts, hy] at hscaled
  exact (exactScaled_sub_iff (hle y (List.mem_of_getLast? hy))).mp hscaled

/-- An entry whose difference is small enough to be scaled has such a difference after the parse. -/
theorem Grows.scaled {x : EntryParse} (h : x.Grows) (hentry : ExactScaled x.entry.deltaCpu.ticks) :
    ExactScaled x.result.deltaCpu.ticks := by
  cases hts : x.ticks with
  | none =>
    have hdelta : x.result.deltaCpu = x.entry.deltaCpu := congrArg (fun f => f.2.1) (result_of_ticks_none hts)
    rw [hdelta]
    exact hentry
  | some ts =>
    obtain ⟨hle, hlast⟩ := h ts hts
    rw [result_delta hts]
    cases hy : (successive x.entry.cpu.ticks ts).getLast? with
    | none => exact hentry
    | some y => exact (exactScaled_sub_iff (hle y (List.mem_of_getLast? hy))).mpr (hlast y hy)

theorem Grows.exact {x : EntryParse} (h : x.Grows) (hentry : ExactScaled x.entry.deltaCpu.ticks) : x.Exact :=
  fun ts hts => ⟨fun y hy => (exactDifference_iff y.1 y.2).mpr ((h ts hts).1 y hy), h.scaled hentry⟩

end EntryParse

namespace CaptureCxx

/-! ## The parses of a call -/

/-- `Parse` is called for every pid of the snapshot in `Init`, for a pid a frame resolves to
when it has no entry yet, and for the pids the reconciliation meets. -/
inductive Parses (s : CaptureCxx) : Call → EntryParse → Prop
  | init (i : InitInput) (pid : Pid) (hdevices : (prepare i s).devices ≠ []) (hpid : pid ∈ (snapshot i.proc).keys) :
      Parses s (.init i) ⟨s.calls + 1, i.files pid, (prepare i s).memory, s.deltaCpu, { pid := pid }⟩
  | frame (u : UpdateInput) (σ : CaptureCxx) (x : CapHandle × Frame) (a : Attributed) (hx : Handles u s σ x)
      (ha : x.1.attribute σ.devices σ.inodes x.2 = some a) (hnew : σ.processes.find a.pid = none) :
      Parses s (.update u) ⟨s.calls + 1, x.2.files a.pid, s.memory, s.deltaCpu, { pid := a.pid }⟩
  | reconcile (u : UpdateInput) (pid : Pid) (q : CapProcess) (hstat : u.stat ≠ none) (hsize : SizesDiffer u s)
      (hmet : Met u s pid) (hq : (dispatched u s).processes.find pid = some q) :
      Parses s (.update u) ⟨s.calls + 1, u.files pid, s.memory, newDelta u s, q⟩

/-! ### They are the parses the log names -/

theorem mem_storePacket_parse (reused appended : PacketType) (cap : CapPacket) (f : Frame) (offset : ℕ) (s : CaptureCxx)
    (pid : Pid) (imemory : UInt64) (ideltacpu : Interval) :
    .parse pid imemory ideltacpu ∈ (storePacket reused appended cap f offset s).log ↔
      .parse pid imemory ideltacpu ∈ s.log := by
  obtain ⟨es, hlog, hes⟩ := storePacket_log reused appended cap f offset s
  have hnot : Event.parse pid imemory ideltacpu ∉ es := by
    intro he
    rcases hes _ he with ⟨o, n, h⟩ | ⟨j, d, h⟩
    · cases h
    · cases h
  rw [hlog, List.mem_append]
  exact or_iff_left hnot

theorem mem_addPacket_parse (files : Pid → ProcFiles) (k : Pid) (cap : CapPacket) (s : CaptureCxx) (pid : Pid)
    (imemory : UInt64) (ideltacpu : Interval) :
    .parse pid imemory ideltacpu ∈ (addPacket files k cap s).log ↔ .parse pid imemory ideltacpu ∈ s.log ∨
      s.processes.find k = none ∧ k = pid ∧ s.memory = imemory ∧ s.deltaCpu = ideltacpu := by
  unfold addPacket
  cases s.processes.find k with
  | some ptr => exact (or_iff_left (fun h => nomatch h.1)).symm
  | none =>
    simp only [emit, List.mem_append, List.mem_singleton, reduceCtorEq, or_false, Event.parse.injEq, true_and]
    exact or_congr_right ⟨fun h => ⟨h.1.symm, h.2.1.symm, h.2.2.symm⟩, fun h => ⟨h.1.symm, h.2.1.symm, h.2.2.symm⟩⟩

theorem mem_feed_parse (s : CaptureCxx) (x : CapHandle × Frame) (pid : Pid) (imemory : UInt64) (ideltacpu : Interval) :
    .parse pid imemory ideltacpu ∈ (feed s x).log ↔ .parse pid imemory ideltacpu ∈ s.log ∨
      ∃ a, x.1.attribute s.devices s.inodes x.2 = some a ∧ s.processes.find a.pid = none ∧ a.pid = pid ∧
        s.memory = imemory ∧ s.deltaCpu = ideltacpu := by
  obtain ⟨es, hes, hx⟩ := feed_settles s x
  have hnot : Event.parse pid imemory ideltacpu ∉ announced x.1 x.2 ++ es := by
    intro he
    rcases List.mem_append.mp he with he | he
    · cases mem_announced he
    · exact hes _ he
  have hextended : .parse pid imemory ideltacpu ∈ (extend (announced x.1 x.2 ++ es) s).log ↔
      .parse pid imemory ideltacpu ∈ s.log := by
    rw [extend, List.mem_append]
    exact or_iff_left hnot
  rw [hx]
  cases x.1.attribute s.devices s.inodes x.2 with
  | none =>
    rw [settle, hextended]
    refine (or_iff_left ?_).symm
    rintro ⟨a, ha, -⟩
    cases ha
  | some a =>
    rw [settle, absorb, mem_storePacket_parse, mem_addPacket_parse, hextended]
    refine or_congr_right ⟨fun h => ⟨a, rfl, h⟩, ?_⟩
    rintro ⟨a', ha, h⟩
    cases ha
    exact h

theorem mem_foldl_feed_parse (xs : List (CapHandle × Frame)) (s : CaptureCxx) (pid : Pid) (imemory : UInt64)
    (ideltacpu : Interval) :
    .parse pid imemory ideltacpu ∈ (xs.foldl feed s).log ↔ .parse pid imemory ideltacpu ∈ s.log ∨
      ∃ pre x post a, xs = pre ++ x :: post ∧
        x.1.attribute (pre.foldl feed s).devices (pre.foldl feed s).inodes x.2 = some a ∧
        (pre.foldl feed s).processes.find a.pid = none ∧ a.pid = pid ∧ s.memory = imemory ∧ s.deltaCpu = ideltacpu := by
  induction xs generalizing s with
  | nil =>
    refine (or_iff_left ?_).symm
    rintro ⟨pre, x, post, a, hsplit, -⟩
    cases pre <;> cases hsplit
  | cons x xs ih =>
    rw [List.foldl_cons, ih, mem_feed_parse, feed_memory, feed_deltaCpu, or_assoc]
    refine or_congr_right ⟨?_, ?_⟩
    · rintro (⟨a, ha, h⟩ | ⟨pre, y, post, a, rfl, ha, h⟩)
      · exact ⟨[], x, xs, a, rfl, ha, h⟩
      · exact ⟨x :: pre, y, post, a, rfl, ha, h⟩
    · rintro ⟨pre, y, post, a, hsplit, ha, h⟩
      cases pre with
      | nil =>
        cases hsplit
        exact Or.inl ⟨a, ha, h⟩
      | cons x' pre =>
        cases hsplit
        exact Or.inr ⟨pre, y, post, a, rfl, ha, h⟩

theorem mem_dispatched_parse (u : UpdateInput) (s : CaptureCxx) (pid : Pid) (imemory : UInt64) (ideltacpu : Interval) :
    .parse pid imemory ideltacpu ∈ (dispatched u s).log ↔
      ∃ σ x a, Handles u s σ x ∧ x.1.attribute σ.devices σ.inodes x.2 = some a ∧ σ.processes.find a.pid = none ∧
        a.pid = pid ∧ s.memory = imemory ∧ s.deltaCpu = ideltacpu := by
  obtain ⟨hs, -, hstate⟩ := dispatched_eq u s
  have hfold := mem_foldl_feed_parse (delivered u.dispatch 0 s.handles) (beginUpdate u s) pid imemory ideltacpu
  rw [hstate]
  refine hfold.trans ?_
  constructor
  · rintro (h | ⟨pre, x, post, a, hsplit, h⟩)
    · cases h
    · exact ⟨_, x, a, ⟨pre, post, hsplit, rfl⟩, h⟩
  · rintro ⟨σ, x, a, ⟨pre, post, hsplit, rfl⟩, h⟩
    exact Or.inr ⟨pre, x, post, a, hsplit, h⟩

theorem met_entry {u : UpdateInput} {s : CaptureCxx} {pid : Pid} (h : Met u s pid) :
    ∃ q, (dispatched u s).processes.find pid = some q := by
  have hkey := (timed_keys u s pid).mpr (h.2 pid h.1 le_rfl)
  rw [(timed_frame u s).1] at hkey
  exact (Table.find_isSome_iff _ _).mpr hkey

theorem mem_update_parse (u : UpdateInput) (s : CaptureCxx) (pid : Pid) (imemory : UInt64) (ideltacpu : Interval) :
    .parse pid imemory ideltacpu ∈ (update u s).2.log ↔ .parse pid imemory ideltacpu ∈ (dispatched u s).log ∨
      u.stat ≠ none ∧ SizesDiffer u s ∧ Met u s pid ∧ imemory = s.memory ∧ ideltacpu = newDelta u s := by
  by_cases hstat : u.stat = none
  · rw [update_of_stat_none u s hstat]
    exact (or_iff_left (fun h => h.1 hstat)).symm
  · rw [mem_log_update_iff u s hstat, mem_reconcileEvents]
    refine or_congr_right ?_
    constructor
    · rintro (⟨hsize, ⟨k, -, hk⟩ | ⟨k, hmet, hk⟩⟩ | h | h)
      · obtain ⟨-, h⟩ | h := (mem_removeEvents_iff _ _ _).mp hk
        · cases h
        · cases h
      · cases hk
        exact ⟨hstat, hsize, hmet, rfl, rfl⟩
      · cases ((mem_processReport_iff _ _).mp h).2
      · unfold packetReport at h
        split at h
        · cases List.mem_singleton.mp h
        · cases h
    · rintro ⟨-, hsize, hmet, rfl, rfl⟩
      exact Or.inl ⟨hsize, Or.inr ⟨pid, hmet, rfl⟩⟩

/-- In an `Update`, `Parses` holds of the parses the log names. -/
theorem update_parse_logged_iff {s : CaptureCxx} (hs : WellFormed s) (u : UpdateInput) (pid : Pid) (imemory : UInt64)
    (ideltacpu : Interval) :
    .parse pid imemory ideltacpu ∈ (update u s).2.log ↔
      ∃ x, Parses s (.update u) x ∧ x.entry.pid = pid ∧ x.imemory = imemory ∧ x.ideltacpu = ideltacpu := by
  rw [mem_update_parse, mem_dispatched_parse]
  constructor
  · rintro (⟨σ, x, a, hx, ha, hnew, rfl, rfl, rfl⟩ | ⟨hstat, hsize, hmet, rfl, rfl⟩)
    · exact ⟨_, Parses.frame u σ x a hx ha hnew, rfl, rfl, rfl⟩
    · obtain ⟨q, hq⟩ := met_entry hmet
      exact ⟨_, Parses.reconcile u pid q hstat hsize hmet hq, (dispatched_stored hs u pid q hq).1, rfl, rfl⟩
  · rintro ⟨x, hx, rfl, rfl, rfl⟩
    cases hx with
    | frame u σ x a hx ha hnew => exact Or.inl ⟨σ, x, a, hx, ha, hnew, rfl, rfl, rfl⟩
    | reconcile u pid q hstat hsize hmet hq =>
      have hpid : q.pid = pid := (dispatched_stored hs u pid q hq).1
      exact Or.inr ⟨hstat, hsize, hpid ▸ hmet, rfl, rfl⟩

/-- Opening handles parses nothing. -/
theorem openDevice_parse (fliter : Bool) (device : Text) (o : PcapOpen) (s : CaptureCxx) (pid : Pid)
    (imemory : UInt64) (ideltacpu : Interval) :
    .parse pid imemory ideltacpu ∈ (openDevice fliter device o s).log ↔ .parse pid imemory ideltacpu ∈ s.log := by
  have hgrant : .parse pid imemory ideltacpu ∈ (grantPcap s).log ↔ .parse pid imemory ideltacpu ∈ s.log := by
    simp [grantPcap, emit]
  cases h : o.opened with
  | false => rw [openDevice_unopened fliter device o s h]
  | true =>
    rcases openDevice_cases fliter device o s h with ⟨-, heq⟩ | ⟨-, -, heq⟩ | ⟨-, -, heq⟩
    · rw [heq, hgrant]
    · rw [heq, ← hgrant]
      simp [emit]
    · rw [heq]
      exact hgrant

theorem openHandles_parse (fliter : Bool) (pcap : ℕ → PcapOpen) (ds : List CapDevice) (idx : ℕ) (s : CaptureCxx)
    (pid : Pid) (imemory : UInt64) (ideltacpu : Interval) :
    .parse pid imemory ideltacpu ∈ (openHandles fliter pcap idx ds s).log ↔ .parse pid imemory ideltacpu ∈ s.log := by
  induction ds generalizing idx s with
  | nil => exact Iff.rfl
  | cons d ds ih => rw [openHandles, ih, openDevice_parse]

theorem mem_foldl_newProcess_parse (files : Pid → ProcFiles) (pids : List Pid) (s : CaptureCxx) (pid : Pid)
    (imemory : UInt64) (ideltacpu : Interval) :
    .parse pid imemory ideltacpu ∈ (pids.foldl (newProcess files) s).log ↔
      .parse pid imemory ideltacpu ∈ s.log ∨ pid ∈ pids ∧ imemory = s.memory ∧ ideltacpu = s.deltaCpu := by
  induction pids generalizing s with
  | nil => simp
  | cons k pids ih =>
    have hone : .parse pid imemory ideltacpu ∈ (newProcess files s k).log ↔
        .parse pid imemory ideltacpu ∈ s.log ∨ pid = k ∧ imemory = s.memory ∧ ideltacpu = s.deltaCpu := by
      simp [newProcess, emit]
    have hmemory : (newProcess files s k).memory = s.memory := rfl
    have hdelta : (newProcess files s k).deltaCpu = s.deltaCpu := rfl
    rw [List.foldl_cons, ih, hone, hmemory, hdelta, List.mem_cons, or_assoc, or_and_right]

/-- In an `Init`, too. -/
theorem init_parse_logged_iff (i : InitInput) (s : CaptureCxx) (pid : Pid) (imemory : UInt64) (ideltacpu : Interval) :
    .parse pid imemory ideltacpu ∈ (init i s).2.log ↔
      ∃ x, Parses s (.init i) x ∧ x.entry.pid = pid ∧ x.imemory = imemory ∧ x.ideltacpu = ideltacpu := by
  by_cases hnil : (prepare i s).devices = []
  · rw [init_of_no_device i s hnil, prepare_log]
    refine iff_of_false (fun h => nomatch h) ?_
    rintro ⟨x, hx, -⟩
    cases hx with
    | init i k hdevices => exact hdevices hnil
  · have hopened : .parse pid imemory ideltacpu ∈ (surveyed i s).log ↔
        .parse pid imemory ideltacpu ∈ (prepare i s).log :=
      openHandles_parse i.fliter i.pcap (prepare i s).devices 0 (prepare i s) pid imemory ideltacpu
    rw [init_of_devices i s hnil]
    refine (mem_foldl_newProcess_parse i.files (snapshot i.proc).keys (surveyed i s) pid imemory ideltacpu).trans ?_
    rw [hopened, prepare_log]
    constructor
    · rintro (h | ⟨hpid, rfl, rfl⟩)
      · cases h
      · exact ⟨_, Parses.init i pid hnil hpid, rfl, (surveyed_memory i s).symm, (surveyed_deltaCpu i s).symm⟩
    · rintro ⟨x, hx, rfl, rfl, rfl⟩
      cases hx with
      | init i k hdevices hpid => exact Or.inr ⟨hpid, (surveyed_memory i s).symm, (surveyed_deltaCpu i s).symm⟩

/-! ## What a parse keeps, a call keeps

A property of entries that depends on their cpu fields only, holds of a new entry and is
kept by every parse of the call, is kept by the call. -/

section Entries
variable {P : CapProcess → Prop}

theorem dispatched_entries (hcongr : ∀ p q : CapProcess, q.cpuFields = p.cpuFields → P p → P q)
    (hnew : ∀ pid, P { pid := pid }) {s : CaptureCxx} (hs : ∀ k q, s.processes.find k = some q → P q) (u : UpdateInput)
    (hparse : ∀ x, Parses s (.update u) x → P x.entry → P x.result) :
    ∀ k q, (dispatched u s).processes.find k = some q → P q := by
  have hprefix : ∀ pre post, delivered u.dispatch 0 s.handles = pre ++ post →
      ∀ k q, (pre.foldl feed (beginUpdate u s)).processes.find k = some q → P q := by
    intro pre
    induction pre using List.reverseRecOn with
    | nil => exact fun _ _ => hs
    | append_singleton pre x ih =>
      intro post hsplit
      rw [List.append_assoc, List.singleton_append] at hsplit
      have hx : Handles u s (pre.foldl feed (beginUpdate u s)) x := ⟨pre, post, hsplit, rfl⟩
      have hold := ih (x :: post) hsplit
      rw [List.foldl_append, List.foldl_cons, List.foldl_nil, feed_processes]
      cases ha : x.1.attribute (pre.foldl feed (beginUpdate u s)).devices (pre.foldl feed (beginUpdate u s)).inodes x.2 with
      | none => exact hold
      | some a =>
        refine Table.forall_insert hold ?_
        unfold credited
        refine hcongr _ _ (addPacket_keeps _ a.cap _).2 ?_
        cases hfind : (pre.foldl feed (beginUpdate u s)).processes.find a.pid with
        | some e => exact hold a.pid e hfind
        | none =>
          have hcalls : (pre.foldl feed (beginUpdate u s)).calls = s.calls + 1 := (congrArg CaptureCxx.calls hx.settings :)
          have hmemory : (pre.foldl feed (beginUpdate u s)).memory = s.memory := (congrArg CaptureCxx.memory hx.settings :)
          have hdelta : (pre.foldl feed (beginUpdate u s)).deltaCpu = s.deltaCpu :=
            (congrArg CaptureCxx.deltaCpu hx.settings :)
          rw [hcalls, hmemory, hdelta]
          exact hparse _ (Parses.frame u _ x a hx ha hfind) (hnew a.pid)
  obtain ⟨hs', -, hstate⟩ := dispatched_eq u s
  rw [hstate]
  exact hprefix (delivered u.dispatch 0 s.handles) [] (List.append_nil _).symm

/-- The entry of every parse of the call has the property, too. -/
theorem parses_entry (hcongr : ∀ p q : CapProcess, q.cpuFields = p.cpuFields → P p → P q)
    (hnew : ∀ pid, P { pid := pid }) {s : CaptureCxx} (hs : ∀ k q, s.processes.find k = some q → P q) {c : Call}
    (hparse : ∀ x, Parses s c x → P x.entry → P x.result) (x : EntryParse) (hx : Parses s c x) : P x.entry := by
  cases hx with
  | init i pid => exact hnew pid
  | frame u σ x a => exact hnew a.pid
  | reconcile u pid q hstat hsize hmet hq => exact dispatched_entries hcongr hnew hs u hparse pid q hq

theorem foldl_newProcess_entries {s : CaptureCxx} (i : InitInput) (hdevices : (prepare i s).devices ≠ [])
    (hparse : ∀ x, Parses s (.init i) x → P x.result) (pids : List Pid) (hpids : ∀ pid ∈ pids, pid ∈ (snapshot i.proc).keys)
    (σ : CaptureCxx) (hcalls : σ.calls = s.calls + 1) (hmemory : σ.memory = (prepare i s).memory)
    (hdelta : σ.deltaCpu = s.deltaCpu) (hσ : ∀ k q, σ.processes.find k = some q → P q) :
    ∀ k q, (pids.foldl (newProcess i.files) σ).processes.find k = some q → P q := by
  induction pids generalizing σ with
  | nil => exact hσ
  | cons pid pids ih =>
    obtain ⟨hpid, hpids⟩ := List.forall_mem_cons.mp hpids
    refine ih hpids (newProcess i.files σ pid) hcalls hmemory hdelta ?_
    refine Table.forall_insert hσ ?_
    rw [hcalls, hmemory, hdelta]
    exact hparse _ (Parses.init i pid hdevices hpid)

theorem entries_next (hcongr : ∀ p q : CapProcess, q.cpuFields = p.cpuFields → P p → P q)
    (hnew : ∀ pid, P { pid := pid }) {s : CaptureCxx} (hs : ∀ k q, s.processes.find k = some q → P q) (c : Call)
    (hparse : ∀ x, Parses s c x → P x.entry → P x.result) : ∀ k q, (next s c).processes.find k = some q → P q := by
  have hresult : ∀ x, Parses s c x → P x.result := fun x hx =>
    hparse x hx (parses_entry hcongr hnew hs hparse x hx)
  cases c with
  | init i =>
    show ∀ k q, (init i s).2.processes.find k = some q → P q
    by_cases hnil : (prepare i s).devices = []
    · rw [init_of_no_device i s hnil, prepare_processes]
      exact hs
    · rw [init_of_devices i s hnil]
      refine foldl_newProcess_entries i hnil hresult (snapshot i.proc).keys (fun _ hpid => hpid) (surveyed i s)
        (surveyed_calls i s) (surveyed_memory i s) (surveyed_deltaCpu i s) ?_
      rw [surveyed_processes]
      exact hs
  | update u =>
    have hdispatched := dispatched_entries hcongr hnew hs u hparse
    show ∀ k q, (update u s).2.processes.find k = some q → P q
    by_cases hstat : u.stat = none
    · rw [update_of_stat_none u s hstat]
      exact hdispatched
    · rw [(afterUpdate u s hstat).processes]
      intro k q hq
      rw [reconciled_find] at hq
      split at hq
      · cases hq
      · split at hq
        · next hmet =>
          obtain ⟨e, he, rfl⟩ := Option.map_eq_some_iff.mp hq
          exact hresult _ (Parses.reconcile u k e hstat hmet.1 hmet.2 he)
        · exact hdispatched k q hq
  | shutdown => exact hs

end Entries

/-! ## The system's counts -/

def Call.reading : Call → Option UInt64
  | .update u => cpuReading u
  | _ => none

theorem next_cpu (s : CaptureCxx) (c : Call) : (next s c).cpu.ticks = c.reading.getD s.cpu.ticks := by
  cases c with
  | init i => exact congrArg Sample.ticks (congrArg CaptureCxx.cpu (init_carried i s) :)
  | update u =>
    show (update u s).2.cpu.ticks = (cpuReading u).getD s.cpu.ticks
    by_cases hstat : u.stat = none
    · rw [update_of_stat_none u s hstat, (afterDispatch u s).cpu, cpuReading, hstat]
      rfl
    · rw [(afterUpdate u s hstat).cpu, timed_cpu]
      cases cpuReading u <;> rfl
  | shutdown => rfl

/-- Each system reading of the run is at least the one before it. -/
theorem readings_sorted_iff (s : CaptureCxx) (cs : List Call) :
    (∀ t ∈ RunTrace.steps next s cs, ∀ now, t.call.reading = some now → t.before.cpu.ticks ≤ now) ↔
      (s.cpu.ticks :: cs.filterMap Call.reading).IsChain (· ≤ ·) := by
  induction cs generalizing s with
  | nil => simp [RunTrace.steps]
  | cons c cs ih =>
    rw [RunTrace.steps, List.forall_mem_cons, ih, next_cpu]
    cases hc : c.reading with
    | none => simp [hc]
    | some now => simp [hc]

theorem run_readings_sorted_iff (cs : List Call) :
    (∀ t ∈ run cs, ∀ now, t.call.reading = some now → t.before.cpu.ticks ≤ now) ↔
      (cs.filterMap Call.reading).Pairwise (· ≤ ·) := by
  have hchain := readings_sorted_iff initial cs
  rw [List.isChain_iff_pairwise, List.pairwise_cons] at hchain
  exact hchain.trans (and_iff_right fun now _ => UInt64.zero_le)

/-! ## Every run -/

/-- No subtraction and no multiplication of tick counts wraps in the call. -/
structure TicksExact (t : RunTrace.Step CaptureCxx Call) : Prop where
  system : ∀ now, t.call.reading = some now → ExactDifference t.before.cpu.ticks now
  parses : ∀ x, Parses t.before t.call x → x.Exact

theorem scaled_of_grows {cs : List Call} (h : ∀ t ∈ run cs, ∀ x, Parses t.before t.call x → x.Grows)
    {t : RunTrace.Step CaptureCxx Call} (ht : t ∈ run cs) {x : EntryParse} (hx : Parses t.before t.call x) :
    ExactScaled x.entry.deltaCpu.ticks := by
  have hcongr : ∀ p q : CapProcess, q.cpuFields = p.cpuFields → ExactScaled p.deltaCpu.ticks →
      ExactScaled q.deltaCpu.ticks := by
    intro p q hfields hp
    have hdelta : q.deltaCpu = p.deltaCpu := congrArg (fun f => f.2.1) hfields
    rw [hdelta]
    exact hp
  have hbefore : ∀ k q, t.before.processes.find k = some q → ExactScaled q.deltaCpu.ticks := by
    refine RunTrace.invariant_of_steps_ok next (fun t => ∀ x, Parses t.before t.call x → x.Grows)
      (fun s => ∀ k q, s.processes.find k = some q → ExactScaled q.deltaCpu.ticks) ?_ initial
      (fun k q hq => nomatch hq) cs h t ht
    intro s c hok hs
    exact entries_next hcongr exactScaled_new hs c (fun x hx hentry => (hok x hx).scaled hentry)
  exact parses_entry hcongr exactScaled_new hbefore (fun x hx hentry => (h t ht x hx).scaled hentry) x hx

/-- Over every run, the arithmetic on tick counts is exact exactly when the system's counts
never go down, and those a parse reads are at least the ones before them and have not grown
too far. -/
theorem tick_differences_exact_iff (cs : List Call) :
    (∀ t ∈ run cs, TicksExact t) ↔
      (cs.filterMap Call.reading).Pairwise (· ≤ ·) ∧ ∀ t ∈ run cs, ∀ x, Parses t.before t.call x → x.Grows := by
  rw [← run_readings_sorted_iff]
  constructor
  · intro h
    refine ⟨fun t ht now hnow => ?_, fun t ht x hx => ((h t ht).parses x hx).grows⟩
    exact (exactDifference_iff _ _).mp ((h t ht).system now hnow)
  · rintro ⟨hsystem, hgrows⟩ t ht
    refine ⟨fun now hnow => ?_, fun x hx => ?_⟩
    · exact (exactDifference_iff _ _).mpr (hsystem t ht now hnow)
    · exact (hgrows t ht x hx).exact (scaled_of_grows hgrows ht hx)

/-- `/proc/stat` with the seven counters of a system that has waited `iowait` ticks. -/
def systemStat (iowait : Text) : List Text := ["cpu  10 0 0 0 ".toList ++ iowait ++ " 0 0 0 0 0".toList]

def waitingUpdate (pids : List (Fin 10)) (iowait : Text) : UpdateInput :=
  { idleUpdate pids with stat := some (systemStat iowait) }

/-- Process files with `utime` ticks in the user mode. -/
def userTickFiles (utime : Text) (_ : Pid) : ProcFiles :=
  { ProcFiles.absent with
    status := some []
    cmdline := some []
    stat := some ["1 (a) S 0 0 0 0 0 0 0 0 0 0 ".toList ++ utime ++
      " 0 0 0 0 0 0 0 0 0 0 0 0 0 0 0 0 0 0 0 0 0 0 0 0 0 0".toList] }

def tickedInit (pids : List (Fin 10)) (utime : Text) : InitInput := { lanInit pids with files := userTickFiles utime }

def tickedUpdate (pids : List (Fin 10)) (utime : Text) : UpdateInput :=
  { idleUpdate pids with files := userTickFiles utime }

/-- The system has one tick of `iowait` less than before; and pid 1 is taken by a younger
process, which a reconciliation, made because pid 2 has appeared, parses under the entry of
the older one. -/
theorem tick_differences_wrap :
    (∃ t ∈ run [.init (lanInit [1]), .update (waitingUpdate [1] "5".toList), .update (waitingUpdate [1] "4".toList)],
      t.after.deltaCpu.ticks = 18446744073709551615 ∧ ¬ TicksExact t) ∧
      ∃ t ∈ run [.init (tickedInit [1] "9".toList), .update (tickedUpdate [1, 2] "3".toList)],
        (t.after.processes.find 1).map (fun q => q.deltaCpu.ticks) = some 18446744073709551610 ∧ ¬ TicksExact t := by
  have hfacts : (next (next initial (.init (lanInit [1]))) (.update (waitingUpdate [1] "5".toList))).cpu.ticks = 15 ∧
      cpuReading (waitingUpdate [1] "4".toList) = some 14 ∧
      (next (next (next initial (.init (lanInit [1]))) (.update (waitingUpdate [1] "5".toList)))
        (.update (waitingUpdate [1] "4".toList))).deltaCpu.ticks = 18446744073709551615 ∧
      ((next (next initial (.init (tickedInit [1] "9".toList)))
        (.update (tickedUpdate [1, 2] "3".toList))).processes.find 1).map
          (fun q => q.deltaCpu.ticks) = some 18446744073709551610 ∧
      ((dispatched (tickedUpdate [1, 2] "3".toList)
        (next initial (.init (tickedInit [1] "9".toList)))).processes.find 1).map
          (fun q => (q.pid, q.cpu.ticks)) = some (1, 9) ∧
      CapProcess.ticksRead (userTickFiles "3".toList 1) = some [3] ∧
      (livePids (tickedUpdate [1, 2] "3".toList)).card ≠
        (trackedPids (tickedUpdate [1, 2] "3".toList) (next initial (.init (tickedInit [1] "9".toList)))).card ∧
      1 ∈ livePids (tickedUpdate [1, 2] "3".toList) ∧ ∀ r ∈ livePids (tickedUpdate [1, 2] "3".toList), r ≤ 1 →
        r ∈ trackedPids (tickedUpdate [1, 2] "3".toList) (next initial (.init (tickedInit [1] "9".toList))) := by
    decide +kernel
  obtain ⟨hcpu, hreading, hdelta, hdelta', hentry, hticks, hsize, hmet⟩ := hfacts
  constructor
  · refine ⟨_, List.mem_cons_of_mem _ (List.mem_cons_of_mem _ List.mem_cons_self), hdelta, fun h => ?_⟩
    have hexact := (exactDifference_iff _ _).mp (h.system 14 hreading)
    rw [hcpu] at hexact
    exact absurd hexact (by decide)
  · refine ⟨_, List.mem_cons_of_mem _ List.mem_cons_self, hdelta', fun h => ?_⟩
    obtain ⟨q, hq, hfields⟩ := Option.map_eq_some_iff.mp hentry
    obtain ⟨hpid, hcpu⟩ := Prod.mk.inj hfields
    have hparse := h.parses _
      (Parses.reconcile (tickedUpdate [1, 2] "3".toList) 1 q (by simp [tickedUpdate, idleUpdate]) hsize hmet hq)
    have hread : EntryParse.ticks ⟨(next initial (.init (tickedInit [1] "9".toList))).calls + 1,
        (tickedUpdate [1, 2] "3".toList).files 1, (next initial (.init (tickedInit [1] "9".toList))).memory,
        newDelta (tickedUpdate [1, 2] "3".toList) (next initial (.init (tickedInit [1] "9".toList))), q⟩ = some [3] := by
      rw [EntryParse.ticks, if_neg (by rw [hpid]; decide)]
      exact hticks
    have hgrows := (hparse.grows [3] hread).1 (q.cpu.ticks, 3) List.mem_cons_self
    rw [hcpu] at hgrows
    exact absurd hgrows (by decide)

end CaptureCxx
end Capture
