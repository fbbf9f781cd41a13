import Capture.Proof.AccountBook
import Capture.Proof.Attribution
import Capture.Proof.TaskFiles

/-! # What the reports show of the machine

`/proc` of a whole machine: a directory for every process, with its files, and `meminfo`.
`Init` makes an entry for every process of the machine and for nothing else, and each entry
holds what the files say (`tabulates_init`); while the processes stay the same every
report hands that out (`reports_show_machine`). -/
namespace Capture
open SeparatedText FormattedScan LineStream KeyedLines OrderedTable

set_option autoImplicit false

/-! ## The machine -/

/-- The processes by their pids, the other entries of `/proc`, the memory in kB and the rest
of `meminfo`. -/
structure Machine where
  tasks : Table Pid Task
  pids : ∀ p ∈ tasks.keys, 0 ≤ p ∧ p.toNat < 2 ^ 31
  others : List ProcEntry
  not_pids : ∀ e ∈ others, CaptureCxx.entryPid e = none
  accounts : Accounts
  total : ℕ
  total_lt : total < 2 ^ 63
  sizes : List Field

def pidEntry (p : Pid) (h : 0 ≤ p ∧ p.toNat < 2 ^ 31) : ProcEntry where
  isDir := true
  name := decimal p.toNat
  numeric := by
    intro _
    rw [magnitude_decimal]
    exact ⟨decimal_ne_nil p.toNat, by omega⟩

namespace Machine

def proc (m : Machine) : List ProcEntry := m.others ++ m.tasks.keys.attach.map fun p => pidEntry p.1 (m.pids p.1 p.2)

def files (m : Machine) (p : Pid) : ProcFiles := (m.tasks.find p).elim ProcFiles.absent fun t => t.files m.accounts

def totalField (n : ℕ) : Field := sizeField "MemTotal".toList (by decide) (List.replicate 7 ' ') (by decide) n

def meminfo (m : Machine) : List Text := fileBuffers (Task.printed (totalField m.total :: m.sizes))

/-- No line of a file is as long as the buffer it is read into. -/
def Fits (m : Machine) : Prop :=
  (∀ p t, m.tasks.find p = some t → t.Fits) ∧ ∀ f ∈ totalField m.total :: m.sizes, f.line.length < bufferSize

end Machine

/-- What the call finds in `/proc` is what the machine prints there. -/
structure InitInput.Shows (i : InitInput) (m : Machine) : Prop where
  proc : i.proc = some m.proc
  files : i.files = m.files
  meminfo : i.meminfo = some m.meminfo

theorem totalFormat : format "MemTotal:        %ld kB" = ("MemTotal".toList ++ [':']).map Item.exact ++
    (List.replicate 8 .blank ++ .number true .decimal true none :: [.blank, .exact 'k', .exact 'B']) := by decide

namespace CaptureCxx

/-! ## The directory and `meminfo` -/

theorem entryPid_pidEntry (p : Pid) (h : 0 ≤ p ∧ p.toNat < 2 ^ 31) : entryPid (pidEntry p h) = some p := by
  have hdigits : (pidEntry p h).name.all Char.isDigit = true :=
    List.all_eq_true.mpr fun c hc => isDigit_of_mem_decimal hc
  have hvalue : ((magnitude .decimal (pidEntry p h).name : ℤ).bmod (2 ^ 32)) = p := by
    show ((magnitude .decimal (decimal p.toNat) : ℤ).bmod (2 ^ 32)) = p
    have hnonneg : (p.toNat : ℤ) = p := Int.toNat_of_nonneg h.1
    rw [magnitude_decimal, Int.bmod_eq_of_le (by omega) (by omega), hnonneg]
  unfold entryPid
  rw [if_pos ⟨rfl, hdigits⟩, hvalue]

theorem snapshot_machine (m : Machine) : (snapshot (some m.proc)).keys = m.tasks.keys := by
  have hothers : m.others.filterMap entryPid = [] := List.filterMap_eq_nil_iff.mpr m.not_pids
  have htasks : (m.tasks.keys.attach.map fun p => pidEntry p.1 (m.pids p.1 p.2)).filterMap entryPid = m.tasks.keys := by
    rw [List.filterMap_map]
    have hfun : (entryPid ∘ fun p : {x // x ∈ m.tasks.keys} => pidEntry p.1 (m.pids p.1 p.2)) = fun p => some p.1 :=
      funext fun p => entryPid_pidEntry p.1 (m.pids p.1 p.2)
    rw [hfun, List.filterMap_eq_map', List.attach_map_subtype_val]
  have hentries : (m.proc).filterMap entryPid = m.tasks.keys := by
    rw [Machine.proc, List.filterMap_append, hothers, htasks, List.nil_append]
  refine Table.keys_eq_of_mem_iff _ m.tasks.keys_sorted fun k => ?_
  rw [mem_snapshot_keys, Option.getD_some, hentries]

theorem memTotal_machine (m : Machine) (hfit : m.Fits) :
    m.meminfo.findSome? memTotal = some (UInt64.ofNat m.total) := by
  obtain ⟨vs, hvs⟩ := sscanf_numeral totalFormat (Machine.totalField m.total) rfl m.total_lt
    (CapProcess.blank_padding (fun c hc => by rw [List.eq_of_mem_replicate hc]; rfl) _) (ends_cons (by decide) _) rfl
  have hread : memTotal (Machine.totalField m.total).line = some (UInt64.ofNat m.total) := by
    unfold memTotal
    dsimp only
    rw [if_pos ⟨(Machine.totalField m.total).cString_line_ne_nil, (ret_of_values hvs).2⟩, number_zero_of_values hvs,
      Option.getD_some, uint64_ofInt_natCast]
  rw [Machine.meminfo, CapProcess.fileBuffers_printed _ hfit.2, List.map_cons, List.cons_append, List.findSome?_cons,
    hread]

end CaptureCxx

/-! ## Records without the byte counters -/

def CapProcess.still (q : CapProcess) : CapProcess := { q with recv := 0, send := 0 }

def ProcessRecord.still (r : ProcessRecord) : ProcessRecord := { r with recv := 0, send := 0 }

theorem CapProcess.addPacket_still (devices : List CapDevice) (cap : CapPacket) (q : CapProcess) :
    (q.addPacket devices cap).still = q.still := by
  unfold addPacket
  split <;> rfl

/-- The record of a task on a machine with `total` kB, before the system ticks are read. -/
def Task.record (t : Task) (db : Accounts) (total : ℕ) (pid : Pid) : ProcessRecord where
  name := t.stat.name.take (captureCommanSize - 1)
  cmdline := (t.arguments.headD []).take (captureCmdlineSize - 1)
  user := strncpy captureCommanSize
    (if db.group t.gid = none then decimal t.gid.toNat else (db.passwd t.uid).getD (decimal t.uid.toNat))
  group := strncpy captureCommanSize ((db.group t.gid).getD [])
  pid := pid
  uid := t.uid
  gid := t.gid
  fdCnt := UInt32.ofNat (t.fds.getD 0)
  memory := UInt64.ofNat (t.rss.getD 0)
  memPercent := percent (UInt64.ofNat (t.rss.getD 0)) (UInt64.ofNat total)
  ioRead := UInt64.ofNat ((t.io.map Prod.fst).getD 0)
  ioWrite := UInt64.ofNat ((t.io.map Prod.snd).getD 0)

/-- The first argument: the rest is behind its NUL. -/
theorem strncpy_content (t : Task) (size : ℕ) :
    strncpy size (if t.arguments = [] then [] else t.content.takeWhile fun c => !isSpace c) =
      (t.arguments.headD []).take (size - 1) := by
  cases hargs : t.arguments with
  | nil => rfl
  | cons a args =>
    obtain ⟨-, hword⟩ := t.command a (by rw [hargs]; rfl)
    have hcontent : t.content = a ++ '\x00' :: args.flatMap (· ++ ['\x00']) := by
      rw [Task.content, hargs, List.flatMap_cons, List.append_assoc]
      rfl
    have htake : t.content.takeWhile (fun c => !isSpace c) =
        a ++ '\x00' :: (args.flatMap (· ++ ['\x00'])).takeWhile fun c => !isSpace c := by
      rw [hcontent, List.takeWhile_append_of_pos (fun c hc => by simp [(hword c hc).1]),
        List.takeWhile_cons_of_pos (by decide)]
    have hnul : '\x00' ∉ a := fun h => (hword _ h).2 rfl
    rw [if_neg (List.cons_ne_nil _ _), strncpy, htake, cString_append hnul, List.headD_cons]
    simp [cString]

theorem processRecord_seen (t : Task) (db : Accounts) (total : ℕ) (call : ℕ) (pid : Pid) :
    CaptureCxx.processRecord (t.seen db call (UInt64.ofNat total) Interval.initial { pid := pid }) =
      t.record db total pid := by
  have hname : strncpy captureCommanSize t.stat.name = t.stat.name.take (captureCommanSize - 1) := by
    rw [strncpy, cString_eq_self t.stat.name_line.2]
  have hcmdline := strncpy_content t captureCmdlineSize
  have hcpu : percent (Interval.ticks ⟨Sample.initial, t.tickCount call⟩) Interval.initial.ticks = .zero := if_pos rfl
  unfold CaptureCxx.processRecord Task.seen Task.record
  simp only [if_true, hname, hcmdline, Option.map_some, Option.getD_some, CpuPercent.value, hcpu]
  cases t.rss <;> cases t.io <;> cases t.fds <;> rfl

namespace CaptureCxx

theorem still_processRecord (q : CapProcess) : (processRecord q).still = processRecord q.still := rfl

/-! ## Calls on an unchanged set of pids -/

theorem feed_still (s : CaptureCxx) (x : CapHandle × Frame) {k : Pid} {e : CapProcess}
    (h : s.processes.find k = some e) : ∃ q, (feed s x).processes.find k = some q ∧ q.still = e.still := by
  rw [feed_processes]
  cases x.1.attribute s.devices s.inodes x.2 with
  | none => exact ⟨e, h, rfl⟩
  | some a =>
    dsimp only
    rw [Table.find_insert]
    by_cases hk : k = a.pid
    · subst hk
      exact ⟨_, if_pos rfl, by rw [credited, h, Option.getD_some, CapProcess.addPacket_still]⟩
    · exact ⟨e, by rw [if_neg hk, h], rfl⟩

theorem foldl_feed_still (xs : List (CapHandle × Frame)) (s : CaptureCxx) {k : Pid} {e : CapProcess}
    (h : s.processes.find k = some e) : ∃ q, (xs.foldl feed s).processes.find k = some q ∧ q.still = e.still := by
  induction xs generalizing s e with
  | nil => exact ⟨e, h, rfl⟩
  | cons x xs ih =>
    obtain ⟨q, hq, hstill⟩ := feed_still s x h
    obtain ⟨q', hq', hstill'⟩ := ih (feed s x) hq
    exact ⟨q', hq', hstill'.trans hstill⟩

theorem dispatched_still (u : UpdateInput) (s : CaptureCxx) {k : Pid} {e : CapProcess}
    (h : s.processes.find k = some e) : ∃ q, (dispatched u s).processes.find k = some q ∧ q.still = e.still := by
  obtain ⟨hs, -, hstate⟩ := dispatched_eq u s
  rw [hstate]
  exact foldl_feed_still (delivered u.dispatch 0 s.handles) (beginUpdate u s) h

/-- With the pids of the table in the snapshot, the reconciliation does not run. -/
theorem not_sizesDiffer_of_keys (u : UpdateInput) (s : CaptureCxx) (h : s.processes.keys = (snapshot u.proc).keys) :
    trackedPids u s = livePids u ∧ ¬ SizesDiffer u s := by
  have hkeys : s.processes.keySet = livePids u := congrArg List.toFinset h
  have htracked : trackedPids u s = livePids u := by
    rw [trackedPids, hkeys]
    refine Finset.union_eq_left.mpr fun p hp => ?_
    obtain ⟨y, hy, rfl⟩ := List.mem_map.mp (List.mem_toFinset.mp hp)
    exact credits_live hy
  exact ⟨htracked, fun hdiffer => hdiffer (by rw [htracked])⟩

theorem update_still (u : UpdateInput) (s : CaptureCxx) (h : s.processes.keys = (snapshot u.proc).keys) :
    (update u s).2.processes.keys = s.processes.keys ∧ ∀ k e, s.processes.find k = some e →
      ∃ q, (update u s).2.processes.find k = some q ∧ q.still = e.still := by
  obtain ⟨htracked, hsame⟩ := not_sizesDiffer_of_keys u s h
  have hprocesses : (update u s).2.processes = (dispatched u s).processes := by
    by_cases hstat : u.stat = none
    · rw [update_of_stat_none u s hstat]
    · have hreconciled : reconciled u s = timed u s := if_neg fun hd => hsame ((timed_sizes u s).mp hd)
      rw [(afterUpdate u s hstat).processes, hreconciled, (timed_frame u s).1]
  rw [hprocesses]
  refine ⟨?_, fun k e he => dispatched_still u s he⟩
  refine Table.keys_eq_of_mem_iff _ s.processes.keys_sorted fun k => ?_
  rw [← Table.mem_keySet, (afterDispatch u s).keySet, htracked, livePids, Table.mem_keySet, h]

/-! ## What `Init` shows, and the reports after it -/

/-- The table holds the tasks of the machine, up to the byte counters, as a first parse in
call `call` sees them. -/
structure Tabulates (m : Machine) (call : ℕ) (s : CaptureCxx) : Prop where
  keys : s.processes.keys = m.tasks.keys
  entries : ∀ p q t, s.processes.find p = some q → m.tasks.find p = some t →
    q.still = t.seen m.accounts call (UInt64.ofNat m.total) Interval.initial { pid := p }

theorem tabulates_init {m : Machine} (hfit : m.Fits) {i : InitInput} (hi : i.Shows m)
    (hdevices : (i.ifaddrs.getD []).filterMap usableDevice ≠ []) : Tabulates m 1 (init i initial).2 := by
  have hprepare : (prepare i initial).devices ≠ [] := by
    rw [prepare_devices]
    exact hdevices
  have hmemory : (prepare i initial).memory = UInt64.ofNat m.total := by
    rw [prepare_eq, hi.meminfo, Option.bind_some, memTotal_machine m hfit, Option.getD_some]
  have hfind : ∀ p, (init i initial).2.processes.find p = if p ∈ m.tasks.keys then
      some (CapProcess.parse 1 (m.files p) (UInt64.ofNat m.total) Interval.initial { pid := p }) else none := by
    intro p
    rw [init_find, hi.proc, snapshot_machine, hi.files, hmemory]
    simp only [hprepare, ne_eq, not_false_eq_true, true_and]
    rfl
  refine ⟨Table.keys_eq_of_mem_iff _ m.tasks.keys_sorted fun p => ?_, fun p q t hq ht => ?_⟩
  · rw [← Table.find_isSome_iff, hfind]
    split
    · next hp => simp [hp]
    · next hp => simp [hp]
  · have hp : p ∈ m.tasks.keys := (Table.find_isSome_iff _ _).mp ⟨t, ht⟩
    have hpid : p ≠ -1 := by
      rintro rfl
      exact absurd (m.pids (-1) hp).1 (by decide)
    have hfiles : m.files p = t.files m.accounts := by rw [Machine.files, ht]; rfl
    rw [hfind, if_pos hp, hfiles, CapProcess.parse_files t m.accounts (hfit.1 p t ht) _ _ _ _ hpid] at hq
    cases hq
    rfl

theorem Tabulates.update {m : Machine} {call : ℕ} {s : CaptureCxx} (h : Tabulates m call s) {u : UpdateInput}
    (hu : (snapshot u.proc).keys = m.tasks.keys) : Tabulates m call (update u s).2 := by
  obtain ⟨hkeys, hstill⟩ := update_still u s (h.keys.trans hu.symm)
  refine ⟨hkeys.trans h.keys, fun p q t hq ht => ?_⟩
  obtain ⟨e, he⟩ := (Table.find_isSome_iff _ _).mpr (hkeys ▸ (Table.find_isSome_iff _ _).mp ⟨q, hq⟩)
  obtain ⟨q', hq', hsame⟩ := hstill p e he
  cases hq.symm.trans hq'
  rw [hsame]
  exact h.entries p e t he ht

theorem processReport_mem_log (u : UpdateInput) (s : CaptureCxx) (hstat : u.stat ≠ none) (hcb : s.processCallback = true) :
    .processCallback .update (reportData (reconciled u s)) (reconciled u s).processes.size ∈ (update u s).2.log := by
  obtain ⟨-, -, hreconciled, -⟩ := reconciled_frame u s
  refine (mem_log_update_iff u s hstat _).mpr (Or.inr (Or.inr (Or.inl ?_)))
  exact (mem_processReport_iff _ _).mpr ⟨hreconciled.trans hcb, rfl⟩

end CaptureCxx

def shellMachine : Machine where
  tasks := Table.empty.insert 1 shellTask
  pids := by decide +kernel
  others := [⟨true, "self".toList, by decide⟩]
  not_pids := by decide
  accounts := noAccounts
  total := 8000000
  total_lt := by decide
  sizes := []

theorem shellMachine_fits : shellMachine.Fits := by
  refine ⟨fun p t ht => ?_, by decide +kernel⟩
  have hone : shellMachine.tasks.find p = if p = 1 then some shellTask else none := Table.find_insert _ _ _ _
  rw [hone] at ht
  split at ht
  · cases ht
    exact shellTask_fits
  · cases ht

def shellInit (pids : List (Fin 10)) : InitInput :=
  { CaptureCxx.lanInit pids with
    proc := some shellMachine.proc, files := shellMachine.files, meminfo := some shellMachine.meminfo }

def shellUpdate (pids : List (Fin 10)) : UpdateInput :=
  { CaptureCxx.idleUpdate pids with proc := some shellMachine.proc, files := shellMachine.files }

namespace CaptureCxx

theorem shell_run :
    ∃ t ∈ run [.init (shellInit []), .update (shellUpdate [])], t.call = .update (shellUpdate []) ∧
      (∃ data size, .processCallback .update data size ∈ t.after.log) ∧
        t.after.processes.keys = shellMachine.tasks.keys := by
  have hinit : Tabulates shellMachine 1 (init (shellInit []) initial).2 :=
    tabulates_init shellMachine_fits ⟨rfl, rfl, rfl⟩ (by decide +kernel)
  have hreport := processReport_mem_log (shellUpdate []) (init (shellInit []) initial).2 (by simp [shellUpdate, idleUpdate])
    (by decide +kernel)
  refine ⟨_, List.mem_cons_of_mem _ List.mem_cons_self, rfl, ?_, ?_⟩
  · exact ⟨_, _, hreport⟩
  · exact (hinit.update (u := shellUpdate []) (snapshot_machine shellMachine)).keys

end CaptureCxx
end Capture
