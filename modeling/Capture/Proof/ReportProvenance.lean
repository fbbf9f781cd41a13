import Capture.Proof.MachineReport

/-! # Where the values of a report come from

The files of a process may be read at any moment of any call, so the machine is a set of
states, one for each such moment. A record in a report shows a process as it was at one of
them: its fields were printed together, those of a closed file apart, and its name is one the
process had (`reports_invent_nothing`). -/
namespace Capture
open SeparatedText OrderedTable

set_option autoImplicit false

/-! ## Records and tasks -/

/-- The record has what the files of the task say; a closed file says nothing. -/
structure ProcessRecord.Reads (r : ProcessRecord) (t : Task) (db : Accounts) : Prop where
  uid : r.uid = t.uid
  gid : r.gid = t.gid
  user : r.user = strncpy captureCommanSize
    (if db.group t.gid = none then decimal t.gid.toNat else (db.passwd t.uid).getD (decimal t.uid.toNat))
  group : ∀ g, db.group t.gid = some g → r.group = strncpy captureCommanSize g
  cmdline : ∀ a ∈ t.arguments.head?, r.cmdline = a.take (captureCmdlineSize - 1)
  memory : ∀ n ∈ t.rss, r.memory = UInt64.ofNat n
  fdCnt : ∀ n ∈ t.fds, r.fdCnt = UInt32.ofNat n
  io : ∀ n ∈ t.io, r.ioRead = UInt64.ofNat n.1 ∧ r.ioWrite = UInt64.ofNat n.2

theorem reads_seen (t : Task) (db : Accounts) (call : ℕ) (imemory : UInt64) (ideltacpu : Interval) (q : CapProcess) :
    (CaptureCxx.processRecord (t.seen db call imemory ideltacpu q).still).Reads t db := by
  refine ⟨rfl, rfl, rfl, fun g hg => ?_, fun a ha => ?_, fun n hn => ?_, fun n hn => ?_, fun n hn => ?_⟩
  · show strncpy captureCommanSize ((db.group t.gid).getD q.group) = _
    rw [hg]
    rfl
  · have hne : t.arguments ≠ [] := by
      rintro hnil
      rw [hnil] at ha
      cases ha
    have hcontent := strncpy_content t captureCmdlineSize
    rw [if_neg hne] at hcontent
    show strncpy captureCmdlineSize (if t.arguments = [] then _ else _) = _
    rw [if_neg hne, hcontent, List.headD_eq_head?_getD, ha]
    rfl
  · show (t.rss.map UInt64.ofNat).getD q.memory = _
    rw [hn]
    rfl
  · show (t.fds.map UInt32.ofNat).getD q.fdCnt = _
    rw [hn]
    rfl
  · show (t.io.map fun n => UInt64.ofNat n.1).getD q.ioRead = _ ∧ (t.io.map fun n => UInt64.ofNat n.2).getD q.ioWrite = _
    rw [hn]
    exact ⟨rfl, rfl⟩

/-! ## Entries -/

section
variable (M : Set Machine)

/-- A task of one of the machines under the pid. -/
def Lived (p : Pid) (t : Task) (m : Machine) : Prop := m ∈ M ∧ m.tasks.find p = some t

/-- The process was never parsed, or was last parsed when one of the machines showed it. -/
structure Known (p : Pid) (q : CapProcess) : Prop where
  pid : q.pid = p
  fields : q.still = { pid := p } ∨ ∃ m t, Lived M p t m ∧ (CaptureCxx.processRecord q.still).Reads t m.accounts
  name : q.name = [] ∨ ∃ m t, Lived M p t m ∧ q.name = t.stat.name

/-- What is read under each pid is what one of the machines prints under it. -/
def Printed (files : Pid → ProcFiles) : Prop := ∀ p, ∃ m ∈ M, files p = m.files p

variable {M}

theorem known_new (p : Pid) : Known M p { pid := p } := ⟨rfl, Or.inl rfl, Or.inl rfl⟩

theorem Known.addPacket {p : Pid} {q : CapProcess} (h : Known M p q) (devices : List CapDevice) (cap : CapPacket) :
    Known M p (q.addPacket devices cap) := by
  have hstill := CapProcess.addPacket_still devices cap q
  have hpid : (q.addPacket devices cap).pid = q.pid := (congrArg CapProcess.pid hstill :)
  have hname : (q.addPacket devices cap).name = q.name := (congrArg CapProcess.name hstill :)
  refine ⟨hpid.trans h.pid, ?_, ?_⟩
  · rw [hstill]
    exact h.fields
  · rw [hname]
    exact h.name

theorem parse_absent (call : ℕ) (imemory : UInt64) (ideltacpu : Interval) (q : CapProcess) :
    CapProcess.parse call ProcFiles.absent imemory ideltacpu q = q := by
  unfold CapProcess.parse CapProcess.parseProc
  split
  · rfl
  · rfl

theorem Known.parse (hM : ∀ m ∈ M, m.Fits) {files : Pid → ProcFiles} (hfiles : Printed M files) {p : Pid}
    {q : CapProcess} (h : Known M p q) (call : ℕ) (imemory : UInt64) (ideltacpu : Interval) :
    Known M p (CapProcess.parse call (files p) imemory ideltacpu q) := by
  obtain ⟨m, hm, heq⟩ := hfiles p
  rw [heq, Machine.files]
  cases ht : m.tasks.find p with
  | none =>
    rw [Option.elim_none, parse_absent]
    exact h
  | some t =>
    have hpid : q.pid ≠ -1 := by
      rw [h.pid]
      rintro rfl
      exact absurd (m.pids (-1) ((Table.find_isSome_iff _ _).mp ⟨t, ht⟩)).1 (by decide)
    rw [Option.elim_some, CapProcess.parse_files t m.accounts ((hM m hm).1 p t ht) call imemory ideltacpu q hpid]
    refine ⟨h.pid, Or.inr ⟨m, t, ⟨hm, ht⟩, reads_seen t m.accounts call imemory ideltacpu q⟩, ?_⟩
    by_cases hname : q.name = []
    · exact Or.inr ⟨m, t, ⟨hm, ht⟩, if_pos hname⟩
    · have hsame : (t.seen m.accounts call imemory ideltacpu q).name = q.name := if_neg hname
      rw [hsame]
      exact h.name

end

/-! ## Runs -/

namespace CaptureCxx

variable {M : Set Machine}

/-- Every parse of the call reads what one of the machines prints. -/
def Call.ReadsFrom (M : Set Machine) : Call → Prop
  | .init i => Printed M i.files
  | .update u => Printed M u.files ∧ ∀ idx, ∀ f ∈ (u.dispatch idx).frames, Printed M f.files
  | .shutdown => True

def AllKnown (M : Set Machine) (s : CaptureCxx) : Prop := ∀ p q, s.processes.find p = some q → Known M p q

theorem AllKnown.init {s : CaptureCxx} (h : AllKnown M s) (hM : ∀ m ∈ M, m.Fits) {i : InitInput}
    (hi : Printed M i.files) : AllKnown M (init i s).2 := by
  intro p q hq
  rw [init_find] at hq
  split at hq
  · cases hq
    exact (known_new p).parse hM hi _ _ _
  · exact h p q hq

theorem AllKnown.feed {s : CaptureCxx} (h : AllKnown M s) (hM : ∀ m ∈ M, m.Fits) (x : CapHandle × Frame)
    (hx : Printed M x.2.files) : AllKnown M (feed s x) := by
  unfold AllKnown
  rw [feed_processes]
  cases x.1.attribute s.devices s.inodes x.2 with
  | none => exact h
  | some a =>
    refine Table.forall_insert h ?_
    unfold credited
    cases hfind : s.processes.find a.pid with
    | none => exact ((known_new a.pid).parse hM hx _ _ _).addPacket _ _
    | some q => exact (h a.pid q hfind).addPacket _ _

theorem AllKnown.foldl_feed {s : CaptureCxx} (h : AllKnown M s) (hM : ∀ m ∈ M, m.Fits) (xs : List (CapHandle × Frame))
    (hxs : ∀ x ∈ xs, Printed M x.2.files) : AllKnown M (xs.foldl CaptureCxx.feed s) := by
  induction xs generalizing s with
  | nil => exact h
  | cons x xs ih =>
    obtain ⟨hx, hxs⟩ := List.forall_mem_cons.mp hxs
    exact ih (h.feed hM x hx) hxs

theorem AllKnown.update {s : CaptureCxx} (h : AllKnown M s) (hM : ∀ m ∈ M, m.Fits) {u : UpdateInput}
    (hu : Printed M u.files) (hframes : ∀ idx, ∀ f ∈ (u.dispatch idx).frames, Printed M f.files) :
    AllKnown M (update u s).2 := by
  have hdispatched : AllKnown M (dispatched u s) := by
    obtain ⟨hs, -, hstate⟩ := dispatched_eq u s
    have hbegin : AllKnown M (beginUpdate u s) := h
    rw [hstate]
    refine hbegin.foldl_feed hM _ fun x hx => ?_
    obtain ⟨k, hk⟩ := frame_of_mem_delivered u.dispatch s.handles 0 x hx
    exact hframes k x.2 hk
  by_cases hstat : u.stat = none
  · rw [update_of_stat_none u s hstat]
    exact hdispatched
  · intro p q hq
    rw [(afterUpdate u s hstat).processes, reconciled_find] at hq
    split at hq
    · cases hq
    · split at hq
      · obtain ⟨e, he, rfl⟩ := Option.map_eq_some_iff.mp hq
        exact (hdispatched p e he).parse hM hu _ _ _
      · exact hdispatched p q hq

theorem AllKnown.next {s : CaptureCxx} (h : AllKnown M s) (hM : ∀ m ∈ M, m.Fits) {c : Call} (hc : c.ReadsFrom M) :
    AllKnown M (next s c) := by
  cases c with
  | init i => exact h.init hM hc
  | update u => exact h.update hM hc.1 hc.2
  | shutdown => exact h

end CaptureCxx
end Capture
