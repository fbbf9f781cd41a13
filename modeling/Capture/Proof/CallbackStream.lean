import Capture.Proof.Tracking

/-! # The process callbacks as a stream

A client that starts from one report and applies what the callbacks announce has the next
report. The table grows only by the frames of an `Update`, each new entry being logged, and
shrinks only by the reconciliation, each erased entry being announced first; an `Update`
that fails does neither after its frames. -/
namespace Capture
open SeparatedText OrderedTable PrefixSweep

set_option autoImplicit false

namespace Event

def inserted : Event → Option Pid
  | .insert pid => some pid
  | _ => none

/-- The pids an event announces as removed. -/
def removed : Event → List Pid
  | .processCallback .remove processes size => (processes.take size).map ProcessRecord.pid
  | _ => []

def reported : Event → Option (List Pid)
  | .processCallback .update processes size => some ((processes.take size).map ProcessRecord.pid)
  | _ => none

theorem FromFrame.quiet {e : Event} {memory : UInt64} {deltaCpu : Interval} (h : e.FromFrame memory deltaCpu) :
    e.removed = [] ∧ e.reported = none := by
  cases e <;> first | exact ⟨rfl, rfl⟩ | cases h

theorem Protocol.not_inserted {e : Event} (h : e.Protocol) : e.inserted = none := by
  cases e <;> first | rfl | cases h

end Event

namespace CaptureCxx

def insertedPids (s : CaptureCxx) : List Pid := s.log.filterMap Event.inserted

def removedPids (s : CaptureCxx) : List Pid := s.log.flatMap Event.removed

def reports (s : CaptureCxx) : List (List Pid) := s.log.filterMap Event.reported

/-! ## Insertions -/

/-- The keys of the table are `old` and the pids logged as inserted. -/
def GrownFrom (old : Finset Pid) (s : CaptureCxx) : Prop :=
  s.processes.keySet = old ∪ s.insertedPids.toFinset

theorem GrownFrom.extend {old : Finset Pid} {s : CaptureCxx} (h : GrownFrom old s) (es : List Event)
    (hes : ∀ e ∈ es, e.inserted = none) : GrownFrom old (extend es s) := by
  have hpids : (CaptureCxx.extend es s).insertedPids = s.insertedPids := by
    simp [insertedPids, CaptureCxx.extend, List.filterMap_eq_nil_iff.mpr hes]
  rw [GrownFrom, hpids]
  exact h

theorem addPacket_insertedPids (files : Pid → ProcFiles) (pid : Pid) (cap : CapPacket) (s : CaptureCxx) :
    (addPacket files pid cap s).processes.keySet = insert pid s.processes.keySet ∧
      (addPacket files pid cap s).insertedPids =
        s.insertedPids ++ if pid ∈ s.processes.keySet then [] else [pid] := by
  unfold addPacket
  cases hfind : s.processes.find pid with
  | none =>
    have hnot : pid ∉ s.processes.keySet := by
      rw [Table.mem_keySet]
      exact (Table.find_eq_none_iff _ pid).mp hfind
    refine ⟨Table.keySet_insert _ _ _, ?_⟩
    rw [if_neg hnot]
    show (s.log ++ [Event.parse pid s.memory s.deltaCpu] ++ [Event.insert pid]).filterMap Event.inserted = _
    rw [List.filterMap_append, List.filterMap_append, List.append_assoc]
    rfl
  | some ptr =>
    have hmem : pid ∈ s.processes.keySet := by
      rw [Table.mem_keySet, ← Table.find_isSome_iff]
      exact ⟨ptr, hfind⟩
    refine ⟨Table.keySet_insert _ _ _, ?_⟩
    rw [if_pos hmem, List.append_nil]
    rfl

theorem GrownFrom.addPacket {old : Finset Pid} {s : CaptureCxx} (h : GrownFrom old s) (files : Pid → ProcFiles)
    (pid : Pid) (cap : CapPacket) : GrownFrom old (addPacket files pid cap s) := by
  obtain ⟨hkeys, hpids⟩ := addPacket_insertedPids files pid cap s
  unfold GrownFrom at h ⊢
  rw [hkeys, hpids, List.toFinset_append, ← Finset.union_assoc, ← h]
  split
  · next hmem => simp [hmem]
  · rw [Finset.insert_eq, Finset.union_comm]
    rfl

theorem GrownFrom.settle {old : Finset Pid} {s : CaptureCxx} (h : GrownFrom old s) (f : Frame)
    (a : Option Attributed) : GrownFrom old (settle f a s) := by
  cases a with
  | none => exact h
  | some a =>
    have hadd := h.addPacket f.files a.pid a.cap
    unfold GrownFrom at hadd ⊢
    rw [CaptureCxx.settle, absorb, storePacket_processes, hadd, insertedPids, insertedPids,
      storePacket_filterMap _ (fun _ _ => rfl) fun _ _ => rfl]

theorem GrownFrom.feed {old : Finset Pid} {s : CaptureCxx} (h : GrownFrom old s) (x : CapHandle × Frame) :
    GrownFrom old (feed s x) := by
  obtain ⟨es, hes, hx⟩ := feed_settles s x
  rw [hx]
  refine (h.extend _ fun e he => ?_).settle x.2 _
  rcases List.mem_append.mp he with he | he
  · rw [mem_announced he]
    rfl
  · exact (hes e he).not_inserted

theorem GrownFrom.foldl_feed {old : Finset Pid} {s : CaptureCxx} (h : GrownFrom old s)
    (xs : List (CapHandle × Frame)) : GrownFrom old (xs.foldl CaptureCxx.feed s) := by
  induction xs generalizing s with
  | nil => exact h
  | cons x xs ih => exact ih (h.feed x)

theorem dispatched_grown (u : UpdateInput) (s : CaptureCxx) : GrownFrom s.processes.keySet (dispatched u s) := by
  obtain ⟨hs, -, hstate⟩ := dispatched_eq u s
  have hstart : GrownFrom s.processes.keySet (beginUpdate u s) := (Finset.union_empty _).symm
  rw [hstate]
  exact hstart.foldl_feed (delivered u.dispatch 0 s.handles)

/-! ## Removals -/

theorem flatMap_removed_sweepEvents (memory : UInt64) (deltaCpu : Interval) (ps ks : List Pid) :
    (sweepEvents true memory deltaCpu ps ks).flatMap Event.removed = dropped ps ks := by
  induction ks generalizing ps with
  | nil => cases ps <;> rfl
  | cons k ks ih =>
    cases ps with
    | nil => rfl
    | cons p ps =>
      rw [sweepEvents, dropped]
      by_cases hpk : p = k
      · rw [if_neg (not_not.mpr hpk), if_pos hpk, List.flatMap_cons, ih]
        rfl
      · rw [if_pos hpk, if_neg hpk, List.flatMap_append, ih]
        rfl

theorem quiet_reconcileEvents (u : UpdateInput) (s : CaptureCxx) (e : Event) (he : e ∈ reconcileEvents u s) :
    e.inserted = none ∧ e.reported = none := by
  obtain ⟨-, ⟨k, -, hk⟩ | ⟨k, -, rfl⟩⟩ := (mem_reconcileEvents u s e).mp he
  · obtain ⟨-, rfl⟩ | rfl := (mem_removeEvents_iff _ _ _).mp hk <;> exact ⟨rfl, rfl⟩
  · exact ⟨rfl, rfl⟩

theorem quiet_packetReport (ret : ℤ) (s : CaptureCxx) (e : Event) (he : e ∈ packetReport ret s) :
    e.inserted = none ∧ e.removed = [] ∧ e.reported = none := by
  cases ((mem_packetReport_iff _ _ _).mp he).2
  exact ⟨rfl, rfl, rfl⟩

theorem quiet_processReport (s : CaptureCxx) (e : Event) (he : e ∈ processReport s) :
    e.inserted = none ∧ e.removed = [] := by
  cases ((mem_processReport_iff _ _).mp he).2
  exact ⟨rfl, rfl⟩

/-! ## One `Update` -/

theorem update_insertedPids (u : UpdateInput) (s : CaptureCxx) :
    (update u s).2.insertedPids = (dispatched u s).insertedPids := by
  by_cases hstat : u.stat = none
  · rw [update_of_stat_none u s hstat]
  · have hnil : (reconcileEvents u s ++ (processReport (reconciled u s) ++
        packetReport (lastReturn u.dispatch s.handles) (reconciled u s))).filterMap Event.inserted = [] := by
      apply List.filterMap_eq_nil_iff.mpr
      intro e he
      rcases List.mem_append.mp he with he | he
      · exact (quiet_reconcileEvents u s e he).1
      · rcases List.mem_append.mp he with he | he
        · exact (quiet_processReport _ e he).1
        · exact (quiet_packetReport _ _ e he).1
    rw [insertedPids, (afterUpdate u s hstat).log, List.filterMap_append, hnil, List.append_nil]
    rfl

theorem removedPids_of_fromFrame {s : CaptureCxx} {memory : UInt64} {deltaCpu : Interval}
    (h : ∀ e ∈ s.log, e.FromFrame memory deltaCpu) : s.removedPids = [] ∧ s.reports = [] :=
  ⟨List.flatMap_eq_nil_iff.mpr fun e he => (h e he).quiet.1,
    List.filterMap_eq_nil_iff.mpr fun e he => (h e he).quiet.2⟩

/-- An `Update` that fails announces nothing. -/
theorem update_quiet (u : UpdateInput) (s : CaptureCxx) (hstat : u.stat = none) :
    (update u s).2.removedPids = [] ∧ (update u s).2.reports = [] := by
  rw [update_of_stat_none u s hstat]
  exact removedPids_of_fromFrame (afterDispatch u s).log

theorem update_removedPids (u : UpdateInput) (s : CaptureCxx) (hstat : u.stat ≠ none) :
    (update u s).2.removedPids = (reconcileEvents u s).flatMap Event.removed := by
  have hframe : (dispatched u s).log.flatMap Event.removed = [] :=
    (removedPids_of_fromFrame (afterDispatch u s).log).1
  have hreport : (processReport (reconciled u s)).flatMap Event.removed = [] :=
    List.flatMap_eq_nil_iff.mpr fun e he => (quiet_processReport _ e he).2
  have hpacket : (packetReport (lastReturn u.dispatch s.handles) (reconciled u s)).flatMap Event.removed = [] :=
    List.flatMap_eq_nil_iff.mpr fun e he => (quiet_packetReport _ _ e he).2.1
  rw [removedPids, (afterUpdate u s hstat).log, List.flatMap_append, List.flatMap_append, List.flatMap_append, hframe,
    hreport, hpacket, List.nil_append, List.append_nil, List.append_nil]

theorem reconcileEvents_removed (u : UpdateInput) (s : CaptureCxx) (hcb : s.processCallback = true) :
    (reconcileEvents u s).flatMap Event.removed =
      if (timed u s).pids.size ≠ (timed u s).processes.size then
        dropped (timed u s).pids.keys (timed u s).processes.keys else [] := by
  unfold reconcileEvents
  rw [hcb]
  split
  · exact flatMap_removed_sweepEvents _ _ _ _
  · rfl

theorem update_reports (u : UpdateInput) (s : CaptureCxx) (hstat : u.stat ≠ none) :
    (update u s).2.reports = (processReport (reconciled u s)).filterMap Event.reported := by
  have hframe : (dispatched u s).log.filterMap Event.reported = [] :=
    (removedPids_of_fromFrame (afterDispatch u s).log).2
  have hsweep : (reconcileEvents u s).filterMap Event.reported = [] :=
    List.filterMap_eq_nil_iff.mpr fun e he => (quiet_reconcileEvents u s e he).2
  have hpacket : (packetReport (lastReturn u.dispatch s.handles) (reconciled u s)).filterMap Event.reported = [] :=
    List.filterMap_eq_nil_iff.mpr fun e he => (quiet_packetReport _ _ e he).2.2
  rw [reports, (afterUpdate u s hstat).log, List.filterMap_append, List.filterMap_append, List.filterMap_append, hframe,
    hsweep, hpacket, List.nil_append, List.nil_append, List.append_nil]

/-- A report lists the keys of the table, in order. -/
theorem reported_pids {u : UpdateInput} {s : CaptureCxx} (hs : WellFormed s) {l : List Pid}
    (h : l ∈ (update u s).2.reports) :
    u.stat ≠ none ∧ s.processCallback = true ∧ l = (update u s).2.processes.keys := by
  have hstat : u.stat ≠ none := by
    intro hnone
    rw [(update_quiet u s hnone).2] at h
    cases h
  rw [update_reports u s hstat] at h
  obtain ⟨e, he, hl⟩ := List.mem_filterMap.mp h
  obtain ⟨hcb, rfl⟩ := (mem_processReport_iff _ _).mp he
  refine ⟨hstat, (reconciled_frame u s).2.2.1 ▸ hcb, ?_⟩
  cases hl
  rw [(afterUpdate u s hstat).processes, reportData, List.take_left' (by simp [Table.size]), List.map_map, Table.keys]
  refine List.map_congr_left fun e he => ?_
  exact (reconciled_stored hs u e.1 e.2 ((Table.mem_entries_iff _ _ _).mp he)).1

/-- With a callback set, the table after an `Update` is the one before with the inserted
pids added and the announced ones taken away. -/
theorem update_keySet (u : UpdateInput) (s : CaptureCxx) (hcb : s.processCallback = true) :
    (update u s).2.processes.keySet =
      (s.processes.keySet ∪ (update u s).2.insertedPids.toFinset) \ (update u s).2.removedPids.toFinset := by
  have hgrown : trackedPids u s = s.processes.keySet ∪ (update u s).2.insertedPids.toFinset := by
    rw [update_insertedPids, ← (afterDispatch u s).keySet]
    exact dispatched_grown u s
  by_cases hstat : u.stat = none
  · rw [← hgrown, (update_quiet u s hstat).1, update_of_stat_none u s hstat]
    simpa using (afterDispatch u s).keySet
  · rw [← hgrown, (afterUpdate u s hstat).processes, update_removedPids u s hstat, reconcileEvents_removed u s hcb]
    ext q
    rw [Table.mem_keySet, reconciled_keys, Finset.mem_sdiff, List.mem_toFinset]
    refine and_congr_right fun _ => not_congr ?_
    split
    · next hsize => rw [mem_dropped_keys, and_iff_right ((timed_sizes u s).mp hsize)]
    · next hsize =>
      refine iff_of_false (fun h => hsize ((timed_sizes u s).mpr h.1)) ?_
      simp

theorem update_processCallback (u : UpdateInput) (s : CaptureCxx) :
    (update u s).2.processCallback = s.processCallback := by
  by_cases hstat : u.stat = none
  · rw [update_of_stat_none u s hstat]
    exact (afterDispatch u s).processCallback
  · obtain ⟨data, hdata⟩ := reportProcesses_frame (reconciled u s)
    rw [update_of_stat_some u s hstat, reportPackets_frame, hdata]
    exact (reconciled_frame u s).2.2.1

theorem stat_none_of_reports_nil {u : UpdateInput} {s : CaptureCxx} (hcb : s.processCallback = true)
    (h : (update u s).2.reports = []) : u.stat = none := by
  by_contra hstat
  have hcb' : (reconciled u s).processCallback = true := (reconciled_frame u s).2.2.1.trans hcb
  rw [update_reports u s hstat, processReport, if_pos hcb'] at h
  cases h

theorem removedPids_sorted (u : UpdateInput) (s : CaptureCxx) : (update u s).2.removedPids.Pairwise (· < ·) := by
  by_cases hstat : u.stat = none
  · rw [(update_quiet u s hstat).1]
    exact List.Pairwise.nil
  rw [update_removedPids u s hstat]
  by_cases hcb : s.processCallback = true
  · rw [reconcileEvents_removed u s hcb]
    split
    · exact (Table.keys_sorted _).sublist (dropped_sublist _ _)
    · exact List.Pairwise.nil
  · have hnil : (reconcileEvents u s).flatMap Event.removed = [] := by
      apply List.flatMap_eq_nil_iff.mpr
      intro e he
      obtain ⟨-, ⟨k, -, hk⟩ | ⟨k, -, rfl⟩⟩ := (mem_reconcileEvents u s e).mp he
      · obtain ⟨hcb', -⟩ | rfl := (mem_removeEvents_iff _ _ _).mp hk
        · exact absurd hcb' hcb
        · rfl
      · rfl
    rw [hnil]
    exact List.Pairwise.nil

/-- Nothing is announced as removed after a report. -/
def ReportsLast (es : List Event) : Prop := es.Pairwise fun e e' => e.reported = none ∨ e'.removed = []

theorem update_reportsLast (u : UpdateInput) (s : CaptureCxx) : ReportsLast (update u s).2.log := by
  have hframe := (afterDispatch u s).log
  by_cases hstat : u.stat = none
  · rw [update_of_stat_none u s hstat]
    exact List.pairwise_of_forall_mem_list fun e he _ _ => Or.inl (hframe e he).quiet.2
  · -- up to the sweep nothing is reported, and from the report on nothing is announced
    have hearly : ∀ e ∈ (dispatched u s).log ++ reconcileEvents u s, e.reported = none := by
      intro e he
      rcases List.mem_append.mp he with he | he
      · exact (hframe e he).quiet.2
      · exact (quiet_reconcileEvents u s e he).2
    have hlate : ∀ e ∈ processReport (reconciled u s) ++
        packetReport (lastReturn u.dispatch s.handles) (reconciled u s), e.removed = [] := by
      intro e he
      rcases List.mem_append.mp he with he | he
      · exact (quiet_processReport _ e he).2
      · exact (quiet_packetReport _ _ e he).2.1
    rw [(afterUpdate u s hstat).log, ← List.append_assoc]
    refine List.pairwise_append.mpr ⟨?_, ?_, fun e he _ _ => Or.inl (hearly e he)⟩
    · exact List.pairwise_of_forall_mem_list fun e he _ _ => Or.inl (hearly e he)
    · exact List.pairwise_of_forall_mem_list fun _ _ e he => Or.inr (hlate e he)

/-! ## Every run -/

/-- A call shows the set `U` of pids: `Init` leaves a table with these keys, or an `Update`
reports them. -/
def Shows (t : RunTrace.Step CaptureCxx Call) (U : Finset Pid) : Prop :=
  match t.call with
  | .init _ => U = t.after.processes.keySet
  | .update _ => ∃ l ∈ t.after.reports, U = l.toFinset
  | .shutdown => False

/-- The log is that of the last `Init` or `Update`, so only for these it is the call's own. -/
def callInserted (t : RunTrace.Step CaptureCxx Call) : List Pid :=
  match t.call with
  | .update _ => t.after.insertedPids
  | _ => []

def callRemoved (t : RunTrace.Step CaptureCxx Call) : List Pid :=
  match t.call with
  | .update _ => t.after.removedPids
  | _ => []

theorem keySet_of_shows {t : RunTrace.Step CaptureCxx Call} (hs : WellFormed t.before)
    (hafter : t.after = next t.before t.call) {U : Finset Pid} (h : Shows t U) : U = t.after.processes.keySet := by
  obtain ⟨s, c, s'⟩ := t
  cases c with
  | init i => exact h
  | update u =>
    obtain ⟨l, hl, hU⟩ := h
    have hs' : s' = (update u s).2 := hafter
    subst hs'
    rw [hU, (reported_pids hs hl).2.2]
    rfl
  | shutdown => exact h.elim

/-- A call that shows nothing is a `Shutdown` or, with a callback set, an `Update` that
fails; the table has grown by what was inserted. -/
theorem silent_call {m : RunTrace.Step CaptureCxx Call} (hafter : m.after = next m.before m.call)
    (h : ∀ V, ¬ Shows m V) (hcb : m.before.processCallback = true) :
    m.after.processes.keySet = m.before.processes.keySet ∪ (callInserted m).toFinset ∧ callRemoved m = [] := by
  obtain ⟨s, c, s'⟩ := m
  cases c with
  | init i => exact absurd rfl (h s'.processes.keySet)
  | update u =>
    have hs' : s' = (update u s).2 := hafter
    subst hs'
    have hnil : (update u s).2.reports = [] :=
      List.eq_nil_iff_forall_not_mem.mpr fun l hl => h l.toFinset ⟨l, hl, rfl⟩
    have hremoved := (update_quiet u s (stat_none_of_reports_nil hcb hnil)).1
    refine ⟨?_, hremoved⟩
    have hkeys := update_keySet u s hcb
    rw [hremoved, List.toFinset_nil, Finset.sdiff_empty] at hkeys
    exact hkeys
  | shutdown =>
    have hs' : s' = s := hafter
    subst hs'
    exact ⟨(Finset.union_empty _).symm, rfl⟩

theorem silent_call_processCallback {m : RunTrace.Step CaptureCxx Call} (hafter : m.after = next m.before m.call)
    (h : ∀ V, ¬ Shows m V) : m.after.processCallback = m.before.processCallback := by
  obtain ⟨s, c, s'⟩ := m
  cases c with
  | init i => exact absurd rfl (h s'.processes.keySet)
  | update u =>
    have hs' : s' = (update u s).2 := hafter
    subst hs'
    exact update_processCallback u s
  | shutdown =>
    have hs' : s' = s := hafter
    subst hs'
    rfl

theorem processCallback_of_shows {t : RunTrace.Step CaptureCxx Call} (hs : WellFormed t.before) {u : UpdateInput}
    (hafter : t.after = (update u t.before).2) (hcall : t.call = .update u) {U : Finset Pid} (h : Shows t U) :
    t.before.processCallback = true := by
  unfold Shows at h
  rw [hcall, hafter] at h
  obtain ⟨l, hl, -⟩ := h
  exact (reported_pids hs hl).2.1

/-- Over calls that show nothing the table grows by what they insert. Whether a callback is
set does not change, so it is enough to know it where the stretch ends. -/
theorem silent_stretch {s : CaptureCxx} {cs : List Call} {mid rest : List (RunTrace.Step CaptureCxx Call)}
    {t : RunTrace.Step CaptureCxx Call} (h : RunTrace.steps next s cs = mid ++ t :: rest)
    (hmid : ∀ m ∈ mid, ∀ V, ¬ Shows m V) (hcb : t.before.processCallback = true) :
    t.before.processes.keySet = s.processes.keySet ∪ (mid.flatMap callInserted).toFinset ∧
      mid.flatMap callRemoved = [] := by
  have hconstant := RunTrace.stretch_induction next (fun _ s' => s'.processCallback = s.processCallback) h rfl
    fun _ m hm hafter hp => (silent_call_processCallback hafter (hmid m hm)).trans hp
  have hmirror := RunTrace.stretch_induction next
    (fun done s' => s'.processCallback = true ∧
      s'.processes.keySet = s.processes.keySet ∪ (done.flatMap callInserted).toFinset ∧
        done.flatMap callRemoved = []) h
    ⟨hconstant.symm.trans hcb, (Finset.union_empty _).symm, rfl⟩
    fun done m hm hafter hp => by
      obtain ⟨hgrow, hnone⟩ := silent_call hafter (hmid m hm) hp.1
      refine ⟨(silent_call_processCallback hafter (hmid m hm)).trans hp.1, ?_, ?_⟩
      · rw [hgrow, hp.2.1, List.flatMap_append, List.toFinset_append, Finset.union_assoc]
        simp
      · rw [List.flatMap_append, hp.2.2]
        simp [hnone]
  exact hmirror.2

/-- Over every run: between a call that shows `U` and the next report `U'` the pids inserted
and announced as removed account for the difference; in each `Update` the removals are
announced in ascending order and before the report, and not at all if it fails. -/
theorem callback_stream_consistent (cs : List Call) :
    (∀ pre t mid t' post U U' u, run cs = pre ++ t :: (mid ++ t' :: post) → Shows t U → (∀ m ∈ mid, ∀ V, ¬ Shows m V) →
      t'.call = .update u → Shows t' U' →
        U' = (U ∪ ((mid ++ [t']).flatMap callInserted).toFinset) \ ((mid ++ [t']).flatMap callRemoved).toFinset) ∧
      ∀ t ∈ run cs, ∀ u, t.call = .update u →
        t.after.removedPids.Pairwise (· < ·) ∧ ReportsLast t.after.log ∧
          ((update u t.before).1 ≠ 0 → t.after.removedPids = [] ∧ t.after.reports = []) := by
  constructor
  · intro pre t mid t' post U U' u hrun hU hmid hcall hU'
    have ht : t ∈ run cs := by simp [hrun]
    have ht' : t' ∈ run cs := by simp [hrun]
    have hafter := after_update ht' hcall
    have hkeys := keySet_of_shows (wellFormed_of_mem_run ht) (RunTrace.after_of_mem_steps _ _ _ _ ht) hU
    have hkeys' := keySet_of_shows (wellFormed_of_mem_run ht') (RunTrace.after_of_mem_steps _ _ _ _ ht') hU'
    have hcb := processCallback_of_shows (wellFormed_of_mem_run ht') hafter hcall hU'
    obtain ⟨cs', hcs'⟩ := RunTrace.steps_after next hrun
    obtain ⟨hgrown, hnone⟩ := silent_stretch hcs' hmid hcb
    have hinserted : callInserted t' = (update u t'.before).2.insertedPids := by
      unfold callInserted
      rw [hcall, hafter]
    have hremoved : callRemoved t' = (update u t'.before).2.removedPids := by
      unfold callRemoved
      rw [hcall, hafter]
    rw [hkeys', hafter, update_keySet u t'.before hcb, hgrown, ← hkeys, List.flatMap_append, List.flatMap_append,
      hnone, List.flatMap_singleton, List.flatMap_singleton, hinserted, hremoved, List.toFinset_append,
      Finset.union_assoc, List.nil_append]
  · intro t ht u hcall
    rw [after_update ht hcall]
    refine ⟨removedPids_sorted u t.before, update_reportsLast u t.before, fun hne => update_quiet u t.before ?_⟩
    by_contra hstat
    exact hne ((update_fst u t.before).mpr hstat)

/-- Process 1 is gone when the second call reports. -/
theorem callback_stream_consistent_lan :
    ∃ U U' : Finset Pid, ∃ t t' : RunTrace.Step CaptureCxx Call,
      run [.init (lanInit [1, 2]), .update (idleUpdate [2])] = [t, t'] ∧ Shows t U ∧ Shows t' U' ∧
        U' = (U ∪ (callInserted t').toFinset) \ (callRemoved t').toFinset ∧ callRemoved t' = [1] := by
  have hrun : run [.init (lanInit [1, 2]), .update (idleUpdate [2])] = [] ++ _ :: ([] ++ _ :: []) := rfl
  have hreport : (next (next initial (.init (lanInit [1, 2]))) (.update (idleUpdate [2]))).reports = [[2]] := by
    decide +kernel
  have hshows : Shows ⟨next initial (.init (lanInit [1, 2])), .update (idleUpdate [2]),
      next (next initial (.init (lanInit [1, 2]))) (.update (idleUpdate [2]))⟩ ([2] : List Pid).toFinset :=
    ⟨[2], by rw [hreport]; exact List.mem_singleton_self _, rfl⟩
  have h := (callback_stream_consistent _).1 [] _ [] _ [] _ _ _ hrun rfl (by simp) rfl hshows
  refine ⟨_, _, _, _, hrun, rfl, hshows, ?_, by decide +kernel⟩
  simpa using h

end CaptureCxx
end Capture
