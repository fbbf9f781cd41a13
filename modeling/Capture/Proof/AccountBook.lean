import Mathlib.Data.UInt
import Capture.Foundations.Ledger
import Capture.Proof.ProcessSnapshot
import Capture.Proof.ReconcileEffect
import Capture.Proof.Tracking
import Capture.Proof.TrafficCounters

/-! # The book a capture keeps

A run is read as a book of accounts, one for each pid: an `Init` opens the accounts of its
snapshot, a frame that resolves to a pid is credited to it, and a pid the reconciliation
erases has its account closed. The accounts hold natural numbers, the counters of the
code are what 64 bits keep of them (`counters_follow_book`). -/
namespace Capture
open SeparatedText AddressText OrderedTable Ledger

set_option autoImplicit false

/-- The two counters of a process, sent and received. -/
def CapProcess.counts (q : CapProcess) : UInt64 × UInt64 := (q.send, q.recv)

theorem CapProcess.counts_parse (call : ℕ) (files : ProcFiles) (imemory : UInt64) (ideltacpu : Interval)
    (q : CapProcess) : (CapProcess.parse call files imemory ideltacpu q).counts = q.counts := by
  have h := CapProcess.parse_traffic call files imemory ideltacpu q
  exact Prod.ext (congrArg (fun x => x.2.2) h) (congrArg (fun x => x.2.1) h)

namespace CaptureCxx

/-! ## Postings -/

/-- The bytes of a credited frame, sent and received. -/
def creditBytes (devices : List CapDevice) (x : Frame × Attributed) : ℕ × ℕ :=
  if contains devices x.2.cap.source then (x.1.len.toNat, 0) else (0, x.1.len.toNat)

def creditOf (devices : List CapDevice) (x : Frame × Attributed) : Posting Pid (ℕ × ℕ) :=
  .credit x.2.pid (creditBytes devices x)

/-- The pids the call erases from the table, in order. -/
def erasedPids (s : CaptureCxx) : List Pid := s.log.filterMap Event.erased

/-- What a call in state `s` posts. -/
def postingsOf (s : CaptureCxx) : Call → List (Posting Pid (ℕ × ℕ))
  | .init i => if (prepare i s).devices = [] then [] else (snapshot i.proc).keys.map .start
  | .update u => (credits u s).map (creditOf s.devices) ++ (update u s).2.erasedPids.map .close
  | .shutdown => []

def book (cs : List Call) : List (Posting Pid (ℕ × ℕ)) := (run cs).flatMap fun t => postingsOf t.before t.call

def counters (s : CaptureCxx) (p : Pid) : Option (UInt64 × UInt64) := (s.processes.find p).map CapProcess.counts

/-- What two 64-bit counters keep of two totals. -/
def wrap : ℕ × ℕ →+ UInt64 × UInt64 where
  toFun a := (UInt64.ofNat a.1, UInt64.ofNat a.2)
  map_zero' := rfl
  map_add' a b := Prod.ext (UInt64.ofNat_add a.1 b.1) (UInt64.ofNat_add a.2 b.2)

/-! ## One frame -/

theorem counts_addPacket (devices : List CapDevice) (f : Frame) (a : Attributed) (q : CapProcess)
    (hdir : (a.cap.isOutgoing devices).1 = contains devices a.cap.source) (hlen : a.cap.len = f.len) :
    (q.addPacket devices a.cap).counts = q.counts + wrap (creditBytes devices (f, a)) := by
  have hlen64 : UInt64.ofNat f.len.toNat = f.len.toUInt64 := UInt64.ofNat_uInt32ToNat f.len
  unfold CapProcess.addPacket creditBytes
  rw [hdir, hlen]
  cases contains devices a.cap.source
  · exact Prod.ext (UInt64.add_zero _).symm (congrArg (q.recv + ·) hlen64.symm)
  · exact Prod.ext (congrArg (q.send + ·) hlen64.symm) (UInt64.add_zero _).symm

theorem counters_feed (s : CaptureCxx) (x : CapHandle × Frame) (p : Pid) :
    counters (feed s x) p = advance p (counters s p)
      ((attributions s.devices s.inodes [x]).map fun y => (creditOf s.devices y).map wrap) := by
  unfold counters
  rw [feed_processes]
  cases ha : x.1.attribute s.devices s.inodes x.2 with
  | none => simp [attributions, ha, advance, postings]
  | some a =>
    obtain ⟨hdir, hlen⟩ := attribute_cap ha
    have hposted : (attributions s.devices s.inodes [x]).map (fun y => (creditOf s.devices y).map wrap) =
        [.credit a.pid (wrap (creditBytes s.devices (x.2, a)))] := by
      simp [attributions, ha, creditOf, Posting.map]
    rw [hposted, advance_cons]
    show ((s.processes.insert a.pid (credited x.2 a s)).find p).map _ = if a.pid = p then _ else _
    rw [Table.find_insert]
    by_cases hp : p = a.pid
    · subst hp
      rw [if_pos rfl, if_pos rfl, Option.map_some, credited, counts_addPacket s.devices x.2 a _ hdir hlen]
      -- a process met for the first time has counted nothing
      cases hfind : s.processes.find a.pid with
      | none => rw [Option.getD_none, CapProcess.counts_parse]; rfl
      | some q => rfl
    · rw [if_neg hp, if_neg (Ne.symm hp)]

theorem counters_foldl_feed (xs : List (CapHandle × Frame)) (s : CaptureCxx) (p : Pid) :
    counters (xs.foldl feed s) p = advance p (counters s p)
      ((attributions s.devices s.inodes xs).map fun y => (creditOf s.devices y).map wrap) := by
  induction xs generalizing s with
  | nil => rfl
  | cons x xs ih =>
    have hsplit : attributions s.devices s.inodes (x :: xs) =
        attributions s.devices s.inodes [x] ++ attributions s.devices s.inodes xs :=
      attributions_append s.devices s.inodes [x] xs
    rw [List.foldl_cons, ih, counters_feed, feed_devices, feed_inodes, hsplit, List.map_append, advance_append]

/-! ## One call -/

theorem counters_dispatched (u : UpdateInput) (s : CaptureCxx) (p : Pid) :
    counters (dispatched u s) p =
      advance p (counters s p) ((credits u s).map fun y => (creditOf s.devices y).map wrap) := by
  obtain ⟨hs, -, hstate⟩ := dispatched_eq u s
  rw [hstate]
  exact counters_foldl_feed (delivered u.dispatch 0 s.handles) (beginUpdate u s) p

theorem mem_erasedPids_update (u : UpdateInput) (s : CaptureCxx) (p : Pid) :
    p ∈ (update u s).2.erasedPids ↔ u.stat ≠ none ∧ SizesDiffer u s ∧ Dropped u s p := by
  have hmem : p ∈ (update u s).2.erasedPids ↔ .erase p ∈ (update u s).2.log := by
    unfold erasedPids
    rw [List.mem_filterMap]
    constructor
    · rintro ⟨e, he, hp⟩
      cases e <;> cases hp
      exact he
    · exact fun h => ⟨.erase p, h, rfl⟩
  rw [hmem]
  by_cases hstat : u.stat = none
  · rw [update_of_stat_none u s hstat]
    refine ⟨fun h => ?_, fun h => absurd hstat h.1⟩
    exact (not_fromFrame_erase _ _ _ ((afterDispatch u s).log _ h)).elim
  · refine ⟨fun h => (removes_update_iff u s p).mp (Or.inl h), fun ⟨_, hsize, hp⟩ => ?_⟩
    refine (mem_log_update_iff u s hstat _).mpr (Or.inr (Or.inl ?_))
    exact (mem_reconcileEvents u s _).mpr ⟨hsize, Or.inl ⟨p, hp, (mem_removeEvents_iff _ _ _).mpr (Or.inr rfl)⟩⟩

theorem counters_update (u : UpdateInput) (s : CaptureCxx) (p : Pid) :
    counters (update u s).2 p = if p ∈ (update u s).2.erasedPids then none else counters (dispatched u s) p := by
  have herased := mem_erasedPids_update u s p
  by_cases hstat : u.stat = none
  · rw [if_neg fun h => (herased.mp h).1 hstat, update_of_stat_none u s hstat]
  · unfold counters
    rw [(afterUpdate u s hstat).processes, reconciled_find]
    by_cases hdrop : SizesDiffer u s ∧ Dropped u s p
    · rw [if_pos hdrop, if_pos (herased.mpr ⟨hstat, hdrop⟩)]
      rfl
    · rw [if_neg hdrop, if_neg fun h => hdrop (herased.mp h).2]
      split
      · rw [Option.map_map]
        exact congrFun (congrArg Option.map (funext fun q => CapProcess.counts_parse _ _ _ _ q)) _
      · rfl

theorem counters_init (i : InitInput) (s : CaptureCxx) (p : Pid) :
    counters (init i s).2 p =
      if (prepare i s).devices ≠ [] ∧ p ∈ (snapshot i.proc).keys then some 0 else counters s p := by
  unfold counters
  rw [init_find]
  split
  · rw [Option.map_some, CapProcess.counts_parse]
    rfl
  · rfl

/-- A call moves every counter as the account it keeps. -/
theorem counters_next (s : CaptureCxx) (c : Call) (p : Pid) :
    counters (next s c) p = advance p (counters s p) ((postingsOf s c).map (Posting.map wrap)) := by
  cases c with
  | init i =>
    show counters (init i s).2 p = _
    rw [counters_init, postingsOf]
    by_cases hnil : (prepare i s).devices = []
    · simp [hnil, advance, postings]
    · rw [if_neg hnil, List.map_map]
      simp only [hnil, ne_eq, not_false_eq_true, true_and]
      exact (advance_map_start p _ _).symm
  | update u =>
    show counters (update u s).2 p = _
    rw [counters_update, counters_dispatched, postingsOf, List.map_append, List.map_map, List.map_map, advance_append]
    exact (advance_map_close p _ _).symm
  | shutdown => rfl

/-! ## Every run -/

theorem counters_foldl_next (cs : List Call) (s : CaptureCxx) (p : Pid) :
    counters (cs.foldl next s) p = advance p (counters s p)
      (((RunTrace.steps next s cs).flatMap fun t => postingsOf t.before t.call).map (Posting.map wrap)) := by
  induction cs generalizing s with
  | nil => rfl
  | cons c cs ih =>
    rw [List.foldl_cons, ih, counters_next, RunTrace.steps, List.flatMap_cons, List.map_append, advance_append]

theorem counters_reached (cs : List Call) (p : Pid) : counters (reached cs) p = (account p (book cs)).map wrap := by
  rw [account_map]
  exact counters_foldl_next cs initial p

/-- What the calls `cs` post when they follow the calls `pre`. -/
def bookAfter (pre cs : List Call) : List (Posting Pid (ℕ × ℕ)) :=
  (RunTrace.steps next (reached pre) cs).flatMap fun t => postingsOf t.before t.call

theorem book_append (pre cs : List Call) : book (pre ++ cs) = book pre ++ bookAfter pre cs := by
  rw [book, run, RunTrace.steps_append, List.flatMap_append]
  rfl

/-! ## The report -/

theorem reported_entries {s : CaptureCxx} {u : UpdateInput} {data : List ProcessRecord} {size : ℕ}
    (h : .processCallback .update data size ∈ (update u s).2.log) :
    data.take size = (update u s).2.processes.entries.map fun e => processRecord e.2 := by
  by_cases hstat : u.stat = none
  · rw [update_of_stat_none u s hstat] at h
    exact (not_fromFrame_callback _ _ _ _ _ ((afterDispatch u s).log _ h)).elim
  · cases ((mem_processReport_iff _ _).mp (mem_log_update_callback hstat h)).2
    rw [(afterUpdate u s hstat).processes, reportData, List.take_left' (by simp [Table.size])]

theorem find_records (es : List (Pid × CapProcess)) (h : ∀ e ∈ es, e.2.pid = e.1) (p : Pid) :
    (es.map fun e => processRecord e.2).find? (·.pid = p) = (lookup p es).map processRecord := by
  induction es with
  | nil => rfl
  | cons e es ih =>
    obtain ⟨he, hes⟩ := List.forall_mem_cons.mp h
    have hpid : (processRecord e.2).pid = e.1 := he
    rw [List.map_cons, List.find?_cons, lookup_cons, ih hes, hpid]
    by_cases hp : p = e.1
    · simp [hp]
    · simp [hp, Ne.symm hp]

/-- What a report hands out under a pid is the record of the process stored there. -/
theorem reported_record {s : CaptureCxx} (hs : WellFormed s) {u : UpdateInput} {data : List ProcessRecord} {size : ℕ}
    (h : .processCallback .update data size ∈ (update u s).2.log) (p : Pid) :
    (data.take size).find? (·.pid = p) = ((update u s).2.processes.find p).map processRecord := by
  have hstored : ∀ e ∈ (update u s).2.processes.entries, e.2.pid = e.1 := fun e he =>
    ((hs.update u).stored e.1 e.2 ((Table.mem_entries_iff _ _ _).mp he)).1
  rw [reported_entries h, find_records _ hstored]
  rfl

theorem reported_counters {s : CaptureCxx} (hs : WellFormed s) {u : UpdateInput} {data : List ProcessRecord} {size : ℕ}
    (h : .processCallback .update data size ∈ (update u s).2.log) (p : Pid) :
    ((data.take size).find? (·.pid = p)).map (fun r => (r.send, r.recv)) = counters (update u s).2 p := by
  rw [reported_record hs h, Option.map_map]
  rfl

/-! ## The frames of a run -/

/-- The bytes of the frames a run credits, sent and received. -/
def totalCredited (cs : List Call) : ℕ × ℕ := ((book cs).map Posting.amount).sum

/-- The frames a call in state `s` credits. -/
def creditsOf (s : CaptureCxx) : Call → List (Frame × Attributed)
  | .update u => credits u s
  | _ => []

def creditedFrames (cs : List Call) : List Frame := (run cs).flatMap fun t => (creditsOf t.before t.call).map Prod.fst

theorem creditBytes_sum (devices : List CapDevice) (x : Frame × Attributed) :
    (creditBytes devices x).1 + (creditBytes devices x).2 = x.1.len.toNat := by
  unfold creditBytes
  split
  · exact Nat.add_zero _
  · exact Nat.zero_add _

theorem sum_fst_add_snd (l : List (ℕ × ℕ)) : l.sum.1 + l.sum.2 = (l.map fun a => a.1 + a.2).sum := by
  induction l with
  | nil => rfl
  | cons a l ih =>
    rw [List.sum_cons, List.map_cons, List.sum_cons, ← ih, Prod.fst_add, Prod.snd_add]
    omega

theorem sum_amount_postingsOf (s : CaptureCxx) (c : Call) :
    ((postingsOf s c).map Posting.amount).sum = ((creditsOf s c).map (creditBytes s.devices)).sum := by
  cases c with
  | init i =>
    refine sum_amount_of_no_credit _ fun e he => ?_
    rw [postingsOf] at he
    split at he
    · cases he
    · obtain ⟨p, -, rfl⟩ := List.mem_map.mp he
      rfl
  | update u =>
    have hclosed := sum_amount_of_no_credit ((update u s).2.erasedPids.map (.close (α := ℕ × ℕ))) fun e he => by
      obtain ⟨p, -, rfl⟩ := List.mem_map.mp he
      rfl
    rw [postingsOf, List.map_append, List.sum_append, hclosed, add_zero, List.map_map]
    rfl
  | shutdown => rfl

theorem totalCredited_sum (cs : List Call) :
    (totalCredited cs).1 + (totalCredited cs).2 = ((creditedFrames cs).map fun f => f.len.toNat).sum := by
  have hcall : ∀ t : RunTrace.Step CaptureCxx Call, ((postingsOf t.before t.call).map Posting.amount).sum.1 +
      ((postingsOf t.before t.call).map Posting.amount).sum.2 =
        (((creditsOf t.before t.call).map Prod.fst).map fun f => f.len.toNat).sum := by
    intro t
    rw [sum_amount_postingsOf, sum_fst_add_snd, List.map_map, List.map_map]
    exact congrArg List.sum (List.map_congr_left fun x _ => creditBytes_sum t.before.devices x)
  rw [totalCredited, book, creditedFrames]
  induction run cs with
  | nil => rfl
  | cons t ts ih =>
    rw [List.flatMap_cons, List.flatMap_cons, List.map_append, List.map_append, List.sum_append, List.sum_append,
      ← hcall t, ← ih, Prod.fst_add, Prod.snd_add]
    omega

/-! ## The results -/

/-- The counters keep the book: in every run each counter is what 64 bits keep of its
account, every report hands the accounts out, and the counters of a process that has its
entry from an `Init` are the sum of what was credited to it since then. -/
theorem counters_follow_book (cs : List Call) :
    (∀ p, counters (reached cs) p = (account p (book cs)).map wrap) ∧
      (∀ u data size, .processCallback .update data size ∈ (reached (cs ++ [.update u])).log → ∀ p,
        ((data.take size).find? (·.pid = p)).map (fun r => (r.send, r.recv)) =
          (account p (book (cs ++ [.update u]))).map wrap) ∧
      ∀ i later p, (prepare i (reached cs)).devices ≠ [] → p ∈ (snapshot i.proc).keys →
        Undisturbed p (bookAfter (cs ++ [.init i]) later) →
        counters (reached (cs ++ .init i :: later)) p =
          some (wrap (Ledger.credited p (bookAfter (cs ++ [.init i]) later))) := by
  refine ⟨counters_reached cs, fun u data size h p => ?_, fun i later p hdevices hp hquiet => ?_⟩
  · have hnext : reached (cs ++ [.update u]) = (update u (reached cs)).2 := reached_append cs [.update u]
    rw [← counters_reached, hnext]
    exact reported_counters (reached_wellFormed cs) (hnext ▸ h) p
  · have hopen : account p (book (cs ++ [.init i])) = some 0 := by
      have hposted : bookAfter cs [.init i] = (snapshot i.proc).keys.map .start := by
        simp [bookAfter, RunTrace.steps, postingsOf, hdevices]
      rw [book_append, account_append, hposted, advance_map_start, if_pos hp]
    have hsplit : cs ++ .init i :: later = (cs ++ [.init i]) ++ later := by simp
    rw [hsplit, counters_reached, book_append, account_append, hopen, advance_some_of_undisturbed hquiet, zero_add]
    rfl

/-- No byte of a credited frame is lost or counted twice: it is on the account of a tracked
process, or it was on an account when that was closed or opened again. -/
theorem bytes_conserved (cs : List Call) :
    (totalCredited cs).1 + (totalCredited cs).2 =
        ((creditedFrames cs).map fun f => f.len.toNat).sum ∧
      ∑ p ∈ (reached cs).processes.keySet, (account p (book cs)).getD 0 + writtenOff (fun _ => none) (book cs) =
        totalCredited cs ∧
      ∑ p ∈ (reached cs).processes.keySet, (counters (reached cs) p).getD 0 +
        wrap (writtenOff (fun _ => none) (book cs)) = wrap (totalCredited cs) := by
  have hzero : ∀ p, (counters (reached cs) p).getD 0 = wrap ((account p (book cs)).getD 0) := by
    intro p
    rw [counters_reached]
    cases account p (book cs) with
    | none => exact (map_zero wrap).symm
    | some a => rfl
  have hnone : ∀ p, p ∉ (reached cs).processes.keySet → (account p (book cs)).getD 0 = 0 := by
    intro p hp
    have hfind : (reached cs).processes.find p = none := (Table.find_eq_none_iff _ _).mpr (by simpa using hp)
    have hcount := counters_reached cs p
    rw [counters, hfind] at hcount
    rw [Option.map_eq_none_iff.mp hcount.symm]
    rfl
  have hexact : ∑ p ∈ (reached cs).processes.keySet, (account p (book cs)).getD 0 +
      writtenOff (fun _ => none) (book cs) = totalCredited cs := by
    have hall := sum_advance_add_writtenOff ((reached cs).processes.keySet ∪ ((book cs).map Posting.key).toFinset)
      (fun _ => none) (book cs) fun e he =>
        Finset.mem_union_right _ (List.mem_toFinset.mpr (List.mem_map_of_mem he))
    have hsubset : (reached cs).processes.keySet ⊆
        (reached cs).processes.keySet ∪ ((book cs).map Posting.key).toFinset := Finset.subset_union_left
    have hsum := Finset.sum_subset (f := fun p => (account p (book cs)).getD 0) hsubset fun p _ hp => hnone p hp
    rw [hsum]
    refine hall.trans ?_
    simp [totalCredited]
  refine ⟨totalCredited_sum cs, hexact, ?_⟩
  rw [← hexact, map_add, map_sum]
  exact congrArg (· + _) (Finset.sum_congr rfl fun p _ => hzero p)

end CaptureCxx
end Capture
