import Capture.Proof.Reconcile

/-! # Traffic accounting

The counters of a process after a pass over any frames are its counters before plus the
lengths of the frames that resolve to it, sent or received by whether the source address
is one of the host's. The totals are sums over the frames, so their order is immaterial. -/
namespace Capture
open AddressText OrderedTable

set_option autoImplicit false

namespace CaptureCxx

/-! ## Counters and totals -/

def sentBytes (s : CaptureCxx) (p : Pid) : ℕ := ((s.processes.find p).map (·.send.toNat)).getD 0

def receivedBytes (s : CaptureCxx) (p : Pid) : ℕ := ((s.processes.find p).map (·.recv.toNat)).getD 0

/-- The frame resolves to `p`, and its source is an address of the host if `outgoing` and
is not otherwise. -/
def resolvesTo (devices : List CapDevice) (inodes : CapInodeHelper) (p : Pid) (outgoing : Bool)
    (x : CapHandle × Frame) : Bool :=
  (x.1.attribute devices inodes x.2).any fun a => a.pid = p ∧ contains devices a.cap.source = outgoing

def totalBytes (devices : List CapDevice) (inodes : CapInodeHelper) (p : Pid) (outgoing : Bool)
    (xs : List (CapHandle × Frame)) : ℕ :=
  ((xs.filter (resolvesTo devices inodes p outgoing)).map fun x => x.2.len.toNat).sum

def counter (s : CaptureCxx) (p : Pid) (outgoing : Bool) : ℕ :=
  if outgoing then sentBytes s p else receivedBytes s p

/-! ## One packet -/

theorem packetOf_cap {devices : List CapDevice} {context : PcapCtx} {f : Frame} {offset : ℕ} {cap : CapPacket}
    (h : packetOf devices context f offset = some cap) :
    (cap.isOutgoing devices).1 = contains devices cap.source ∧ cap.len = f.len := by
  cases context with
  | unspec => cases h
  | ip4 src dst =>
    cases h
    rw [CapPacket.init4, CapPacket.hash_of_unknown _ _ rfl rfl]
    cases hc : contains devices (.v4 src) <;>
      simp [CapPacket.isOutgoing, CapPacket.source, hc]
  | ip6 src dst =>
    cases h
    rw [CapPacket.init6, CapPacket.hash_of_unknown _ _ rfl rfl]
    cases hc : contains devices (.v6 src) <;>
      simp [CapPacket.isOutgoing, CapPacket.source, hc]

theorem attribute_cap {h : CapHandle} {devices : List CapDevice} {inodes : CapInodeHelper} {f : Frame} {a : Attributed}
    (ha : h.attribute devices inodes f = some a) :
    (a.cap.isOutgoing devices).1 = contains devices a.cap.source ∧ a.cap.len = f.len := by
  unfold CapHandle.attribute at ha
  split at ha
  · obtain ⟨g, -, hg⟩ := Option.bind_eq_some_iff.mp ha
    obtain ⟨cap, hcap, hpid⟩ := Option.bind_eq_some_iff.mp hg
    obtain ⟨pid, -, rfl⟩ := Option.map_eq_some_iff.mp hpid
    exact packetOf_cap hcap
  · cases ha

def bytesOf (outgoing : Bool) (q : CapProcess) : ℕ := if outgoing then q.send.toNat else q.recv.toNat

theorem counter_eq (s : CaptureCxx) (p : Pid) (outgoing : Bool) :
    counter s p outgoing = ((s.processes.find p).map (bytesOf outgoing)).getD 0 := by
  cases outgoing <;> rfl

theorem bytesOf_addPacket (devices : List CapDevice) (cap : CapPacket) (outgoing : Bool) (q : CapProcess) :
    bytesOf outgoing (q.addPacket devices cap) =
      (bytesOf outgoing q + if (cap.isOutgoing devices).1 = outgoing then cap.len.toNat else 0) % 2 ^ 64 := by
  unfold CapProcess.addPacket bytesOf
  cases outgoing <;> cases (cap.isOutgoing devices).1 <;> simp [UInt64.toNat_add]

theorem bytesOf_parse (outgoing : Bool) (call : ℕ) (files : ProcFiles) (imemory : UInt64) (ideltacpu : Interval)
    (q : CapProcess) : bytesOf outgoing (CapProcess.parse call files imemory ideltacpu q) = bytesOf outgoing q := by
  have h := CapProcess.parse_traffic call files imemory ideltacpu q
  have hrecv : (CapProcess.parse call files imemory ideltacpu q).recv = q.recv := congrArg (fun x => x.2.1) h
  have hsend : (CapProcess.parse call files imemory ideltacpu q).send = q.send := congrArg (fun x => x.2.2) h
  rw [bytesOf, bytesOf, hrecv, hsend]

theorem counter_lt (s : CaptureCxx) (p : Pid) (outgoing : Bool) : counter s p outgoing < 2 ^ 64 := by
  rw [counter_eq]
  cases s.processes.find p with
  | none => simp
  | some q =>
    cases outgoing
    · exact q.recv.toNat_lt
    · exact q.send.toNat_lt

theorem counter_feed (s : CaptureCxx) (x : CapHandle × Frame) (p : Pid) (outgoing : Bool) :
    counter (feed s x) p outgoing =
      (counter s p outgoing +
        if resolvesTo s.devices s.inodes p outgoing x then x.2.len.toNat else 0) % 2 ^ 64 := by
  have hlt := counter_lt s p outgoing
  rw [counter_eq, feed_processes]
  unfold resolvesTo
  cases ha : x.1.attribute s.devices s.inodes x.2 with
  | none =>
    simp only [Option.any_none, Bool.false_eq_true, if_false, Nat.add_zero]
    rw [Nat.mod_eq_of_lt hlt, counter_eq]
  | some a =>
    obtain ⟨hdir, hlen⟩ := attribute_cap ha
    dsimp only
    rw [Table.find_insert]
    by_cases hp : p = a.pid
    · subst hp
      have hbase : bytesOf outgoing ((s.processes.find a.pid).getD
          (CapProcess.parse s.calls (x.2.files a.pid) s.memory s.deltaCpu { pid := a.pid })) =
          counter s a.pid outgoing := by
        rw [counter_eq]
        cases s.processes.find a.pid with
        | none =>
          simp only [Option.getD_none, Option.map_none, bytesOf_parse]
          cases outgoing <;> rfl
        | some q => rfl
      rw [if_pos rfl, Option.map_some, Option.getD_some, credited, bytesOf_addPacket, hbase, hdir, hlen]
      simp
    · have hne : ¬ a.pid = p := fun h => hp h.symm
      rw [if_neg hp]
      simp only [Option.any_some, hne, false_and, decide_false, Bool.false_eq_true, if_false, Nat.add_zero]
      rw [Nat.mod_eq_of_lt hlt, counter_eq]

/-! ## Any number of frames -/

theorem totalBytes_cons (devices : List CapDevice) (inodes : CapInodeHelper) (p : Pid) (outgoing : Bool)
    (x : CapHandle × Frame) (xs : List (CapHandle × Frame)) :
    totalBytes devices inodes p outgoing (x :: xs) =
      (if resolvesTo devices inodes p outgoing x then x.2.len.toNat else 0) +
        totalBytes devices inodes p outgoing xs := by
  unfold totalBytes
  by_cases h : resolvesTo devices inodes p outgoing x = true
  · simp [h]
  · simp [h]

theorem counter_foldl_feed (xs : List (CapHandle × Frame)) (s : CaptureCxx) (p : Pid) (outgoing : Bool) :
    counter (xs.foldl feed s) p outgoing =
      (counter s p outgoing + totalBytes s.devices s.inodes p outgoing xs) % 2 ^ 64 := by
  induction xs generalizing s with
  | nil => exact (Nat.mod_eq_of_lt (counter_lt s p outgoing)).symm
  | cons x xs ih =>
    rw [List.foldl_cons, ih, counter_feed, feed_devices, feed_inodes, totalBytes_cons, Nat.mod_add_mod, Nat.add_assoc]

theorem totalBytes_perm (devices : List CapDevice) (inodes : CapInodeHelper) (p : Pid) (outgoing : Bool)
    {xs ys : List (CapHandle × Frame)} (h : ys.Perm xs) :
    totalBytes devices inodes p outgoing ys = totalBytes devices inodes p outgoing xs :=
  ((h.filter _).map _).sum_eq

/-! ## What changes no counter -/

/-- A frame that is not attributed leaves the table and the packet buffer alone. -/
theorem feed_unattributed (s : CaptureCxx) (x : CapHandle × Frame)
    (h : CapProtocol.decode x.1.linktype x.2 = none ∨ x.1.attribute s.devices s.inodes x.2 = none) :
    (feed s x).processes = s.processes ∧ (feed s x).packetData = s.packetData ∧
      (feed s x).packetIdx = s.packetIdx := by
  have hnone : x.1.attribute s.devices s.inodes x.2 = none := by
    rcases h with h | h
    · unfold CapHandle.attribute
      rw [h]
      split <;> rfl
    · exact h
  obtain ⟨es, -, hs⟩ := feed_settles s x
  rw [hs, hnone]
  exact ⟨rfl, rfl, rfl⟩

theorem reconcile_counters (files : Pid → ProcFiles) (s : CaptureCxx) (p : Pid) (q q' : CapProcess)
    (hq : s.processes.find p = some q) (hq' : (reconcile files s).processes.find p = some q') (outgoing : Bool) :
    bytesOf outgoing q' = bytesOf outgoing q := by
  unfold reconcile at hq'
  split at hq'
  · rw [reconcileLoop_find _ _ _ (Table.keys_nodup _), hq] at hq'
    split at hq'
    · cases hq'
    · split at hq'
      · cases hq'
        exact bytesOf_parse _ _ _ _ _ _
      · cases hq'
        rfl
  · rw [hq] at hq'
    cases hq'
    rfl

/-! ## The result -/

/-- Traffic accounting is exact, for every state and every finite sequence of frames. -/
theorem traffic_accounting_exact (s : CaptureCxx) (xs : List (CapHandle × Frame)) :
    (∀ p, sentBytes (xs.foldl feed s) p =
          (sentBytes s p + totalBytes s.devices s.inodes p true xs) % 2 ^ 64 ∧
        receivedBytes (xs.foldl feed s) p =
          (receivedBytes s p + totalBytes s.devices s.inodes p false xs) % 2 ^ 64) ∧
      (∀ x, CapProtocol.decode x.1.linktype x.2 = none ∨ x.1.attribute s.devices s.inodes x.2 = none →
        (feed s x).processes = s.processes ∧ (feed s x).packetData = s.packetData ∧
          (feed s x).packetIdx = s.packetIdx) ∧
      (∀ ys : List (CapHandle × Frame), ys.Perm xs → ∀ p, sentBytes (ys.foldl feed s) p = sentBytes (xs.foldl feed s) p ∧
        receivedBytes (ys.foldl feed s) p = receivedBytes (xs.foldl feed s) p) ∧
      (∀ call files imemory ideltacpu (q : CapProcess),
        (q.parse call files imemory ideltacpu).send = q.send ∧
          (q.parse call files imemory ideltacpu).recv = q.recv) ∧
      ∀ files p q q', s.processes.find p = some q → (reconcile files s).processes.find p = some q' →
        q'.send = q.send ∧ q'.recv = q.recv := by
  have hcount : ∀ zs p outgoing, counter (zs.foldl feed s) p outgoing =
      (counter s p outgoing + totalBytes s.devices s.inodes p outgoing zs) % 2 ^ 64 :=
    fun zs p outgoing => counter_foldl_feed zs s p outgoing
  refine ⟨fun p => ⟨hcount xs p true, hcount xs p false⟩, feed_unattributed s, fun ys hperm p => ⟨?_, ?_⟩, ?_, ?_⟩
  · have h := hcount ys p true
    rw [totalBytes_perm _ _ _ _ hperm, ← hcount xs p true] at h
    exact h
  · have h := hcount ys p false
    rw [totalBytes_perm _ _ _ _ hperm, ← hcount xs p false] at h
    exact h
  · intro call files imemory ideltacpu q
    exact ⟨UInt64.toNat_inj.mp (bytesOf_parse true call files imemory ideltacpu q),
      UInt64.toNat_inj.mp (bytesOf_parse false call files imemory ideltacpu q)⟩
  · intro files p q q' hq hq'
    exact ⟨UInt64.toNat_inj.mp (reconcile_counters files s p q q' hq hq' true),
      UInt64.toNat_inj.mp (reconcile_counters files s p q q' hq hq' false)⟩

end CaptureCxx
end Capture
