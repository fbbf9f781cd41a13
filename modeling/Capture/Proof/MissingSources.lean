import Capture.Proof.RefreshEffect

/-! # What an unreadable source costs

`Refresh` gives up at the first file or directory it cannot open. The two results below say
exactly which sockets survive that: for a fd directory, those that a pid before it also
holds; for a socket file, those that would not have been resolved anyway. -/
namespace Capture
open SeparatedText AddressText FormattedScan LastWrite

set_option autoImplicit false

namespace CapInodeHelper

/-! ## A fd directory -/

theorem mem_fd_of_heldInodes {i : RefreshInput} {p : Pid} {n : UInt32} (h : n ∈ i.heldInodes p) :
    ∃ entries, i.fd p = some entries ∧ n ∈ entries.filterMap linkInode := by
  unfold RefreshInput.heldInodes at h
  cases hfd : i.fd p with
  | none =>
    rw [hfd] at h
    cases h
  | some entries =>
    rw [hfd] at h
    exact ⟨entries, rfl, h⟩

/-- After `RefreshToPids` on an empty map every inode that a link of a readable directory
names is mapped to a pid holding it, exactly when each is also held by a pid that comes
before the first unreadable one. -/
theorem unreadable_process_hides_iff (i : RefreshInput) (pids : List Pid) (m : Text → Option UInt32) :
    (∀ p ∈ pids, ∀ entries, i.fd p = some entries → ∀ e ∈ entries, ∀ n, linkInode e = some n →
      ∃ q ∈ pids, (refreshToPids i pids ⟨m, fun _ => none⟩).2.inodeToPids n = some q ∧ n ∈ i.heldInodes q) ↔
      ∀ p ∈ pids, ∀ n ∈ i.heldInodes p, ∃ q ∈ i.pidsReached pids, n ∈ i.heldInodes q := by
  have hmap := (refreshToPids_spec i pids ⟨m, fun _ => none⟩).2
  constructor
  · intro h p hp n hn
    obtain ⟨entries, hfd, hmem⟩ := mem_fd_of_heldInodes hn
    obtain ⟨e, he, hlink⟩ := List.mem_filterMap.mp hmem
    obtain ⟨q, -, hq, hholds⟩ := h p hp entries hfd e he n hlink
    rw [hmap] at hq
    obtain ⟨q', hq', -, heq⟩ := exists_writer_of_runWriters _ _ _ _ hq
    have hqq : q' = q := heq
    exact ⟨q, hqq ▸ hq', hholds⟩
  · intro h p hp entries hfd e he n hlink
    have hn : n ∈ i.heldInodes p := by
      rw [RefreshInput.heldInodes, hfd]
      exact List.mem_filterMap.mpr ⟨e, he, hlink⟩
    obtain ⟨q, hq, hholds⟩ := h p hp n hn
    obtain ⟨v, hv⟩ := exists_runWriters_of_mem (fun p => n ∈ i.heldInodes p) id _ q hq hholds
    obtain ⟨q', hq', hholds', heq⟩ := exists_writer_of_runWriters _ _ _ _ hv
    have hqv : q' = v := heq
    refine ⟨v, (List.takeWhile_sublist _).subset (hqv ▸ hq'), (hmap n).trans hv, hqv ▸ hholds'⟩

/-- Process 1 cannot be read, and process 2 loses its socket. -/
theorem unreadable_process_hides_next :
    let i : RefreshInput := { fd := fun pid => if pid = 2 then some [⟨true, some "socket:[42]".toList⟩] else none }
    i.heldInodes 2 = [42] ∧ (refreshToPids i [1, 2] {}).2.inodeToPids 42 = none := by
  decide +kernel

/-! ## A socket file -/

/-- When a missing file changes nothing for the sockets of the others: no file is missing,
or for each such socket and device the key was stored before the first missing file, and
the last row stored under it in any file has an inode that no pid reached holds. -/
def LossHidden (devices : List CapDevice) (pids : List Pid) (i : RefreshInput) : Prop :=
  i.AllOpen ∨ ∀ r ∈ i.openRows, r.inode ≠ 0 → (∃ p ∈ pids, r.inode.toUInt32 ∈ i.heldInodes p) → ∀ d ∈ devices,
    (∃ r' ∈ i.rowsRead, r'.Stores devices (r.deviceKey d.getLocalAddr)) ∧
      ∀ pre w post, i.openRows = pre ++ w :: post → w.Stores devices (r.deviceKey d.getLocalAddr) →
        (∀ y ∈ post, ¬ y.Stores devices (r.deviceKey d.getLocalAddr)) →
          ∀ q ∈ i.pidsReached pids, w.inode.toUInt32 ∉ i.heldInodes q

theorem getPidByIp_of_missing (devices : List CapDevice) (pids : List Pid) (i : RefreshInput) (h : ¬ i.AllOpen)
    (key : Text) :
    (refresh devices pids i).2.getPidByIp key =
      (if ∃ r ∈ i.rowsRead, r.Stores devices key then capFindInode else capFindIp, none) := by
  unfold getPidByIp
  rw [refresh_netToInodes]
  split
  · next hnone =>
    have hno := (runWriters_eq_none_iff _ _ _).mp hnone
    rw [if_neg]
    rintro ⟨r, hr, hstores⟩
    exact hno r hr hstores
  · next n hsome =>
    obtain ⟨r, hr, hstores, -⟩ := exists_writer_of_runWriters _ _ _ _ hsome
    rw [refresh_inodeToPids_of_missing devices pids i h, if_pos ⟨r, hr, hstores⟩]

theorem getPidByIp_of_last (devices : List CapDevice) (pids : List Pid) (i : RefreshInput) (h : i.AllOpen)
    (key : Text) (pre post : List SocketRow) (w : SocketRow) (hrows : i.openRows = pre ++ w :: post)
    (hw : w.Stores devices key) (hpost : ∀ y ∈ post, ¬ y.Stores devices key) :
    (refresh devices pids i).2.getPidByIp key =
      (match runWriters (fun p => w.inode.toUInt32 ∈ i.heldInodes p) id none (i.pidsReached pids) with
        | none => (capFindInode, none)
        | some q => (0, some q)) := by
  unfold getPidByIp
  rw [refresh_netToInodes, i.rowsRead_of_allOpen h, hrows, runWriters_of_last _ _ _ pre post w hw hpost]
  dsimp only
  have howner := refresh_inodeToPids_of_allOpen devices pids i h w.inode.toUInt32
  cases hq : runWriters (fun p => w.inode.toUInt32 ∈ i.heldInodes p) id none (i.pidsReached pids) with
  | none => simp only [howner, hq]
  | some q => simp only [howner, hq]

/-- For every content of the files and directories: the sockets of the files that can be
opened are resolved as if the others were empty, exactly when `LossHidden`. -/
theorem missing_table_disables_iff (devices : List CapDevice) (pids : List Pid) (i : RefreshInput) :
    (∀ r ∈ i.openRows, r.inode ≠ 0 → (∃ p ∈ pids, r.inode.toUInt32 ∈ i.heldInodes p) → ∀ d ∈ devices,
      (refresh devices pids i).2.getPidByIp (r.deviceKey d.getLocalAddr) =
        (refresh devices pids i.filled).2.getPidByIp (r.deviceKey d.getLocalAddr)) ↔
      LossHidden devices pids i := by
  unfold LossHidden
  by_cases hopen : i.AllOpen
  · rw [i.filled_of_allOpen hopen]
    exact iff_of_true (fun _ _ _ _ _ _ => rfl) (Or.inl hopen)
  rw [or_iff_right hopen]
  refine forall₂_congr fun r hr => forall₂_congr fun hinode _ => forall₂_congr fun d hd => ?_
  have hstores : r.Stores devices (r.deviceKey d.getLocalAddr) :=
    ⟨hinode, List.mem_cons_of_mem _ (List.mem_map.mpr ⟨d, hd, rfl⟩)⟩
  generalize r.deviceKey d.getLocalAddr = key at hstores ⊢
  -- the filled run finds the last row under the key, which exists because `r` is one
  rcases exists_last_writer (SocketRow.Stores devices key) i.openRows with hnone | ⟨pre, w, post, hrows, hw, hpost⟩
  · exact absurd hstores (hnone r hr)
  have hfilled := getPidByIp_of_last devices pids i.filled i.filled_allOpen key pre post w
    (i.openRows_filled.trans hrows) hw hpost
  have hreach : (∀ q ∈ i.pidsReached pids, w.inode.toUInt32 ∉ i.heldInodes q) ↔
      runWriters (fun p => w.inode.toUInt32 ∈ i.filled.heldInodes p) id none (i.filled.pidsReached pids) = none :=
    (runWriters_eq_none_iff (fun p => w.inode.toUInt32 ∈ i.heldInodes p) id (i.pidsReached pids)).symm
  have hlast : (∀ pre w post, i.openRows = pre ++ w :: post → w.Stores devices key →
      (∀ y ∈ post, ¬ y.Stores devices key) → ∀ q ∈ i.pidsReached pids, w.inode.toUInt32 ∉ i.heldInodes q) ↔
      ∀ q ∈ i.pidsReached pids, w.inode.toUInt32 ∉ i.heldInodes q := by
    refine (forall_runWriters_iff (SocketRow.Stores devices key) (fun r => r.inode.toUInt32) i.openRows
      fun n => ∀ q ∈ i.pidsReached pids, n ∉ i.heldInodes q).symm.trans ?_
    rw [hrows, runWriters_of_last _ _ _ pre post w hw hpost]
    simp only [Option.some.injEq, forall_eq']
  rw [getPidByIp_of_missing devices pids i hopen, hfilled, hlast, hreach]
  cases runWriters (fun p => w.inode.toUInt32 ∈ i.filled.heldInodes p) id none (i.filled.pidsReached pids) with
  | none =>
    by_cases hread : ∃ r ∈ i.rowsRead, r.Stores devices key
    · simp [hread]
    · simp [hread, capFindIp, capFindInode]
  | some q => simp

/-- Without `/proc/net/tcp6` the socket of `/proc/net/tcp` is not found either. -/
theorem missing_table_disables_tcp :
    let devices := [CapDevice.init (some ['e']) 0x41 (.inet ![10, 0, 0, 1])]
    let i : RefreshInput :=
      { tcp := some [("   0: 0100000A:0050 0200000A:04D2 01 00000000:00000000 00:00000000 00000000     " ++
          "0        0 42 1 0").toList]
        udp := some []
        udp6 := some []
        fd := fun _ => some [⟨true, some "socket:[42]".toList⟩] }
    ∃ r ∈ i.openRows, r.inode ≠ 0 ∧ (∃ p ∈ ([1] : List Pid), r.inode.toUInt32 ∈ i.heldInodes p) ∧
      ∃ d ∈ devices, (refresh devices [1] i).2.getPidByIp (r.deviceKey d.getLocalAddr) = (capFindInode, none) ∧
        (refresh devices [1] i.filled).2.getPidByIp (r.deviceKey d.getLocalAddr) = (0, some 1) := by
  decide +kernel

end CapInodeHelper
end Capture
