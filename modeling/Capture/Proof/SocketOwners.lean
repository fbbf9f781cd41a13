import Capture.Foundations.PrefixSweep
import Capture.Proof.SocketTables

/-! # Which pid owns a socket

`RefreshToPids` overwrites: a socket open in several processes goes from one to the next in
pid order. What it ends with is stated here on the fd directories alone, with no reference
to the scan of a link, to the loops or to the order in which `readdir` lists the entries:
the greatest pid, among those before the first unreadable directory, that has the link. -/
namespace Capture
open SeparatedText FormattedScan OrderedTable PrefixSweep LastWrite

set_option autoImplicit false

/-! ## The text of a link -/

def socketText (inode : ℕ) : Text := "socket:[".toList ++ (decimal inode ++ [']'])

theorem socketText_eq (inode : ℕ) : socketText inode = "socket:[".toList ++ (decimal inode ++ [']']) := rfl

theorem socketFormat :
    format "socket:[ %d]" =
      "socket:[".toList.map Item.exact ++ [.blank, .number true .decimal true none, .exact ']'] := by decide

theorem socketText_injective : Function.Injective socketText := by
  intro m n h
  have hrest : decimal m ++ [']'] = decimal n ++ [']'] := List.append_cancel_left h
  exact decimal_injective (List.append_cancel_right hrest)

theorem cString_socketText (inode : ℕ) (h : inode < 2 ^ 31) :
    cString ((socketText inode).take 79) = socketText inode := by
  have hlength : (decimal inode).length ≤ 10 := length_decimal_le inode 10 (by decide) (by omega)
  have htext : (socketText inode).length = (decimal inode).length + 9 := by
    simp [socketText_eq]
  have hfits : (socketText inode).take 79 = socketText inode := by
    apply List.take_of_length_le
    omega
  have hdigits : '\x00' ∉ decimal inode := not_mem_decimal (by decide) inode
  rw [hfits]
  apply cString_eq_self
  simp [socketText_eq, hdigits]

/-- A socket is scanned back to its inode. -/
theorem linkInode_socketText (inode : ℕ) (h : inode < 2 ^ 31) :
    linkInode ⟨true, some (socketText inode)⟩ = some (UInt32.ofNat inode) := by
  have hclamped : clamped inode = inode := by
    unfold clamped
    omega
  have hread : scanNumber true .decimal none ([] ++ (decimalInt inode ++ [']'])) =
      .value (.number (clamped inode)) [']'] :=
    scanNumber_decimalInt (by simp) inode (ends_cons (by decide) [])
  have hscan : sscanf ((socketText inode).take 79) "socket:[ %d]" = ⟨[.number inode], false⟩ := by
    rw [List.nil_append, hclamped, decimalInt_natCast] at hread
    rw [sscanf, cString_socketText inode h, socketFormat, socketText_eq, scan_literal, scan_blank_number,
      scan_keep_number hread]
    rfl
  unfold linkInode
  rw [if_pos rfl]
  dsimp only
  rw [hscan, scannedWord_of_number (n := inode) rfl]
  rfl

/-- Any other link is skipped, or, when it ends inside the word `socket:[`, written to inode 0. -/
theorem linkInode_other (e : FdEntry) (target : Text) (htarget : e.target = some target)
    (h : ¬ "socket:[".toList <+: target) (n : UInt32) (hn : n ≠ 0) : linkInode e ≠ some n := by
  have hnone : (sscanf (target.take 79) "socket:[ %d]").values = [] :=
    sscanf_literal_mismatch socketFormat _ fun hp => h (hp.trans (List.take_prefix 79 target))
  have hword : scannedWord (sscanf (target.take 79) "socket:[ %d]") 0 = 0 := by
    rw [scannedWord, Result.number, hnone]
    rfl
  intro hsome
  unfold linkInode at hsome
  rw [htarget] at hsome
  dsimp only at hsome
  rw [hword] at hsome
  split at hsome
  · split at hsome
    · exact hn (Option.some.inj hsome).symm
    · cases hsome
  · cases hsome

theorem linkInode_eq_some_iff (e : FdEntry)
    (hlink : ∀ target, e.isLink = true → e.target = some target → "socket:[".toList <+: target →
      ∃ inode < 2 ^ 31, target = socketText inode)
    (n : UInt32) (hn : n ≠ 0) : linkInode e = some n ↔ e = ⟨true, some (socketText n.toNat)⟩ := by
  constructor
  · intro h
    obtain ⟨isLink, target⟩ := e
    cases isLink with
    | false => cases h
    | true =>
      cases target with
      | none => cases h
      | some target =>
        have hsocket : "socket:[".toList <+: target := by
          by_contra hother
          exact linkInode_other ⟨true, some target⟩ target rfl hother n hn h
        obtain ⟨inode, hbound, rfl⟩ := hlink target rfl rfl hsocket
        rw [linkInode_socketText inode hbound, Option.some.injEq] at h
        have hvalue : n.toNat = inode := by
          rw [← h]
          exact UInt32.toNat_ofNat_of_lt' (hbound.trans (by decide))
        rw [hvalue]
  · rintro rfl
    obtain ⟨inode, hbound, heq⟩ := hlink _ rfl rfl (List.prefix_append _ _)
    have hvalue : n.toNat = inode := socketText_injective heq
    rw [hvalue, linkInode_socketText inode hbound, ← hvalue, UInt32.ofNat_toNat]

/-! ## Fd directories -/

namespace RefreshInput

/-- A link whose text begins as that of a socket is one of a socket, with an inode below `2^31`. -/
def SocketLinks (i : RefreshInput) : Prop :=
  ∀ p entries, i.fd p = some entries → ∀ e ∈ entries, ∀ target, e.isLink = true → e.target = some target →
    "socket:[".toList <+: target → ∃ inode < 2 ^ 31, target = socketText inode

/-- The process has a link `socket:[inode]` among its open files. -/
def HasLink (i : RefreshInput) (p : Pid) (inode : ℕ) : Prop :=
  ∃ entries, i.fd p = some entries ∧ ⟨true, some (socketText inode)⟩ ∈ entries

/-- Before the first pid whose directory cannot be opened. -/
def Reached (i : RefreshInput) (pids : Table Pid Unit) (p : Pid) : Prop :=
  p ∈ pids.keys ∧ ∀ q ∈ pids.keys, q ≤ p → i.fd q ≠ none

/-- The pids reached that hold the socket. -/
def holders (i : RefreshInput) (pids : Table Pid Unit) (inode : ℕ) : Set Pid :=
  {p | i.Reached pids p ∧ i.HasLink p inode}

theorem mem_pidsReached_iff (i : RefreshInput) (pids : Table Pid Unit) (p : Pid) :
    p ∈ i.pidsReached pids.keys ↔ i.Reached pids p := by
  rw [pidsReached, mem_takeWhile_iff _ _ pids.keys_sorted]
  simp only [Option.isSome_iff_ne_none]
  rfl

theorem mem_heldInodes_iff (i : RefreshInput) (hlinks : i.SocketLinks) (p : Pid) (n : UInt32) (hn : n ≠ 0) :
    n ∈ i.heldInodes p ↔ i.HasLink p n.toNat := by
  unfold heldInodes HasLink
  cases hfd : i.fd p with
  | none => simp
  | some entries =>
    have hentry : ∀ e ∈ entries, linkInode e = some n ↔ e = ⟨true, some (socketText n.toNat)⟩ := fun e he =>
      linkInode_eq_some_iff e (hlinks p entries hfd e he) n hn
    rw [Option.getD_some, List.mem_filterMap]
    constructor
    · intro h
      obtain ⟨e, he, hinode⟩ := h
      exact ⟨entries, rfl, (hentry e he).mp hinode ▸ he⟩
    · intro h
      obtain ⟨entries', heq, hmem⟩ := h
      cases heq
      exact ⟨_, hmem, (hentry _ hmem).mpr rfl⟩

theorem holders_eq (i : RefreshInput) (hlinks : i.SocketLinks) (pids : Table Pid Unit) (n : UInt32) (hn : n ≠ 0) :
    {p | p ∈ i.pidsReached pids.keys ∧ n ∈ i.heldInodes p} = i.holders pids n.toNat := by
  ext p
  simp only [Set.mem_ofPred_eq, holders, mem_pidsReached_iff, mem_heldInodes_iff i hlinks p n hn]

end RefreshInput

/-! ## The owner -/

namespace CapInodeHelper

/-- The owner of a socket after `RefreshToPids` on an empty map. -/
theorem refreshToPids_isGreatest (i : RefreshInput) (hlinks : i.SocketLinks) (pids : Table Pid Unit)
    (net : Text → Option UInt32) (n : UInt32) (hn : n ≠ 0) (p : Pid) :
    (refreshToPids i pids.keys ⟨net, fun _ => none⟩).2.inodeToPids n = some p ↔
      IsGreatest (i.holders pids n.toNat) p := by
  rw [(refreshToPids_spec i pids.keys _).2, ← i.holders_eq hlinks pids n hn]
  refine runWriters_eq_some_iff_isGreatest _ _ ?_ p
  exact pids.keys_sorted.sublist (List.takeWhile_sublist _)

/-- A socket has an owner if it has a holder, because only finitely many pids are reached. -/
theorem refreshToPids_eq_none_iff (i : RefreshInput) (hlinks : i.SocketLinks) (pids : Table Pid Unit)
    (net : Text → Option UInt32) (n : UInt32) (hn : n ≠ 0) :
    (refreshToPids i pids.keys ⟨net, fun _ => none⟩).2.inodeToPids n = none ↔ i.holders pids n.toNat = ∅ := by
  rw [(refreshToPids_spec i pids.keys _).2, ← i.holders_eq hlinks pids n hn, Set.eq_empty_iff_forall_notMem,
    runWriters_eq_none_iff]
  simp only [Set.mem_ofPred_eq, not_and]

theorem holders_congr (i j : RefreshInput) (pids : Table Pid Unit) (inode : ℕ)
    (h : ∀ p ∈ pids.keys, (j.fd p = none ↔ i.fd p = none) ∧ (j.HasLink p inode ↔ i.HasLink p inode)) :
    j.holders pids inode = i.holders pids inode := by
  ext p
  have hreached : j.Reached pids p ↔ i.Reached pids p := by
    refine and_congr_right fun _ => forall₂_congr fun q hq => ?_
    rw [ne_eq, ne_eq, (h q hq).1]
  constructor
  · intro hp
    exact ⟨hreached.mp hp.1, (h p hp.1.1).2.mp hp.2⟩
  · intro hp
    exact ⟨hreached.mpr hp.1, (h p hp.1.1).2.mpr hp.2⟩

/-- After `RefreshToPids` on an empty map the owner of a socket is its greatest holder, and
that of a key is the owner of the socket listed under it. Two fd tables with the same sockets,
in any order and among any other links, give the same owners. -/
theorem socket_owner_greatest (i : RefreshInput) (hlinks : i.SocketLinks) (pids : Table Pid Unit)
    (net : Text → Option UInt32) (n : UInt32) (hn : n ≠ 0) :
    let h := (refreshToPids i pids.keys ⟨net, fun _ => none⟩).2
    (∀ p, h.inodeToPids n = some p ↔ IsGreatest (i.holders pids n.toNat) p) ∧
      (h.inodeToPids n = none ↔ i.holders pids n.toNat = ∅) ∧
      (∀ key p, net key = some n →
        (h.getPidByIp key = (0, some p) ↔ IsGreatest (i.holders pids n.toNat) p)) ∧
      ∀ j : RefreshInput, j.SocketLinks →
        (∀ p ∈ pids.keys, (j.fd p = none ↔ i.fd p = none) ∧ (j.HasLink p n.toNat ↔ i.HasLink p n.toNat)) →
          (refreshToPids j pids.keys ⟨net, fun _ => none⟩).2.inodeToPids n = h.inodeToPids n := by
  intro h
  have howner : ∀ p, h.inodeToPids n = some p ↔ IsGreatest (i.holders pids n.toNat) p :=
    refreshToPids_isGreatest i hlinks pids net n hn
  refine ⟨howner, refreshToPids_eq_none_iff i hlinks pids net n hn, fun key p hkey => ?_, fun j hj hsame => ?_⟩
  · have hnet : h.netToInodes key = some n := by
      rw [(refreshToPids_spec i pids.keys ⟨net, fun _ => none⟩).1]
      exact hkey
    rw [← howner, getPidByIp, hnet]
    dsimp only
    cases hpid : h.inodeToPids n with
    | none => simp
    | some q => simp
  · apply Option.ext
    intro p
    rw [howner, ← holders_congr i j pids n.toNat hsame]
    exact refreshToPids_isGreatest j hj pids net n hn p

/-! ### A socket shared after a fork -/

/-- Processes 3 and 7 share socket 42; no other directory can be opened. -/
def forkedTable : RefreshInput :=
  { fd := fun p =>
      if p = 3 ∨ p = 7 then some [⟨true, some (socketText 42)⟩, ⟨true, some "pipe:[8]".toList⟩] else none }

def forkedPids : Table Pid Unit := ((Table.empty.insert 3 ()).insert 7 ()).insert 9 ()

theorem forkedTable_links : forkedTable.SocketLinks := by
  intro p entries hfd e he target hlink htarget hsocket
  have hentries : entries = [⟨true, some (socketText 42)⟩, ⟨true, some "pipe:[8]".toList⟩] := by
    unfold forkedTable at hfd
    dsimp only at hfd
    split at hfd
    · exact (Option.some.inj hfd).symm
    · cases hfd
  rw [hentries, List.mem_cons, List.mem_singleton] at he
  rcases he with rfl | rfl
  · exact ⟨42, by decide, (Option.some.inj htarget).symm⟩
  · have hpipe : ¬ "socket:[".toList <+: "pipe:[8]".toList := by decide
    cases htarget
    exact absurd hsocket hpipe

theorem forkedTable_open (p : Pid) : forkedTable.fd p ≠ none ↔ p = 3 ∨ p = 7 := by
  unfold forkedTable
  dsimp only
  split
  · next h => exact iff_of_true (Option.some_ne_none _) h
  · next h => exact iff_of_false (not_not.mpr rfl) h

theorem socket_owner_forked :
    (refreshToPids forkedTable forkedPids.keys ⟨fun _ => none, fun _ => none⟩).2.inodeToPids 42 = some 7 := by
  have hkeys : ∀ p, p ∈ forkedPids.keys ↔ p = 3 ∨ p = 7 ∨ p = 9 := by
    intro p
    have hlist : forkedPids.keys = [3, 7, 9] := by decide
    simp [hlist]
  have hreached : ∀ p, forkedTable.Reached forkedPids p ↔ p = 3 ∨ p = 7 := by
    intro p
    simp only [RefreshInput.Reached, hkeys, forkedTable_open]
    constructor
    · intro h
      exact h.2 p h.1 le_rfl
    · intro h
      refine ⟨h.imp_right Or.inl, fun q hq hle => ?_⟩
      rcases hq with hq | hq | rfl
      · exact Or.inl hq
      · exact Or.inr hq
      · rcases h with rfl | rfl <;> exact absurd hle (by decide)
  refine ((socket_owner_greatest forkedTable forkedTable_links forkedPids (fun _ => none) 42 (by decide)).1 7).mpr ?_
  refine ⟨⟨(hreached 7).mpr (Or.inr rfl), _, rfl, List.mem_cons_self⟩, fun p hp => ?_⟩
  rcases (hreached p).mp hp.1 with rfl | rfl <;> decide

end CapInodeHelper
end Capture
