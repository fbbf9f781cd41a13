import Capture.Proof.SocketKeys

/-! # The effect of a refresh

`Refresh` is a chain of early returns: the four socket files in turn, up to the first that
cannot be opened, then the fd directories in pid order, up to the first that cannot be
opened, and these only if all four files were read. What the two maps hold afterwards is
given by two lists that do not depend on the maps: `rowsRead`, the rows of the files before
the first missing one, and `pidsReached`, the pids before the first unreadable one. -/
namespace Capture
open SeparatedText AddressText FormattedScan LastWrite

set_option autoImplicit false

/-! ## Socket files -/

def fileRows (file : List Text) : List SocketRow := (file.filter fun l => cString l ≠ []).filterMap decodeRow

def filesRows (files : List (Option (List Text))) : List SocketRow := files.flatMap fun f => fileRows (f.getD [])

namespace RefreshInput

def socketFiles (i : RefreshInput) : List (Option (List Text)) := [i.tcp, i.tcp6, i.udp, i.udp6]

def transportFiles (i : RefreshInput) : PacketType → List (Option (List Text))
  | .tcp => [i.tcp, i.tcp6]
  | .udp => [i.udp, i.udp6]

/-- The rows of every file that can be opened, in the order of the files. -/
def openRows (i : RefreshInput) : List SocketRow := filesRows i.socketFiles

def rowsRead (i : RefreshInput) : List SocketRow := filesRows (i.socketFiles.takeWhile Option.isSome)

def AllOpen (i : RefreshInput) : Prop := ∀ f ∈ i.socketFiles, f ≠ none

/-- The same input with empty files in place of those that cannot be opened. -/
def filled (i : RefreshInput) : RefreshInput :=
  { i with tcp := some (i.tcp.getD []), tcp6 := some (i.tcp6.getD []), udp := some (i.udp.getD []),
           udp6 := some (i.udp6.getD []) }

theorem filled_of_allOpen (i : RefreshInput) (h : i.AllOpen) : i.filled = i := by
  have hsome : ∀ f ∈ i.socketFiles, some (f.getD []) = f := by
    intro f hf
    obtain ⟨lines, rfl⟩ := Option.ne_none_iff_exists'.mp (h f hf)
    rfl
  have htcp := hsome i.tcp (by simp [socketFiles])
  have htcp6 := hsome i.tcp6 (by simp [socketFiles])
  have hudp := hsome i.udp (by simp [socketFiles])
  have hudp6 := hsome i.udp6 (by simp [socketFiles])
  simp [filled, htcp, htcp6, hudp, hudp6]

theorem filled_allOpen (i : RefreshInput) : i.filled.AllOpen := by
  simp [AllOpen, socketFiles, filled]

theorem openRows_filled (i : RefreshInput) : i.filled.openRows = i.openRows := by
  simp [openRows, filesRows, socketFiles, filled]

theorem rowsRead_of_allOpen (i : RefreshInput) (h : i.AllOpen) : i.rowsRead = i.openRows := by
  rw [rowsRead, openRows, List.takeWhile_eq_self_iff.mpr fun f hf => Option.isSome_iff_ne_none.mpr (h f hf)]

theorem openRows_eq (i : RefreshInput) :
    i.openRows = filesRows (i.transportFiles .tcp) ++ filesRows (i.transportFiles .udp) := by
  simp [openRows, filesRows, socketFiles, transportFiles]

end RefreshInput

namespace CapInodeHelper

theorem foldl_parseBuffer (devices : List CapDevice) (lines : List Text) (h : CapInodeHelper) :
    lines.foldl (parseBuffer devices) h = (lines.filterMap decodeRow).foldl (storeRow devices) h := by
  induction lines generalizing h with
  | nil => rfl
  | cons l lines ih =>
    rw [List.foldl_cons, ih, parseBuffer]
    cases hrow : decodeRow l with
    | none => rw [List.filterMap_cons_none hrow]
    | some r => rw [List.filterMap_cons_some hrow, List.foldl_cons]

theorem parse_some (devices : List CapDevice) (lines : List Text) (h : CapInodeHelper) :
    parse devices (some lines) h = (0, (fileRows lines).foldl (storeRow devices) h) := by
  rw [parse, foldl_parseBuffer]
  rfl

/-- Parsing files in turn, up to the first that cannot be opened. -/
def parseAll (devices : List CapDevice) : List (Option (List Text)) → CapInodeHelper → ℤ × CapInodeHelper
  | [], h => (0, h)
  | f :: fs, h =>
      if (parse devices f h).1 ≠ 0 then parse devices f h else parseAll devices fs (parse devices f h).2

theorem refreshToInodes_eq_parseAll (devices : List CapDevice) (i : RefreshInput) (h : CapInodeHelper) :
    refreshToInodes devices i h = parseAll devices i.socketFiles h := by
  have hlast : ∀ r : ℤ × CapInodeHelper, (if r.1 ≠ 0 then r else (0, r.2)) = r := by
    intro r
    split
    · rfl
    · next hr => exact Prod.ext (not_not.mp hr).symm rfl
  simp only [refreshToInodes, RefreshInput.socketFiles, parseAll, hlast]

theorem parseAll_eq (devices : List CapDevice) (files : List (Option (List Text))) (h : CapInodeHelper) :
    parseAll devices files h = (if none ∈ files then capProcessOpen else 0,
      (filesRows (files.takeWhile Option.isSome)).foldl (storeRow devices) h) := by
  induction files generalizing h with
  | nil => rfl
  | cons f fs ih =>
    cases f with
    | none => rfl
    | some lines =>
      rw [parseAll, parse_some, if_neg (by simp), ih]
      simp [filesRows, List.foldl_append]

theorem refreshToInodes_eq (devices : List CapDevice) (i : RefreshInput) (h : CapInodeHelper) :
    refreshToInodes devices i h = (if none ∈ i.socketFiles then capProcessOpen else 0,
      i.rowsRead.foldl (storeRow devices) h) := by
  rw [refreshToInodes_eq_parseAll, parseAll_eq]
  rfl

theorem foldl_storeRow_inodeToPids (devices : List CapDevice) (rows : List SocketRow) (h : CapInodeHelper) :
    (rows.foldl (storeRow devices) h).inodeToPids = h.inodeToPids := by
  induction rows generalizing h with
  | nil => rfl
  | cons r rows ih =>
    rw [List.foldl_cons, ih, storeRow]
    split <;> rfl

end CapInodeHelper

/-! ## Fd directories -/

/-- The inode the scan of a link yields, when the link reads as a socket. -/
def linkInode (e : FdEntry) : Option UInt32 :=
  if e.isLink then
    match e.target with
    | none => none
    | some target =>
        let r := sscanf (target.take 79) "socket:[ %d]"
        if r.holds then some (scannedWord r 0) else none
  else none

/-- The inodes of the sockets among the open files of a process, none if the directory
cannot be opened. -/
def RefreshInput.heldInodes (i : RefreshInput) (pid : Pid) : List UInt32 := ((i.fd pid).getD []).filterMap linkInode

/-- The pids before the first whose directory cannot be opened. -/
def RefreshInput.pidsReached (i : RefreshInput) (pids : List Pid) : List Pid :=
  pids.takeWhile fun pid => (i.fd pid).isSome

namespace CapInodeHelper

theorem linkEntry_eq (pid : Pid) (h : CapInodeHelper) (e : FdEntry) :
    linkEntry pid h e = (match linkInode e with
      | none => h
      | some n => { h with inodeToPids := Function.update h.inodeToPids n (some pid) }) := by
  unfold linkEntry linkInode
  split
  · cases e.target with
    | none => rfl
    | some target =>
      dsimp only
      split <;> rfl
  · rfl

theorem foldl_linkEntry (pid : Pid) (entries : List FdEntry) (h : CapInodeHelper) :
    (entries.foldl (linkEntry pid) h).netToInodes = h.netToInodes ∧
      ∀ n, (entries.foldl (linkEntry pid) h).inodeToPids n =
        if n ∈ entries.filterMap linkInode then some pid else h.inodeToPids n := by
  induction entries generalizing h with
  | nil => exact ⟨rfl, fun n => by simp⟩
  | cons e entries ih =>
    obtain ⟨hnet, hpid⟩ := ih (linkEntry pid h e)
    rw [List.foldl_cons]
    refine ⟨hnet.trans ?_, fun n => ?_⟩
    · rw [linkEntry_eq]
      split <;> rfl
    · rw [hpid, linkEntry_eq]
      cases he : linkInode e with
      | none => rw [List.filterMap_cons_none he]
      | some m =>
        rw [List.filterMap_cons_some he]
        by_cases hn : n = m
        · simp [hn]
        · simp [hn]

/-- The map after `RefreshToPids`: an inode has the last pid reached that holds it. -/
theorem refreshToPids_spec (i : RefreshInput) (pids : List Pid) (h : CapInodeHelper) :
    (refreshToPids i pids h).2.netToInodes = h.netToInodes ∧
      ∀ n, (refreshToPids i pids h).2.inodeToPids n =
        runWriters (fun p => n ∈ i.heldInodes p) id (h.inodeToPids n) (i.pidsReached pids) := by
  induction pids generalizing h with
  | nil => exact ⟨rfl, fun n => rfl⟩
  | cons p pids ih =>
    unfold refreshToPids RefreshInput.pidsReached
    cases hfd : i.fd p with
    | none =>
      rw [List.takeWhile_cons_of_neg (by simp [hfd])]
      exact ⟨rfl, fun n => rfl⟩
    | some entries =>
      obtain ⟨hnet, hpid⟩ := foldl_linkEntry p entries h
      obtain ⟨hnet', hpid'⟩ := ih (entries.foldl (linkEntry p) h)
      rw [List.takeWhile_cons_of_pos (by simp [hfd])]
      refine ⟨hnet'.trans hnet, fun n => ?_⟩
      rw [hpid', hpid, runWriters, runWriters, List.foldl_cons]
      simp only [RefreshInput.heldInodes, hfd, Option.getD_some, id]
      rfl

/-! ## The whole refresh -/

theorem refresh_netToInodes (devices : List CapDevice) (pids : List Pid) (i : RefreshInput) (key : Text) :
    (refresh devices pids i).2.netToInodes key =
      runWriters (SocketRow.Stores devices key) (fun r => r.inode.toUInt32) none i.rowsRead := by
  have hrows := foldl_storeRow_lookup devices i.rowsRead {} key
  unfold refresh
  rw [refreshToInodes_eq]
  dsimp only
  split
  · exact hrows
  · rw [if_neg (by simp), (refreshToPids_spec i pids _).1]
    exact hrows

theorem refresh_inodeToPids_of_allOpen (devices : List CapDevice) (pids : List Pid) (i : RefreshInput)
    (h : i.AllOpen) (n : UInt32) :
    (refresh devices pids i).2.inodeToPids n =
      runWriters (fun p => n ∈ i.heldInodes p) id none (i.pidsReached pids) := by
  have hnone : none ∉ i.socketFiles := fun hmem => h none hmem rfl
  unfold refresh
  rw [refreshToInodes_eq]
  dsimp only
  rw [if_neg hnone, if_neg (by simp), (refreshToPids_spec i pids _).2, foldl_storeRow_inodeToPids]

/-- One missing file, and no process is looked at. -/
theorem refresh_inodeToPids_of_missing (devices : List CapDevice) (pids : List Pid) (i : RefreshInput)
    (h : ¬ i.AllOpen) (n : UInt32) : (refresh devices pids i).2.inodeToPids n = none := by
  have hnone : none ∈ i.socketFiles := by
    by_contra hmem
    exact h fun f hf hfn => hmem (hfn ▸ hf)
  unfold refresh
  rw [refreshToInodes_eq]
  dsimp only
  rw [if_pos hnone, if_pos (by decide), foldl_storeRow_inodeToPids]

theorem getPidByIp_eq_some_iff (h : CapInodeHelper) (key : Text) (p : Pid) :
    (h.getPidByIp key).2 = some p ↔ ∃ n, h.netToInodes key = some n ∧ h.inodeToPids n = some p := by
  unfold getPidByIp
  cases h.netToInodes key with
  | none => simp
  | some n =>
    cases hn : h.inodeToPids n with
    | none => simp [hn]
    | some q => simp [hn]

/-- A pid in the map is one of those given to `Refresh`, and holds the inode. -/
theorem holds_of_refresh (devices : List CapDevice) (pids : List Pid) (i : RefreshInput) (n : UInt32) (p : Pid)
    (h : (refresh devices pids i).2.inodeToPids n = some p) : i.AllOpen ∧ p ∈ pids ∧ n ∈ i.heldInodes p := by
  have hopen : i.AllOpen := by
    by_contra hmissing
    rw [refresh_inodeToPids_of_missing devices pids i hmissing] at h
    cases h
  rw [refresh_inodeToPids_of_allOpen devices pids i hopen] at h
  obtain ⟨q, hq, hholds, heq⟩ := exists_writer_of_runWriters _ _ _ _ h
  have hqp : q = p := heq
  subst hqp
  exact ⟨hopen, (List.takeWhile_sublist _).subset hq, hholds⟩

/-- A key that resolves: a row stored under it names a socket that the pid holds. If a row
of the UDP files is stored under it, that row is one of them, because they come last. -/
theorem row_of_getPidByIp (devices : List CapDevice) (pids : List Pid) (i : RefreshInput) (key : Text) (p : Pid)
    (h : ((refresh devices pids i).2.getPidByIp key).2 = some p) :
    p ∈ pids ∧ ∃ r, r.Stores devices key ∧ r.inode.toUInt32 ∈ i.heldInodes p ∧
      (r ∈ filesRows (i.transportFiles .udp) ∨
        (∀ r' ∈ filesRows (i.transportFiles .udp), ¬ r'.Stores devices key) ∧
          r ∈ filesRows (i.transportFiles .tcp)) := by
  obtain ⟨n, hnet, hpid⟩ := (getPidByIp_eq_some_iff _ _ _).mp h
  obtain ⟨hopen, hmem, hholds⟩ := holds_of_refresh devices pids i n p hpid
  rw [refresh_netToInodes, i.rowsRead_of_allOpen hopen, i.openRows_eq] at hnet
  refine ⟨hmem, ?_⟩
  rcases runWriters_append _ _ _ _ _ hnet with ⟨r, hr, hstores, hinode⟩ | ⟨hnone, r, hr, hstores, hinode⟩
  · exact ⟨r, hstores, hinode ▸ hholds, Or.inl hr⟩
  · exact ⟨r, hstores, hinode ▸ hholds, Or.inr ⟨hnone, hr⟩⟩

end CapInodeHelper
end Capture
