import Capture.Proof.InterfaceHandles

/-! # Who closes a capture handle

A `pcap_t` that `OpenLive` got from libpcap belongs to an element of `handles`, or the
destructor of its `CapHandle` closes it. `OpenLive` gives up a filter that does not compile
or cannot be set by writing a null pointer over the `pcap_t`, and then nothing closes it.
The handles of `Init` are all accounted for exactly when no device fails that way. -/
namespace Capture
open SeparatedText OrderedTable

set_option autoImplicit false

def Event.opensPcap : Event → Option ℕ
  | .pcapOpen id => some id
  | _ => none

def Event.closesPcap : Event → Option ℕ
  | .pcapClose id => some id
  | _ => none

namespace CaptureCxx

/-! ## The account -/

/-- The handles the current call opened, and those it closed. -/
def openedPcaps (s : CaptureCxx) : List ℕ := s.log.filterMap Event.opensPcap

def closedPcaps (s : CaptureCxx) : List ℕ := s.log.filterMap Event.closesPcap

def ownedPcaps (s : CaptureCxx) : List ℕ := s.handles.filterMap fun h => h.handle.map Pcap.id

/-- Every handle the call opened is in exactly one element of `handles` or has been closed
exactly once, and not both. -/
def Accounted (s : CaptureCxx) : Prop :=
  ∀ id ∈ s.openedPcaps, s.ownedPcaps.count id + s.closedPcaps.count id = 1

/-- No handle has the number the next one will get. -/
structure Numbered (s : CaptureCxx) : Prop where
  opened : ∀ id ∈ s.openedPcaps, id < s.pcaps
  closed : ∀ id ∈ s.closedPcaps, id < s.pcaps
  owned : ∀ id ∈ s.ownedPcaps, id < s.pcaps

/-! ## One device -/

/-! The three lists after each kind of event. -/

theorem emit_pcaps (e : Event) (s : CaptureCxx) :
    (emit e s).openedPcaps = s.openedPcaps ++ e.opensPcap.toList ∧
      (emit e s).closedPcaps = s.closedPcaps ++ e.closesPcap.toList ∧ (emit e s).ownedPcaps = s.ownedPcaps := by
  refine ⟨?_, ?_, rfl⟩
  · exact List.filterMap_append
  · exact List.filterMap_append

theorem grantPcap_pcaps (s : CaptureCxx) :
    (grantPcap s).openedPcaps = s.openedPcaps ++ [s.pcaps] ∧ (grantPcap s).closedPcaps = s.closedPcaps ∧
      (grantPcap s).ownedPcaps = s.ownedPcaps := by
  obtain ⟨hopened, hclosed, howned⟩ := emit_pcaps (.pcapOpen s.pcaps) { s with pcaps := s.pcaps + 1 }
  exact ⟨hopened, hclosed.trans (List.append_nil _), howned⟩

/-- The handle number `s.pcaps` adds itself to the list of opened ones, and unless it leaks
to exactly one of the other two. -/
theorem openDevice_account (fliter : Bool) (device : Text) (o : PcapOpen) (s : CaptureCxx) (h : o.opened = true) :
    (openDevice fliter device o s).pcaps = s.pcaps + 1 ∧
      (openDevice fliter device o s).openedPcaps = s.openedPcaps ++ [s.pcaps] ∧
      ∃ owned closed, (openDevice fliter device o s).ownedPcaps = s.ownedPcaps ++ owned ∧
        (openDevice fliter device o s).closedPcaps = s.closedPcaps ++ closed ∧
        owned ++ closed = if leaksHandle fliter o then [] else [s.pcaps] := by
  obtain ⟨hopened, hclosed, howned⟩ := grantPcap_pcaps s
  rcases openDevice_cases fliter device o s h with ⟨hleak, heq⟩ | ⟨hleak, -, heq⟩ | ⟨hleak, -, heq⟩
  · rw [heq, hleak]
    exact ⟨rfl, hopened, [], [], howned.trans (List.append_nil _).symm, hclosed.trans (List.append_nil _).symm, rfl⟩
  · obtain ⟨hopened', hclosed', howned'⟩ := emit_pcaps (.pcapClose s.pcaps) (grantPcap s)
    rw [heq, hleak]
    refine ⟨rfl, ?_, [], [s.pcaps], ?_, ?_, rfl⟩
    · exact hopened'.trans ((List.append_nil _).trans hopened)
    · exact howned'.trans (howned.trans (List.append_nil _).symm)
    · rw [hclosed', hclosed]
      rfl
  · rw [heq, hleak]
    refine ⟨rfl, hopened, [s.pcaps], [], ?_, hclosed.trans (List.append_nil _).symm, rfl⟩
    exact List.filterMap_append

theorem lt_succ_of_mem_append {l l' : List ℕ} {n : ℕ} (h : ∀ id ∈ l, id < n) (h' : ∀ id ∈ l', id = n) :
    ∀ id ∈ l ++ l', id < n + 1 := by
  intro id hid
  rcases List.mem_append.mp hid with hid | hid
  · exact (h id hid).trans (Nat.lt_succ_self n)
  · exact h' id hid ▸ Nat.lt_succ_self n

theorem Numbered.openDevice {s : CaptureCxx} (hs : Numbered s) (fliter : Bool) (device : Text) (o : PcapOpen) :
    Numbered (openDevice fliter device o s) := by
  cases h : o.opened with
  | false =>
    rw [openDevice_unopened fliter device o s h]
    exact hs
  | true =>
    obtain ⟨hpcaps, hopened, owned, closed, howned, hclosed, hnew⟩ := openDevice_account fliter device o s h
    have hself : ∀ id ∈ owned ++ closed, id = s.pcaps := by
      intro id hid
      rw [hnew] at hid
      split at hid
      · cases hid
      · exact List.mem_singleton.mp hid
    refine ⟨?_, ?_, ?_⟩
    · rw [hopened, hpcaps]
      exact lt_succ_of_mem_append hs.opened (fun id hid => List.mem_singleton.mp hid)
    · rw [hclosed, hpcaps]
      exact lt_succ_of_mem_append hs.closed (fun id hid => hself id (List.mem_append_right _ hid))
    · rw [howned, hpcaps]
      exact lt_succ_of_mem_append hs.owned (fun id hid => hself id (List.mem_append_left _ hid))

/-- How often a number is owned or closed: only the new one gains, and only if it does not leak. -/
theorem openDevice_balance (fliter : Bool) (device : Text) (o : PcapOpen) (s : CaptureCxx) (h : o.opened = true) (id : ℕ) :
    (openDevice fliter device o s).ownedPcaps.count id + (openDevice fliter device o s).closedPcaps.count id =
      s.ownedPcaps.count id + s.closedPcaps.count id + if leaksHandle fliter o = false ∧ s.pcaps = id then 1 else 0 := by
  obtain ⟨-, -, owned, closed, howned, hclosed, hnew⟩ := openDevice_account fliter device o s h
  have hcount : owned.count id + closed.count id = if leaksHandle fliter o = false ∧ s.pcaps = id then 1 else 0 := by
    rw [← List.count_append, hnew]
    cases leaksHandle fliter o
    · simp [List.count_singleton]
    · simp
  rw [howned, hclosed, List.count_append, List.count_append, ← hcount]
  omega

/-- A new number is in no list yet, so the account of the other handles does not change. -/
theorem accounted_openDevice_iff (fliter : Bool) (device : Text) (o : PcapOpen) {s : CaptureCxx} (hs : Numbered s) :
    Accounted (openDevice fliter device o s) ↔ Accounted s ∧ leaksHandle fliter o = false := by
  cases h : o.opened with
  | false =>
    have hleak : leaksHandle fliter o = false := by rw [leaksHandle, h, Bool.false_and]
    rw [openDevice_unopened fliter device o s h]
    exact (and_iff_left hleak).symm
  | true =>
    have hbalance := openDevice_balance fliter device o s h
    have hold : ∀ id ∈ s.openedPcaps, (openDevice fliter device o s).ownedPcaps.count id +
        (openDevice fliter device o s).closedPcaps.count id = s.ownedPcaps.count id + s.closedPcaps.count id := by
      intro id hid
      have hne : ¬ (leaksHandle fliter o = false ∧ s.pcaps = id) := fun hnew => (hs.opened id hid).ne' hnew.2
      rw [hbalance, if_neg hne, Nat.add_zero]
    have hfresh : s.ownedPcaps.count s.pcaps + s.closedPcaps.count s.pcaps = 0 := by
      rw [List.count_eq_zero.mpr (fun hmem => lt_irrefl _ (hs.owned _ hmem)),
        List.count_eq_zero.mpr (fun hmem => lt_irrefl _ (hs.closed _ hmem))]
    have hself : (openDevice fliter device o s).ownedPcaps.count s.pcaps +
        (openDevice fliter device o s).closedPcaps.count s.pcaps = 1 ↔ leaksHandle fliter o = false := by
      rw [hbalance, hfresh, Nat.zero_add]
      cases leaksHandle fliter o <;> simp
    obtain ⟨-, hopened, -⟩ := openDevice_account fliter device o s h
    unfold Accounted
    rw [hopened, List.forall_mem_append, List.forall_mem_singleton, hself]
    refine and_congr_left' (forall₂_congr fun id hid => ?_)
    rw [hold id hid]

/-! ## All devices -/

theorem Numbered.openHandles {s : CaptureCxx} (hs : Numbered s) (fliter : Bool) (pcap : ℕ → PcapOpen)
    (ds : List CapDevice) (idx : ℕ) : Numbered (openHandles fliter pcap idx ds s) := by
  induction ds generalizing idx s with
  | nil => exact hs
  | cons d ds ih => exact ih (hs.openDevice fliter d.name (pcap idx)) (idx + 1)

theorem accounted_openHandles_iff (fliter : Bool) (pcap : ℕ → PcapOpen) (ds : List CapDevice) (idx : ℕ)
    {s : CaptureCxx} (hs : Numbered s) :
    Accounted (openHandles fliter pcap idx ds s) ↔
      Accounted s ∧ ∀ k < ds.length, leaksHandle fliter (pcap (idx + k)) = false := by
  induction ds generalizing idx s with
  | nil => exact (and_iff_left (fun k hk => absurd hk (Nat.not_lt_zero k))).symm
  | cons d ds ih =>
    have hshift : ∀ k, idx + 1 + k = idx + (k + 1) := by omega
    rw [openHandles, ih (idx + 1) (hs.openDevice fliter d.name (pcap idx)), accounted_openDevice_iff fliter d.name _ hs,
      List.length_cons, Nat.forall_lt_succ_left, and_assoc]
    simp only [hshift, Nat.add_zero]

/-! ## `Init` -/

theorem newProcess_pcaps (files : Pid → ProcFiles) (pid : Pid) (s : CaptureCxx) :
    (newProcess files s pid).openedPcaps = s.openedPcaps ∧ (newProcess files s pid).closedPcaps = s.closedPcaps ∧
      (newProcess files s pid).ownedPcaps = s.ownedPcaps ∧ (newProcess files s pid).pcaps = s.pcaps := by
  refine ⟨?_, ?_, rfl, rfl⟩
  · exact (List.filterMap_append.trans (List.append_nil _)).trans (List.filterMap_append.trans (List.append_nil _))
  · exact (List.filterMap_append.trans (List.append_nil _)).trans (List.filterMap_append.trans (List.append_nil _))

theorem foldl_newProcess_pcaps (files : Pid → ProcFiles) (pids : List Pid) (s : CaptureCxx) :
    (pids.foldl (newProcess files) s).openedPcaps = s.openedPcaps ∧
      (pids.foldl (newProcess files) s).closedPcaps = s.closedPcaps ∧
      (pids.foldl (newProcess files) s).ownedPcaps = s.ownedPcaps ∧
      (pids.foldl (newProcess files) s).pcaps = s.pcaps := by
  induction pids generalizing s with
  | nil => exact ⟨rfl, rfl, rfl, rfl⟩
  | cons pid pids ih =>
    obtain ⟨hopened, hclosed, howned, hpcaps⟩ := ih (newProcess files s pid)
    obtain ⟨hopened', hclosed', howned', hpcaps'⟩ := newProcess_pcaps files pid s
    exact ⟨hopened.trans hopened', hclosed.trans hclosed', howned.trans howned', hpcaps.trans hpcaps'⟩

/-- After `Init` the account is the one the loop over the devices leaves. -/
theorem init_pcaps (i : InitInput) (s : CaptureCxx) :
    (init i s).2.openedPcaps = (withHandles i s).openedPcaps ∧
      (init i s).2.closedPcaps = (withHandles i s).closedPcaps ∧
      (init i s).2.ownedPcaps = (withHandles i s).ownedPcaps ∧ (init i s).2.pcaps = (withHandles i s).pcaps := by
  by_cases hnil : (prepare i s).devices = []
  · rw [init_of_no_device i s hnil, withHandles, hnil]
    exact ⟨rfl, rfl, rfl, rfl⟩
  · rw [init_of_devices i s hnil]
    exact foldl_newProcess_pcaps i.files (snapshot i.proc).keys (surveyed i s)

/-- A call of `Init` starts with no handle of its own. -/
theorem numbered_prepare (i : InitInput) {s : CaptureCxx} (hs : ∀ id ∈ s.ownedPcaps, id < s.pcaps) :
    Numbered (prepare i s) ∧ (prepare i s).openedPcaps = [] := by
  have hopened : (prepare i s).openedPcaps = [] := by rw [openedPcaps, prepare_log, List.filterMap_nil]
  have hclosed : (prepare i s).closedPcaps = [] := by rw [closedPcaps, prepare_log, List.filterMap_nil]
  refine ⟨⟨?_, ?_, ?_⟩, hopened⟩
  · rw [hopened]
    exact fun id hid => nomatch hid
  · rw [hclosed]
    exact fun id hid => nomatch hid
  · rw [prepare_eq]
    exact hs

theorem init_accounted_iff (i : InitInput) {s : CaptureCxx} (hs : ∀ id ∈ s.ownedPcaps, id < s.pcaps) :
    Accounted (init i s).2 ↔ ∀ k < (s.devices ++ (i.ifaddrs.getD []).filterMap usableDevice).length,
      leaksHandle i.fliter (i.pcap k) = false := by
  obtain ⟨hnumbered, hopened⟩ := numbered_prepare i hs
  obtain ⟨hinit, hinit', hinit'', -⟩ := init_pcaps i s
  have hstart : Accounted (prepare i s) := by
    unfold Accounted
    rw [hopened]
    exact fun id hid => nomatch hid
  have hloop := accounted_openHandles_iff i.fliter i.pcap (prepare i s).devices 0 hnumbered
  rw [← prepare_devices]
  unfold Accounted at hloop ⊢
  rw [hinit, hinit', hinit'', withHandles, hloop]
  simp only [Nat.zero_add]
  exact and_iff_right hstart

/-! ## Every run -/

theorem owned_next {s : CaptureCxx} (hs : ∀ id ∈ s.ownedPcaps, id < s.pcaps) (c : Call) :
    ∀ id ∈ (next s c).ownedPcaps, id < (next s c).pcaps := by
  cases c with
  | init i =>
    obtain ⟨-, -, howned, hpcaps⟩ := init_pcaps i s
    have hloop := (numbered_prepare i hs).1.openHandles i.fliter i.pcap (prepare i s).devices 0
    show ∀ id ∈ (init i s).2.ownedPcaps, id < (init i s).2.pcaps
    rw [howned, hpcaps]
    exact hloop.owned
  | update u =>
    have hpcaps : (update u s).2.pcaps = s.pcaps := (congrArg CaptureCxx.pcaps (update_kept u s) :)
    have hmapped := congrArg (List.filterMap fun h => h.handle.map Pcap.id) (update_handles u s)
    rw [List.filterMap_map, List.filterMap_map] at hmapped
    have hsame : (update u s).2.ownedPcaps = s.ownedPcaps := hmapped
    show ∀ id ∈ (update u s).2.ownedPcaps, id < (update u s).2.pcaps
    rw [hsame, hpcaps]
    exact hs
  | shutdown => exact hs

/-- Over every run, the handles a call of `Init` opens are all accounted for after it exactly
when every device that opens also takes the filter, if there is one. -/
theorem handles_accounted_iff (cs : List Call) (t : RunTrace.Step CaptureCxx Call) (ht : t ∈ run cs) (i : InitInput)
    (hi : t.call = .init i) :
    Accounted t.after ↔ ∀ k < (t.before.devices ++ (i.ifaddrs.getD []).filterMap usableDevice).length,
      (i.pcap k).opened = true → i.fliter = true → (i.pcap k).compiled = true ∧ (i.pcap k).filtered = true := by
  have hbefore : ∀ id ∈ t.before.ownedPcaps, id < t.before.pcaps :=
    RunTrace.invariant_of_mem_steps next (fun s => ∀ id ∈ s.ownedPcaps, id < s.pcaps)
      (fun s c hs => owned_next hs c) initial (fun id hid => nomatch hid) cs t ht
  have hafter : t.after = (init i t.before).2 := by
    rw [RunTrace.after_of_mem_steps next initial cs t ht, hi]
    rfl
  rw [hafter, init_accounted_iff i hbefore]
  refine forall_congr' fun k => forall_congr' fun _ => ?_
  unfold leaksHandle
  cases (i.pcap k).opened <;> cases i.fliter <;> cases (i.pcap k).compiled <;> cases (i.pcap k).filtered <;> decide

theorem handles_accounted_lan : Accounted (next initial (.init (lanInit [1]))) :=
  (handles_accounted_iff [.init (lanInit [1])] _ List.mem_cons_self (lanInit [1]) rfl).mpr
    (fun _ _ _ h => absurd h (by decide))

/-- `lanInit` with a filter that the link type rejects. -/
def rejectedInit (pids : List (Fin 10)) : InitInput :=
  { lanInit pids with fliter := true, pcap := fun _ => ⟨true, false, false, dltEn10mb, 0⟩ }

/-- The handle is neither owned nor closed. -/
theorem rejected_filter_leaks :
    let t : RunTrace.Step CaptureCxx Call := ⟨initial, .init (rejectedInit [1]), next initial (.init (rejectedInit [1]))⟩
    t ∈ run [.init (rejectedInit [1])] ∧ t.after.openedPcaps = [0] ∧ t.after.ownedPcaps = [] ∧
      t.after.closedPcaps = [] ∧ ¬ Accounted t.after := by
  intro t
  have hopened : t.after.openedPcaps = [0] := by decide +kernel
  have howned : t.after.ownedPcaps = [] := by decide +kernel
  have hclosed : t.after.closedPcaps = [] := by decide +kernel
  refine ⟨List.mem_cons_self, hopened, howned, hclosed, fun h => ?_⟩
  have hzero := h 0 (by rw [hopened]; exact List.mem_singleton_self 0)
  rw [howned, hclosed] at hzero
  exact absurd hzero (by decide)

end CaptureCxx
end Capture
