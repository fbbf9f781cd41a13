import Capture.Proof.EntryRelation
import Capture.Proof.RefreshEffect
import Capture.Proof.PacketDelivery

/-! # The order in which directories are listed

`readdir` lists a directory in any order, and may list an entry again that was there before.
`/proc` and the directories of the open files are read into sets, maps and a count, and none
of them remembers the order: runs that find the same entries in another order reach the
same state, to the last event of the log (`listings_unordered`). -/
namespace Capture
open SeparatedText AddressText OrderedTable

set_option autoImplicit false

/-- The same entries, in whatever order and however often. -/
def SameEntries {α : Type} (l l' : List α) : Prop := ∀ x, x ∈ l' ↔ x ∈ l

theorem SameEntries.filterMap {α β : Type} {l l' : List α} (h : SameEntries l l') (f : α → Option β) :
    SameEntries (l.filterMap f) (l'.filterMap f) := by
  intro y
  rw [List.mem_filterMap, List.mem_filterMap]
  exact exists_congr fun x => and_congr_left' (h x)

/-! ## What is read of a listing -/

/-- The files of a process, the directory of its open files in another order. -/
def ProcFiles.Relisted (g g' : ProcFiles) : Prop := g' = { g with fd := g'.fd } ∧ Option.Rel List.Perm g.fd g'.fd

theorem CapProcess.parse_relisted {g g' : ProcFiles} (h : g.Relisted g') (call : ℕ) (imemory : UInt64)
    (ideltacpu : Interval) (p : CapProcess) : parse call g' imemory ideltacpu p = parse call g imemory ideltacpu p := by
  obtain ⟨hrest, hperm⟩ := h
  generalize g'.fd = fd at hrest hperm
  subst hrest
  have hhandle : parseHandle { g with fd := fd } = parseHandle g := by
    funext p
    unfold parseHandle
    dsimp only
    generalize g.fd = l at hperm
    cases hperm with
    | none => rfl
    | some hlists =>
      dsimp only
      rw [(hlists.filter id).length_eq]
  unfold parse parseProc parseRest
  rw [hhandle]
  rfl

/-- The same socket tables, and the same open files in each directory. -/
def RefreshInput.Relisted (i i' : RefreshInput) : Prop :=
  i' = { i with fd := i'.fd } ∧ ∀ pid, Option.Rel SameEntries (i.fd pid) (i'.fd pid)

theorem RefreshInput.Relisted.held {i i' : RefreshInput} (h : i.Relisted i') (pid : Pid) :
    SameEntries (i.heldInodes pid) (i'.heldInodes pid) := by
  have hfd := h.2 pid
  unfold heldInodes
  generalize i.fd pid = l, i'.fd pid = l' at hfd
  cases hfd with
  | none => exact fun _ => Iff.rfl
  | some hsame => exact hsame.filterMap linkInode

theorem RefreshInput.Relisted.reached {i i' : RefreshInput} (h : i.Relisted i') (pids : List Pid) :
    i'.pidsReached pids = i.pidsReached pids := by
  unfold pidsReached
  congr 1
  funext pid
  have hfd := h.2 pid
  generalize i.fd pid = l, i'.fd pid = l' at hfd
  cases hfd <;> rfl

namespace CapInodeHelper

theorem refresh_relisted {i i' : RefreshInput} (h : i.Relisted i') (devices : List CapDevice) (pids : List Pid) :
    (refresh devices pids i').2 = (refresh devices pids i).2 := by
  have hpids : ∀ inodes, (refreshToPids i' pids inodes).2 = (refreshToPids i pids inodes).2 := by
    intro inodes
    obtain ⟨hnet, hpid⟩ := refreshToPids_spec i pids inodes
    obtain ⟨hnet', hpid'⟩ := refreshToPids_spec i' pids inodes
    refine (mk.injEq _ _ _ _).mpr ⟨hnet'.trans hnet.symm, funext fun n => ?_⟩
    rw [hpid, hpid', h.reached]
    congr 1
    exact funext fun p => propext (h.held p n)
  have htables : refreshToInodes devices i' {} = refreshToInodes devices i {} := by rw [h.1]; rfl
  unfold refresh
  dsimp only
  rw [htables]
  split
  · rfl
  · exact hpids _

end CapInodeHelper

namespace CaptureCxx

theorem snapshot_relisted {proc proc' : Option (List ProcEntry)} (h : SameEntries (proc.getD []) (proc'.getD [])) :
    snapshot proc' = snapshot proc := by
  have hkeys : (snapshot proc').keys = (snapshot proc).keys := by
    refine Table.keys_eq_of_mem_iff _ (snapshot proc).keys_sorted fun k => ?_
    rw [mem_snapshot_keys, mem_snapshot_keys]
    exact h.filterMap entryPid k
  refine Table.ext (List.map_injective_iff.mpr ?_ hkeys)
  exact fun e e' he => Prod.ext he rfl

/-! ## The runs -/

def FilesRelisted (g g' : Pid → ProcFiles) : Prop := ∀ k, (g k).Relisted (g' k)

def FrameRelisted (f f' : Frame) : Prop := f' = { f with files := f'.files } ∧ FilesRelisted f.files f'.files

/-- The two calls find the same entries in every directory. -/
def Relisted : Call → Call → Prop
  | .init i, .init i' =>
      i' = { i with proc := i'.proc, refresh := i'.refresh, files := i'.files } ∧
        SameEntries (i.proc.getD []) (i'.proc.getD []) ∧ i.refresh.Relisted i'.refresh ∧ FilesRelisted i.files i'.files
  | .update u, .update u' =>
      u' = { u with proc := u'.proc, refresh := u'.refresh, dispatch := u'.dispatch, files := u'.files } ∧
        SameEntries (u.proc.getD []) (u'.proc.getD []) ∧ u.refresh.Relisted u'.refresh ∧
        FilesRelisted u.files u'.files ∧ ∀ idx, (u'.dispatch idx).ret = (u.dispatch idx).ret ∧
          List.Forall₂ FrameRelisted (u.dispatch idx).frames (u'.dispatch idx).frames
  | .shutdown, .shutdown => True
  | _, _ => False

def equal : EntryRelation := fun _ p p' => p' = p

theorem equal_kept : equal.Kept where
  start _ := rfl
  addPacket k devices cap p p' h := by
    cases h
    rfl

theorem equal_parses {g g' : Pid → ProcFiles} (h : FilesRelisted g g') : equal.Parses g g' := by
  intro k call imemory ideltacpu p p' hp
  cases hp
  exact CapProcess.parse_relisted (h k) call imemory ideltacpu p

theorem sameCall_of_relisted {c c' : Call} (h : Relisted c c') : SameCall equal c c' := by
  cases c with
  | init i =>
    cases c' with
    | init i' =>
      obtain ⟨hi, hproc, hrefresh, hfiles⟩ := h
      exact ⟨hi, snapshot_relisted hproc, CapInodeHelper.refresh_relisted hrefresh, equal_parses hfiles⟩
    | update _ => cases h
    | shutdown => cases h
  | update u =>
    cases c' with
    | update u' =>
      obtain ⟨hu, hproc, hrefresh, hfiles, hframes⟩ := h
      exact ⟨snapshot_relisted hproc, CapInodeHelper.refresh_relisted hrefresh, fun idx => (hframes idx).1,
        fun idx => (hframes idx).2.imp fun f f' hf => ⟨hf.1, equal_parses hf.2⟩, by rw [hu], equal_parses hfiles⟩
    | init _ => cases h
    | shutdown => cases h
  | shutdown =>
    cases c' with
    | shutdown => trivial
    | init _ => cases h
    | update _ => cases h

theorem records_eq {r r' : ProcessRecord} (h : equal.Records r r') : r = r' := by
  obtain ⟨k, p, p', hp, rfl, rfl⟩ := h
  exact congrArg processRecord (Eq.symm hp)

theorem events_eq {e e' : Event} (h : equal.Events e e') : e = e' := by
  cases h with
  | same => rfl
  | report data data' size hdata =>
    have hsame : data = data' := List.forall₂_eq_eq_eq ▸ hdata.imp fun _ _ hr => records_eq hr
    rw [hsame]

theorem Alike.eq {s s' : CaptureCxx} (h : Alike equal s s') : s = s' := by
  have hprocesses : s.processes = s'.processes := by
    refine Table.ext_find fun k => ?_
    have hfind := h.processes k
    generalize s.processes.find k = p, s'.processes.find k = p' at hfind
    cases hfind with
    | none => rfl
    | some hpair => exact congrArg some (Eq.symm hpair)
  have hdata : s.processData = s'.processData :=
    List.forall₂_eq_eq_eq ▸ h.processData.imp fun _ _ hr => records_eq hr
  have hlog : s.log = s'.log := List.forall₂_eq_eq_eq ▸ h.log.imp fun _ _ he => events_eq he
  have hjoin : ∀ t : CaptureCxx, t = { tables.strip t with
      processes := t.processes, processData := t.processData, log := t.log } := fun _ => rfl
  rw [hjoin s, hjoin s', h.rest, hprocesses, hdata, hlog]

/-- Two runs that find the same entries in every directory, in whatever order they are
listed, reach the same state: every process, every record, every handle and every event. -/
theorem listings_unordered (cs cs' : List Call) (h : List.Forall₂ Relisted cs cs') : reached cs = reached cs' :=
  (Alike.reached equal_kept (h.imp fun _ _ hc => sameCall_of_relisted hc)).eq

/-- `/proc` lists the two processes the other way round, and one of them again. -/
theorem listings_unordered_lan : reached [.init (lanInit [1, 2])] = reached [.init (lanInit [2, 1, 2])] := by
  refine listings_unordered _ _ (.cons ⟨rfl, fun e => ?_, ⟨rfl, fun _ => .none⟩, fun _ => ⟨rfl, .none⟩⟩ .nil)
  simp only [lanInit, Option.getD_some, List.map_cons, List.map_nil, List.mem_cons, List.not_mem_nil, or_false]
  tauto

end CaptureCxx
end Capture
