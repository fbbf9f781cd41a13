import Capture.Foundations.RunTrace
import Capture.Foundations.ScanReading
import Capture.Proof.ReaderTermination

/-! # Which name `GetName` returns

`ParseStatus` scans the `Name:` line only while the name is empty, so the name of a process
is the first one that was read, and stays it when the process takes another one. -/
namespace Capture
open SeparatedText FormattedScan LineStream RunTrace

set_option autoImplicit false

/-! ## Status files -/

/-- The content of `/proc/<pid>/status`: the name, which fits the `char[128]` it is scanned
into, and the lines after it. -/
structure StatusFile where
  name : Text
  name_line : '\n' ∉ name ∧ '\x00' ∉ name ∧ name.length < 128
  fields : List Text
  fields_lines : ∀ l ∈ fields, '\n' ∉ l ∧ ¬ "Name:".toList <+: l

def StatusFile.lines (f : StatusFile) : List Text := ("Name:\t".toList ++ f.name) :: f.fields

def StatusFile.text (f : StatusFile) : Text := joinLines '\n' f.lines

theorem StatusFile.fileBuffers_text (f : StatusFile) (h : Fits '\n' bufferSize f.text .eof) :
    fileBuffers f.text = f.lines ++ [[]] := by
  have hline : ∀ l ∈ f.lines, '\n' ∉ l :=
    List.forall_mem_cons.mpr ⟨by simp [f.name_line.1], fun l hl => (f.fields_lines l hl).1⟩
  have hsplit := splitLines_joinLines '\n' f.lines hline
  have hfit := h.2
  rw [StatusFile.text, hsplit] at hfit
  rw [fileBuffers, StatusFile.text, hsplit, reads_of_fits _ _ hfit]

/-! ## One line -/

theorem nameFormat :
    format "Name:       %s" = "Name:".toList.map Item.exact ++ (List.replicate 7 .blank ++ [.word true none]) := by decide

namespace CapProcess

theorem readName_of_named (t : Text) (p : CapProcess) (h : p.name ≠ []) : readName t p = p :=
  if_neg fun hread => h hread.1

theorem readName_other (t : Text) (p : CapProcess) (h : ¬ "Name:".toList <+: t) : (readName t p).name = p.name := by
  have hnone : (sscanf t "Name:       %s").values = [] := sscanf_literal_mismatch nameFormat t h
  unfold readName
  dsimp only
  split
  · next hread =>
    rw [hread.1, Result.text, hnone]
    rfl
  · rfl

theorem readName_name (name : Text) (p : CapProcess) (hp : p.name = []) (hnul : '\x00' ∉ name)
    (hword : ∀ c ∈ name, isSpace c = false) : (readName ("Name:\t".toList ++ name) p).name = name := by
  have hclean : cString ("Name:\t".toList ++ name) = "Name:".toList ++ ('\t' :: name) := by
    rw [cString_append (by decide), cString_eq_self hnul]
    rfl
  have hscan : sscanf ("Name:\t".toList ++ name) "Name:       %s" = scan [.word true none] ('\t' :: name) := by
    rw [sscanf, hclean, nameFormat, scan_literal, scan_blanks_word]
  have hread : scan [.word true none] ('\t' :: name) =
      if name = [] then ⟨[], true⟩ else ⟨[.text name], false⟩ := by
    by_cases hempty : name = []
    · subst hempty
      rfl
    · have hvalue : scanWord none (['\t'] ++ (name ++ [])) = .value (.text name) [] :=
        scanWord_word (blank_singleton '\t' rfl) hempty hword (by simp)
      rw [List.append_nil, List.singleton_append] at hvalue
      rw [if_neg hempty, scan_word, hvalue]
      rfl
  unfold readName
  dsimp only
  rw [hscan, hread, hp]
  by_cases hempty : name = []
  · subst hempty
    rfl
  · rw [if_neg hempty]
    rfl

theorem parseStatusLine_name (t : Text) (p : CapProcess) :
    (parseStatusLine p t).name = if cString t = [] then p.name else (readName t p).name := by
  have hgid : ∀ q : CapProcess, (readGid t q).name = q.name := by
    intro q
    unfold readGid
    split <;> rfl
  have huid : ∀ q : CapProcess, (readUid t q).name = q.name := by
    intro q
    unfold readUid
    split <;> rfl
  have hmemory : ∀ q : CapProcess, (readMemory t q).name = q.name := by
    intro q
    unfold readMemory
    dsimp only
    split <;> rfl
  unfold parseStatusLine
  split
  · rfl
  · rw [hgid, huid, hmemory]

/-! ## One call -/

theorem parseStatusLine_name_other (t : Text) (p : CapProcess) (h : ¬ "Name:".toList <+: t) :
    (parseStatusLine p t).name = p.name := by
  rw [parseStatusLine_name]
  split
  · rfl
  · exact readName_other t p h

theorem foldl_parseStatusLine_name (ls : List Text) (h : ∀ l ∈ ls, ¬ "Name:".toList <+: l) (p : CapProcess) :
    (ls.foldl parseStatusLine p).name = p.name := by
  induction ls generalizing p with
  | nil => rfl
  | cons l ls ih =>
    rw [List.foldl_cons, ih fun m hm => h m (List.mem_cons_of_mem l hm)]
    exact parseStatusLine_name_other l p (h l List.mem_cons_self)

/-- The lines of a status file leave a name as it is, and otherwise give the value, which has
to be one word. -/
theorem status_name (f : StatusFile) (p : CapProcess) :
    (p.name ≠ [] → ((f.lines ++ [[]]).foldl parseStatusLine p).name = p.name) ∧
      (p.name = [] → (∀ c ∈ f.name, isSpace c = false) →
        ((f.lines ++ [[]]).foldl parseStatusLine p).name = f.name) := by
  have hrest : ∀ l ∈ f.fields ++ [[]], ¬ "Name:".toList <+: l :=
    List.forall_mem_append.mpr ⟨fun l hl => (f.fields_lines l hl).2, List.forall_mem_singleton.mpr (by decide)⟩
  rw [StatusFile.lines, List.cons_append, List.foldl_cons, foldl_parseStatusLine_name _ hrest, parseStatusLine_name]
  constructor
  · intro hp
    split
    · rfl
    · rw [readName_of_named _ p hp]
  · intro hp hword
    have hclean : cString ("Name:\t".toList ++ f.name) ≠ [] := by
      rw [cString_append (by decide)]
      exact List.cons_ne_nil _ _
    rw [if_neg hclean]
    exact readName_name f.name p hp f.name_line.2.1 hword

theorem parseIo_name (files : ProcFiles) (p : CapProcess) : (parseIo files p).2.name = p.name := by
  have hline : ∀ (q : CapProcess) t, (parseIoLine q t).name = q.name := by
    intro q t
    dsimp only [parseIoLine, readWchar, readRchar]
    split
    · rfl
    · split <;> split <;> rfl
  have hlines : ∀ (lines : List Text) (q : CapProcess), (lines.foldl parseIoLine q).name = q.name := by
    intro lines
    induction lines with
    | nil => exact fun q => rfl
    | cons t lines ih => exact fun q => (ih _).trans (hline q t)
  unfold parseIo
  split
  · rfl
  · exact hlines _ p

theorem parseRest_name (files : ProcFiles) (imemory : UInt64) (p : CapProcess) :
    (parseRest files imemory p).name = p.name := by
  have hhandle : ∀ q : CapProcess, (parseHandle files q).2.name = q.name := by
    intro q
    unfold parseHandle
    split <;> rfl
  have huser : ∀ q : CapProcess, (parseUserAndGroup files q).2.name = q.name := by
    intro q
    dsimp only [parseUserAndGroup, setGroup, setUser]
    split <;> split <;> rfl
  dsimp only [parseRest]
  rw [hhandle, huser, parseIo_name]

theorem foldl_advance_name (call : ℕ) (ts : List UInt64) (p : CapProcess) :
    (ts.foldl (advance call) p).name = p.name := by
  induction ts generalizing p with
  | nil => rfl
  | cons t ts ih => exact ih (advance call p t)

/-- The readers after `ParseStatus` leave the name alone. -/
theorem parseProc_name (call : ℕ) (files : ProcFiles) (imemory : UInt64) (ideltacpu : Interval) (p : CapProcess)
    (h : (parseProc call files imemory ideltacpu p).1 = 0) :
    (parseProc call files imemory ideltacpu p).2.name = (parseStatus files p).2.name := by
  have hcmdline : ∀ content (q : CapProcess), (readCmdline content q).name = q.name := by
    intro content q
    unfold readCmdline
    split <;> rfl
  by_cases hpid : p.pid = -1
  · simp [parseProc, hpid, capProcessInit] at h
  · cases hstatus : files.status with
    | none => simp [parseProc, hpid, parseStatus, hstatus, capProcessOpen] at h
    | some lines =>
      cases hcontent : files.cmdline with
      | none => simp [parseProc, hpid, parseStatus, hstatus, parseCmdline, hcontent, capProcessOpen] at h
      | some content =>
        cases hstat : files.stat with
        | none =>
          simp [parseProc, hpid, parseStatus, hstatus, parseCmdline, hcontent, parseStat, hstat, capProcessOpen] at h
        | some stat =>
          simp only [parseProc, hpid, if_false, parseStatus, hstatus, ne_eq, not_true_eq_false, parseCmdline, hcontent,
            parseStat, hstat]
          rw [foldl_advance_name, parseRest_name, hcmdline]

end CapProcess

/-! ## Runs -/

/-- A call of `Parse` and the status file it reads. -/
structure ParseCall where
  call : ℕ
  files : ProcFiles
  imemory : UInt64
  ideltacpu : Interval
  status : StatusFile

def ParseCall.parse (c : ParseCall) (p : CapProcess) : ℤ × CapProcess :=
  CapProcess.parseProc c.call { c.files with status := some (fileBuffers c.status.text) } c.imemory c.ideltacpu p

/-- The calls on a new `CapProcess`, one after the other. -/
def parseRun (pid : Pid) (cs : List ParseCall) : List (Step CapProcess ParseCall) :=
  steps (fun p c => (c.parse p).2) { pid := pid } cs

/-- The call returns, and returns 0. -/
def Succeeds (m : Step CapProcess ParseCall) : Prop :=
  Fits '\n' bufferSize m.call.status.text .eof ∧ (m.call.parse m.before).1 = 0

instance : DecidablePred Succeeds := fun _ => inferInstanceAs (Decidable (_ ∧ _))

/-- The first value that is not empty of the status files read. -/
def firstName (ms : List (Step CapProcess ParseCall)) : Text :=
  ((ms.map fun m => m.call.status.name).find? fun name => name ≠ []).getD []

theorem firstName_append (ms : List (Step CapProcess ParseCall)) (m : Step CapProcess ParseCall) :
    firstName (ms ++ [m]) = if firstName ms = [] then m.call.status.name else firstName ms := by
  unfold firstName
  rw [List.map_append, List.find?_append]
  cases hfind : (ms.map fun m => m.call.status.name).find? fun name => name ≠ [] with
  | none =>
    rw [Option.none_or, Option.getD_none, if_pos rfl]
    by_cases hname : m.call.status.name = [] <;> simp [hname]
  | some name =>
    have hne : name ≠ [] := by simpa using List.find?_some hfind
    rw [Option.some_or, Option.getD_some, if_neg hne]

/-- One call, by the name before it. -/
theorem name_after (m : Step CapProcess ParseCall) (hafter : m.after = (m.call.parse m.before).2) (hok : Succeeds m) :
    (m.before.name ≠ [] → m.after.name = m.before.name) ∧
      (m.before.name = [] → (∀ c ∈ m.call.status.name, isSpace c = false) → m.after.name = m.call.status.name) := by
  have hname : m.after.name =
      ((m.call.status.lines ++ [[]]).foldl CapProcess.parseStatusLine m.before).name := by
    rw [hafter, ParseCall.parse, CapProcess.parseProc_name _ _ _ _ _ hok.2, ← m.call.status.fileBuffers_text hok.1]
    rfl
  rw [hname]
  exact CapProcess.status_name m.call.status m.before

/-- For every sequence of successful calls on a new process: after each call `GetName` returns
the first value that was not empty, if that is one word, whatever the values after it are. -/
theorem name_read_once (pid : Pid) (cs : List ParseCall) (pre post : List (Step CapProcess ParseCall))
    (t : Step CapProcess ParseCall) (hrun : parseRun pid cs = pre ++ t :: post) (hok : ∀ m ∈ pre ++ [t], Succeeds m)
    (hword : ∀ c ∈ firstName (pre ++ [t]), isSpace c = false) :
    t.after.getName = firstName (pre ++ [t]) := by
  let inv (done : List (Step CapProcess ParseCall)) (p : CapProcess) : Prop :=
    (∀ c ∈ firstName done, isSpace c = false) → p.name = firstName done
  have hstep : ∀ done m, Succeeds m → m.after = (m.call.parse m.before).2 → inv done m.before →
      inv (done ++ [m]) m.after := by
    intro done m hm hafter hinv hspace
    obtain ⟨hkeep, hread⟩ := name_after m hafter hm
    rw [firstName_append] at hspace ⊢
    split at hspace
    · next hempty =>
      have hbefore : m.before.name = [] := (hinv (by simp [hempty])).trans hempty
      rw [if_pos hempty]
      exact hread hbefore hspace
    · next hne =>
      have hbefore := hinv hspace
      rw [if_neg hne, hkeep (by rwa [hbefore]), hbefore]
  have hbefore : inv pre t.before := by
    refine stretch_induction _ inv hrun (fun _ => rfl) fun done m hm hafter hinv => ?_
    exact hstep done m (hok m (List.mem_append_left _ hm)) hafter hinv
  have hmem : t ∈ parseRun pid cs := by simp [hrun]
  exact hstep pre t (hok t (by simp)) (after_of_mem_steps _ _ _ t hmem) hbefore hword

def nameCall (name : Text) (h : '\n' ∉ name ∧ '\x00' ∉ name ∧ name.length < 128) : ParseCall :=
  { call := 0, files := { ProcFiles.absent with cmdline := some [], stat := some [] }, imemory := 0,
    ideltacpu := Interval.initial,
    status := { name := name, name_line := h, fields := ["Umask:\t0022".toList], fields_lines := by decide } }

def shellThenLs : List ParseCall := [nameCall "sh".toList (by decide), nameCall "ls".toList (by decide)]

theorem shellThenLs_run : ∃ pre t, parseRun 7 shellThenLs = pre ++ [t] ∧ t.call.status.name = "ls".toList :=
  ⟨[_], _, rfl, rfl⟩

theorem shellThenLs_succeeds : ∀ m ∈ parseRun 7 shellThenLs, Succeeds m := by decide +kernel

theorem shellThenLs_firstName : firstName (parseRun 7 shellThenLs) = "sh".toList := by
  have hnames : (parseRun 7 shellThenLs).map (fun m => m.call.status.name) = ["sh".toList, "ls".toList] := rfl
  rw [firstName, hnames]
  rfl

theorem name_read_once_exec : ∃ pre t, parseRun 7 shellThenLs = pre ++ [t] ∧ t.after.getName = "sh".toList := by
  obtain ⟨pre, t, hrun, -⟩ := shellThenLs_run
  have hfirst : firstName (pre ++ [t]) = "sh".toList := by rw [← hrun, shellThenLs_firstName]
  have hok : ∀ m ∈ pre ++ [t], Succeeds m := hrun ▸ shellThenLs_succeeds
  have hword : ∀ c ∈ firstName (pre ++ [t]), isSpace c = false := by
    rw [hfirst]
    simp [isSpace]
  refine ⟨pre, t, hrun, ?_⟩
  rw [name_read_once 7 shellThenLs pre [] t hrun hok hword, hfirst]

/-- A shell becomes `ls`, and the name stays the one of the shell. -/
theorem name_of_exec_not_read :
    ¬ ∀ (pid : Pid) (cs : List ParseCall) (pre post : List (Step CapProcess ParseCall)) (t : Step CapProcess ParseCall),
      parseRun pid cs = pre ++ t :: post → (∀ m ∈ pre ++ [t], Succeeds m) → t.after.getName = t.call.status.name := by
  intro h
  obtain ⟨pre, t, hrun, hname⟩ := shellThenLs_run
  have hlast := h 7 shellThenLs pre [] t hrun (hrun ▸ shellThenLs_succeeds)
  have hlastName : (parseRun 7 shellThenLs).getLast?.map (fun m => m.after.getName) = some "sh".toList := by
    decide +kernel
  have hsame : t.after.getName = "sh".toList := by
    rw [hrun, List.getLast?_concat] at hlastName
    exact Option.some.inj hlastName
  exact absurd (hsame.symm.trans (hlast.trans hname)) (by decide)

end Capture
