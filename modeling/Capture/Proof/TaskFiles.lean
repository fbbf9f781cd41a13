import Capture.Foundations.KeyedLines
import Capture.Proof.ProcessName
import Capture.Proof.SocketTables
import Capture.Proof.StatLine

/-! # The files of a process, read back

What the kernel prints of a process in `/proc/<pid>` is what `Parse` reads back
(`parse_files`), as long as every line fits the buffer: the fields it reports, in whatever
other lines they stand, and no field of another line. -/
namespace Capture
open SeparatedText FormattedScan LineStream KeyedLines

set_option autoImplicit false

/-! ## What is printed -/

theorem not_mem_tabbed {c : Char} (hc : c.isDigit = false) (htab : c ≠ '\t') (ids : List UInt32) :
    c ∉ ids.flatMap fun id => '\t' :: decimal id.toNat := by
  simp [htab, not_mem_decimal hc]

/-- `key:\t%d\t%d\t%d\t%d`, the first of which is the real id. -/
def idField (key : Text) (hkey : ':' ∉ key ∧ OneLine key) (id : UInt32) (ids : List UInt32) : Field :=
  numberField key hkey ['\t'] (by decide) id.toNat (ids.flatMap fun id => '\t' :: decimal id.toNat)
    ⟨not_mem_tabbed rfl (by decide) ids, not_mem_tabbed rfl (by decide) ids⟩

theorem not_mem_padding {c : Char} {sp : Text} (hsp : c ∉ sp) (hblank : c ≠ ' ') (w : ℕ) :
    c ∉ sp ++ List.replicate w ' ' := by
  simp [hsp, hblank]

/-- `key:%8lu kB`, with some blanks after the colon. -/
def sizeField (key : Text) (hkey : ':' ∉ key ∧ OneLine key) (sp : Text) (hsp : OneLine sp) (n : ℕ) : Field :=
  numberField key hkey (sp ++ List.replicate (8 - (decimal n).length) ' ')
    ⟨not_mem_padding hsp.1 (by decide) _, not_mem_padding hsp.2 (by decide) _⟩ n " kB".toList (by decide)

/-- What the kernel knows of a process, and the other lines it prints. A kernel thread has no
memory of its own and no arguments; the files of a process of another user may be closed. -/
structure Task where
  stat : StatLine
  word : ∀ c ∈ stat.name, isSpace c = false
  ticks : stat.utime.toNat < 2 ^ 63 ∧ stat.stime.toNat < 2 ^ 63
  uid : UInt32
  uids : List UInt32
  gid : UInt32
  gids : List UInt32
  rss : Option ℕ
  arguments : List Text
  command : ∀ a ∈ arguments.head?, a ≠ [] ∧ ∀ c ∈ a, isSpace c = false ∧ c ≠ '\x00'
  io : Option (ℕ × ℕ)
  fds : Option ℕ
  sizes : (∀ n ∈ rss, n < 2 ^ 63) ∧ ∀ n ∈ io, n.1 < 2 ^ 63 ∧ n.2 < 2 ^ 63
  head : List Field
  body : List Field
  tail : List Field
  others : ∀ f ∈ head ++ body ++ tail, f.key ∉ ["Name".toList, "Uid".toList, "Gid".toList, "VmRSS".toList]
  counts : List Field
  others_io : ∀ f ∈ counts, f.key ∉ ["rchar".toList, "wchar".toList]

/-- The databases `getpwuid` and `getgrgid` look into. -/
structure Accounts where
  passwd : UInt32 → Option Text
  group : UInt32 → Option Text

namespace Task

def nameField (t : Task) : Field where
  key := "Name".toList
  value := '\t' :: t.stat.name
  key_plain := by decide
  value_line := ⟨by simp [t.stat.name_line.1], by simp [t.stat.name_line.2]⟩

def uidField (t : Task) : Field := idField "Uid".toList (by decide) t.uid t.uids

def gidField (t : Task) : Field := idField "Gid".toList (by decide) t.gid t.gids

def rssField (n : ℕ) : Field := sizeField "VmRSS".toList (by decide) ['\t'] (by decide) n

def statusFields (t : Task) : List Field :=
  t.nameField :: (t.head ++ t.uidField :: t.gidField :: (t.body ++ (t.rss.toList.map rssField ++ t.tail)))

def rcharField (n : ℕ) : Field := numberField "rchar".toList (by decide) [' '] (by decide) n [] (by decide)

def wcharField (n : ℕ) : Field := numberField "wchar".toList (by decide) [' '] (by decide) n [] (by decide)

def ioFields (t : Task) (n : ℕ × ℕ) : List Field := rcharField n.1 :: wcharField n.2 :: t.counts

/-- The arguments, each with its NUL. -/
def content (t : Task) : Text := t.arguments.flatMap (· ++ ['\x00'])

def printed (fs : List Field) : Text := joinLines '\n' (fs.map Field.line)

/-- The files in `/proc/<pid>`, and what the databases answer. -/
def files (t : Task) (db : Accounts) : ProcFiles where
  status := some (fileBuffers (printed t.statusFields))
  cmdline := some t.content
  io := t.io.map fun n => fileBuffers (printed (t.ioFields n))
  getpwuid := db.passwd
  getgrgid := db.group
  fd := t.fds.map fun n => false :: false :: List.replicate n true
  stat := some (fileBuffers (joinLines '\n' [t.stat.text]))

/-- Every line is shorter than the buffer; the loops do not end otherwise. -/
def Fits (t : Task) : Prop :=
  (∀ f ∈ t.statusFields, f.line.length < bufferSize) ∧ (∀ n ∈ t.io, ∀ f ∈ t.ioFields n, f.line.length < bufferSize) ∧
    t.stat.text.length < bufferSize

/-! ## What is read -/

def tickCount (t : Task) (call : ℕ) : Sample := ⟨t.stat.utime + t.stat.stime, some call⟩

/-- The process as a parse leaves it: a name is read once, and a gid without a name takes the
place of the user. -/
def seen (t : Task) (db : Accounts) (call : ℕ) (imemory : UInt64) (ideltacpu : Interval) (p : CapProcess) : CapProcess :=
  { p with
    name := if p.name = [] then t.stat.name else p.name
    cmdline := if t.arguments = [] then p.cmdline else t.content.takeWhile fun c => !isSpace c
    user := if db.group t.gid = none then decimal t.gid.toNat else (db.passwd t.uid).getD (decimal t.uid.toNat)
    group := (db.group t.gid).getD p.group
    uid := t.uid
    gid := t.gid
    fdCnt := (t.fds.map UInt32.ofNat).getD p.fdCnt
    memory := (t.rss.map UInt64.ofNat).getD p.memory
    memPercent := percent ((t.rss.map UInt64.ofNat).getD p.memory) imemory
    ioRead := (t.io.map fun n => UInt64.ofNat n.1).getD p.ioRead
    ioWrite := (t.io.map fun n => UInt64.ofNat n.2).getD p.ioWrite
    cpu := t.tickCount call
    deltaCpu := ⟨p.cpu, t.tickCount call⟩
    cpuPercent := some ⟨⟨p.cpu, t.tickCount call⟩, ideltacpu⟩ }

end Task

/-! ## One line of `status` -/

theorem memoryFormat : format "VmRSS:          %ld kB" = ("VmRSS".toList ++ [':']).map Item.exact ++
    (List.replicate 10 .blank ++ .number true .decimal true none :: [.blank, .exact 'k', .exact 'B']) := by decide

theorem uidFormat : format "Uid: %u" =
    ("Uid".toList ++ [':']).map Item.exact ++ (List.replicate 1 .blank ++ [.number false .decimal true none]) := by decide

theorem gidFormat : format "Gid: %u" =
    ("Gid".toList ++ [':']).map Item.exact ++ (List.replicate 1 .blank ++ [.number false .decimal true none]) := by decide

namespace CapProcess

theorem readName_skip (f : Field) (h : f.key ≠ "Name".toList) (p : CapProcess) : readName f.line p = p := by
  have hnone : sscanf f.line "Name:       %s" = ⟨[], false⟩ := by
    refine sscanf_other nameFormat ?_ f h
    decide
  unfold readName
  dsimp only
  rw [hnone]
  exact if_neg fun hread => hread.2 rfl

theorem readMemory_skip (f : Field) (h : f.key ≠ "VmRSS".toList) (p : CapProcess) : readMemory f.line p = p := by
  have hnone := sscanf_other memoryFormat (by decide) f h
  unfold readMemory
  dsimp only
  rw [hnone]
  exact if_neg (by decide)

theorem readUid_skip (f : Field) (h : f.key ≠ "Uid".toList) (p : CapProcess) : readUid f.line p = p := by
  have hnone := sscanf_other uidFormat (by decide) f h
  unfold readUid
  rw [hnone]
  rfl

theorem readGid_skip (f : Field) (h : f.key ≠ "Gid".toList) (p : CapProcess) : readGid f.line p = p := by
  have hnone := sscanf_other gidFormat (by decide) f h
  unfold readGid
  rw [hnone]
  rfl

theorem parseStatusLine_skip (f : Field) (h : f.key ∉ ["Name".toList, "Uid".toList, "Gid".toList, "VmRSS".toList])
    (p : CapProcess) : parseStatusLine p f.line = p := by
  simp only [List.mem_cons, List.not_mem_nil, or_false, not_or] at h
  unfold parseStatusLine
  rw [if_neg f.cString_line_ne_nil, readName_skip f h.1, readMemory_skip f h.2.2.2, readUid_skip f h.2.1,
    readGid_skip f h.2.2.1]

theorem parseStatusLine_nameField (t : Task) (p : CapProcess) :
    parseStatusLine p t.nameField.line = { p with name := if p.name = [] then t.stat.name else p.name } := by
  have hline : t.nameField.line = "Name:\t".toList ++ t.stat.name := rfl
  have hread : readName t.nameField.line p = { p with name := if p.name = [] then t.stat.name else p.name } := by
    by_cases hp : p.name = []
    · have hname := readName_name t.stat.name p hp t.stat.name_line.2 t.word
      have hframe : readName t.nameField.line p = { p with name := (readName t.nameField.line p).name } := by
        unfold readName
        dsimp only
        split <;> rfl
      rw [hframe, hline, hname, if_pos hp]
    · rw [readName_of_named _ p hp, if_neg hp]
  unfold parseStatusLine
  rw [if_neg t.nameField.cString_line_ne_nil, hread, readMemory_skip _ (by decide : "Name".toList ≠ "VmRSS".toList),
    readUid_skip _ (by decide : "Name".toList ≠ "Uid".toList), readGid_skip _ (by decide : "Name".toList ≠ "Gid".toList)]

theorem ends_tabbed (ids : List UInt32) : Ends .decimal (ids.flatMap fun id => '\t' :: decimal id.toNat) := by
  cases ids with
  | nil => exact ends_nil .decimal
  | cons id ids => exact ends_cons (by decide) _

theorem number_idField {fmt : String} {key : Text}
    (hformat : format fmt = (key ++ [':']).map Item.exact ++ (List.replicate 1 .blank ++ [.number false .decimal true none]))
    (hkey : ':' ∉ key ∧ OneLine key) (id : UInt32) (ids : List UInt32) :
    (sscanf (idField key hkey id ids).line fmt).number 0 = some (id.toNat : ℤ) := by
  have hlt : id.toNat < 2 ^ 63 := id.toNat_lt.trans (by decide)
  obtain ⟨vs, hvs⟩ := sscanf_numeral hformat (idField key hkey id ids) rfl hlt (blank_singleton '\t' rfl) (ends_tabbed ids) rfl
  exact number_zero_of_values hvs

theorem parseStatusLine_uidField (t : Task) (p : CapProcess) :
    parseStatusLine p t.uidField.line = { p with uid := t.uid } := by
  have hread : readUid t.uidField.line p = { p with uid := t.uid } := by
    have hnumber := number_idField uidFormat (by decide) t.uid t.uids
    unfold readUid
    rw [Task.uidField, hnumber]
    dsimp only
    rw [uint32_ofInt_natCast, UInt32.ofNat_toNat]
  unfold parseStatusLine
  rw [if_neg t.uidField.cString_line_ne_nil, readName_skip _ (by decide : "Uid".toList ≠ "Name".toList),
    readMemory_skip _ (by decide : "Uid".toList ≠ "VmRSS".toList), hread,
    readGid_skip _ (by decide : "Uid".toList ≠ "Gid".toList)]

theorem parseStatusLine_gidField (t : Task) (p : CapProcess) :
    parseStatusLine p t.gidField.line = { p with gid := t.gid } := by
  have hread : readGid t.gidField.line p = { p with gid := t.gid } := by
    have hnumber := number_idField gidFormat (by decide) t.gid t.gids
    unfold readGid
    rw [Task.gidField, hnumber]
    dsimp only
    rw [uint32_ofInt_natCast, UInt32.ofNat_toNat]
  unfold parseStatusLine
  rw [if_neg t.gidField.cString_line_ne_nil, readName_skip _ (by decide : "Gid".toList ≠ "Name".toList),
    readMemory_skip _ (by decide : "Gid".toList ≠ "VmRSS".toList),
    readUid_skip _ (by decide : "Gid".toList ≠ "Uid".toList), hread]

theorem blank_padding {sp : Text} (hsp : ∀ c ∈ sp, isSpace c = true) (w : ℕ) :
    ∀ c ∈ sp ++ List.replicate w ' ', isSpace c = true :=
  List.forall_mem_append.mpr ⟨hsp, fun c hc => by rw [List.eq_of_mem_replicate hc]; rfl⟩

theorem parseStatusLine_rssField (n : ℕ) (hn : n < 2 ^ 63) (p : CapProcess) :
    parseStatusLine p (Task.rssField n).line = { p with memory := UInt64.ofNat n } := by
  obtain ⟨vs, hvs⟩ := sscanf_numeral memoryFormat (Task.rssField n) rfl hn
    (blank_padding (blank_singleton '\t' rfl) _) (ends_cons (by decide) _) rfl
  have hread : readMemory (Task.rssField n).line p = { p with memory := UInt64.ofNat n } := by
    unfold readMemory
    dsimp only
    rw [if_pos (ret_of_values hvs).2, number_zero_of_values hvs, Option.getD_some, uint64_ofInt_natCast]
  unfold parseStatusLine
  rw [if_neg (Task.rssField n).cString_line_ne_nil, readName_skip _ (by decide : "VmRSS".toList ≠ "Name".toList), hread,
    readUid_skip _ (by decide : "VmRSS".toList ≠ "Uid".toList),
    readGid_skip _ (by decide : "VmRSS".toList ≠ "Gid".toList)]

/-! ## The files -/

theorem fileBuffers_printed (fs : List Field) (hfit : ∀ f ∈ fs, f.line.length < bufferSize) :
    fileBuffers (Task.printed fs) = fs.map Field.line ++ [[]] := by
  refine fileBuffers_joinLines (fs.map Field.line) (fun l hl => ?_) fun l hl => ?_
  · obtain ⟨f, -, rfl⟩ := List.mem_map.mp hl
    exact f.newline_not_mem_line
  · obtain ⟨f, hf, rfl⟩ := List.mem_map.mp hl
    exact hfit f hf

theorem parseStatus_task (t : Task) (db : Accounts) (hfit : t.Fits) (p : CapProcess) :
    parseStatus (t.files db) p =
      (0, { p with
        name := if p.name = [] then t.stat.name else p.name, uid := t.uid, gid := t.gid
        memory := (t.rss.map UInt64.ofNat).getD p.memory }) := by
  have hskip : ∀ (fs : List Field), (∀ f ∈ fs, f ∈ t.head ++ t.body ++ t.tail) → ∀ q : CapProcess,
      (fs.map Field.line).foldl parseStatusLine q = q := fun fs hfs =>
    foldl_skip parseStatusLine fs fun f hf => parseStatusLine_skip f (t.others f (hfs f hf))
  have hrss : ∀ q : CapProcess, ((t.rss.toList.map Task.rssField).map Field.line).foldl parseStatusLine q =
      { q with memory := (t.rss.map UInt64.ofNat).getD q.memory } := by
    intro q
    cases hn : t.rss with
    | none => rfl
    | some n =>
      rw [Option.toList_some, List.map_cons, List.map_nil, List.map_cons, List.map_nil, List.foldl_cons, List.foldl_nil,
        parseStatusLine_rssField n (t.sizes.1 n hn), Option.map_some, Option.getD_some]
  have hfiles : (t.files db).status = some (t.statusFields.map Field.line ++ [[]]) :=
    congrArg some (fileBuffers_printed t.statusFields hfit.1)
  unfold parseStatus
  rw [hfiles]
  dsimp only
  rw [List.foldl_append, List.foldl_cons, List.foldl_nil, parseStatusLine_nil, Task.statusFields, List.map_cons,
    List.foldl_cons, parseStatusLine_nameField, List.map_append, List.foldl_append,
    hskip t.head fun f hf => List.mem_append_left _ (List.mem_append_left _ hf), List.map_cons, List.foldl_cons,
    parseStatusLine_uidField, List.map_cons, List.foldl_cons, parseStatusLine_gidField, List.map_append,
    List.foldl_append, hskip t.body fun f hf => List.mem_append_left _ (List.mem_append_right _ hf), List.map_append,
    List.foldl_append, hrss, hskip t.tail fun f hf => List.mem_append_right _ hf]

theorem parseCmdline_task (t : Task) (db : Accounts) (p : CapProcess) :
    parseCmdline (t.files db) p =
      (0, { p with cmdline := if t.arguments = [] then p.cmdline else t.content.takeWhile fun c => !isSpace c }) := by
  show (0, readCmdline t.content p) = _
  unfold readCmdline
  cases hargs : t.arguments with
  | nil =>
    have hcontent : t.content = [] := by rw [Task.content, hargs]; rfl
    rw [hcontent]
    rfl
  | cons a args =>
    obtain ⟨hne, hword⟩ := t.command a (by rw [hargs]; rfl)
    obtain ⟨c, a', rfl⟩ := List.exists_cons_of_ne_nil hne
    have hcontent : t.content = c :: (a' ++ '\x00' :: args.flatMap (· ++ ['\x00'])) := by
      rw [Task.content, hargs, List.flatMap_cons, List.append_assoc]
      rfl
    have hdrop : t.content.dropWhile isSpace = t.content := by
      rw [hcontent]
      exact List.dropWhile_cons_of_neg (by simp [(hword c List.mem_cons_self).1])
    rw [hdrop, if_neg (by rw [hcontent]; exact List.cons_ne_nil _ _), if_neg (List.cons_ne_nil _ _)]

theorem rcharFormat : format "rchar: %ld" =
    ("rchar".toList ++ [':']).map Item.exact ++ (List.replicate 1 .blank ++ [.number true .decimal true none]) := by decide

theorem wcharFormat : format "wchar: %ld" =
    ("wchar".toList ++ [':']).map Item.exact ++ (List.replicate 1 .blank ++ [.number true .decimal true none]) := by decide

theorem readRchar_skip (f : Field) (h : f.key ≠ "rchar".toList) (p : CapProcess) : readRchar f.line p = p := by
  have hnone := sscanf_other rcharFormat (by decide) f h
  unfold readRchar
  dsimp only
  rw [hnone]
  exact if_neg (not_not_intro rfl)

theorem readWchar_skip (f : Field) (h : f.key ≠ "wchar".toList) (p : CapProcess) : readWchar f.line p = p := by
  have hnone := sscanf_other wcharFormat (by decide) f h
  unfold readWchar
  dsimp only
  rw [hnone]
  exact if_neg (not_not_intro rfl)

theorem parseIoLine_skip (f : Field) (h : f.key ∉ ["rchar".toList, "wchar".toList]) (p : CapProcess) :
    parseIoLine p f.line = p := by
  simp only [List.mem_cons, List.not_mem_nil, or_false, not_or] at h
  unfold parseIoLine
  rw [if_neg f.cString_line_ne_nil, readRchar_skip f h.1, readWchar_skip f h.2]

theorem parseIoLine_rcharField (n : ℕ) (hn : n < 2 ^ 63) (p : CapProcess) :
    parseIoLine p (Task.rcharField n).line = { p with ioRead := UInt64.ofNat n } := by
  obtain ⟨vs, hvs⟩ := sscanf_numeral rcharFormat (Task.rcharField n) rfl hn (blank_singleton ' ' rfl) (ends_nil .decimal) rfl
  have hread : readRchar (Task.rcharField n).line p = { p with ioRead := UInt64.ofNat n } := by
    unfold readRchar
    dsimp only
    rw [if_pos (ret_of_values hvs).1, number_zero_of_values hvs, Option.getD_some, uint64_ofInt_natCast]
  unfold parseIoLine
  rw [if_neg (Task.rcharField n).cString_line_ne_nil, hread,
    readWchar_skip _ (by decide : "rchar".toList ≠ "wchar".toList)]

theorem parseIoLine_wcharField (n : ℕ) (hn : n < 2 ^ 63) (p : CapProcess) :
    parseIoLine p (Task.wcharField n).line = { p with ioWrite := UInt64.ofNat n } := by
  obtain ⟨vs, hvs⟩ := sscanf_numeral wcharFormat (Task.wcharField n) rfl hn (blank_singleton ' ' rfl) (ends_nil .decimal) rfl
  have hread : readWchar (Task.wcharField n).line p = { p with ioWrite := UInt64.ofNat n } := by
    unfold readWchar
    dsimp only
    rw [if_pos (ret_of_values hvs).1, number_zero_of_values hvs, Option.getD_some, uint64_ofInt_natCast]
  unfold parseIoLine
  rw [if_neg (Task.wcharField n).cString_line_ne_nil, readRchar_skip _ (by decide : "wchar".toList ≠ "rchar".toList),
    hread]

theorem parseIo_task (t : Task) (db : Accounts) (hfit : t.Fits) (p : CapProcess) :
    (parseIo (t.files db) p).2 =
      { p with
        ioRead := (t.io.map fun n => UInt64.ofNat n.1).getD p.ioRead
        ioWrite := (t.io.map fun n => UInt64.ofNat n.2).getD p.ioWrite } := by
  cases hio : t.io with
  | none =>
    have hfiles : (t.files db).io = none := by rw [Task.files, hio]; rfl
    unfold parseIo
    rw [hfiles]
    rfl
  | some n =>
    have hfiles : (t.files db).io = some ((t.ioFields n).map Field.line ++ [[]]) := by
      rw [Task.files, hio]
      exact congrArg some (fileBuffers_printed (t.ioFields n) (hfit.2.1 n hio))
    obtain ⟨hread, hwrite⟩ := t.sizes.2 n hio
    unfold parseIo
    rw [hfiles]
    dsimp only
    rw [List.foldl_append, List.foldl_cons, List.foldl_nil, parseIoLine_nil, Task.ioFields, List.map_cons,
      List.foldl_cons, parseIoLine_rcharField n.1 hread, List.map_cons, List.foldl_cons,
      parseIoLine_wcharField n.2 hwrite, foldl_skip parseIoLine _ fun f hf => parseIoLine_skip f (t.others_io f hf)]
    rfl

theorem parseHandle_task (t : Task) (db : Accounts) (p : CapProcess) :
    (parseHandle (t.files db) p).2 = { p with fdCnt := (t.fds.map UInt32.ofNat).getD p.fdCnt } := by
  cases hfds : t.fds with
  | none =>
    have hfiles : (t.files db).fd = none := by rw [Task.files, hfds]; rfl
    unfold parseHandle
    rw [hfiles]
    rfl
  | some n =>
    have hfiles : (t.files db).fd = some (false :: false :: List.replicate n true) := by rw [Task.files, hfds]; rfl
    unfold parseHandle
    rw [hfiles]
    simp

theorem parseUserAndGroup_task (t : Task) (db : Accounts) (p : CapProcess) :
    (parseUserAndGroup (t.files db) p).2 =
      { p with
        user := if db.group p.gid = none then decimal p.gid.toNat else (db.passwd p.uid).getD (decimal p.uid.toNat)
        group := (db.group p.gid).getD p.group } := by
  have huser : setUser (t.files db) p = { p with user := (db.passwd p.uid).getD (decimal p.uid.toNat) } := by
    have hasked : (t.files db).getpwuid p.uid = db.passwd p.uid := rfl
    unfold setUser
    rw [hasked]
    cases db.passwd p.uid <;> rfl
  show setGroup (t.files db) (setUser (t.files db) p) = _
  have hasked : (t.files db).getgrgid p.gid = db.group p.gid := rfl
  rw [huser]
  unfold setGroup
  rw [hasked]
  cases db.group p.gid <;> rfl

theorem ticksRead_task (t : Task) (db : Accounts) (hfit : t.Fits) :
    ticksRead (t.files db) = some [t.stat.utime + t.stat.stime] := by
  have hbuffers : fileBuffers (joinLines '\n' [t.stat.text]) = [t.stat.text, []] :=
    fileBuffers_joinLines [t.stat.text] (List.forall_mem_singleton.mpr t.stat.newline_not_mem_text)
      (List.forall_mem_singleton.mpr hfit.2.2)
  have hticks : statTicks t.stat.text = some (t.stat.utime + t.stat.stime) := by
    rw [t.stat.statTicks_of_no_space t.word, (StatLine.clamped_sum_iff _ _).mpr (Or.inl t.ticks)]
  show some ((fileBuffers (joinLines '\n' [t.stat.text])).filterMap statTicks) = _
  rw [hbuffers, List.filterMap_cons_some hticks, List.filterMap_cons_none statTicks_nil, List.filterMap_nil]

/-- Whatever the process was before, a parse of the files the kernel prints of a task leaves
it with what was printed: in `status` and `io` the lines of the five fields are found among all
other lines, `stat` yields the ticks, and a file that is closed leaves its fields as they were. -/
theorem parse_files (t : Task) (db : Accounts) (hfit : t.Fits) (call : ℕ) (imemory : UInt64) (ideltacpu : Interval)
    (p : CapProcess) (hpid : p.pid ≠ -1) :
    parse call (t.files db) imemory ideltacpu p = t.seen db call imemory ideltacpu p := by
  rw [parse_of_ticksRead_some call (t.files db) imemory ideltacpu p _ hpid (ticksRead_task t db hfit)]
  simp only [beforeStat, parseRest, parseStatus_task t db hfit, parseCmdline_task, parseIo_task t db hfit,
    parseUserAndGroup_task, parseHandle_task]
  rfl

end CapProcess

/-! ### A shell -/

def shellStat : StatLine :=
  { pid := 1, name := "sh".toList, name_line := by decide, state := 'R', state_letter := by decide, ppid := 0, pgrp := 1,
    session := 1, ttyNr := 0, tpgid := -1, flags := 0, minflt := 0, cminflt := 0, majflt := 0, cmajflt := 0, utime := 5,
    stime := 7, rest := [] }

def maskField : Field := ⟨"Umask".toList, "\t0022".toList, by decide, by decide⟩

/-- `sh -c ls`, run by user 1000. -/
def shellTask : Task where
  stat := shellStat
  word := by
    intro c hc
    rcases List.mem_pair.mp (show c ∈ ['s', 'h'] from hc) with rfl | rfl <;> rfl
  ticks := by decide
  uid := 1000
  uids := [1000, 1000, 1000]
  gid := 100
  gids := [100, 100, 100]
  rss := some 1234
  arguments := ["sh".toList, "-c".toList, "ls".toList]
  command := by
    intro a ha
    cases ha
    refine ⟨by decide, fun c hc => ?_⟩
    rcases List.mem_pair.mp (show c ∈ ['s', 'h'] from hc) with rfl | rfl <;> decide
  io := some (10, 20)
  fds := some 3
  sizes := by
    constructor
    · intro n hn
      cases hn
      decide
    · intro n hn
      cases hn
      decide
  head := [maskField]
  body := []
  tail := []
  others := by decide
  counts := []
  others_io := by decide

theorem shellTask_fits : shellTask.Fits := by
  refine ⟨by decide +kernel, fun n hn => ?_, by decide +kernel⟩
  cases hn
  decide +kernel

def noAccounts : Accounts := ⟨fun _ => none, fun _ => none⟩

namespace CapProcess

theorem parse_files_shell :
    parse 2 (shellTask.files noAccounts) 8000000 Interval.initial { pid := 1 } =
      shellTask.seen noAccounts 2 8000000 Interval.initial { pid := 1 } :=
  parse_files shellTask noAccounts shellTask_fits 2 8000000 Interval.initial { pid := 1 } (by decide)

end CapProcess
end Capture
