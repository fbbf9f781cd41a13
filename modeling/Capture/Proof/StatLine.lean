import Capture.Foundations.ScanReading
import Capture.Proof.ReaderTermination

/-! # Which names `ParseStat` reads past

The scan of `/proc/<pid>/stat` takes the command name for one word between white space. A
name without white space is passed over; with white space in it the name takes the place of
the state as well, and what it spells from its third word on is read as the counters. -/
namespace Capture
open SeparatedText FormattedScan LineStream

set_option autoImplicit false

/-! ## The line -/

/-- A line of `/proc/<pid>/stat`, `rest` being the fields after `stime`. -/
structure StatLine where
  pid : ℕ
  name : Text
  name_line : '\n' ∉ name ∧ '\x00' ∉ name
  state : Char
  state_letter : state.isAlpha = true
  ppid : ℤ
  pgrp : ℤ
  session : ℤ
  ttyNr : ℤ
  tpgid : ℤ
  flags : ℕ
  minflt : ℕ
  cminflt : ℕ
  majflt : ℕ
  cmajflt : ℕ
  utime : UInt64
  stime : UInt64
  rest : List ℤ

namespace StatLine

/-- The ten fields between the state and `utime`. -/
def counters (l : StatLine) : List ℤ :=
  [l.ppid, l.pgrp, l.session, l.ttyNr, l.tpgid, l.flags, l.minflt, l.cminflt, l.majflt, l.cmajflt]

/-- What follows the name. -/
def afterName (l : StatLine) : Text :=
  ' ' :: l.state :: (spelled l.counters ++ (spelled [(l.utime.toNat : ℤ), l.stime.toNat] ++ spelled l.rest))

/-- `%d (%s) %c %d %d %d %d %d %u %lu %lu %lu %lu %lu %lu` and more. -/
def text (l : StatLine) : Text := decimalInt l.pid ++ ' ' :: '(' :: (l.name ++ ')' :: l.afterName)

end StatLine

/-- The directives of the scan. -/
def statItems : List Item :=
  .number true .decimal false none :: .blank :: .word false none :: .blank :: .word false none ::
    (numberItems false 10 ++ (numberItems true 2 ++ numberItems false 24))

theorem statFormat :
    format ("%*d %*s %*s %*d %*d %*d %*d %*d %*d %*d %*d %*d %*d " ++ "%ld %ld %*d %*d %*d %*d %*d %*d %*d %*d %*d " ++
      "%*d %*d %*d %*d %*d %*d %*d %*d %*d %*d %*d %*d %*d %*d %*d") = statItems := by decide +kernel

/-! ## The numbers read -/

theorem holds_iff (r : Result) (h : r.values = [] → r.ended = false) : r.holds = true ↔ r.values ≠ [] := by
  unfold Result.holds Result.ret
  rw [decide_eq_true_iff]
  split
  · next hnone => simp [h hnone.2] at hnone
  · simp

theorem number_of_values {r : Result} {vs : List ℤ} (h : r.values = vs.map Value.number) (i : ℕ) :
    r.number i = vs[i]? := by
  rw [Result.number, h, List.getElem?_map]
  cases vs[i]? <;> rfl

/-- The scan of a line that is not empty, by the numbers it assigns. -/
theorem statTicks_of_scan {t : Text} {vs : List ℤ} (hclean : cString t = t) (hne : t ≠ [])
    (hvalues : (scan statItems t).values = vs.map Value.number) (hended : vs = [] → (scan statItems t).ended = false) :
    CapProcess.statTicks t = vs[0]?.map fun n => UInt64.ofInt n + UInt64.ofInt (vs[1]?.getD 0) := by
  have hnone : (scan statItems t).values = [] ↔ vs = [] := by rw [hvalues, List.map_eq_nil_iff]
  have hholds := holds_iff (scan statItems t) fun h => hended (hnone.mp h)
  unfold CapProcess.statTicks
  dsimp only
  rw [sscanf, hclean, statFormat, number_of_values hvalues, number_of_values hvalues]
  cases vs with
  | nil => exact if_neg fun h => hholds.mp h.2 (hnone.mpr rfl)
  | cons n vs =>
    rw [if_pos ⟨hne, hholds.mpr (by simp [hnone])⟩]
    rfl

namespace StatLine

theorem not_mem_text (l : StatLine) {c : Char} (hname : c ∉ l.name) (hdigit : c.isDigit = false)
    (halpha : c.isAlpha = false) (hminus : c ≠ '-') (hspace : c ≠ ' ') (hopen : c ≠ '(') (hclose : c ≠ ')') :
    c ∉ l.text := by
  have hint : ∀ z, c ∉ decimalInt z := not_mem_decimalInt hdigit hminus
  have hspelled : ∀ zs, c ∉ spelled zs := fun zs => by simp [spelled, hspace, hint]
  have hstate : c ≠ l.state := by
    rintro rfl
    exact absurd l.state_letter (by simp [halpha])
  simp [text, afterName, hname, hint, hspelled, hstate, hspace, hopen, hclose]

theorem cString_text (l : StatLine) : cString l.text = l.text :=
  cString_eq_self (l.not_mem_text l.name_line.2 rfl rfl (by decide) (by decide) (by decide) (by decide))

theorem newline_not_mem_text (l : StatLine) : '\n' ∉ l.text :=
  l.not_mem_text l.name_line.1 rfl rfl (by decide) (by decide) (by decide) (by decide)

theorem text_ne_nil (l : StatLine) : l.text ≠ [] := by simp [text]

theorem letter_stops {c : Char} (h : c.isAlpha = true) : Stops c := by
  refine ⟨not_isSpace (p := Char.isAlpha) rfl h, ?_, ?_, ?_⟩
  · by_contra hd
    have hdigit : c.isDigit = true := by simpa using hd
    have hmax : c.val.toNat ≤ 57 := UInt32.le_iff_toNat_le.mp (of_decide_eq_true (Bool.and_eq_true_iff.mp hdigit).2)
    have hcase : (c.isUpper || c.isLower) = true := h
    have hmin : 65 ≤ c.val.toNat := by
      cases Bool.or_eq_true_iff.mp hcase with
      | inl hupper => exact UInt32.le_iff_toNat_le.mp (of_decide_eq_true hupper).1
      | inr hlower =>
        have hlow : 97 ≤ c.val.toNat :=
          UInt32.le_iff_toNat_le.mp (of_decide_eq_true (Bool.and_eq_true_iff.mp hlower).1)
        omega
    omega
  · rintro rfl
    cases h
  · rintro rfl
    cases h

/-- What the scan is left with after the pid. -/
theorem scan_text (l : StatLine) :
    scan statItems l.text =
      scan (.blank :: .word false none :: (numberItems false 10 ++ (numberItems true 2 ++ numberItems false 24)))
        ((l.name ++ ')' :: l.afterName).dropWhile fun c => !isSpace c) := by
  have hpid : scanNumber true .decimal none ([] ++ (decimalInt l.pid ++ ' ' :: '(' :: (l.name ++ ')' :: l.afterName))) =
      .value (.number (clamped l.pid)) (' ' :: '(' :: (l.name ++ ')' :: l.afterName)) :=
    scanNumber_decimalInt (by simp) l.pid (ends_cons (by decide) _)
  have hword : (' ' :: '(' :: (l.name ++ ')' :: l.afterName)).dropWhile isSpace =
      '(' :: (l.name ++ ')' :: l.afterName) := rfl
  rw [statItems, text]
  refine (scan_skip_number hpid _).trans ?_
  rw [scan_skip_words (by simp [hword]), hword, List.dropWhile_cons_of_pos (by decide)]

theorem dropWhile_afterName (l : StatLine) :
    (')' :: l.afterName).dropWhile (fun c => !isSpace c) = l.afterName := by
  rw [List.dropWhile_cons_of_pos (by decide), afterName, List.dropWhile_cons_of_neg (by decide)]

/-- The state is passed over like a word. -/
theorem scan_afterName (l : StatLine) (items : List Item) :
    scan (.blank :: .word false none :: items) l.afterName =
      scan items (spelled l.counters ++ (spelled [(l.utime.toNat : ℤ), l.stime.toNat] ++ spelled l.rest)) := by
  have hstate := (letter_stops l.state_letter).1
  have hword : l.afterName.dropWhile isSpace =
      l.state :: (spelled l.counters ++ (spelled [(l.utime.toNat : ℤ), l.stime.toNat] ++ spelled l.rest)) := by
    rw [afterName, List.dropWhile_cons_of_pos (by decide), List.dropWhile_cons_of_neg (by simp [hstate])]
  rw [scan_skip_words (by simp [hword]), hword, List.dropWhile_cons_of_pos (by simp [hstate])]
  rfl

theorem silent_numberItems (n : ℕ) : ∀ i ∈ numberItems false n, i.silent := by
  induction n with
  | zero => simp [numberItems]
  | succ n ih => exact List.forall_mem_cons.mpr ⟨trivial, List.forall_mem_cons.mpr ⟨rfl, ih⟩⟩

/-- A name without white space is passed over, and the ticks are those of the line, except that
`%ld` saturates. -/
theorem statTicks_of_no_space (l : StatLine) (h : ∀ c ∈ l.name, isSpace c = false) :
    CapProcess.statTicks l.text =
      some (UInt64.ofInt (clamped l.utime.toNat) + UInt64.ofInt (clamped l.stime.toNat)) := by
  have hname : (l.name ++ ')' :: l.afterName).dropWhile (fun c => !isSpace c) = l.afterName := by
    rw [List.dropWhile_append_of_pos (fun c hc => by simp [h c hc]), dropWhile_afterName]
  have hend := ends_spelled l.rest
  have hvalues : (scan statItems l.text).values =
      [clamped l.utime.toNat, clamped l.stime.toNat].map Value.number := by
    rw [scan_text, hname, scan_afterName]
    have hskip := scan_skip_spelled l.counters (ends_spelled_append [(l.utime.toNat : ℤ), l.stime.toNat] hend)
      (numberItems true 2 ++ numberItems false 24)
    have hkeep := scan_keep_spelled [(l.utime.toNat : ℤ), l.stime.toNat] hend (numberItems false 24)
    rw [scan_silent _ (silent_numberItems 24)] at hkeep
    exact (congrArg Result.values hskip).trans hkeep
  rw [statTicks_of_scan l.cString_text l.text_ne_nil hvalues (by simp)]
  rfl

/-- What `(name` spells from its third word on. -/
def thirdWordOn (l : StatLine) : Text :=
  ((l.name.dropWhile fun c => !isSpace c).dropWhile isSpace).dropWhile fun c => !isSpace c

/-- A name with white space: the closing parenthesis or the state ends the numbers it spells. -/
theorem statTicks_of_space (l : StatLine) (h : ∃ c ∈ l.name, isSpace c = true) :
    CapProcess.statTicks l.text = (numbers 12 l.thirdWordOn)[10]?.map fun n =>
      UInt64.ofInt n + UInt64.ofInt ((numbers 12 l.thirdWordOn)[11]?.getD 0) := by
  have hread : ∀ c more, Stops c →
      ReadsUpTo c more (numberItems false 10 ++ (numberItems true 2 ++ numberItems false 24))
        fun t => (numbers 12 t).drop 10 := fun c more hc =>
    readsUpTo_skip hc 10 (readsUpTo_keep hc more _ (silent_numberItems 24) 1)
  -- the name with its first word dropped
  have hfirst : (l.name ++ ')' :: l.afterName).dropWhile (fun c => !isSpace c) =
      l.name.dropWhile (fun c => !isSpace c) ++ ')' :: l.afterName := by
    obtain ⟨c, hc, hspace⟩ := h
    rw [List.dropWhile_append, if_neg]
    rw [List.isEmpty_iff, List.dropWhile_eq_nil_iff]
    exact fun hall => by simpa [hspace] using hall c hc
  have hscan : scan statItems l.text =
      scan (numberItems false 10 ++ (numberItems true 2 ++ numberItems false 24))
        (((l.name.dropWhile fun c => !isSpace c).dropWhile isSpace ++ ')' :: l.afterName).dropWhile fun c =>
          !isSpace c) := by
    have hsecond := dropWhile_isSpace_append (l.name.dropWhile fun c => !isSpace c) (c := ')') rfl l.afterName
    rw [scan_text, hfirst, scan_skip_words (by simp [hsecond]), hsecond]
  have hnumbers : (scan statItems l.text).values = ((numbers 12 l.thirdWordOn).drop 10).map Value.number ∧
      ((numbers 12 l.thirdWordOn).drop 10 = [] → (scan statItems l.text).ended = false) := by
    rw [hscan, List.dropWhile_append]
    split
    · next hnil =>
      have htail : l.thirdWordOn = [] := List.isEmpty_iff.mp hnil
      rw [dropWhile_afterName, htail]
      exact hread l.state _ (letter_stops l.state_letter) [' ']
    · exact hread ')' l.afterName (by decide) l.thirdWordOn
  rw [statTicks_of_scan l.cString_text l.text_ne_nil hnumbers.1 hnumbers.2, List.getElem?_drop, List.getElem?_drop]

/-! ## What `ParseStat` does with the line -/

/-- For every previous reading, the loop over a file of this line ends with `cpu` at
`utime + stime` and `deltaCpu` at the difference with the previous `cpu`. -/
def TicksRead (l : StatLine) : Prop :=
  ∀ (call : ℕ) (p : CapProcess), ∃ p', (∃ fuel, CapProcess.parseStatLoop call fuel
      (some (opened (joinLines '\n' [l.text]) .eof)) p = some (0, p')) ∧
    p'.cpu.ticks = l.utime + l.stime ∧ p'.deltaCpu.ticks = l.utime + l.stime - p.cpu.ticks

/-- The line fits the buffer; the counts are below `2^63`, or both at the top of their type,
if the name has no white space; and the name happens to spell them if it has. -/
def TicksKept (l : StatLine) : Prop :=
  l.text.length < bufferSize ∧
    (((∀ c ∈ l.name, isSpace c = false) ∧ (l.utime.toNat < 2 ^ 63 ∧ l.stime.toNat < 2 ^ 63 ∨
      l.utime.toNat = 2 ^ 64 - 1 ∧ l.stime.toNat = 2 ^ 64 - 1)) ∨
    (∃ c ∈ l.name, isSpace c = true) ∧ ∃ n, (numbers 12 l.thirdWordOn)[10]? = some n ∧
      UInt64.ofInt n + UInt64.ofInt ((numbers 12 l.thirdWordOn)[11]?.getD 0) = l.utime + l.stime)

theorem parseStatLoop_iff (l : StatLine) (call : ℕ) (p p' : CapProcess) :
    (∃ fuel, CapProcess.parseStatLoop call fuel (some (opened (joinLines '\n' [l.text]) .eof)) p = some (0, p')) ↔
      l.text.length < bufferSize ∧ p' = (CapProcess.statTicks l.text).elim p (p.advance call) := by
  have hline : ∀ t ∈ [l.text], '\n' ∉ t := List.forall_mem_singleton.mpr l.newline_not_mem_text
  have hblank : ∀ p : CapProcess, (CapProcess.statTicks []).elim p (p.advance call) = p := fun p => by
    rw [statTicks_nil]
    rfl
  refine (readLoop_lines_iff (fun p t => (CapProcess.statTicks t).elim p (p.advance call)) hblank [l.text] hline p
    (0, p')).trans ?_
  rw [List.forall_mem_singleton]
  simp

theorem ticksRead_iff (l : StatLine) :
    l.TicksRead ↔ l.text.length < bufferSize ∧ CapProcess.statTicks l.text = some (l.utime + l.stime) := by
  unfold TicksRead
  simp only [parseStatLoop_iff]
  constructor
  · intro h
    -- a previous reading that is not the one of the line
    obtain ⟨p', ⟨hfit, hp'⟩, hcpu, -⟩ := h 0 { pid := 1, cpu := ⟨l.utime + l.stime + 1, none⟩ }
    refine ⟨hfit, ?_⟩
    cases hticks : CapProcess.statTicks l.text with
    | none =>
      rw [hticks] at hp'
      subst hp'
      have hsame : l.utime + l.stime + 1 = l.utime + l.stime := hcpu
      exact absurd hsame (by simp)
    | some now =>
      rw [hticks] at hp'
      rw [← hcpu, hp']
      rfl
  · rintro ⟨hfit, hticks⟩ call p
    exact ⟨_, ⟨hfit, rfl⟩, by rw [hticks]; rfl, by rw [hticks]; rfl⟩

theorem clamped_sum_iff (u s : UInt64) :
    UInt64.ofInt (clamped u.toNat) + UInt64.ofInt (clamped s.toNat) = u + s ↔
      u.toNat < 2 ^ 63 ∧ s.toNat < 2 ^ 63 ∨ u.toNat = 2 ^ 64 - 1 ∧ s.toNat = 2 ^ 64 - 1 := by
  have hu := u.toNat_lt
  have hs := s.toNat_lt
  have hclamped : ∀ n : ℕ, n < 2 ^ 64 → (UInt64.ofInt (clamped n)).toNat = min n (2 ^ 63 - 1) := by
    intro n hn
    have hmod : (clamped n % 2 ^ 64).toNat = min n (2 ^ 63 - 1) := by
      unfold clamped
      omega
    rw [UInt64.ofInt, hmod, UInt64.toNat_ofNat']
    omega
  rw [← UInt64.toNat_inj, UInt64.toNat_add, UInt64.toNat_add, hclamped _ hu, hclamped _ hs]
  omega

/-- For every line of the kernel's format: the ticks are read exactly when they are kept. -/
theorem ticks_read_iff_kept (l : StatLine) : l.TicksRead ↔ l.TicksKept := by
  rw [ticksRead_iff, TicksKept]
  refine and_congr_right fun _ => ?_
  by_cases h : ∃ c ∈ l.name, isSpace c = true
  · have hspaced : ¬ ∀ c ∈ l.name, isSpace c = false := by
      obtain ⟨c, hc, hspace⟩ := h
      exact fun hall => by simpa [hspace] using hall c hc
    rw [statTicks_of_space l h, Option.map_eq_some_iff]
    simp [h, hspaced]
  · have hplain : ∀ c ∈ l.name, isSpace c = false := by simpa using h
    rw [statTicks_of_no_space l hplain, Option.some_inj, clamped_sum_iff]
    exact ⟨fun hcounts => .inl ⟨hplain, hcounts⟩, fun hkept => (hkept.resolve_right fun hspaced => h hspaced.1).2⟩

/-- `1 (tmux: server) S`, with the counts 5 and 7. -/
def twoWords : StatLine :=
  { pid := 1, name := "tmux: server".toList, name_line := by decide, state := 'S', state_letter := by decide,
    ppid := 0, pgrp := 1, session := 1, ttyNr := 0, tpgid := -1, flags := 0, minflt := 0, cminflt := 0, majflt := 0,
    cmajflt := 0, utime := 5, stime := 7, rest := [] }

/-- Every counter is scanned one word too early, the state does not match, and nothing is
stored. -/
theorem two_word_name_not_read : ¬ twoWords.TicksRead := by
  rw [ticksRead_iff]
  rintro ⟨-, hticks⟩
  have hnone : CapProcess.statTicks twoWords.text = none := by decide +kernel
  rw [hnone] at hticks
  cases hticks

end StatLine

end Capture
