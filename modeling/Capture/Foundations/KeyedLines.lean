import Capture.Foundations.ScanReading

/-! # Lines with a key

Lines `key:value`, as several files print them. A format that begins with a key and a colon
reads the line of that key, and neither matches nor runs out of any other line. So a reader
made of such formats passes over the other fields of a file (`foldl_skip`). -/
namespace Capture.KeyedLines
open SeparatedText FormattedScan

set_option autoImplicit false

/-! ## Fields -/

abbrev OneLine (t : Text) : Prop := '\n' ∉ t ∧ '\x00' ∉ t

structure Field where
  key : Text
  value : Text
  key_plain : ':' ∉ key ∧ OneLine key
  value_line : OneLine value

def Field.line (f : Field) : Text := f.key ++ ':' :: f.value

namespace Field
variable (f : Field)

theorem newline_not_mem_line : '\n' ∉ f.line := by simp [line, f.key_plain.2.1, f.value_line.1]

theorem cString_line : cString f.line = f.line :=
  cString_eq_self (by simp [line, f.key_plain.2.2, f.value_line.2])

theorem line_ne_nil : f.line ≠ [] := by simp [line]

theorem cString_line_ne_nil : cString f.line ≠ [] := by
  rw [cString_line]
  exact f.line_ne_nil

end Field

/-! ## Formats that begin with a key -/

theorem scan_literal_stop (cs : Text) (items : List Item) (t : Text) (h : ¬ cs <+: t) (h' : ¬ t <+: cs) :
    scan (cs.map Item.exact ++ items) t = ⟨[], false⟩ := by
  induction cs generalizing t with
  | nil => exact absurd List.nil_prefix h
  | cons c cs ih =>
    cases t with
    | nil => exact absurd List.nil_prefix h'
    | cons d t =>
      rw [List.map_cons, List.cons_append, scan_exact_cons]
      split
      · next heq =>
        subst heq
        exact ih t (fun hp => h (List.cons_prefix_cons.mpr ⟨rfl, hp⟩)) fun hp => h' (List.cons_prefix_cons.mpr ⟨rfl, hp⟩)
      · rfl

section
variable {key : Text} {items : List Item} {fmt : String}

/-- Two texts with one colon, at their ends, in a line of another key: neither begins with the other. -/
theorem key_eq_of_starts (f : Field) (hkey : ':' ∉ key) (h : key ++ [':'] <+: f.line ∨ f.line <+: key ++ [':']) :
    f.key = key := by
  rcases h with ⟨rest, hrest⟩ | ⟨rest, hrest⟩
  · rw [List.append_assoc, List.singleton_append] at hrest
    exact (cut_first ':' key f.key rest f.value hkey f.key_plain.1 hrest).1.symm
  · rw [Field.line, List.append_assoc, List.cons_append] at hrest
    exact (cut_first ':' f.key key (f.value ++ rest) [] f.key_plain.1 hkey hrest).1

theorem sscanf_other (hformat : format fmt = (key ++ [':']).map Item.exact ++ items) (hkey : ':' ∉ key) (f : Field)
    (h : f.key ≠ key) : sscanf f.line fmt = ⟨[], false⟩ := by
  rw [sscanf, f.cString_line, hformat]
  exact scan_literal_stop _ items f.line (fun hp => h (key_eq_of_starts f hkey (Or.inl hp)))
    fun hp => h (key_eq_of_starts f hkey (Or.inr hp))

theorem sscanf_own (hformat : format fmt = (key ++ [':']).map Item.exact ++ items) (f : Field) (h : f.key = key) :
    sscanf f.line fmt = scan items f.value := by
  have hline : f.line = (key ++ [':']) ++ f.value := by rw [Field.line, h, List.append_assoc]; rfl
  rw [sscanf, f.cString_line, hformat, hline, scan_literal]

end

/-! ## Readers that skip every other line -/

/-- Fields a reader passes over leave what has been read as it is. -/
theorem foldl_skip {β : Type} (read : β → Text → β) (fs : List Field) (h : ∀ f ∈ fs, ∀ b, read b f.line = b) (b : β) :
    (fs.map Field.line).foldl read b = b := by
  induction fs with
  | nil => rfl
  | cons f fs ih =>
    obtain ⟨hf, hfs⟩ := List.forall_mem_cons.mp h
    rw [List.map_cons, List.foldl_cons, hf, ih hfs]

/-! ## Numerals -/

theorem not_mem_numeral {c : Char} (hc : c.isDigit = false) {sp rest : Text} (hsp : c ∉ sp) (hrest : c ∉ rest) (n : ℕ) :
    c ∉ sp ++ (decimal n ++ rest) := by
  simp [hsp, hrest, not_mem_decimal hc n]

/-- A key, and a number between blanks and a text. -/
def numberField (key : Text) (hkey : ':' ∉ key ∧ OneLine key) (sp : Text) (hsp : OneLine sp) (n : ℕ) (rest : Text)
    (hrest : OneLine rest) : Field where
  key := key
  value := sp ++ (decimal n ++ rest)
  key_plain := hkey
  value_line := ⟨not_mem_numeral rfl hsp.1 hrest.1 n, not_mem_numeral rfl hsp.2 hrest.2 n⟩

theorem scan_blanks_number (n : ℕ) (signed : Bool) (r : Radix) (assign : Bool) (width : Option ℕ) (items : List Item)
    (input : Text) :
    scan (List.replicate n .blank ++ .number signed r assign width :: items) input =
      scan (.number signed r assign width :: items) input := by
  induction n generalizing input with
  | zero => rfl
  | succ n ih => rw [List.replicate_succ, List.cons_append, scan_blank_cons, ih, ← scan_blank_cons, scan_blank_number]

/-- A numeral after blanks, of a number the conversion can hold. -/
theorem scan_numeral (signed : Bool) {n : ℕ} (hn : n < 2 ^ 63) {sp rest : Text} (hsp : ∀ c ∈ sp, isSpace c = true)
    (hend : Ends .decimal rest) (items : List Item) :
    (scan (.number signed .decimal true none :: items) (sp ++ (decimal n ++ rest))).values =
      .number n :: (scan items rest).values := by
  have hread := scanNumber_digits signed .decimal hsp (decimal_ne_nil n) (fun c hc => isDigitOf_decimal hc) hend
  have hvalue : convert signed false n = n := by
    cases signed with
    | false => exact convert_unsigned (by omega)
    | true =>
      rw [convert_nonneg, clamped]
      omega
  rw [magnitude_decimal, hvalue] at hread
  rw [scan_keep_number hread]

/-- The number that opens the value of a field, read by a format with its key. -/
theorem sscanf_numeral {fmt : String} {key : Text} {k : ℕ} {signed : Bool} {items : List Item}
    (hformat : format fmt =
      (key ++ [':']).map Item.exact ++ (List.replicate k .blank ++ .number signed .decimal true none :: items))
    (f : Field) (hkey : f.key = key) {n : ℕ} (hn : n < 2 ^ 63) {sp rest : Text} (hsp : ∀ c ∈ sp, isSpace c = true)
    (hend : Ends .decimal rest) (hvalue : f.value = sp ++ (decimal n ++ rest)) :
    ∃ vs, (sscanf f.line fmt).values = .number n :: vs := by
  rw [sscanf_own hformat f hkey, scan_blanks_number, hvalue]
  exact ⟨_, scan_numeral signed hn hsp hend items⟩

theorem ret_of_values {r : Result} {v : Value} {vs : List Value} (h : r.values = v :: vs) :
    r.ret ≠ 0 ∧ r.holds = true := by
  have hret : r.ret ≠ 0 := by
    unfold Result.ret
    rw [if_neg (by simp [h]), h, List.length_cons]
    omega
  exact ⟨hret, decide_eq_true hret⟩

theorem number_zero_of_values {r : Result} {z : ℤ} {vs : List Value} (h : r.values = .number z :: vs) :
    r.number 0 = some z := by
  rw [Result.number, h]
  rfl

end Capture.KeyedLines
