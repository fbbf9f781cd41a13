import Capture.Foundations.FormattedScan
import Mathlib.Data.List.DropRight
import Mathlib.Data.List.TakeWhile

/-! # What a scan reads off printed text

The other direction of formatted input: text that was printed with numerals, hexadecimal
words padded with zeros, and words between white space is read back directive by directive.
A conversion takes the blanks before it and the characters of its field, provided what
follows cannot belong to the field (`Ends`). -/
namespace Capture.FormattedScan
open SeparatedText

set_option autoImplicit false

/-! ## Digits -/

theorem digitValue_digitChar : ∀ d < 16, digitValue (Nat.digitChar d) = d := by decide

theorem digitValue_toUpper : ∀ d < 16, digitValue (Nat.digitChar d).toUpper = d := by decide

/-- The numeral of `%X`. -/
def hexUpper (n : ℕ) : Text := (hexadecimal n).map Char.toUpper

/-- The numeral of `%0wX`. -/
def hexPadded (w n : ℕ) : Text := (hexUpper n).leftpad w '0'

theorem hexUpper_ne_nil (n : ℕ) : hexUpper n ≠ [] := by simp [hexUpper, hexadecimal_ne_nil]

theorem mem_hexUpper {p : Char → Prop} (h : ∀ d < 16, p (Nat.digitChar d).toUpper) {n : ℕ} {c : Char}
    (hc : c ∈ hexUpper n) : p c := by
  obtain ⟨x, hx, rfl⟩ := List.mem_map.mp hc
  obtain ⟨d, hd, rfl⟩ := mem_hexadecimal hx
  exact h d hd

theorem mem_hexPadded {p : Char → Prop} (h : ∀ d < 16, p (Nat.digitChar d).toUpper) {w n : ℕ} {c : Char}
    (hc : c ∈ hexPadded w n) : p c := by
  rw [hexPadded, List.leftpad] at hc
  rcases List.mem_append.mp hc with hc | hc
  · rw [List.eq_of_mem_replicate hc]
    exact h 0 (by decide)
  · exact mem_hexUpper h hc

theorem hexPadded_ne_nil (w n : ℕ) : hexPadded w n ≠ [] := by
  rw [hexPadded, List.leftpad]
  exact List.append_ne_nil_of_right_ne_nil _ (hexUpper_ne_nil n)

theorem length_hexPadded {w n : ℕ} (hw : 0 < w) (h : n < 16 ^ w) : (hexPadded w n).length = w := by
  rw [hexPadded, List.length_leftpad, hexUpper, List.length_map]
  exact max_eq_left (length_hexadecimal_le n w hw h)

theorem magnitude_append (r : Radix) (ds : Text) (c : Char) :
    magnitude r (ds ++ [c]) = base r * magnitude r ds + digitValue c := by
  rw [magnitude, List.foldl_append]
  rfl

theorem magnitude_decimal (n : ℕ) : magnitude .decimal (decimal n) = n := by
  induction n using Nat.strong_induction_on with
  | _ n ih =>
    unfold decimal at ih ⊢
    rw [Nat.toDigits_eq_if (by decide)]
    split
    · next hn =>
      have hdigit := digitValue_digitChar n (by omega)
      simpa [magnitude] using hdigit
    · rw [magnitude_append, ih (n / 10) (by omega), digitValue_digitChar _ (by omega)]
      show 10 * (n / 10) + n % 10 = n
      omega

theorem magnitude_hexUpper (n : ℕ) : magnitude .hexadecimal (hexUpper n) = n := by
  induction n using Nat.strong_induction_on with
  | _ n ih =>
    unfold hexUpper hexadecimal at ih ⊢
    rw [Nat.toDigits_eq_if (by decide)]
    split
    · next hn =>
      have hdigit := digitValue_toUpper n hn
      simpa [magnitude] using hdigit
    · rw [List.map_append, List.map_singleton, magnitude_append, ih (n / 16) (by omega),
        digitValue_toUpper _ (Nat.mod_lt n (by decide))]
      show 16 * (n / 16) + n % 16 = n
      omega

theorem magnitude_hexPadded (w n : ℕ) : magnitude .hexadecimal (hexPadded w n) = n := by
  have hzeros : ∀ k : ℕ, magnitude .hexadecimal (List.replicate k '0') = 0 := by
    intro k
    induction k with
    | zero => rfl
    | succ k ih =>
      rw [List.replicate_succ', magnitude_append, ih]
      rfl
  have hfold := magnitude_hexUpper n
  rw [hexPadded, List.leftpad, magnitude, List.foldl_append]
  rw [← magnitude, hzeros]
  exact hfold

/-! ## Fields -/

/-- What follows a number does not continue it. -/
def Ends (r : Radix) (rest : Text) : Prop := ∀ c, rest.head? = some c → isDigitOf r c = false ∧ c ≠ 'x' ∧ c ≠ 'X'

theorem ends_nil (r : Radix) : Ends r [] := by
  intro c h
  cases h

theorem ends_cons {r : Radix} {c : Char} (h : isDigitOf r c = false ∧ c ≠ 'x' ∧ c ≠ 'X') (rest : Text) :
    Ends r (c :: rest) := by
  intro d hd
  cases hd
  exact h

theorem blank_singleton (c : Char) (h : isSpace c = true) : ∀ d ∈ [c], isSpace d = true := by
  intro d hd
  cases List.mem_singleton.mp hd
  exact h

theorem takeWhile_field {p : Char → Bool} {ds rest : Text} (hds : ∀ c ∈ ds, p c = true)
    (hrest : ∀ c, rest.head? = some c → p c = false) : (ds ++ rest).takeWhile p = ds := by
  rw [List.takeWhile_append_of_pos hds]
  cases rest with
  | nil => simp
  | cons c rest => rw [List.takeWhile_cons_of_neg (by simp [hrest c rfl]), List.append_nil]

theorem dropWhile_blanks {sp input : Text} (hsp : ∀ c ∈ sp, isSpace c = true)
    (h : ∀ c, input.head? = some c → isSpace c = false) : (sp ++ input).dropWhile isSpace = input := by
  rw [List.dropWhile_append_of_pos hsp]
  cases input with
  | nil => rfl
  | cons c rest => exact List.dropWhile_cons_of_neg (by simp [h c rfl])

theorem dropWhile_isSpace_append (t : Text) {c : Char} (h : isSpace c = false) (more : Text) :
    (t ++ c :: more).dropWhile isSpace = t.dropWhile isSpace ++ c :: more := by
  rw [List.dropWhile_append]
  split
  · next hnil => rw [List.isEmpty_iff.mp hnil, List.dropWhile_cons_of_neg (by simp [h]), List.nil_append]
  · rfl

/-- A class of characters without the six of white space. -/
theorem not_isSpace {p : Char → Bool} (h : [' ', '\t', '\n', '\r', '\x0b', '\x0c'].any p = false) {c : Char}
    (hc : p c = true) : isSpace c = false := by
  by_contra hne
  have hspace : isSpace c = true := by simpa using hne
  have hmem : c ∈ [' ', '\t', '\n', '\r', '\x0b', '\x0c'] := by simpa [isSpace, or_assoc] using hspace
  exact absurd hc (List.any_eq_false.mp h c hmem)

theorem digit_facts {r : Radix} {c : Char} (h : isDigitOf r c = true) :
    isSpace c = false ∧ c ≠ '-' ∧ c ≠ '+' ∧ c ≠ 'x' ∧ c ≠ 'X' := by
  refine ⟨not_isSpace (p := isDigitOf r) (by cases r <;> rfl) h, ?_, ?_, ?_, ?_⟩
  all_goals
    rintro rfl
    cases r <;> simp [isDigitOf] at h

theorem signOf_other {c : Char} (hminus : c ≠ '-') (hplus : c ≠ '+') (t : Text) : signOf (c :: t) = (false, 0) := by
  unfold signOf
  split
  · next heq => exact absurd (List.cons.inj heq).1 hminus
  · next heq => exact absurd (List.cons.inj heq).1 hplus
  · rfl

theorem signOf_digits {r : Radix} {c : Char} (h : isDigitOf r c = true) (t : Text) : signOf (c :: t) = (false, 0) :=
  signOf_other (digit_facts h).2.1 (digit_facts h).2.2.1 t

theorem prefixOf_field {r : Radix} {ds field : Text} (hds : ∀ c ∈ ds, isDigitOf r c = true) (hend : Ends r field) :
    prefixOf r (ds ++ field) = 0 := by
  unfold prefixOf
  split
  · next c t heq =>
    refine if_neg ?_
    rintro ⟨-, hx⟩
    have hc : c ≠ 'x' ∧ c ≠ 'X' := by
      cases ds with
      | nil =>
        have hzero := (hend '0' (by rw [← List.nil_append field, heq]; rfl)).1
        cases r <;> cases hzero
      | cons d ds =>
        cases ds with
        | nil =>
          have hfield : field = c :: t := (List.cons.inj heq).2
          exact (hend c (by rw [hfield]; rfl)).2
        | cons e ds =>
          obtain ⟨rfl, -⟩ := List.cons.inj (List.cons.inj heq).2
          exact (digit_facts (hds e (by simp))).2.2.2
    exact hx.elim hc.1 hc.2
  · rfl

/-- A number: its sign, if it has one, and its digits, when the width does not cut them and
does not reach a character that continues them. -/
theorem scanNumber_field (signed : Bool) (r : Radix) (width : Option ℕ) (sign : Text) {negative : Bool}
    {sp ds rest field : Text} (hsp : ∀ c ∈ sp, isSpace c = true)
    (hhead : ∀ c, (sign ++ (ds ++ rest)).head? = some c → isSpace c = false) (hne : ds ≠ []) (hds : ∀ c ∈ ds, isDigitOf r c = true)
    (hfield : limited width (sign ++ (ds ++ rest)) = sign ++ (ds ++ field))
    (hsign : signOf (sign ++ (ds ++ field)) = (negative, sign.length)) (hend : Ends r field) :
    scanNumber signed r width (sp ++ (sign ++ (ds ++ rest))) =
      .value (.number (convert signed negative (magnitude r ds))) rest := by
  have hdigits : (ds ++ field).takeWhile (isDigitOf r) = ds := takeWhile_field hds fun c hc => (hend c hc).1
  unfold scanNumber
  dsimp only
  rw [dropWhile_blanks hsp hhead, if_neg (by simp [hne]), hfield, hsign]
  dsimp only
  rw [List.drop_left, prefixOf_field hds hend, List.drop_zero, hdigits, if_neg (by simp [hne]), ← List.append_assoc,
    Nat.add_zero, ← List.length_append, List.drop_left]

theorem head?_digits {r : Radix} {ds rest : Text} (hne : ds ≠ []) (hds : ∀ c ∈ ds, isDigitOf r c = true) {c : Char}
    (h : (ds ++ rest).head? = some c) : isDigitOf r c = true := by
  obtain ⟨d, ds', rfl⟩ := List.exists_cons_of_ne_nil hne
  cases h
  exact hds _ List.mem_cons_self

theorem signOf_field {r : Radix} (ds field : Text) (hne : ds ≠ []) (hds : ∀ c ∈ ds, isDigitOf r c = true) :
    signOf (ds ++ field) = (false, 0) := by
  obtain ⟨d, ds', rfl⟩ := List.exists_cons_of_ne_nil hne
  exact signOf_digits (hds d List.mem_cons_self) _

theorem scanNumber_digits (signed : Bool) (r : Radix) {sp ds rest : Text} (hsp : ∀ c ∈ sp, isSpace c = true)
    (hne : ds ≠ []) (hds : ∀ c ∈ ds, isDigitOf r c = true) (hend : Ends r rest) :
    scanNumber signed r none (sp ++ (ds ++ rest)) = .value (.number (convert signed false (magnitude r ds))) rest :=
  scanNumber_field signed r none [] hsp (fun _ hc => (digit_facts (head?_digits hne hds hc)).1) hne hds rfl
    (signOf_field ds rest hne hds) hend

/-- With a width that is the length of the number, anything may follow. -/
theorem scanNumber_width (signed : Bool) (r : Radix) {ds rest : Text} (hne : ds ≠ [])
    (hds : ∀ c ∈ ds, isDigitOf r c = true) :
    scanNumber signed r (some ds.length) (ds ++ rest) =
      .value (.number (convert signed false (magnitude r ds))) rest := by
  have hfield : limited (some ds.length) (ds ++ rest) = ds ++ [] := by simp [limited]
  have hblank : ∀ c ∈ ([] : Text), isSpace c = true := by simp
  exact scanNumber_field signed r (some ds.length) [] hblank
    (fun _ hc => (digit_facts (head?_digits hne hds hc)).1) hne hds hfield (signOf_field ds [] hne hds) (ends_nil r)

/-- What a signed conversion makes of an integer: the ends of `long` bound it. -/
def clamped (z : ℤ) : ℤ := max (-2 ^ 63) (min z (2 ^ 63 - 1))

theorem isDigitOf_decimal {n : ℕ} {c : Char} (h : c ∈ decimal n) : isDigitOf .decimal c = true :=
  isDigit_of_mem_decimal h

theorem isDigitOf_hexPadded {w n : ℕ} {c : Char} (h : c ∈ hexPadded w n) : isDigitOf .hexadecimal c = true :=
  mem_hexPadded (p := fun c => isDigitOf .hexadecimal c = true) (by decide) h

theorem convert_nonneg (n : ℕ) : convert true false n = clamped n := by
  unfold convert clamped
  simp only [if_true, Bool.false_eq_true, if_false]
  omega

theorem convert_unsigned {n : ℕ} (h : n < 2 ^ 64) : convert false false n = n := by
  unfold convert
  rw [if_neg (by simp), if_pos h]
  rfl

theorem convert_negative (n : ℕ) : convert true true n = clamped (-n) := by
  unfold convert clamped
  simp only [if_true]
  omega

theorem scanNumber_decimalInt {sp rest : Text} (hsp : ∀ c ∈ sp, isSpace c = true) (z : ℤ)
    (hend : Ends .decimal rest) :
    scanNumber true .decimal none (sp ++ (decimalInt z ++ rest)) = .value (.number (clamped z)) rest := by
  cases z with
  | ofNat n =>
    have hread := scanNumber_digits true .decimal hsp (decimal_ne_nil n) (fun c hc => isDigitOf_decimal hc) hend
    rw [magnitude_decimal, convert_nonneg] at hread
    exact hread
  | negSucc n =>
    have hhead : ∀ c, (['-'] ++ (decimal (n + 1) ++ rest)).head? = some c → isSpace c = false := by
      intro c hc
      cases hc
      rfl
    have hread := scanNumber_field true .decimal none ['-'] hsp hhead (decimal_ne_nil (n + 1))
      (fun c hc => isDigitOf_decimal hc) rfl rfl hend
    rw [magnitude_decimal, convert_negative] at hread
    exact hread

/-- Neither a digit nor a sign. -/
theorem scanNumber_mismatch (signed : Bool) (r : Radix) {input rest : Text} {c : Char}
    (h : input.dropWhile isSpace = c :: rest) (hdigit : isDigitOf r c = false) (hminus : c ≠ '-') (hplus : c ≠ '+') :
    scanNumber signed r none input = .mismatch := by
  have hprefix : prefixOf r (c :: rest) = 0 := by
    unfold prefixOf
    split
    · next heq =>
      cases (List.cons.inj heq).1
      cases r <;> cases hdigit
    · rfl
  have hdigits : (c :: rest).takeWhile (isDigitOf r) = [] := List.takeWhile_cons_of_neg (by simp [hdigit])
  unfold scanNumber
  dsimp only
  rw [h, if_neg (by simp), limited, signOf_other hminus hplus]
  dsimp only
  rw [List.drop_zero, hprefix, List.drop_zero, hdigits, if_pos (by simp)]

/-! ## Words and brackets -/

theorem scanWord_word {sp w rest : Text} (hsp : ∀ c ∈ sp, isSpace c = true) (hne : w ≠ [])
    (hw : ∀ c ∈ w, isSpace c = false) (hend : ∀ c, rest.head? = some c → isSpace c = true) :
    scanWord none (sp ++ (w ++ rest)) = .value (.text w) rest := by
  obtain ⟨c, w', rfl⟩ := List.exists_cons_of_ne_nil hne
  have hskip : (sp ++ (c :: w' ++ rest)).dropWhile isSpace = c :: w' ++ rest :=
    dropWhile_blanks hsp fun d hd => by
      cases hd
      exact hw _ List.mem_cons_self
  have htext : (c :: w' ++ rest).takeWhile (fun c => !isSpace c) = c :: w' :=
    takeWhile_field (fun d hd => by simp [hw d hd]) fun d hd => by simp [hend d hd]
  unfold scanWord
  dsimp only
  rw [hskip, if_neg (by simp), limited, htext, List.drop_left]

theorem scanSpan_field {set : List Char} {n : ℕ} {ds rest : Text} (hne : ds ≠ []) (hn : ds.length ≤ n)
    (hds : ∀ c ∈ ds, inSet c set = true) (hend : ∀ c, rest.head? = some c → inSet c set = false) :
    scanSpan set (some n) (ds ++ rest) = .value (.text ds) rest := by
  have htext : ((ds ++ rest).take n).takeWhile (inSet · set) = ds := by
    rw [List.take_append, List.take_of_length_le hn]
    refine takeWhile_field hds fun c hc => hend c ?_
    cases rest with
    | nil => simp at hc
    | cons d rest =>
      cases hk : n - ds.length with
      | zero => simp [hk] at hc
      | succ k =>
        rw [hk] at hc
        exact hc
  unfold scanSpan
  dsimp only
  rw [if_neg (by simp [hne]), limited, htext, if_neg hne, List.drop_left]

/-! ## Directives -/

/-- What a conversion adds to the scan, by how it went. -/
def proceed (assign : Bool) (items : List Item) : Reading → Result
  | .value v rest =>
      if assign then { scan items rest with values := v :: (scan items rest).values } else scan items rest
  | .mismatch => ⟨[], false⟩
  | .ended => ⟨[], true⟩

section
variable (items : List Item) (input : Text) (assign : Bool) (width : Option ℕ)

theorem scan_blank_cons : scan (.blank :: items) input = scan items (input.dropWhile isSpace) := rfl

theorem scan_exact_cons (c d : Char) :
    scan (.exact c :: items) (d :: input) = if c = d then scan items input else ⟨[], false⟩ := rfl

theorem scan_number (signed : Bool) (r : Radix) :
    scan (.number signed r assign width :: items) input = proceed assign items (scanNumber signed r width input) := rfl

theorem scan_word : scan (.word assign width :: items) input = proceed assign items (scanWord width input) := rfl

theorem scan_span (set : List Char) :
    scan (.span set assign width :: items) input = proceed assign items (scanSpan set width input) := rfl

theorem scan_exact (c : Char) : scan (.exact c :: items) (c :: input) = scan items input := if_pos rfl

/-- White space in a format before a directive that does not skip it by itself. -/
theorem scan_blank {sp : Text} (hsp : ∀ c ∈ sp, isSpace c = true) (h : ∀ c, input.head? = some c → isSpace c = false) :
    scan (.blank :: items) (sp ++ input) = scan items input := by
  rw [scan_blank_cons, dropWhile_blanks hsp h]

theorem scanNumber_dropWhile (signed : Bool) (r : Radix) :
    scanNumber signed r width (input.dropWhile isSpace) = scanNumber signed r width input := by
  unfold scanNumber
  rw [List.dropWhile_idempotent]

theorem scan_blank_number (signed : Bool) (r : Radix) :
    scan (.blank :: .number signed r assign width :: items) input =
      scan (.number signed r assign width :: items) input := by
  rw [scan_blank_cons, scan_number, scan_number, scanNumber_dropWhile]

theorem scan_blank_word :
    scan (.blank :: .word assign width :: items) input = scan (.word assign width :: items) input := by
  rw [scan_blank_cons, scan_word, scan_word]
  unfold scanWord
  rw [List.dropWhile_idempotent]

theorem scan_blanks_word (n : ℕ) :
    scan (List.replicate n .blank ++ .word assign width :: items) input = scan (.word assign width :: items) input := by
  induction n generalizing input with
  | zero => rfl
  | succ n ih => rw [List.replicate_succ, List.cons_append, scan_blank_cons, ih, ← scan_blank_cons, scan_blank_word]

end

section
variable {input rest : Text} {v : Value} {width : Option ℕ}

/-- A conversion that is not assigned. -/
theorem scan_skip_number {signed : Bool} {r : Radix} (h : scanNumber signed r width input = .value v rest)
    (items : List Item) :
    scan (.number signed r false width :: items) input = scan items rest := by
  rw [scan_number, h]
  rfl

theorem scan_skip_word (h : scanWord width input = .value v rest) (items : List Item) :
    scan (.word false width :: items) input = scan items rest := by
  rw [scan_word, h]
  rfl

theorem scan_keep_number {signed : Bool} {r : Radix} (h : scanNumber signed r width input = .value v rest)
    (items : List Item) :
    scan (.number signed r true width :: items) input =
      { scan items rest with values := v :: (scan items rest).values } := by
  rw [scan_number, h]
  rfl

theorem scan_keep_span {set : List Char} (h : scanSpan set width input = .value v rest) (items : List Item) :
    scan (.span set true width :: items) input =
      { scan items rest with values := v :: (scan items rest).values } := by
  rw [scan_span, h]
  rfl

end

/-- Directives that assign nothing add no value, wherever the scan stops. -/
def Item.silent : Item → Prop
  | .blank | .exact _ => True
  | .number _ _ assign _ | .word assign _ | .span _ assign _ => assign = false

theorem scan_silent (items : List Item) (h : ∀ i ∈ items, i.silent) (input : Text) : (scan items input).values = [] := by
  induction items generalizing input with
  | nil => rfl
  | cons i items ih =>
    have hi := h i List.mem_cons_self
    have hrest := ih fun j hj => h j (List.mem_cons_of_mem i hj)
    have hproceed : ∀ reading, (proceed false items reading).values = [] := by
      intro reading
      cases reading with
      | value v rest => exact hrest rest
      | mismatch => rfl
      | ended => rfl
    cases i with
    | blank => exact hrest _
    | exact c =>
      cases input with
      | nil => rfl
      | cons d input =>
        rw [scan_exact_cons]
        split
        · exact hrest _
        · rfl
    | number signed r assign width =>
      cases hi
      rw [scan_number, hproceed]
    | word assign width =>
      cases hi
      rw [scan_word, hproceed]
    | span set assign width =>
      cases hi
      rw [scan_span, hproceed]

theorem scan_literal (cs : Text) (items : List Item) (rest : Text) :
    scan (cs.map Item.exact ++ items) (cs ++ rest) = scan items rest := by
  induction cs with
  | nil => rfl
  | cons c cs ih => rw [List.map_cons, List.cons_append, List.cons_append, scan_exact, ih]

/-- A text that does not begin with the literal gives no value. -/
theorem scan_literal_mismatch (cs : Text) (items : List Item) (t : Text) (h : ¬ cs <+: t) :
    (scan (cs.map Item.exact ++ items) t).values = [] := by
  induction cs generalizing t with
  | nil => exact absurd List.nil_prefix h
  | cons c cs ih =>
    cases t with
    | nil => rfl
    | cons d t =>
      rw [List.map_cons, List.cons_append, scan_exact_cons]
      split
      · next heq =>
        subst heq
        exact ih t fun hprefix => h (List.cons_prefix_cons.mpr ⟨rfl, hprefix⟩)
      · rfl

/-! ## Printed numerals -/

section
variable {c : Char} (w n : ℕ) (z : ℤ) (items : List Item) (rest : Text)

theorem scanNumber_hex (h : isDigitOf .hexadecimal c = false ∧ c ≠ 'x' ∧ c ≠ 'X') (sp : Text)
    (hsp : ∀ d ∈ sp, isSpace d = true) :
    scanNumber false .hexadecimal none (sp ++ (hexPadded w n ++ c :: rest)) =
      .value (.number (convert false false n)) (c :: rest) := by
  have hread := scanNumber_digits false .hexadecimal hsp (hexPadded_ne_nil w n) (fun _ hd => isDigitOf_hexPadded hd)
    (ends_cons h rest)
  rw [magnitude_hexPadded] at hread
  exact hread

theorem scan_skip_hex (h : isDigitOf .hexadecimal c = false ∧ c ≠ 'x' ∧ c ≠ 'X') :
    scan (.number false .hexadecimal false none :: items) (hexPadded w n ++ c :: rest) = scan items (c :: rest) :=
  scan_skip_number (scanNumber_hex w n rest h [] (by simp)) items

theorem scan_blank_skip_hex (h : isDigitOf .hexadecimal c = false ∧ c ≠ 'x' ∧ c ≠ 'X') :
    scan (.blank :: .number false .hexadecimal false none :: items) (' ' :: (hexPadded w n ++ c :: rest)) =
      scan items (c :: rest) := by
  rw [scan_blank_number]
  exact scan_skip_number (scanNumber_hex w n rest h [' '] (blank_singleton ' ' rfl)) items

theorem scan_keep_hex (hn : n < 2 ^ 64) (h : isDigitOf .hexadecimal c = false ∧ c ≠ 'x' ∧ c ≠ 'X') :
    scan (.number false .hexadecimal true none :: items) (hexPadded w n ++ c :: rest) =
      { scan items (c :: rest) with values := .number n :: (scan items (c :: rest)).values } := by
  have hread := scanNumber_hex w n rest h [] (by simp)
  rw [convert_unsigned hn] at hread
  exact scan_keep_number hread items

theorem scanNumber_padded (h : isDigitOf .decimal c = false ∧ c ≠ 'x' ∧ c ≠ 'X') (sp : Text)
    (hsp : ∀ d ∈ sp, isSpace d = true) :
    scanNumber true .decimal none (sp ++ ((decimalInt z).leftpad w ' ' ++ c :: rest)) =
      .value (.number (clamped z)) (c :: rest) := by
  rw [List.leftpad, List.append_assoc, ← List.append_assoc]
  refine scanNumber_decimalInt (List.forall_mem_append.mpr ⟨hsp, fun d hd => ?_⟩) z (ends_cons h rest)
  rw [List.eq_of_mem_replicate hd]
  rfl

theorem scan_skip_int (h : isDigitOf .decimal c = false ∧ c ≠ 'x' ∧ c ≠ 'X') :
    scan (.number true .decimal false none :: items) ((decimalInt z).leftpad w ' ' ++ c :: rest) =
      scan items (c :: rest) :=
  scan_skip_number (scanNumber_padded w z rest h [] (by simp)) items

theorem scan_blank_skip_int (h : isDigitOf .decimal c = false ∧ c ≠ 'x' ∧ c ≠ 'X') :
    scan (.blank :: .number true .decimal false none :: items) (' ' :: ((decimalInt z).leftpad w ' ' ++ c :: rest)) =
      scan items (c :: rest) := by
  rw [scan_blank_number]
  exact scan_skip_number (scanNumber_padded w z rest h [' '] (blank_singleton ' ' rfl)) items

theorem scan_blank_keep_int (h : isDigitOf .decimal c = false ∧ c ≠ 'x' ∧ c ≠ 'X') :
    scan (.blank :: .number true .decimal true none :: items) (' ' :: (decimalInt z ++ c :: rest)) =
      { scan items (c :: rest) with values := .number (clamped z) :: (scan items (c :: rest)).values } := by
  have hread := scanNumber_decimalInt (blank_singleton ' ' rfl) z (ends_cons h rest)
  rw [scan_blank_number]
  exact scan_keep_number hread items

end

/-! ## Numbers in the middle of other text -/

/-- The numbers a text begins with, at most so many. -/
def numbers : ℕ → Text → List ℤ
  | 0, _ => []
  | n + 1, t =>
      match scanNumber true .decimal none t with
      | .value (.number z) rest => z :: numbers n rest
      | _ => []

/-- So many signed decimal conversions, each after a blank. -/
def numberItems (assign : Bool) : ℕ → List Item
  | 0 => []
  | n + 1 => .blank :: .number true .decimal assign none :: numberItems assign n

/-- Numbers as they are printed, each after a blank. -/
def spelled (zs : List ℤ) : Text := zs.flatMap fun z => ' ' :: decimalInt z

theorem ends_spelled_append (zs : List ℤ) {rest : Text} (h : Ends .decimal rest) : Ends .decimal (spelled zs ++ rest) := by
  cases zs with
  | nil => exact h
  | cons z zs => exact ends_cons (by decide) _

theorem ends_spelled (zs : List ℤ) : Ends .decimal (spelled zs) := by
  have hend := ends_spelled_append zs (ends_nil .decimal)
  rwa [List.append_nil] at hend

theorem scan_skip_spelled (zs : List ℤ) {rest : Text} (h : Ends .decimal rest) (items : List Item) :
    scan (numberItems false zs.length ++ items) (spelled zs ++ rest) = scan items rest := by
  induction zs with
  | nil => rfl
  | cons z zs ih =>
    have hread := scanNumber_decimalInt (blank_singleton ' ' rfl) z (ends_spelled_append zs h)
    have htext : spelled (z :: zs) ++ rest = [' '] ++ (decimalInt z ++ (spelled zs ++ rest)) := by simp [spelled]
    rw [htext, List.length_cons, numberItems, List.cons_append, List.cons_append, scan_blank_number,
      scan_skip_number hread, ih]

theorem scan_keep_spelled (zs : List ℤ) {rest : Text} (h : Ends .decimal rest) (items : List Item) :
    (scan (numberItems true zs.length ++ items) (spelled zs ++ rest)).values =
      zs.map (fun z => Value.number (clamped z)) ++ (scan items rest).values := by
  induction zs with
  | nil => rfl
  | cons z zs ih =>
    have hread := scanNumber_decimalInt (blank_singleton ' ' rfl) z (ends_spelled_append zs h)
    have htext : spelled (z :: zs) ++ rest = [' '] ++ (decimalInt z ++ (spelled zs ++ rest)) := by simp [spelled]
    rw [htext, List.length_cons, numberItems, List.cons_append, List.cons_append, scan_blank_number,
      scan_keep_number hread]
    dsimp only
    rw [ih, List.map_cons, List.cons_append]

theorem scanWord_eq (input : Text) :
    scanWord none input =
      if input.dropWhile isSpace = [] then .ended
      else .value (.text ((input.dropWhile isSpace).takeWhile fun c => !isSpace c))
        ((input.dropWhile isSpace).dropWhile fun c => !isSpace c) := by
  have hdrop : ∀ t : Text, t.drop (t.takeWhile fun c => !isSpace c).length = t.dropWhile fun c => !isSpace c := by
    intro t
    have hsplit := List.takeWhile_append_dropWhile (p := fun c => !isSpace c) (l := t)
    calc t.drop (t.takeWhile fun c => !isSpace c).length
        = ((t.takeWhile fun c => !isSpace c) ++ t.dropWhile fun c => !isSpace c).drop
            (t.takeWhile fun c => !isSpace c).length := by rw [hsplit]
      _ = t.dropWhile fun c => !isSpace c := List.drop_left
  unfold scanWord
  dsimp only
  rw [limited, hdrop]

theorem scan_skip_words {input : Text} (h : input.dropWhile isSpace ≠ []) (items : List Item) :
    scan (.blank :: .word false none :: items) input =
      scan items ((input.dropWhile isSpace).dropWhile fun c => !isSpace c) := by
  have hread := scanWord_eq input
  rw [if_neg h] at hread
  rw [scan_blank_word, scan_skip_word hread]

/-- A character that no number continues with or starts with, and that is not white space. -/
def Stops (c : Char) : Prop := isSpace c = false ∧ c.isDigit = false ∧ c ≠ '-' ∧ c ≠ '+'

instance : DecidablePred Stops := fun _ => inferInstanceAs (Decidable (_ ∧ _))

theorem prefixOf_decimal (t : Text) : prefixOf .decimal t = 0 := by
  unfold prefixOf
  split
  · exact if_neg (by simp)
  · rfl

theorem signOf_le (t : Text) : (signOf t).2 ≤ 1 := by
  unfold signOf
  split <;> simp

theorem signOf_append (c : Char) (t more : Text) : signOf (c :: (t ++ more)) = signOf (c :: t) := by
  by_cases hminus : c = '-'
  · rw [hminus, signOf, signOf]
  · by_cases hplus : c = '+'
    · rw [hplus, signOf, signOf]
    · rw [signOf_other hminus hplus, signOf_other hminus hplus]

theorem scanNumber_decimal {t u : Text} {d : Char} (h : t.dropWhile isSpace = d :: u) :
    scanNumber true .decimal none t =
      if ((d :: u).drop (signOf (d :: u)).2).takeWhile Char.isDigit = [] then .mismatch
      else .value (.number (convert true (signOf (d :: u)).1
          (magnitude .decimal (((d :: u).drop (signOf (d :: u)).2).takeWhile Char.isDigit))))
        (((d :: u).drop (signOf (d :: u)).2).drop (((d :: u).drop (signOf (d :: u)).2).takeWhile Char.isDigit).length) := by
  unfold scanNumber
  dsimp only
  rw [h, if_neg (by simp), limited, prefixOf_decimal, List.drop_zero, List.drop_drop, Nat.add_zero]
  simp only [and_true]
  rfl

/-- A number is read as if the text ended before the character. -/
theorem scanNumber_stopped {c : Char} (hc : Stops c) (t more : Text) :
    scanNumber true .decimal none (t ++ c :: more) =
      match scanNumber true .decimal none t with
      | .value v rest => .value v (rest ++ c :: more)
      | _ => .mismatch := by
  have hskip := dropWhile_isSpace_append t hc.1 more
  cases hu : t.dropWhile isSpace with
  | nil =>
    rw [hu, List.nil_append] at hskip
    have hend : scanNumber true .decimal none t = .ended := by
      unfold scanNumber
      dsimp only
      rw [hu, if_pos rfl]
    rw [scanNumber_mismatch true .decimal hskip hc.2.1 hc.2.2.1 hc.2.2.2, hend]
  | cons d u =>
    rw [hu, List.cons_append] at hskip
    have hdrop : (d :: (u ++ c :: more)).drop (signOf (d :: u)).2 = (d :: u).drop (signOf (d :: u)).2 ++ c :: more := by
      rw [← List.cons_append]
      exact List.drop_append_of_le_length ((signOf_le _).trans (by simp))
    have hdigits : ∀ v : Text, (v ++ c :: more).takeWhile Char.isDigit = v.takeWhile Char.isDigit := by
      intro v
      rw [List.takeWhile_append, List.takeWhile_cons_of_neg (by simp [hc.2.1]), List.append_nil]
      split
      · next hlen => exact ((List.takeWhile_sublist _).eq_of_length hlen).symm
      · rfl
    rw [scanNumber_decimal hskip, scanNumber_decimal hu, signOf_append, hdrop, hdigits]
    split
    · rfl
    · rw [List.drop_append_of_le_length (List.takeWhile_sublist _).length_le]

theorem scanNumber_number {signed : Bool} {r : Radix} {width : Option ℕ} {input rest : Text} {v : Value}
    (h : scanNumber signed r width input = .value v rest) : ∃ z, v = .number z := by
  unfold scanNumber at h
  dsimp only at h
  split at h
  · cases h
  · split at h
    · cases h
    · cases h
      exact ⟨_, rfl⟩

/-- What directives make of every text whose numbers end at the character: `f` gives the
values, and without a value the scan does not end there. -/
def ReadsUpTo (c : Char) (more : Text) (items : List Item) (f : Text → List ℤ) : Prop :=
  ∀ t, (scan items (t ++ c :: more)).values = (f t).map Value.number ∧
    (f t = [] → (scan items (t ++ c :: more)).ended = false)

theorem readsUpTo_skip {c : Char} (hc : Stops c) {more : Text} {m : ℕ} {items : List Item} (k : ℕ)
    (hitems : ReadsUpTo c more items (numbers m)) :
    ReadsUpTo c more (numberItems false k ++ items) fun t => (numbers (k + m) t).drop k := by
  induction k with
  | zero =>
    rw [Nat.zero_add]
    exact hitems
  | succ k ih =>
    intro t
    dsimp only
    rw [Nat.add_right_comm, numbers, numberItems, List.cons_append, List.cons_append, scan_blank_number, scan_number,
      scanNumber_stopped hc t more]
    cases hread : scanNumber true .decimal none t with
    | value v rest =>
      obtain ⟨z, rfl⟩ := scanNumber_number hread
      exact ih rest
    | mismatch => exact ⟨rfl, fun _ => rfl⟩
    | ended => exact ⟨rfl, fun _ => rfl⟩

theorem scan_keep_numbers {c : Char} (hc : Stops c) (more : Text) (items : List Item) (hitems : ∀ i ∈ items, i.silent)
    (m : ℕ) (t : Text) :
    (scan (numberItems true m ++ items) (t ++ c :: more)).values = (numbers m t).map Value.number := by
  induction m generalizing t with
  | zero => exact scan_silent items hitems _
  | succ m ih =>
    rw [numbers, numberItems, List.cons_append, List.cons_append, scan_blank_number, scan_number, scanNumber_stopped hc t more]
    cases hread : scanNumber true .decimal none t with
    | value v rest =>
      obtain ⟨z, rfl⟩ := scanNumber_number hread
      exact congrArg _ (ih rest)
    | mismatch => rfl
    | ended => rfl

theorem readsUpTo_keep {c : Char} (hc : Stops c) (more : Text) (items : List Item) (hitems : ∀ i ∈ items, i.silent)
    (m : ℕ) : ReadsUpTo c more (numberItems true (m + 1) ++ items) (numbers (m + 1)) := by
  intro t
  refine ⟨scan_keep_numbers hc more items hitems (m + 1) t, ?_⟩
  rw [numbers, numberItems, List.cons_append, List.cons_append, scan_blank_number, scan_number, scanNumber_stopped hc t more]
  cases hread : scanNumber true .decimal none t with
  | value v rest =>
    obtain ⟨z, rfl⟩ := scanNumber_number hread
    intro hnil
    cases hnil
  | mismatch => exact fun _ => rfl
  | ended => exact fun _ => rfl

theorem cString_eq_self {t : Text} (h : '\x00' ∉ t) : cString t = t :=
  List.takeWhile_eq_self_iff.mpr fun c hc => by simpa using fun hz : c = '\x00' => h (hz ▸ hc)

/-- A buffer that does not begin with the literal a format begins with gives no value. -/
theorem sscanf_literal_mismatch {fmt : String} {cs : Text} {items : List Item}
    (hformat : format fmt = cs.map Item.exact ++ items) (buffer : Text) (h : ¬ cs <+: buffer) :
    (sscanf buffer fmt).values = [] := by
  have hclean : ¬ cs <+: cString buffer := fun hp => h (hp.trans (List.takeWhile_prefix _))
  rw [sscanf, hformat]
  exact scan_literal_mismatch cs items _ hclean

theorem cString_append {t : Text} (h : '\x00' ∉ t) (rest : Text) : cString (t ++ rest) = t ++ cString rest :=
  List.takeWhile_append_of_pos fun c hc => by simpa using fun hz : c = '\x00' => h (hz ▸ hc)

end Capture.FormattedScan
