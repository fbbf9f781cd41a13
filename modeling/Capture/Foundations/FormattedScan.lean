import Capture.Foundations.SeparatedText
import Mathlib.Data.Int.Notation

/-! # Formatted input

`sscanf` as glibc runs it, for the directives `%d %u %X %s %[..]` with an optional
`*`, width and `l` modifiers, ordinary characters and white space. A format is
read from its own text, so that a format string can be taken over as it stands.

The return value separates the two ways of stopping early: a mismatch yields the
number of assignments made so far, an end of input yields `EOF` (here `-1`) when
no assignment was made. In particular a call that assigned nothing is nonzero
when the input ended and zero when it differed. -/
namespace Capture.FormattedScan
open SeparatedText

set_option autoImplicit false

/-! ## Formats -/

inductive Radix where
  | decimal
  | hexadecimal
  deriving DecidableEq, Repr

/-- One directive. A conversion has its assignment flag and its width. -/
inductive Item where
  | blank
  | exact (c : Char)
  | number (signed : Bool) (radix : Radix) (assign : Bool) (width : Option ℕ)
  | word (assign : Bool) (width : Option ℕ)
  | span (set : List Char) (assign : Bool) (width : Option ℕ)
  deriving DecidableEq, Repr

def isSpace (c : Char) : Bool :=
  c = ' ' || c = '\t' || c = '\n' || c = '\r' || c = '\x0b' || c = '\x0c'

inductive Mode where
  | plain
  | spec (assign : Bool) (width : Option ℕ)
  | set (assign : Bool) (width : Option ℕ) (read : List Char)

def readFormat : Mode → Text → List Item
  | _, [] => []
  | .plain, c :: cs =>
      if c = '%' then readFormat (.spec true none) cs
      else if isSpace c then .blank :: readFormat .plain cs
      else .exact c :: readFormat .plain cs
  | .spec assign width, c :: cs =>
      if c = '*' then readFormat (.spec false width) cs
      else if c.isDigit then readFormat (.spec assign (some (10 * width.getD 0 + (c.toNat - '0'.toNat)))) cs
      else if c = 'l' then readFormat (.spec assign width) cs
      else if c = 'd' then .number true .decimal assign width :: readFormat .plain cs
      else if c = 'u' then .number false .decimal assign width :: readFormat .plain cs
      else if c = 'X' then .number false .hexadecimal assign width :: readFormat .plain cs
      else if c = 's' then .word assign width :: readFormat .plain cs
      else if c = '[' then readFormat (.set assign width []) cs
      else readFormat .plain cs
  | .set assign width read, c :: cs =>
      if c = ']' then .span read.reverse assign width :: readFormat .plain cs
      else readFormat (.set assign width (c :: read)) cs

def format (s : String) : List Item := readFormat .plain s.toList

/-- Membership in the bracket of a `%[..]`, with its ranges. -/
def inSet (c : Char) : List Char → Bool
  | a :: '-' :: b :: rest => (a ≤ c && c ≤ b) || inSet c rest
  | a :: rest => c = a || inSet c rest
  | [] => false

/-! ## Conversions -/

def isDigitOf : Radix → Char → Bool
  | .decimal, c => c.isDigit
  | .hexadecimal, c => c.isDigit || ('a' ≤ c && c ≤ 'f') || ('A' ≤ c && c ≤ 'F')

def digitValue (c : Char) : ℕ :=
  if c.isDigit then c.toNat - '0'.toNat
  else if 'a' ≤ c then c.toNat - 'a'.toNat + 10
  else c.toNat - 'A'.toNat + 10

def base : Radix → ℕ
  | .decimal => 10
  | .hexadecimal => 16

def magnitude (r : Radix) (ds : Text) : ℕ := ds.foldl (fun n c => base r * n + digitValue c) 0

/-- `strtol` and `strtoul`: the signed conversion saturates at the ends of `long`,
the unsigned one at the end of `unsigned long` and negates modulo `2^64`. -/
def convert (signed negative : Bool) (n : ℕ) : ℤ :=
  if signed then
    if negative then max (-(n : ℤ)) (-2 ^ 63) else min (n : ℤ) (2 ^ 63 - 1)
  else if n < 2 ^ 64 then
    if negative then (-(n : ℤ)) % 2 ^ 64 else n
  else 2 ^ 64 - 1

inductive Value where
  | number (z : ℤ)
  | text (t : Text)
  deriving DecidableEq, Repr

/-- How one directive went: the converted value and the rest of the input, a
character that does not match, or the end of the input. -/
inductive Reading where
  | value (v : Value) (rest : Text)
  | mismatch
  | ended
  deriving DecidableEq, Repr

def limited (width : Option ℕ) (t : Text) : Text :=
  match width with
  | some n => t.take n
  | none => t

/-- The characters of a number: the sign, and the digits after an optional `0x`. -/
def signOf : Text → Bool × ℕ
  | '-' :: _ => (true, 1)
  | '+' :: _ => (false, 1)
  | _ => (false, 0)

def prefixOf (r : Radix) : Text → ℕ
  | '0' :: c :: _ => if r = .hexadecimal ∧ (c = 'x' ∨ c = 'X') then 2 else 0
  | _ => 0

def scanNumber (signed : Bool) (r : Radix) (width : Option ℕ) (input : Text) : Reading :=
  let input := input.dropWhile isSpace
  if input = [] then .ended
  else
    let field := limited width input
    let (negative, s) := signOf field
    let p := prefixOf r (field.drop s)
    let digits := ((field.drop s).drop p).takeWhile (isDigitOf r)
    if digits = [] ∧ p = 0 then .mismatch
    else .value (.number (convert signed negative (magnitude r digits))) (input.drop (s + p + digits.length))

def scanWord (width : Option ℕ) (input : Text) : Reading :=
  let input := input.dropWhile isSpace
  if input = [] then .ended
  else
    let t := (limited width input).takeWhile (fun c => !isSpace c)
    .value (.text t) (input.drop t.length)

def scanSpan (set : List Char) (width : Option ℕ) (input : Text) : Reading :=
  if input = [] then .ended
  else
    let t := (limited width input).takeWhile (inSet · set)
    if t = [] then .mismatch else .value (.text t) (input.drop t.length)

/-! ## The scan -/

/-- The assigned values in order, and whether the input ended early. -/
structure Result where
  values : List Value
  ended : Bool
  deriving DecidableEq, Repr

/-- The number of assignments, or `EOF` when the input ended before the first. -/
def Result.ret (r : Result) : ℤ := if r.ended ∧ r.values = [] then -1 else r.values.length

def Result.holds (r : Result) : Bool := r.ret ≠ 0

def scan : List Item → Text → Result
  | [], _ => ⟨[], false⟩
  | .blank :: items, input => scan items (input.dropWhile isSpace)
  | .exact _ :: _, [] => ⟨[], true⟩
  | .exact c :: items, d :: input => if c = d then scan items input else ⟨[], false⟩
  | .number signed r assign width :: items, input =>
      match scanNumber signed r width input with
      | .value v rest => let next := scan items rest
                         if assign then { next with values := v :: next.values } else next
      | .mismatch => ⟨[], false⟩
      | .ended => ⟨[], true⟩
  | .word assign width :: items, input =>
      match scanWord width input with
      | .value v rest => let next := scan items rest
                         if assign then { next with values := v :: next.values } else next
      | .mismatch => ⟨[], false⟩
      | .ended => ⟨[], true⟩
  | .span set assign width :: items, input =>
      match scanSpan set width input with
      | .value v rest => let next := scan items rest
                         if assign then { next with values := v :: next.values } else next
      | .mismatch => ⟨[], false⟩
      | .ended => ⟨[], true⟩

/-- The part of a buffer that a C string function sees. -/
def cString (t : Text) : Text := t.takeWhile (· ≠ '\x00')

def sscanf (buffer : Text) (fmt : String) : Result := scan (format fmt) (cString buffer)

def Result.number (r : Result) (i : ℕ) : Option ℤ :=
  match r.values[i]? with
  | some (.number z) => some z
  | _ => none

def Result.text (r : Result) (i : ℕ) : Option Text :=
  match r.values[i]? with
  | some (.text t) => some t
  | _ => none

example : (sscanf "cpu  12 7 -1".toList "cpu  %lu %lu %lu %lu").values =
    [.number 12, .number 7, .number (2 ^ 64 - 1)] := by decide

example : (sscanf "VmR".toList "VmRSS:          %ld kB").ret = -1 := by decide

end Capture.FormattedScan
