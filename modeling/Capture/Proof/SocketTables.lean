import Capture.Foundations.ScanReading
import Capture.Proof.ReaderTermination
import Capture.Proof.RefreshEffect

/-! # Reading the socket tables

A row of `/proc/net/{tcp,tcp6,udp,udp6}` as the kernel prints it is scanned back to the
socket it was printed for (`decodeRow_line`), so a file of rows, with whatever lines that are
not rows between them, leaves in `netToInodes` what the sockets write in order
(`socket_table_decoded`). An IPv4-mapped socket is read as the IPv4 one it stands for. -/
namespace Capture
open SeparatedText AddressText FormattedScan OrderedTable LineStream

set_option autoImplicit false

/-! ## Addresses as host-order words -/

/-- The number a little-endian host reads off four bytes. -/
def hostWord (a : In4Addr) : ℕ := (List.ofFn a).foldr (fun b n => b.toNat + 256 * n) 0

/-- The four bytes of an IPv6 address that make its word `k`. -/
def quarter (a : In6Addr) (k : Fin 4) : In4Addr := fun j => a ⟨4 * k.val + j.val, by omega⟩

theorem hostWord_eq (a : In4Addr) :
    hostWord a = (a 0).toNat + 256 * (a 1).toNat + 65536 * (a 2).toNat + 16777216 * (a 3).toNat := by
  have hbytes : List.ofFn a = [a 0, a 1, a 2, a 3] := by simp [List.ofFn_succ]
  rw [hostWord, hbytes]
  simp only [List.foldr_cons, List.foldr_nil]
  omega

theorem hostWord_lt (a : In4Addr) : hostWord a < 2 ^ 32 := by
  have h0 := (a 0).toNat_lt
  have h1 := (a 1).toNat_lt
  have h2 := (a 2).toNat_lt
  have h3 := (a 3).toNat_lt
  rw [hostWord_eq]
  omega

theorem wordByte_toNat (w : UInt32) (j : ℕ) (hj : j < 4) :
    (wordByte w j).toNat = w.toNat / 2 ^ (8 * j) % 256 := by
  have hmod : 8 * j % 2 ^ 32 % 32 = 8 * j := by omega
  rw [wordByte, UInt32.toNat_toUInt8, UInt32.toNat_shiftRight, UInt32.toNat_ofNat', Nat.shiftRight_eq_div_pow, hmod]

theorem wordAddr4_hostWord (a : In4Addr) : wordAddr4 (UInt32.ofNat (hostWord a)) = a := by
  funext i
  have h0 := (a 0).toNat_lt
  have h1 := (a 1).toNat_lt
  have h2 := (a 2).toNat_lt
  have h3 := (a 3).toNat_lt
  apply UInt8.toNat_inj.mp
  rw [wordAddr4, wordByte_toNat _ _ i.isLt, UInt32.toNat_ofNat', Nat.mod_eq_of_lt (hostWord_lt a)]
  fin_cases i
  · show hostWord a / 1 % 256 = (a 0).toNat
    rw [hostWord_eq]
    omega
  · show hostWord a / 256 % 256 = (a 1).toNat
    rw [hostWord_eq]
    omega
  · show hostWord a / 65536 % 256 = (a 2).toNat
    rw [hostWord_eq]
    omega
  · show hostWord a / 16777216 % 256 = (a 3).toNat
    rw [hostWord_eq]
    omega

/-! ## Sockets -/

/-- A socket and what else its row shows. -/
structure Socket where
  addrs : RowAddrs
  locPort : UInt16
  remPort : UInt16
  inode : UInt32
  slot : ℕ
  slotWidth : ℕ
  state : ℕ
  txQueue : ℕ
  rxQueue : ℕ
  timer : ℕ
  timerWhen : ℕ
  retransmits : ℕ
  uid : ℕ
  timeout : ℤ
  tail : Text
  tail_line : '\n' ∉ tail

/-- The digits of an address: each word in host order with `%08X`. -/
def addrHex4 (a : In4Addr) : Text := hexPadded 8 (hostWord a)

def addrHex6 (a : In6Addr) : Text := (List.ofFn (quarter a)).flatMap addrHex4

namespace Socket

def locHex (s : Socket) : Text :=
  match s.addrs with
  | .inet a _ => addrHex4 a
  | .inet6 a _ => addrHex6 a

def remHex (s : Socket) : Text :=
  match s.addrs with
  | .inet _ b => addrHex4 b
  | .inet6 _ b => addrHex6 b

/-- The row as the kernel prints it, with `more` after the inode:
`%4d: %08X:%04X %08X:%04X %02X %08X:%08X %02X:%08lX %08X %5u %8d %lu`. -/
def fields (s : Socket) (more : Text) : Text :=
  (decimalInt s.slot).leftpad s.slotWidth ' ' ++ (':' :: ' ' :: (s.locHex ++ (':' :: (hexPadded 4 s.locPort.toNat ++
    (' ' :: (s.remHex ++ (':' :: (hexPadded 4 s.remPort.toNat ++ (' ' :: (hexPadded 2 s.state ++
    (' ' :: (hexPadded 8 s.txQueue ++ (':' :: (hexPadded 8 s.rxQueue ++ (' ' :: (hexPadded 2 s.timer ++
    (':' :: (hexPadded 8 s.timerWhen ++ (' ' :: (hexPadded 8 s.retransmits ++
    (' ' :: ((decimalInt s.uid).leftpad 5 ' ' ++ (' ' :: ((decimalInt s.timeout).leftpad 8 ' ' ++
    (' ' :: (decimalInt s.inode.toNat ++ (' ' :: more)))))))))))))))))))))))))))

def line (s : Socket) : Text := s.fields s.tail

end Socket

/-- `::ffff:0:0/96`. -/
def Mapped (a : In6Addr) : Prop := ∀ i, i.val < 12 → a i = if i.val < 10 then 0 else 0xFF

instance : DecidablePred Mapped := fun _ => inferInstanceAs (Decidable (∀ _, _))

/-- The addresses a row is read as: the embedded ones when the local address is mapped. -/
def RowAddrs.decoded : RowAddrs → RowAddrs
  | .inet a b => .inet a b
  | .inet6 a b => if Mapped a then .inet (embedded a) (embedded b) else .inet6 a b

theorem mapped_iff (a : In6Addr) :
    Mapped a ↔ quarter a 0 = (fun _ => 0) ∧ quarter a 1 = (fun _ => 0) ∧ quarter a 2 = ![0, 0, 0xFF, 0xFF] := by
  constructor
  · intro h
    refine ⟨funext fun j => ?_, funext fun j => ?_, funext fun j => ?_⟩
    · fin_cases j <;> exact h _ (by decide)
    · fin_cases j <;> exact h _ (by decide)
    · fin_cases j <;> exact h _ (by decide)
  · rintro ⟨h0, h1, h2⟩ i hi
    obtain ⟨k, j, hkj⟩ : ∃ k j : Fin 4, i.val = 4 * k.val + j.val :=
      ⟨⟨i.val / 4, by omega⟩, ⟨i.val % 4, by omega⟩, by dsimp only; omega⟩
    have hj := j.isLt
    have hbyte : a i = quarter a k j := by
      rw [quarter]
      exact congrArg a (Fin.ext hkj)
    rw [hkj] at hi
    rw [hbyte, hkj]
    fin_cases k
    · exact (congrFun h0 j).trans (if_pos (by dsimp only; omega)).symm
    · exact (congrFun h1 j).trans (if_pos (by dsimp only; omega)).symm
    · fin_cases j <;> exact congrFun h2 _
    · dsimp only at hi
      omega

/-! ## The addresses of a row -/

theorem addrHex6_eq (a : In6Addr) :
    addrHex6 a =
      addrHex4 (quarter a 0) ++ (addrHex4 (quarter a 1) ++ (addrHex4 (quarter a 2) ++ addrHex4 (quarter a 3))) := by
  simp [addrHex6, List.ofFn_succ]

theorem isHex_addrHex4 (a : In4Addr) : ∀ c ∈ addrHex4 a, isDigitOf .hexadecimal c = true :=
  fun _ hc => isDigitOf_hexPadded hc

theorem length_addrHex4 (a : In4Addr) : (addrHex4 a).length = 8 :=
  length_hexPadded (by decide) ((hostWord_lt a).trans_eq (by norm_num))

theorem length_addrHex6 (a : In6Addr) : (addrHex6 a).length = 32 := by
  simp only [addrHex6_eq, List.length_append, length_addrHex4]

theorem magnitude_addrHex4 (a : In4Addr) : magnitude .hexadecimal (addrHex4 a) = hostWord a :=
  magnitude_hexPadded 8 (hostWord a)

theorem cString_addrHex {t : Text} (h : ∀ c ∈ t, isDigitOf .hexadecimal c = true) : cString t = t :=
  cString_eq_self fun hz => absurd (h _ hz) (by decide)

theorem scan_addrHex4 (a : In4Addr) (rest : Text) :
    scanNumber false .hexadecimal (some 8) (addrHex4 a ++ rest) = .value (.number (hostWord a)) rest := by
  have hread : scanNumber false .hexadecimal (some (addrHex4 a).length) (addrHex4 a ++ rest) = _ :=
    scanNumber_width false .hexadecimal (hexPadded_ne_nil 8 (hostWord a)) (isHex_addrHex4 a)
  rw [length_addrHex4, magnitude_addrHex4,
    convert_unsigned ((hostWord_lt a).trans (by norm_num))] at hread
  exact hread

theorem uint32_ofInt_natCast (n : ℕ) : UInt32.ofInt n = UInt32.ofNat n := by
  apply UInt32.toNat_inj.mp
  have hmod : ((n : ℤ) % 2 ^ 32).toNat = n % 2 ^ 32 := by omega
  rw [UInt32.ofInt, hmod, UInt32.toNat_ofNat', UInt32.toNat_ofNat', Nat.mod_mod]

theorem scannedWord_of_number {r : Result} {i n : ℕ} (h : r.values[i]? = some (.number n)) :
    scannedWord r i = UInt32.ofNat n := by
  rw [scannedWord, Result.number, h]
  exact uint32_ofInt_natCast n

theorem sscanf_addrHex4 (a : In4Addr) : scannedWord (sscanf (addrHex4 a) "%X") 0 = UInt32.ofNat (hostWord a) := by
  have hformat : format "%X" = [.number false .hexadecimal true none] := by decide
  have hread : scanNumber false .hexadecimal none ([] ++ (addrHex4 a ++ [])) = _ :=
    scanNumber_digits false .hexadecimal (by simp) (hexPadded_ne_nil 8 (hostWord a)) (isHex_addrHex4 a) (ends_nil _)
  rw [List.append_nil, List.nil_append, magnitude_addrHex4,
    convert_unsigned ((hostWord_lt a).trans (by norm_num))] at hread
  apply scannedWord_of_number
  rw [sscanf, cString_addrHex (isHex_addrHex4 a), hformat, scan_keep_number hread]
  rfl

theorem sscanf_addrHex6 (a : In6Addr) :
    (sscanf (addrHex6 a) "%08X%08X%08X%08X").values =
      [.number (hostWord (quarter a 0)), .number (hostWord (quarter a 1)), .number (hostWord (quarter a 2)),
        .number (hostWord (quarter a 3))] := by
  have hformat : format "%08X%08X%08X%08X" = List.replicate 4 (.number false .hexadecimal true (some 8)) := by decide
  have hclean : cString (addrHex6 a) = addrHex6 a := by
    refine cString_addrHex fun c hc => ?_
    obtain ⟨w, -, hw⟩ := List.mem_flatMap.mp hc
    exact isHex_addrHex4 w c hw
  have hlast : addrHex4 (quarter a 3) = addrHex4 (quarter a 3) ++ [] := (List.append_nil _).symm
  rw [sscanf, hclean, hformat, addrHex6_eq, hlast]
  simp only [List.replicate, scan_keep_number (scan_addrHex4 _ _)]
  rfl

theorem wordByte_hostWord (a : In4Addr) (j : Fin 4) : wordByte (UInt32.ofNat (hostWord a)) j = a j :=
  congrFun (wordAddr4_hostWord a) j

theorem ofNat_hostWord_inj {a b : In4Addr} : UInt32.ofNat (hostWord a) = UInt32.ofNat (hostWord b) ↔ a = b := by
  constructor
  · intro h
    rw [← wordAddr4_hostWord a, h, wordAddr4_hostWord]
  · rintro rfl
    rfl

theorem wordsAddr6_quarters (a : In6Addr) :
    wordsAddr6 (UInt32.ofNat (hostWord (quarter a 0))) (UInt32.ofNat (hostWord (quarter a 1)))
      (UInt32.ofNat (hostWord (quarter a 2))) (UInt32.ofNat (hostWord (quarter a 3))) = a := by
  funext i
  have hlt : i.val % 4 < 4 := Nat.mod_lt _ (by decide)
  have hbyte : ∀ k : Fin 4, i.val / 4 = k.val →
      wordByte (UInt32.ofNat (hostWord (quarter a k))) (i.val % 4) = a i := by
    intro k hk
    have hword := wordByte_hostWord (quarter a k) ⟨i.val % 4, hlt⟩
    rw [hword, quarter]
    congr 1
    apply Fin.ext
    show 4 * k.val + i.val % 4 = i.val
    omega
  unfold wordsAddr6
  split
  · exact hbyte 0 (by show i.val / 4 = 0; omega)
  · split
    · exact hbyte 1 (by show i.val / 4 = 1; omega)
    · split
      · exact hbyte 2 (by show i.val / 4 = 2; omega)
      · exact hbyte 3 (by show i.val / 4 = 3; omega)

theorem quarter_three (a : In6Addr) : quarter a 3 = embedded a := by
  funext j
  fin_cases j <;> rfl

theorem decodeAddrs_hex (s : Socket) : decodeAddrs s.locHex s.remHex = s.addrs.decoded := by
  unfold decodeAddrs Socket.locHex Socket.remHex
  cases s.addrs with
  | inet a b =>
    dsimp only
    rw [length_addrHex4, if_neg (by decide), sscanf_addrHex4, sscanf_addrHex4, wordAddr4_hostWord, wordAddr4_hostWord]
    rfl
  | inet6 a b =>
    have hlen : (addrHex6 a).length = 32 := length_addrHex6 a
    have hword : ∀ (c : In6Addr) (i : ℕ) (k : Fin 4), i = k.val →
        scannedWord (sscanf (addrHex6 c) "%08X%08X%08X%08X") i = UInt32.ofNat (hostWord (quarter c k)) := by
      rintro c i k rfl
      apply scannedWord_of_number
      rw [sscanf_addrHex6]
      fin_cases k <;> rfl
    have h0 := fun c => hword c 0 0 rfl
    have h1 := fun c => hword c 1 1 rfl
    have h2 := fun c => hword c 2 2 rfl
    have h3 := fun c => hword c 3 3 rfl
    have hzero : (0 : UInt32) = UInt32.ofNat (hostWord fun _ => 0) := by decide
    have hmark : (0xFFFF0000 : UInt32) = UInt32.ofNat (hostWord ![0, 0, 0xFF, 0xFF]) := by decide
    have hmapped : (scannedWord (sscanf (addrHex6 a) "%08X%08X%08X%08X") 0 = 0 ∧
        scannedWord (sscanf (addrHex6 a) "%08X%08X%08X%08X") 1 = 0 ∧
        scannedWord (sscanf (addrHex6 a) "%08X%08X%08X%08X") 2 = 0xFFFF0000) ↔ Mapped a := by
      rw [h0, h1, h2, hmark, hzero, ofNat_hostWord_inj, ofNat_hostWord_inj, ofNat_hostWord_inj, mapped_iff]
    dsimp only
    rw [hlen, if_pos (by decide), if_congr hmapped rfl rfl, RowAddrs.decoded, h3, h3, h0, h0, h1, h1, h2, h2,
      wordsAddr6_quarters, wordsAddr6_quarters, wordAddr4_hostWord,
      wordAddr4_hostWord, quarter_three, quarter_three]

/-! ## The row -/

/-- The bracket of `%64[0-9A-Fa-f]`. -/
def hexSet : List Char := "0-9A-Fa-f".toList

theorem rowFormat :
    format ("%*d: %64[0-9A-Fa-f]:%X %64[0-9A-Fa-f]:%X %*X " ++ "%*X:%*X %*X:%*X %*X %*d %*d %ld %*512s\n") =
      [.number true .decimal false none, .exact ':', .blank, .span hexSet true (some 64), .exact ':',
        .number false .hexadecimal true none, .blank, .span hexSet true (some 64), .exact ':',
        .number false .hexadecimal true none, .blank, .number false .hexadecimal false none,
        .blank, .number false .hexadecimal false none, .exact ':', .number false .hexadecimal false none,
        .blank, .number false .hexadecimal false none, .exact ':', .number false .hexadecimal false none,
        .blank, .number false .hexadecimal false none, .blank, .number true .decimal false none,
        .blank, .number true .decimal false none, .blank, .number true .decimal true none,
        .blank, .word false (some 512), .blank] := by decide

theorem mem_addrHex6 {p : Char → Prop} (h : ∀ d < 16, p (Nat.digitChar d).toUpper) (a : In6Addr) :
    ∀ c ∈ addrHex6 a, p c := by
  intro c hc
  obtain ⟨w, -, hw⟩ := List.mem_flatMap.mp hc
  exact mem_hexPadded h hw

theorem mem_addrHex {p : Char → Prop} (h : ∀ d < 16, p (Nat.digitChar d).toUpper) (s : Socket) :
    (∀ c ∈ s.locHex, p c) ∧ ∀ c ∈ s.remHex, p c := by
  unfold Socket.locHex Socket.remHex
  cases s.addrs with
  | inet a b => exact ⟨fun _ hc => mem_hexPadded h hc, fun _ hc => mem_hexPadded h hc⟩
  | inet6 a b => exact ⟨mem_addrHex6 h a, mem_addrHex6 h b⟩

theorem length_addrHex (s : Socket) :
    (0 < s.locHex.length ∧ s.locHex.length ≤ 64) ∧ 0 < s.remHex.length ∧ s.remHex.length ≤ 64 := by
  unfold Socket.locHex Socket.remHex
  cases s.addrs with
  | inet a b => simp only [length_addrHex4]; omega
  | inet6 a b => simp only [length_addrHex6]; omega

theorem scan_keep_addr {t : Text} (hdigits : ∀ c ∈ t, isDigitOf .hexadecimal c = true)
    (hset : ∀ c ∈ t, inSet c hexSet = true) (hlen : 0 < t.length ∧ t.length ≤ 64) (items : List Item) (rest : Text) :
    scan (.blank :: .span hexSet true (some 64) :: items) (' ' :: (t ++ ':' :: rest)) =
      { scan items (':' :: rest) with values := .text t :: (scan items (':' :: rest)).values } := by
  have hne : t ≠ [] := List.ne_nil_of_length_pos hlen.1
  have hread : scanSpan hexSet (some 64) (t ++ ':' :: rest) = .value (.text t) (':' :: rest) :=
    scanSpan_field hne hlen.2 hset fun c hc => by
      cases hc
      rfl
  rw [← scan_keep_span hread]
  refine scan_blank _ _ (blank_singleton ' ' rfl) fun c hc => ?_
  exact (digit_facts (head?_digits hne hdigits hc)).1

theorem scan_row (s : Socket) (more : Text) :
    (scan (format ("%*d: %64[0-9A-Fa-f]:%X %64[0-9A-Fa-f]:%X %*X " ++ "%*X:%*X %*X:%*X %*X %*d %*d %ld %*512s\n"))
      (s.fields more)).values =
      [.text s.locHex, .number s.locPort.toNat, .text s.remHex, .number s.remPort.toNat,
        .number (clamped s.inode.toNat)] := by
  obtain ⟨hloc, hrem⟩ := mem_addrHex (p := fun c => isDigitOf .hexadecimal c = true) (by decide) s
  obtain ⟨hlocSet, hremSet⟩ := mem_addrHex (p := fun c => inSet c hexSet = true) (by decide) s
  obtain ⟨hlocLength, hremLength⟩ := length_addrHex s
  have hlocPort : s.locPort.toNat < 2 ^ 64 := s.locPort.toNat_lt.trans (by norm_num)
  have hremPort : s.remPort.toNat < 2 ^ 64 := s.remPort.toNat_lt.trans (by norm_num)
  have htail : ∀ i ∈ [Item.blank, .word false (some 512), .blank], i.silent := by simp [Item.silent]
  rw [rowFormat, Socket.fields, scan_skip_int _ _ _ _ (by decide), scan_exact, scan_keep_addr hloc hlocSet hlocLength,
    scan_exact, scan_keep_hex _ _ _ _ hlocPort (by decide), scan_keep_addr hrem hremSet hremLength, scan_exact,
    scan_keep_hex _ _ _ _ hremPort (by decide), scan_blank_skip_hex _ _ _ _ (by decide),
    scan_blank_skip_hex _ _ _ _ (by decide), scan_exact, scan_skip_hex _ _ _ _ (by decide),
    scan_blank_skip_hex _ _ _ _ (by decide), scan_exact, scan_skip_hex _ _ _ _ (by decide),
    scan_blank_skip_hex _ _ _ _ (by decide), scan_blank_skip_int _ _ _ _ (by decide),
    scan_blank_skip_int _ _ _ _ (by decide), scan_blank_keep_int _ _ _ (by decide)]
  dsimp only
  rw [scan_silent _ htail]

theorem cString_cons {c : Char} (h : c ≠ '\x00') (rest : Text) : cString (c :: rest) = c :: cString rest :=
  List.takeWhile_cons_of_pos (by simpa using h)

theorem fields_append (s : Socket) (more : Text) : s.fields more = s.fields [] ++ more := by simp [Socket.fields]

/-- The printed part of a row is made of hexadecimal digits, minus signs, colons and blanks. -/
theorem not_mem_fields (s : Socket) {c : Char} (hdigit : isDigitOf .hexadecimal c = false) (hminus : c ≠ '-')
    (hcolon : c ≠ ':') (hspace : c ≠ ' ') : c ∉ s.fields [] := by
  obtain ⟨hloc, hrem⟩ := mem_addrHex (p := fun c => isDigitOf .hexadecimal c = true) (by decide) s
  have hlocal : c ∉ s.locHex := fun hc => absurd (hloc c hc) (by simp [hdigit])
  have hremote : c ∉ s.remHex := fun hc => absurd (hrem c hc) (by simp [hdigit])
  have hhex : ∀ w n, c ∉ hexPadded w n := fun w n hc => absurd (isDigitOf_hexPadded hc) (by simp [hdigit])
  have hdecimal : c.isDigit = false := by
    simp only [isDigitOf, Bool.or_eq_false_iff] at hdigit
    exact hdigit.1.1
  have hint : ∀ z, c ∉ decimalInt z := not_mem_decimalInt hdecimal hminus
  simp [Socket.fields, hlocal, hremote, hhex, hint, hcolon, hspace]

theorem cString_fields (s : Socket) (more : Text) : cString (s.fields more) = s.fields (cString more) := by
  rw [fields_append, fields_append s (cString more),
    cString_append (not_mem_fields s (by decide) (by decide) (by decide) (by decide))]

theorem newline_not_mem_line (s : Socket) : '\n' ∉ s.line := by
  rw [Socket.line, fields_append, List.mem_append]
  exact not_or.mpr ⟨not_mem_fields s (by decide) (by decide) (by decide) (by decide), s.tail_line⟩

/-- What the row of a socket is read as. -/
def Socket.row (s : Socket) : SocketRow :=
  { addrs := s.addrs.decoded
    locPort := s.locPort.toNat
    remPort := s.remPort.toNat
    inode := UInt64.ofNat s.inode.toNat }

theorem Socket.row_inode (s : Socket) :
    s.row.inode.toNat = s.inode.toNat ∧ s.row.inode.toUInt32 = s.inode := by
  have hlt := s.inode.toNat_lt
  have hnat : s.row.inode.toNat = s.inode.toNat := by
    rw [Socket.row, UInt64.toNat_ofNat', Nat.mod_eq_of_lt (by omega)]
  refine ⟨hnat, UInt32.toNat_inj.mp ?_⟩
  rw [UInt64.toNat_toUInt32, hnat, Nat.mod_eq_of_lt hlt]

theorem storedInt_port (p : UInt16) : storedInt p.toNat = p.toNat := by
  have hp := p.toNat_lt
  unfold storedInt
  exact Int.bmod_eq_of_le (by omega) (by omega)

theorem clamped_inode (n : UInt32) : clamped n.toNat = n.toNat := by
  have hn := n.toNat_lt
  unfold clamped
  omega

theorem uint64_ofInt_natCast (n : ℕ) : UInt64.ofInt n = UInt64.ofNat n := by
  apply UInt64.toNat_inj.mp
  have hmod : ((n : ℤ) % 2 ^ 64).toNat = n % 2 ^ 64 := by omega
  rw [UInt64.ofInt, hmod, UInt64.toNat_ofNat', UInt64.toNat_ofNat', Nat.mod_mod]

/-- Every row is read back. -/
theorem decodeRow_line (s : Socket) : decodeRow s.line = some s.row := by
  unfold decodeRow
  rw [sscanf, Socket.line, cString_fields, scan_row]
  dsimp only
  rw [decodeAddrs_hex, storedInt_port, storedInt_port, clamped_inode, uint64_ofInt_natCast]
  rfl

/-! ## Lines that are not rows -/

/-- The first thing that is not white space is neither a digit nor a sign. -/
theorem decodeRow_of_head {t rest : Text} {c : Char} (h : (cString t).dropWhile isSpace = c :: rest)
    (hdigit : c.isDigit = false) (hminus : c ≠ '-') (hplus : c ≠ '+') : decodeRow t = none := by
  unfold decodeRow
  rw [sscanf, rowFormat, scan_number, scanNumber_mismatch true .decimal h hdigit hminus hplus]
  rfl

theorem decodeRow_of_blank {t : Text} (h : ∀ c ∈ t, isSpace c = true) : decodeRow t = none := by
  have hclean : cString t = t := cString_eq_self fun hz => absurd (h _ hz) (by decide)
  have hread : scanNumber true .decimal none t = .ended := by
    unfold scanNumber
    dsimp only
    rw [List.dropWhile_eq_nil_iff.mpr h, if_pos rfl]
  unfold decodeRow
  rw [sscanf, rowFormat, hclean, scan_number, hread]
  rfl

/-- A line of a socket table: the column heads, a row, a line of white space, or any other
line from which the row format does not assign five values. -/
inductive TableLine where
  | heads (indent : ℕ) (columns : Text) (one_line : '\n' ∉ columns)
  | row (s : Socket)
  | blank (t : Text) (one_line : '\n' ∉ t) (spaces : ∀ c ∈ t, isSpace c = true)
  | other (t : Text) (one_line : '\n' ∉ t) (no_match : decodeRow t = none)

namespace TableLine

def text : TableLine → Text
  | heads indent columns _ => List.replicate indent ' ' ++ 's' :: 'l' :: ' ' :: columns
  | row s => s.line
  | blank t _ _ => t
  | other t _ _ => t

def socket : TableLine → Option Socket
  | row s => some s
  | _ => none

theorem decodeRow_text (l : TableLine) : decodeRow l.text = l.socket.map Socket.row := by
  cases l with
  | heads indent columns _ =>
    have hspace : ∀ c ∈ List.replicate indent ' ', isSpace c = true := by
      intro c hc
      rw [List.eq_of_mem_replicate hc]
      rfl
    have hclean : cString (List.replicate indent ' ' ++ 's' :: 'l' :: ' ' :: columns) =
        List.replicate indent ' ' ++ 's' :: 'l' :: ' ' :: cString columns := by
      rw [cString_append fun hz => absurd (hspace _ hz) (by decide), cString_cons (by decide), cString_cons (by decide),
        cString_cons (by decide)]
    have hword : (cString (List.replicate indent ' ' ++ 's' :: 'l' :: ' ' :: columns)).dropWhile isSpace =
        's' :: 'l' :: ' ' :: cString columns := by
      rw [hclean]
      refine dropWhile_blanks hspace fun c hc => ?_
      cases hc
      rfl
    exact decodeRow_of_head hword rfl (by decide) (by decide)
  | row s => exact decodeRow_line s
  | blank t _ spaces => exact decodeRow_of_blank spaces
  | other t _ no_match => exact no_match

theorem newline_not_mem_text (l : TableLine) : '\n' ∉ l.text := by
  cases l with
  | heads indent columns one_line => simp [text, one_line]
  | row s => exact newline_not_mem_line s
  | blank t one_line _ => exact one_line
  | other t one_line _ => exact one_line

end TableLine

/-! ## What a table leaves -/

/-- The key of a socket, and the one it has for each device. -/
def rowKeys (devices : List CapDevice) (loc rem : Address) (locPort remPort : ℕ) : List Text :=
  (loc.text ++ ':' :: (decimal locPort ++ '-' :: (rem.text ++ decimal remPort))) ::
    devices.map fun d => d.getLocalAddr ++ ':' :: (decimal locPort ++ '-' :: (rem.text ++ ':' :: decimal remPort))

/-- A socket of an IPv6 table with a mapped local address has the keys of the IPv4 socket. -/
def Socket.keys (devices : List CapDevice) (s : Socket) : List Text :=
  match s.addrs with
  | .inet a b => rowKeys devices (.v4 a) (.v4 b) s.locPort.toNat s.remPort.toNat
  | .inet6 a b =>
      if Mapped a then rowKeys devices (.v4 (embedded a)) (.v4 (embedded b)) s.locPort.toNat s.remPort.toNat
      else rowKeys devices (.v6 a) (.v6 b) s.locPort.toNat s.remPort.toNat

/-- What a line writes: nothing, or the inode of its socket under each of the keys. -/
def TableLine.writes (devices : List CapDevice) (l : TableLine) : List (Text × UInt32) :=
  match l with
  | .row s => if s.inode = 0 then [] else (s.keys devices).map fun key => (key, s.inode)
  | _ => []

theorem keys_row (devices : List CapDevice) (s : Socket) : s.row.keys devices = s.keys devices := by
  have hntop : ∀ a : Address, inetNtop a.text 49 [] = a.text := fun a => inetNtop_fits a.length_text_lt []
  unfold SocketRow.keys SocketRow.ownKey SocketRow.deviceKey Socket.keys
  rw [hntop, hntop, Socket.row]
  cases s.addrs with
  | inet a b => rfl
  | inet6 a b =>
    unfold RowAddrs.decoded
    dsimp only
    split <;> rfl

theorem parseBuffer_text (devices : List CapDevice) (h : CapInodeHelper) (l : TableLine) :
    h.parseBuffer devices l.text =
      { h with netToInodes := (l.writes devices).foldl (fun m w => Function.update m w.1 (some w.2)) h.netToInodes } := by
  unfold CapInodeHelper.parseBuffer
  rw [l.decodeRow_text]
  cases l with
  | row s =>
    have hword := s.row_inode
    have hzero : s.row.inode = 0 ↔ s.inode = 0 := by
      rw [← UInt64.toNat_inj, ← UInt32.toNat_inj, hword.1]
      rfl
    simp only [TableLine.socket, Option.map_some, TableLine.writes, CapInodeHelper.storeRow, hzero, hword.2, keys_row]
    split
    · rfl
    · rw [List.foldl_map]
      rfl
  | heads | blank | other => rfl

theorem foldl_parseBuffer_text (devices : List CapDevice) (lines : List TableLine) (h : CapInodeHelper) :
    (lines.map TableLine.text).foldl (CapInodeHelper.parseBuffer devices) h =
      { h with
        netToInodes := (lines.flatMap (TableLine.writes devices)).foldl
          (fun m w => Function.update m w.1 (some w.2)) h.netToInodes } := by
  induction lines generalizing h with
  | nil => rfl
  | cons l lines ih =>
    rw [List.map_cons, List.foldl_cons, ih, parseBuffer_text, List.flatMap_cons, List.foldl_append]

/-- The `Parse` of a socket file: for every list of lines that fit the buffer, whatever the
maps held before, it ends, and `netToInodes` has been written to by the rows in order. A row
whose local address is mapped does what the IPv4 row of the embedded addresses does. -/
theorem socket_table_decoded (devices : List CapDevice) (lines : List TableLine) (h : CapInodeHelper)
    (hfit : ∀ l ∈ lines, l.text.length < bufferSize) :
    (∃ fuel, CapInodeHelper.parseLoop devices fuel
        (some (opened (joinLines '\n' (lines.map TableLine.text)) .eof)) h =
      some (0, { h with
        netToInodes := (lines.flatMap (TableLine.writes devices)).foldl
          (fun m w => Function.update m w.1 (some w.2)) h.netToInodes })) ∧
    ∀ (s : Socket) (a b : In6Addr), s.addrs = .inet6 a b → Mapped a →
      h.parseBuffer devices s.line =
        h.parseBuffer devices ({ s with addrs := .inet (embedded a) (embedded b) } : Socket).line := by
  constructor
  · have hskip : ∀ (h : CapInodeHelper) (t : Text),
        (if cString t = [] then h else h.parseBuffer devices t) = h.parseBuffer devices t := by
      intro h t
      split
      · next hnil =>
        have hrow : decodeRow t = none := by
          unfold decodeRow
          rw [sscanf, rowFormat, hnil]
          rfl
        rw [CapInodeHelper.parseBuffer, hrow]
      · rfl
    have hline : ∀ t ∈ lines.map TableLine.text, '\n' ∉ t := by
      intro t ht
      obtain ⟨l, -, rfl⟩ := List.mem_map.mp ht
      exact l.newline_not_mem_text
    refine (readLoop_lines_iff (fun h t => if cString t = [] then h else CapInodeHelper.parseBuffer devices h t)
      (fun h => if_pos rfl) _ hline h _).mpr ⟨List.forall_mem_map.mpr hfit, ?_⟩
    simp only [hskip]
    rw [foldl_parseBuffer_text]
  · intro s a b haddrs hmapped
    have hrows : s.row = ({ s with addrs := .inet (embedded a) (embedded b) } : Socket).row := by
      simp [Socket.row, haddrs, RowAddrs.decoded, hmapped]
    unfold CapInodeHelper.parseBuffer
    rw [decodeRow_line, decodeRow_line, hrows]

def exampleSocket (addrs : RowAddrs) (inode : UInt32) : Socket :=
  { addrs := addrs, locPort := 8080, remPort := 443, inode := inode, slot := 0, slotWidth := 4, state := 1, txQueue := 0,
    rxQueue := 0, timer := 0, timerWhen := 0, retransmits := 0, uid := 1000, timeout := 0, tail := "1 0".toList,
    tail_line := by decide }

def mappedTwo : In6Addr := ![0, 0, 0, 0, 0, 0, 0, 0, 0, 0, 255, 255, 10, 0, 0, 2]

/-- A table of a mapped socket, a blank line and a socket without an inode. -/
theorem socket_table_decoded_mapped :
    let lines : List TableLine := [.heads 2 "local_address".toList (by decide),
      .row (exampleSocket (.inet6 mappedTwo fun _ => 0) 77), .blank [] (by decide) (by simp),
      .row (exampleSocket (.inet ![127, 0, 0, 1] ![127, 0, 0, 1]) 0)]
    ∃ fuel, CapInodeHelper.parseLoop [] fuel (some (opened (joinLines '\n' (lines.map TableLine.text)) .eof)) {} =
      some (0, { netToInodes := Function.update (fun _ => none) "10.0.0.2:8080-0.0.0.0443".toList (some 77) }) := by
  intro lines
  have hfit : ∀ l ∈ lines, l.text.length < bufferSize := by decide +kernel
  obtain ⟨fuel, hfuel⟩ := (socket_table_decoded [] lines {} hfit).1
  have hwrites : lines.flatMap (TableLine.writes []) = [("10.0.0.2:8080-0.0.0.0443".toList, 77)] := by decide +kernel
  rw [hwrites] at hfuel
  exact ⟨fuel, hfuel⟩

end Capture
