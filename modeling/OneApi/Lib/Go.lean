import Mathlib.Data.List.DropRight
import Mathlib.Data.List.Infix
import Mathlib.Tactic.NormNum

/-!
# The parts of Go's language and standard library the model runs on

Fixed-width integers, `strings.TrimSpace`, `strings.Trim`, `strings.Contains` and the `time` package, each under
Go's own name.

* `int64` arithmetic wraps: `wrap64` is the value a 64-bit two's complement result has.
* `time.Time` is only ever built by `time.Unix(s, 0)` and `time.Date(.., 0, loc)`, so it is a
  whole number of Unix seconds.  `time.Duration` is an `int64` count of nanoseconds.
* A `Location` answers which offset is in force at an instant and from when to when, as the
  zone table behind `time.Local` does; `date` resolves a wall clock reading the way
  `time.Date` documents and implements it, by at most two lookups.
-/

namespace OneApi.Lib.Go

/-! ## Integers -/

/-- `math.MaxInt64`. -/
def maxInt64 : ℤ := 2 ^ 63 - 1

/-- The values of an `int64`. -/
def InInt64 (x : ℤ) : Prop := -2 ^ 63 ≤ x ∧ x ≤ maxInt64

instance (x : ℤ) : Decidable (InInt64 x) := inferInstanceAs (Decidable (_ ∧ _))

/-- The `int64` result of an operation whose exact result is `x`. -/
def wrap64 (x : ℤ) : ℤ := (x + 2 ^ 63) % 2 ^ 64 - 2 ^ 63

theorem wrap64_eq_self {x : ℤ} (h : InInt64 x) : wrap64 x = x := by
  unfold InInt64 maxInt64 at h
  unfold wrap64
  rw [Int.emod_eq_of_lt] <;> omega

/-! ## Strings -/

/-- `unicode.IsSpace`. -/
def isSpace (c : Char) : Bool :=
  let n := c.toNat
  (9 ≤ n && n ≤ 13) || n == 0x20 || n == 0x85 || n == 0xa0 || n == 0x1680 ||
    (0x2000 ≤ n && n ≤ 0x200a) || n == 0x2028 || n == 0x2029 || n == 0x202f || n == 0x205f ||
    n == 0x3000

/-- `strings.TrimSpace`. -/
def trimSpace (s : String) : String :=
  String.ofList ((s.toList.dropWhile isSpace).reverse.dropWhile isSpace).reverse

/-- Trimming a trimmed text changes nothing. -/
theorem trimSpace_trimSpace (s : String) : trimSpace (trimSpace s) = trimSpace s := by
  set l := s.toList.dropWhile isSpace with hl
  have htrim : trimSpace s = String.ofList (l.rdropWhile isSpace) := rfl
  -- what is left on the right starts where the left trim stopped
  have hleft : (l.rdropWhile isSpace).dropWhile isSpace = l.rdropWhile isSpace := by
    rw [List.dropWhile_eq_self_iff]
    intro hpos
    have hpre := List.rdropWhile_prefix isSpace l
    have hpos' : 0 < l.length := lt_of_lt_of_le hpos hpre.length_le
    rw [hpre.getElem hpos]
    exact List.dropWhile_get_zero_not isSpace s.toList hpos'
  rw [htrim]
  unfold trimSpace
  rw [String.toList_ofList, hleft]
  exact congrArg String.ofList (List.rdropWhile_idempotent isSpace l)

theorem dropWhile_isSpace {cs : List Char} (h : ∀ c ∈ cs, isSpace c = false) : cs.dropWhile isSpace = cs := by
  rw [List.dropWhile_eq_self_iff]
  intro hpos
  rw [h _ (List.getElem_mem hpos)]
  exact Bool.false_ne_true

/-- A text without spaces is trimmed. -/
theorem trimSpace_of_forall {cs : List Char} (h : ∀ c ∈ cs, isSpace c = false) :
    trimSpace (String.ofList cs) = String.ofList cs := by
  have hreverse : ∀ c ∈ cs.reverse, isSpace c = false := fun c hc => h c (List.mem_reverse.mp hc)
  rw [trimSpace, String.toList_ofList, dropWhile_isSpace h, dropWhile_isSpace hreverse, List.reverse_reverse]

/-- `strings.Split` at a character: the pieces between the separators, one more than there are separators. -/
def split (s : String) (sep : Char) : List String := (s.toList.splitOn sep).map String.ofList

theorem split_ne_nil (s : String) (sep : Char) : split s sep ≠ [] := by
  rw [split, ne_eq, List.map_eq_nil_iff]
  exact List.splitOn_ne_nil sep s.toList

/-- `strings.Cut` at one character. -/
def cut (s : String) (sep : Char) : Option (String × String) :=
  match s.toList.dropWhile (· ≠ sep) with
  | [] => none
  | _ :: after => some (String.ofList (s.toList.takeWhile (· ≠ sep)), String.ofList after)

def hexDigits : List Char :=
  ['0', '1', '2', '3', '4', '5', '6', '7', '8', '9', 'a', 'b', 'c', 'd', 'e', 'f']

def hexDigit (n : ℕ) : Char := hexDigits.getD n '0'

/-- `hex.EncodeToString`. -/
def hexEncode (bytes : List UInt8) : String :=
  String.ofList (bytes.flatMap fun b => [hexDigit (b.toNat / 16), hexDigit (b.toNat % 16)])

theorem isSpace_hexDigit (n : ℕ) : isSpace (hexDigit n) = false := by
  rw [hexDigit, List.getD_eq_getElem?_getD]
  cases hn : hexDigits[n]? with
  | none => rfl
  | some c =>
    have hall : hexDigits.all (fun d => !isSpace d) = true := rfl
    have hc := List.all_eq_true.mp hall c (List.mem_of_getElem? hn)
    rwa [Bool.not_eq_true'] at hc

theorem trimSpace_hexEncode (bytes : List UInt8) : trimSpace (hexEncode bytes) = hexEncode bytes := by
  apply trimSpace_of_forall
  intro c hc
  obtain ⟨b, -, hb⟩ := List.mem_flatMap.mp hc
  rcases List.mem_cons.mp hb with rfl | hb
  · exact isSpace_hexDigit _
  · rw [List.mem_singleton.mp hb]
    exact isSpace_hexDigit _

/-- `strings.Contains`. -/
def contains (s sub : String) : Bool := decide (sub.toList <:+: s.toList)

/-- Simple case folding to a letter of ASCII: the only letters outside it that fold there are the
Kelvin sign and the long s. -/
def foldCase (c : Char) : Char :=
  if c.toNat = 0x212a then 'k' else if c.toNat = 0x17f then 's' else c.toLower

/-- `strings.EqualFold`, one of the texts being ASCII. -/
def equalFold (s t : String) : Bool := s.toList.map foldCase == t.toList.map foldCase

/-- The bytes of characters in UTF-8. -/
def byteCount : List Char → ℕ
  | [] => 0
  | c :: cs => c.utf8Size + byteCount cs

/-- `len` of a text, in bytes. -/
def len (s : String) : ℕ := byteCount s.toList

theorem byteCount_append (cs ds : List Char) : byteCount (cs ++ ds) = byteCount cs + byteCount ds := by
  induction cs with
  | nil => exact (Nat.zero_add _).symm
  | cons c cs ih => rw [List.cons_append, byteCount, byteCount, ih, Nat.add_assoc]

theorem len_append (s t : String) : len (s ++ t) = len s + len t := by
  rw [len, String.toList_append, byteCount_append, len, len]

theorem len_eq_zero {s : String} : len s = 0 ↔ s = "" := by
  constructor
  · intro h
    rw [len] at h
    cases hs : s.toList with
    | nil => exact String.toList_inj.mp hs
    | cons c cs =>
      have hpos := c.utf8Size_pos
      rw [hs, byteCount] at h
      omega
  · rintro rfl
    rfl

/-- The characters left of a text when `n` bytes are dropped; a character that is cut is dropped. -/
def dropBytesAux : List Char → ℕ → List Char
  | [], _ => []
  | c :: cs, n => if n = 0 then c :: cs else dropBytesAux cs (n - c.utf8Size)

/-- The slice `s[n:]`. -/
def dropBytes (s : String) (n : ℕ) : String := String.ofList (dropBytesAux s.toList n)

theorem dropBytesAux_append (cs ds : List Char) : dropBytesAux (cs ++ ds) (byteCount cs) = ds := by
  induction cs with
  | nil => cases ds <;> simp [byteCount, dropBytesAux]
  | cons c cs ih =>
    have hpos := c.utf8Size_pos
    rw [List.cons_append, dropBytesAux, byteCount, if_neg (by omega), Nat.add_sub_cancel_left, ih]

/-- What follows a first part is what is left when its bytes are dropped. -/
theorem dropBytes_append (s t : String) : dropBytes (s ++ t) (len s) = t := by
  rw [dropBytes, String.toList_append, len, dropBytesAux_append, String.ofList_toList]

/-! ## The calendar -/

/-- Days from 1970-01-01 to a date of the proleptic Gregorian calendar, `1 ≤ month ≤ 12`. -/
def daysFromCivil (year month day : ℤ) : ℤ :=
  let y := if month ≤ 2 then year - 1 else year
  let era := y / 400
  let yoe := y - era * 400
  let doy := (153 * (if 2 < month then month - 3 else month + 9) + 2) / 5 + day - 1
  era * 146097 + (yoe * 365 + yoe / 4 - yoe / 100 + doy) - 719468

/-- Year, month and day of a day number. -/
def civilFromDays (days : ℤ) : ℤ × ℤ × ℤ :=
  let z := days + 719468
  let era := z / 146097
  let doe := z - era * 146097
  let yoe := (doe - doe / 1460 + doe / 36524 - doe / 146096) / 365
  let doy := doe - (365 * yoe + yoe / 4 - yoe / 100)
  let mp := (5 * doy + 2) / 153
  let month := if mp < 10 then mp + 3 else mp - 9
  let year := yoe + era * 400
  (if month ≤ 2 then year + 1 else year, month, doy - (153 * mp + 2) / 5 + 1)

/-! ## `time.Location`, `time.Date` and the methods of `time.Time` -/

/-- One entry of a zone table: the offset east of UTC in force from `start` until `stop`. -/
structure Zone where
  offset : ℤ
  start : ℤ
  stop : ℤ

structure Location where
  lookup : ℤ → Zone

/-- A zone without transitions, as `time.UTC` and the zones `time.FixedZone` builds. -/
def Location.fixed (offset : ℤ) : Location := ⟨fun _ => ⟨offset, -2 ^ 63, maxInt64⟩⟩

/-- Seconds of the wall clock at an instant. -/
def Location.wall (loc : Location) (t : ℤ) : ℤ := t + (loc.lookup t).offset

/-- `time.Date(year, month, day, hour, min, sec, 0, loc).Unix()`; values outside their usual
ranges are normalised. -/
def date (loc : Location) (year month day hour min sec : ℤ) : ℤ :=
  let m := month - 1
  let days := daysFromCivil (year + m / 12) (m % 12 + 1) 1 + (day - 1)
  let unix := days * 86400 + hour * 3600 + min * 60 + sec
  let zone := loc.lookup unix
  if zone.offset = 0 then unix
  else
    let utc := unix - zone.offset
    -- the guess was made with the wall clock reading: look up again near a transition
    if utc < zone.start ∨ zone.stop ≤ utc then unix - (loc.lookup utc).offset else utc

/-- `t.Date()`. -/
def civil (loc : Location) (t : ℤ) : ℤ × ℤ × ℤ := civilFromDays (loc.wall t / 86400)

/-- `t.Weekday()`, Sunday = 0. -/
def weekday (loc : Location) (t : ℤ) : ℤ := (loc.wall t / 86400 + 4) % 7

/-- `t.AddDate(years, months, days)`. -/
def addDate (loc : Location) (t years months days : ℤ) : ℤ :=
  let (y, m, d) := civil loc t
  let clock := loc.wall t % 86400
  date loc (y + years) (m + months) (d + days) (clock / 3600) (clock / 60 % 60) (clock % 60)

/-- `time.Second`, `time.Hour`. -/
def second : ℤ := 10 ^ 9

def hour : ℤ := 3600 * 10 ^ 9

/-- `t.Add(d).Unix()` for a time on a whole second. -/
def add (t d : ℤ) : ℤ := t + d / second

example : date (Location.fixed 28800) 2025 2 31 0 0 0 = 1740931200 := by decide

example : civil (Location.fixed 28800) 1740931200 = (2025, 3, 3) := by decide

end OneApi.Lib.Go
