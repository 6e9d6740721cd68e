import MiniCloud.Lib.Text
import Mathlib.Data.List.TakeWhile

/-!
# Go times

`time.Time` is an instant with a location attached for display. Comparisons look at
the instant alone; `validateUTC`-style checks look at the zone. The instant is counted
in nanoseconds from Go's zero time, so `IsZero` is `instant = 0`.

The monotonic clock reading that `time.Now` adds is not part of the model: every
stored time has been through `Round(0)`, which drops it, or came with a command.

`format` is `Format(time.RFC3339Nano)`. The calendar is the proleptic Gregorian one, counted in
eras of 400 years that begin on the first of March.
-/

namespace MiniCloud.Lib

/-- A Go `time.Duration`, in nanoseconds. -/
abbrev Duration := Int

namespace Duration

def millisecond : Duration := 1000000
def second : Duration := 1000000000
def minute : Duration := 60 * second
def hour : Duration := 3600 * second

end Duration

/-- Where a time is displayed. -/
inductive Zone where
  /-- The location `time.UTC` itself. -/
  | utc
  /-- Any other location, with its offset in seconds east of UTC. -/
  | fixed (offset : Int)
  deriving DecidableEq, Repr

/-- The offset `Zone()` reports. -/
def Zone.offset : Zone → Int
  | .utc => 0
  | .fixed o => o

/-- A Go `time.Time`. -/
structure Time where
  /-- Nanoseconds since January 1, year 1, 00:00:00 UTC. -/
  instant : Int
  zone : Zone
  deriving DecidableEq, Repr

namespace Time

/-- The zero `time.Time{}`. -/
def zero : Time := ⟨0, .utc⟩

def isZero (t : Time) : Bool := t.instant = 0

/-- `_, offset := t.Zone(); offset == 0`. -/
def isUTC (t : Time) : Bool := t.zone.offset = 0

def before (t u : Time) : Bool := t.instant < u.instant

def after (t u : Time) : Bool := u.instant < t.instant

def equal (t u : Time) : Bool := t.instant = u.instant

/-- The last second that a time can hold, an `int64` counted from year 1. -/
def lastSecond : Int := 9223372036854775807

/-- Seconds stop at the ends of the range; `addSec` goes one short of the first. -/
def addSec (seconds : Int) : Int :=
  if lastSecond < seconds then lastSecond
  else if seconds < -lastSecond - 1 then -lastSecond
  else seconds

/-- The nanoseconds are added first and carried, so they are those of the exact sum. -/
def add (t : Time) (d : Duration) : Time :=
  { t with instant := addSec ((t.instant + d) / Duration.second) * Duration.second +
      (t.instant + d) % Duration.second }

/-- The exact sum is a time. -/
def Fits (t : Time) (d : Duration) : Prop :=
  -lastSecond - 1 ≤ (t.instant + d) / Duration.second ∧
    (t.instant + d) / Duration.second ≤ lastSecond

variable {t u : Time} {m : Int} {n w : Nat} {b : UInt8}

@[simp] theorem before_eq_false : t.before u = false ↔ u.instant ≤ t.instant := by
  simp [before]

@[simp] theorem after_iff : t.after u = true ↔ u.instant < t.instant := by
  simp [after]

@[simp] theorem equal_iff : t.equal u = true ↔ t.instant = u.instant := by
  simp [equal]

theorem add_instant {d : Duration} (h : t.Fits d) : (t.add d).instant = t.instant + d := by
  obtain ⟨hfirst, hlast⟩ := h
  rw [add, addSec, if_neg (by omega), if_neg (by omega)]
  exact Int.ediv_mul_add_emod _ _

/-! ## RFC 3339 -/

/-- Year, month and day of the day so many days after January 1, year 1. -/
def civil (days : Int) : Int × Nat × Nat :=
  let shifted := days + 306
  let era := shifted / 146097
  let dayOfEra := (shifted % 146097).toNat
  let yearOfEra := (dayOfEra - dayOfEra / 1460 + dayOfEra / 36524 - dayOfEra / 146096) / 365
  let dayOfYear := dayOfEra - (365 * yearOfEra + yearOfEra / 4 - yearOfEra / 100)
  let month := (5 * dayOfYear + 2) / 153
  let day := dayOfYear - (153 * month + 2) / 5 + 1
  -- January and February belong to the year that began in the March before
  if month < 10 then (yearOfEra + 400 * era, month + 3, day)
  else (yearOfEra + 400 * era + 1, month - 9, day)

/-- `appendInt(b, n, width)`. -/
def padded (width n : Nat) : GoString :=
  List.replicate (width - (Text.decimal n).length) (Text.digit 0) ++ Text.decimal n

def signed (width : Nat) (n : Int) : GoString :=
  (if n < 0 then ['-'.toUInt8] else []) ++ padded width n.natAbs

/-- `appendNano`: a fraction without trailing zeros, or nothing. -/
def fraction (nanos : Nat) : GoString :=
  if nanos = 0 then []
  else '.'.toUInt8 :: ((padded 9 nanos).reverse.dropWhile (· = Text.digit 0)).reverse

/-- The zone suffix: `Z`, or the offset in hours and minutes. -/
def zoneSuffix (offset : Int) : GoString :=
  if offset = 0 then ['Z'.toUInt8]
  else
    let minutes := (offset.natAbs / 60)
    (if offset.tdiv 60 < 0 then '-' else '+').toUInt8 :: padded 2 (minutes / 60) ++
      ':'.toUInt8 :: padded 2 (minutes % 60)

/-- `t.Format(time.RFC3339Nano)`. -/
def format (t : Time) : GoString :=
  let localNanos := t.instant + t.zone.offset * Duration.second
  let seconds := localNanos / Duration.second
  let (year, month, day) := civil (seconds / 86400)
  let ofDay := (seconds % 86400).toNat
  signed 4 year ++ '-'.toUInt8 :: padded 2 month ++ '-'.toUInt8 :: padded 2 day ++
    'T'.toUInt8 :: padded 2 (ofDay / 3600) ++ ':'.toUInt8 :: padded 2 (ofDay / 60 % 60) ++
    ':'.toUInt8 :: padded 2 (ofDay % 60) ++ fraction (localNanos % Duration.second).toNat ++
    zoneSuffix t.zone.offset

example : format ⟨0, .utc⟩ = "0001-01-01T00:00:00Z" ∧
    format ⟨63859536000120000000, .utc⟩ = "2024-08-18T00:00:00.12Z" ∧
    format ⟨63844761599000000000, .fixed (-5400)⟩ = "2024-02-28T22:29:59-01:30" := by
  decide +kernel

/-! ## The text determines the instant -/

/-- The first day of a year of the era, counted from the first of March. -/
def yearStart (y : Nat) : Nat := 365 * y + y / 4 - y / 100

/-- The year of a day of the era. -/
def yearOf (d : Nat) : Nat := (d - d / 1460 + d / 36524 - d / 146096) / 365

/-- The year lies in the era, it has begun, and it lasts at most 366 days. -/
theorem yearOf_spec {d : Nat} (hd : d < 146097) :
    yearOf d < 400 ∧ yearStart (yearOf d) ≤ d ∧ d < yearStart (yearOf d) + 366 := by
  -- the days without the leap days passed, of which the centuries have none
  obtain ⟨k, hk, hcentury, hnext, hsum⟩ : ∃ k, k ≤ 3 ∧ 36524 * k ≤ d ∧ d ≤ 36524 * (k + 1) ∧
      d - d / 1460 + d / 36524 - d / 146096 = d - d / 1460 + k :=
    ⟨d / 36524 - d / 146096, by omega, by omega, by omega, by omega⟩
  have hleap : k ≤ d / 1460 := by omega
  have hquarter : (d - d / 1460 + k) / 365 / 4 ≤ d / 1460 ∧
      d / 1460 ≤ (d - d / 1460 + k) / 365 / 4 + 1 := by
    rw [Nat.div_div_eq_div_mul]
    omega
  have hhundred : (d - d / 1460 + k) / 365 / 100 = k := by
    rw [Nat.div_div_eq_div_mul]
    omega
  have hyear : 365 * ((d - d / 1460 + k) / 365) ≤ d - d / 1460 + k ∧
      d - d / 1460 + k < 365 * ((d - d / 1460 + k) / 365) + 365 := by omega
  simp only [yearOf, yearStart, hsum, hhundred]
  refine ⟨by omega, by omega, ?_⟩
  omega

/-- Where a day stands in its year: the month from March on, and the day of the month from zero. -/
theorem monthOf_spec {r : Nat} (hr : r < 366) : (5 * r + 2) / 153 < 12 ∧
    (153 * ((5 * r + 2) / 153) + 2) / 5 ≤ r ∧ r - (153 * ((5 * r + 2) / 153) + 2) / 5 < 31 := by
  omega

theorem civil_eq (days : Int) : ∃ y r : Nat, ∃ era : Int, y < 400 ∧ r < 366 ∧
    days + 306 = 146097 * era + yearStart y + r ∧
    civil days =
      if (5 * r + 2) / 153 < 10 then
        (y + 400 * era, (5 * r + 2) / 153 + 3, r - (153 * ((5 * r + 2) / 153) + 2) / 5 + 1)
      else
        (y + 400 * era + 1, (5 * r + 2) / 153 - 9,
          r - (153 * ((5 * r + 2) / 153) + 2) / 5 + 1) := by
  have hbound : ((days + 306) % 146097).toNat < 146097 := by omega
  obtain ⟨hy, hstart, hlast⟩ := yearOf_spec hbound
  refine ⟨yearOf ((days + 306) % 146097).toNat,
    ((days + 306) % 146097).toNat - yearStart (yearOf ((days + 306) % 146097).toNat),
    (days + 306) / 146097, hy, by omega, ?_, rfl⟩
  omega

/-- Different days have different dates. -/
theorem civil_injective {n : Int} (h : civil m = civil n) : m = n := by
  obtain ⟨y, r, era, hy, hr, hm, hcm⟩ := civil_eq m
  obtain ⟨y', r', era', hy', hr', hn, hcn⟩ := civil_eq n
  obtain ⟨hmonth, hday, -⟩ := monthOf_spec hr
  obtain ⟨hmonth', hday', -⟩ := monthOf_spec hr'
  rw [hcm, hcn] at h
  generalize (5 * r + 2) / 153 = mi at h hmonth hday
  generalize (5 * r' + 2) / 153 = mi' at h hmonth' hday'
  obtain ⟨hyear, hsame, hdays⟩ : (y : Int) + 400 * era = y' + 400 * era' ∧ mi = mi' ∧
      r - (153 * mi + 2) / 5 = r' - (153 * mi' + 2) / 5 := by
    split_ifs at h <;> simp only [Prod.mk.injEq] at h <;> omega
  subst hsame
  obtain rfl : y = y' := by omega
  omega

/-- A text is cut at the first place where a separator stands. -/
theorem append_separator {x : UInt8} {a b c d : GoString} (ha : x ∉ a) (hb : x ∉ b)
    (h : a ++ x :: c = b ++ x :: d) : a = b ∧ c = d := by
  induction a generalizing b with
  | nil =>
    cases b with
    | nil => exact ⟨rfl, (List.cons.inj h).2⟩
    | cons y b => exact absurd ((List.cons.inj h).1 ▸ List.mem_cons_self) hb
  | cons y a ih =>
    cases b with
    | nil => exact absurd ((List.cons.inj h).1 ▸ List.mem_cons_self) ha
    | cons z b =>
      obtain ⟨rfl, htail⟩ := List.cons.inj h
      obtain ⟨rfl, hrest⟩ := ih (fun hm => ha (List.mem_cons_of_mem _ hm))
        (fun hm => hb (List.mem_cons_of_mem _ hm)) htail
      exact ⟨rfl, hrest⟩

theorem padded_injective {m : Nat} (h : padded w n = padded w m) : n = m := by
  have hvalue : ∀ k, Text.digitsValue (padded w k) = k := fun k => by
    rw [padded, Text.digitsValue_zeros, (Text.spells_decimal k).value]
  rw [← hvalue n, h, hvalue m]

theorem padded_digits (w n : Nat) : (padded w n).all Text.isDigit = true := by
  rw [padded, List.all_append, (Text.spells_decimal n).digits, Bool.and_true, List.all_eq_true]
  intro b hb
  rw [List.eq_of_mem_replicate hb]
  rfl

theorem length_padded (hn : n < 10 ^ (w + 1)) : (padded (w + 1) n).length = w + 1 := by
  have := Text.length_decimal hn
  rw [padded, List.length_append, List.length_replicate]
  omega

theorem padded_not_mem (hb : Text.isDigit b = false) : b ∉ padded w n := by
  intro hmem
  rw [List.all_eq_true.mp (padded_digits w n) b hmem] at hb
  cases hb

theorem signed_injective {n : Int} (h : signed w m = signed w n) : m = n := by
  have hdash : ∀ k, '-'.toUInt8 ∉ padded w k := fun _ => padded_not_mem rfl
  unfold signed at h
  split_ifs at h with hm hn hn
  · have := padded_injective (List.append_cancel_left h)
    omega
  · rw [List.nil_append] at h
    exact absurd (h ▸ List.mem_append_left _ (List.mem_singleton_self _)) (hdash n.natAbs)
  · rw [List.nil_append] at h
    exact absurd (h.symm ▸ List.mem_append_left _ (List.mem_singleton_self _)) (hdash m.natAbs)
  · have := padded_injective (List.append_cancel_left h)
    omega

/-- What trailing zeros were dropped is known from the width. -/
theorem fraction_injective {m : Nat} (hm : m < 10 ^ 9) (hn : n < 10 ^ 9)
    (h : fraction m = fraction n) : m = n := by
  have htrim : ∀ l : GoString, ∃ k, (l.reverse.dropWhile (· = Text.digit 0)).reverse ++
      List.replicate k (Text.digit 0) = l := by
    intro l
    refine ⟨(l.reverse.takeWhile (· = Text.digit 0)).length, ?_⟩
    have hzeros : l.reverse.takeWhile (· = Text.digit 0) =
        List.replicate (l.reverse.takeWhile (· = Text.digit 0)).length (Text.digit 0) :=
      List.eq_replicate_iff.mpr ⟨rfl, fun b hb => by simpa using List.mem_takeWhile_imp hb⟩
    have hsplit := congrArg List.reverse (List.takeWhile_append_dropWhile
      (p := (· = Text.digit 0)) (l := l.reverse))
    rw [List.reverse_append, List.reverse_reverse] at hsplit
    rw [← List.reverse_replicate, ← hzeros]
    exact hsplit
  unfold fraction at h
  split_ifs at h with h0 h1 h1
  · rw [h0, h1]
  · have htail := (List.cons.inj h).2
    obtain ⟨k, hk⟩ := htrim (padded 9 m)
    obtain ⟨k', hk'⟩ := htrim (padded 9 n)
    have hlength : (padded 9 m).length = (padded 9 n).length :=
      (length_padded hm).trans (length_padded hn).symm
    rw [← hk, ← hk', htail, List.length_append, List.length_append, List.length_replicate,
      List.length_replicate] at hlength
    obtain rfl : k = k' := by omega
    exact padded_injective (by rw [← hk, ← hk', htail])

/-- The date of a text. -/
def dateText (days : Int) : GoString :=
  signed 4 (civil days).1 ++ '-'.toUInt8 :: padded 2 (civil days).2.1 ++
    '-'.toUInt8 :: padded 2 (civil days).2.2

/-- The time of day of a text, in seconds. -/
def clockText (ofDay : Nat) : GoString :=
  padded 2 (ofDay / 3600) ++ ':'.toUInt8 :: padded 2 (ofDay / 60 % 60) ++
    ':'.toUInt8 :: padded 2 (ofDay % 60)

theorem format_utc (h : t.isUTC = true) :
    t.format = dateText (t.instant / Duration.second / 86400) ++ 'T'.toUInt8 ::
      (clockText (t.instant / Duration.second % 86400).toNat ++
        (fraction (t.instant % Duration.second).toNat ++ ['Z'.toUInt8])) := by
  have hoffset : t.zone.offset = 0 := of_decide_eq_true h
  simp only [format, hoffset, Int.zero_mul, Int.add_zero, zoneSuffix, if_true, dateText, clockText,
    List.append_assoc, List.cons_append]

theorem civil_bounds (days : Int) : (civil days).2.1 < 10 ^ 2 ∧ (civil days).2.2 < 10 ^ 2 := by
  obtain ⟨y, r, era, -, hr, -, hcivil⟩ := civil_eq days
  obtain ⟨hmonth, -, hday⟩ := monthOf_spec hr
  rw [hcivil]
  split_ifs <;> constructor <;> dsimp only <;> omega

theorem dateText_injective {n : Int} (h : dateText m = dateText n) : civil m = civil n := by
  obtain ⟨hmonth, hday⟩ := civil_bounds m
  obtain ⟨hmonth', hday'⟩ := civil_bounds n
  obtain ⟨h, hdays⟩ := List.append_inj' h
    (by rw [List.length_cons, List.length_cons, length_padded hday, length_padded hday'])
  obtain ⟨hyear, hmonths⟩ := List.append_inj' h
    (by rw [List.length_cons, List.length_cons, length_padded hmonth, length_padded hmonth'])
  exact Prod.ext (signed_injective hyear) (Prod.ext (padded_injective (List.cons.inj hmonths).2)
    (padded_injective (List.cons.inj hdays).2))

theorem length_clockText {ofDay : Nat} (h : ofDay < 86400) : (clockText ofDay).length = 8 := by
  have h1 : (padded 2 (ofDay / 3600)).length = 2 := length_padded (by omega)
  have h2 : (padded 2 (ofDay / 60 % 60)).length = 2 := length_padded (by omega)
  have h3 : (padded 2 (ofDay % 60)).length = 2 := length_padded (by omega)
  simp [clockText, h1, h2, h3]

theorem clockText_injective {m : Nat} (hm : m < 86400) (hn : n < 86400)
    (h : clockText m = clockText n) : m = n := by
  have hwidth : ∀ k < 60, (padded 2 k).length = 2 := fun k hk => length_padded (by omega)
  obtain ⟨h, hseconds⟩ := List.append_inj' h
    (by simp [hwidth (m % 60) (by omega), hwidth (n % 60) (by omega)])
  obtain ⟨hhours, hminutes⟩ := List.append_inj' h
    (by simp [hwidth (m / 60 % 60) (by omega), hwidth (n / 60 % 60) (by omega)])
  have hh := padded_injective hhours
  have hmin := padded_injective (List.cons.inj hminutes).2
  have hs := padded_injective (List.cons.inj hseconds).2
  omega

theorem dateText_no_separator (days : Int) : 'T'.toUInt8 ∉ dateText days := by
  have hpadded : ∀ w k, 'T'.toUInt8 ∉ padded w k := fun _ _ => padded_not_mem rfl
  have hdash : 'T'.toUInt8 ≠ '-'.toUInt8 := by decide
  have hsigned : 'T'.toUInt8 ∉ signed 4 (civil days).1 := by
    unfold signed
    split_ifs <;> simp [hpadded, hdash]
  simp [dateText, hpadded, hsigned, hdash]

/-- **A text determines the instant.** Two UTC times that are written alike are the same instant. -/
theorem format_injective (ht : t.isUTC = true) (hu : u.isUTC = true) (h : t.format = u.format) :
    t.instant = u.instant := by
  have hsecond : Duration.second = 1000000000 := rfl
  rw [format_utc ht, format_utc hu, hsecond] at h
  obtain ⟨hdate, hrest⟩ :=
    append_separator (dateText_no_separator _) (dateText_no_separator _) h
  have hday : ∀ seconds : Int, (seconds % 86400).toNat < 86400 := by omega
  obtain ⟨hclock, hrest⟩ := List.append_inj hrest
    ((length_clockText (hday _)).trans (length_clockText (hday _)).symm)
  have hdays := civil_injective (dateText_injective hdate)
  have hseconds := clockText_injective (hday _) (hday _) hclock
  have hnanos := fraction_injective (by omega) (by omega) (List.append_cancel_right hrest)
  omega

theorem padded_ascii (h : b ∈ padded w n) : b < 0x80 := by
  have hdigits : ∀ b : UInt8, Text.isDigit b = true → b < 0x80 :=
    Text.forall_byte (by decide +kernel)
  exact hdigits b (List.all_eq_true.mp (padded_digits w n) b h)

theorem fraction_ascii (h : b ∈ fraction n) : b < 0x80 := by
  unfold fraction at h
  split_ifs at h
  · cases h
  · rcases List.mem_cons.mp h with rfl | h
    · decide
    · rw [List.mem_reverse] at h
      exact padded_ascii (List.mem_reverse.mp ((List.dropWhile_sublist _).subset h))

theorem format_ascii (ht : t.isUTC = true) : ∀ b ∈ t.format, b < 0x80 := by
  have hsigned : ∀ b ∈ signed 4 (civil (t.instant / Duration.second / 86400)).1, b < 0x80 := by
    intro b hb
    rcases List.mem_append.mp hb with h | h
    · split_ifs at h
      · rw [List.mem_singleton.mp h]
        decide
      · cases h
    · exact padded_ascii h
  rw [format_utc ht]
  simp only [dateText, clockText, List.forall_mem_append, List.forall_mem_cons]
  exact ⟨⟨⟨hsigned, by decide, fun b => padded_ascii⟩, by decide, fun b => padded_ascii⟩, by decide,
    ⟨⟨fun b => padded_ascii, by decide, fun b => padded_ascii⟩, by decide, fun b => padded_ascii⟩,
    fun b => fraction_ascii, by decide, List.forall_mem_nil _⟩

/-- Written alike exactly when the instants are the same. -/
theorem format_eq_iff (ht : t.isUTC = true) (hu : u.isUTC = true) :
    t.format = u.format ↔ t.instant = u.instant := by
  refine ⟨format_injective ht hu, fun h => ?_⟩
  rw [format_utc ht, format_utc hu, h]

end Time

end MiniCloud.Lib
