import Mathlib.Data.Char
import Operant.Time.IsoFormat

/-! Aware times in UTC, and the texts that the scheduler's tables hold: `persistence/scheduler.py`.

The text of a time is that of its instant in UTC, so the texts compare like the instants whatever the clocks
showed. A time whose instant is outside of the years 1 to 9999 has no such text. -/
namespace Operant.Time

/-! ### The date of a day -/

def yearLength (year : Nat) : Nat := 365 + (isLeap year).toNat

/-- The year of a day, counted from the first of January of some year, and the day of that year. -/
def yearFrom : Nat → Nat → Nat → Nat × Nat
  | 0, year, day => (year, day)
  | more + 1, year, day =>
    if day ≤ yearLength year then (year, day) else yearFrom more (year + 1) (day - yearLength year)

/-- The month of a day, counted from the first of some month, and the day of that month. -/
def monthFrom (leap : Bool) : Nat → Nat → Nat → Nat × Nat
  | 0, month, day => (month, day)
  | more + 1, month, day =>
    if day ≤ monthLength leap month then (month, day)
    else monthFrom leap more (month + 1) (day - monthLength leap month)

section
variable (more year month day : Nat) (leap : Bool)

theorem yearFrom_sum (h : 1 ≤ year) :
    daysBeforeYear (yearFrom more year day).1 + (yearFrom more year day).2 = daysBeforeYear year + day := by
  induction more generalizing year day with
  | zero => rfl
  | succ more ih =>
    rw [yearFrom]
    split
    · rfl
    · next hday =>
      have hstep := daysBeforeYear_succ year h
      rw [ih _ _ (Nat.le_succ_of_le h), hstep]
      unfold yearLength at hday ⊢
      omega

theorem yearFrom_pos (h : 1 ≤ day) : 1 ≤ (yearFrom more year day).2 := by
  induction more generalizing year day with
  | zero => exact h
  | succ more ih =>
    rw [yearFrom]
    split
    · exact h
    · next hday => exact ih _ _ (by omega)

theorem yearFrom_year : year ≤ (yearFrom more year day).1 ∧ (yearFrom more year day).1 ≤ year + more := by
  induction more generalizing year day with
  | zero => exact ⟨le_rfl, le_rfl⟩
  | succ more ih =>
    rw [yearFrom]
    split
    · exact ⟨le_rfl, by omega⟩
    · have hrest := ih (year + 1) (day - yearLength year)
      omega

/-- The day is one of the year, unless the years are used up. -/
theorem yearFrom_day :
    (yearFrom more year day).2 ≤ yearLength (yearFrom more year day).1 ∨ (yearFrom more year day).1 = year + more := by
  induction more generalizing year day with
  | zero => exact .inr rfl
  | succ more ih =>
    rw [yearFrom]
    split
    · next hday => exact .inl hday
    · exact (ih _ _).imp_right fun heq => by omega

theorem daysBeforeMonth_succ : ∀ leap, ∀ month < 12, 1 ≤ month →
    daysBeforeMonth leap (month + 1) = daysBeforeMonth leap month + monthLength leap month := by
  decide

theorem monthFrom_sum (h : 1 ≤ month) (hmore : month + more ≤ 12) :
    daysBeforeMonth leap (monthFrom leap more month day).1 + (monthFrom leap more month day).2 =
      daysBeforeMonth leap month + day := by
  induction more generalizing month day with
  | zero => rfl
  | succ more ih =>
    rw [monthFrom]
    split
    · rfl
    · next hday =>
      rw [ih _ _ (Nat.le_succ_of_le h) (by omega), daysBeforeMonth_succ leap month (by omega) h]
      omega

theorem monthFrom_pos (h : 1 ≤ day) : 1 ≤ (monthFrom leap more month day).2 := by
  induction more generalizing month day with
  | zero => exact h
  | succ more ih =>
    rw [monthFrom]
    split
    · exact h
    · next hday => exact ih _ _ (by omega)

theorem monthFrom_month :
    month ≤ (monthFrom leap more month day).1 ∧ (monthFrom leap more month day).1 ≤ month + more := by
  induction more generalizing month day with
  | zero => exact ⟨le_rfl, le_rfl⟩
  | succ more ih =>
    rw [monthFrom]
    split
    · exact ⟨le_rfl, by omega⟩
    · have hrest := ih (month + 1) (day - monthLength leap month)
      omega

theorem monthFrom_day :
    (monthFrom leap more month day).2 ≤ monthLength leap (monthFrom leap more month day).1 ∨
      (monthFrom leap more month day).1 = month + more := by
  induction more generalizing month day with
  | zero => exact .inr rfl
  | succ more ih =>
    rw [monthFrom]
    split
    · next hday => exact .inl hday
    · exact (ih _ _).imp_right fun heq => by omega

end

/-- The last day that a date has. -/
def maxOrdinal : Nat := daysBeforeYear 10000

namespace Date

/-- `date(year, month, day)`. -/
def make (year month day : Nat) : Option Date :=
  if h : (1 ≤ year ∧ year ≤ 9999) ∧ (1 ≤ month ∧ month ≤ 12) ∧ 1 ≤ day ∧ day ≤ monthLength (isLeap year) month then
    some ⟨year, month, day, h.1.1, h.1.2, h.2.1.1, h.2.1.2, h.2.2.1, h.2.2.2⟩
  else none

/-- `date.fromordinal`. -/
def fromOrdinal (n : Nat) : Option Date :=
  let year := yearFrom 9998 1 n
  let month := monthFrom (isLeap year.1) 11 1 year.2
  make year.1 month.1 month.2

theorem make_ordinal {year month day : Nat} {d : Date} (h : make year month day = some d) :
    d.ordinal = daysBeforeYear year + daysBeforeMonth (isLeap year) month + day := by
  unfold make at h
  split at h
  · rw [← Option.some.inj h]
    rfl
  · cases h

theorem ordinal_pos (d : Date) : 1 ≤ d.ordinal := by
  have hday := d.day_pos
  unfold ordinal
  omega

theorem ordinal_le (d : Date) : d.ordinal ≤ maxOrdinal := by
  have hyear : daysBeforeYear d.year + 365 + (isLeap d.year).toNat ≤ maxOrdinal :=
    daysBeforeYear_le d.year_pos (Nat.lt_succ_of_le d.year_le)
  have hmonth := daysBeforeMonth_year (isLeap d.year) d.month (Nat.lt_succ_of_le d.month_le) d.month_pos
  have hday := d.day_le
  unfold ordinal
  omega

theorem daysBeforeYear_one : daysBeforeYear 1 = 0 := by decide

theorem daysBeforeMonth_ends : ∀ leap, daysBeforeMonth leap 1 = 0 ∧
    daysBeforeMonth leap 12 + monthLength leap 12 = 365 + leap.toNat := by
  decide

theorem fromOrdinal_ordinal {n : Nat} {d : Date} (h : fromOrdinal n = some d) : d.ordinal = n := by
  have hyears := yearFrom_sum 9998 1 n (le_refl 1)
  have hmonths := monthFrom_sum 11 1 (yearFrom 9998 1 n).2 (isLeap (yearFrom 9998 1 n).1) (le_refl 1) (by decide)
  rw [daysBeforeYear_one] at hyears
  rw [(daysBeforeMonth_ends _).1] at hmonths
  rw [make_ordinal h]
  omega

/-- Every day up to the last has its date. -/
theorem fromOrdinal_some {n : Nat} (hpos : 1 ≤ n) (hle : n ≤ maxOrdinal) : ∃ d, fromOrdinal n = some d := by
  have hyear := yearFrom_year 9998 1 n
  have hsum := yearFrom_sum 9998 1 n (le_refl 1)
  have hrest := yearFrom_pos 9998 1 n hpos
  have hyearDay := yearFrom_day 9998 1 n
  rw [daysBeforeYear_one] at hsum
  show ∃ d, make _ _ _ = some d
  generalize yearFrom 9998 1 n = y at *
  -- the year 9999 has all the days that are left
  have hfits : y.2 ≤ yearLength y.1 := by
    refine hyearDay.elim id fun (hlast : y.1 = 9999) => ?_
    have hmax : maxOrdinal = daysBeforeYear 9999 + yearLength 9999 := by decide
    rw [hlast] at hsum ⊢
    omega
  have hmonth := monthFrom_month 11 1 y.2 (isLeap y.1)
  have hsum' := monthFrom_sum 11 1 y.2 (isLeap y.1) (le_refl 1) (by decide)
  have hday := monthFrom_pos 11 1 y.2 (isLeap y.1) hrest
  have hmonthDay := monthFrom_day 11 1 y.2 (isLeap y.1)
  generalize monthFrom (isLeap y.1) 11 1 y.2 = m at *
  have hlength : m.2 ≤ monthLength (isLeap y.1) m.1 := by
    cases hmonthDay with
    | inl h => exact h
    | inr hlast =>
      have hlast : m.1 = 12 := hlast
      have hends := daysBeforeMonth_ends (isLeap y.1)
      unfold yearLength at hfits
      rw [hlast] at hsum' ⊢
      omega
  rw [make, dif_pos ⟨by omega, by omega, hday, hlength⟩]
  exact ⟨_, rfl⟩

end Date

/-! ### Instants -/

/-- The first and the last microsecond that a `datetime` has. -/
def minMicrosecond : Nat := 86400000000
def maxMicrosecond : Nat := maxOrdinal * 86400000000 + 86399999999

/-- An aware time: what the clock shows, read as if it were UTC, and by how many microseconds it is ahead of UTC. -/
structure Aware where
  shown : DateTime
  utcoffset : Int
  shown_utc : shown.offset = 0 := by decide
  utcoffset_lt : utcoffset.natAbs < 86400000000 := by decide

/-- The time in UTC that is so many microseconds after midnight of the day before the first. -/
def DateTime.ofMicroseconds (n : Nat) : Option DateTime :=
  (Date.fromOrdinal (n / 86400000000)).map fun date =>
    { date
      hour := n / 3600000000 % 24
      minute := n / 60000000 % 60
      second := n / 1000000 % 60
      microsecond := n % 1000000
      offset := 0
      hour_lt := Nat.mod_lt _ (by decide)
      minute_lt := Nat.mod_lt _ (by decide)
      second_lt := Nat.mod_lt _ (by decide)
      microsecond_lt := Nat.mod_lt _ (by decide) }

namespace Aware

/-- Microseconds in UTC. -/
def instant (t : Aware) : Int := t.shown.wall - t.utcoffset

/-- `require_aware_utc`, of an aware time. What `astimezone` cannot represent raises `OverflowError`. -/
def requireAwareUtc (t : Aware) : Option DateTime :=
  match t.instant with
  | .ofNat n => DateTime.ofMicroseconds n
  | .negSucc _ => none

/-- `_dt`. -/
def dt (t : Aware) : Option (List Char) := t.requireAwareUtc.map DateTime.isoformat

end Aware

theorem DateTime.ofMicroseconds_instant {n : Nat} {t : DateTime} (h : DateTime.ofMicroseconds n = some t) :
    t.offset = 0 ∧ t.instant = n := by
  obtain ⟨date, hdate, rfl⟩ := Option.map_eq_some_iff.mp h
  have hordinal := Date.fromOrdinal_ordinal hdate
  refine ⟨rfl, ?_⟩
  simp only [DateTime.instant, DateTime.wall, DateTime.seconds, hordinal]
  omega

theorem DateTime.ofMicroseconds_none {n : Nat} :
    DateTime.ofMicroseconds n = none ↔ n < minMicrosecond ∨ maxMicrosecond < n := by
  unfold minMicrosecond maxMicrosecond
  rw [DateTime.ofMicroseconds, Option.map_eq_none_iff]
  constructor
  · intro h
    by_contra hin
    obtain ⟨d, hd⟩ := Date.fromOrdinal_some (n := n / 86400000000) (by omega) (by omega)
    rw [hd] at h
    cases h
  · intro h
    cases hdate : Date.fromOrdinal (n / 86400000000) with
    | none => rfl
    | some d =>
      have hordinal := Date.fromOrdinal_ordinal hdate
      have hpos := d.ordinal_pos
      have hle := d.ordinal_le
      omega

namespace Aware

/-- The time in UTC is the same instant. -/
theorem requireAwareUtc_instant {t : Aware} {u : DateTime} (h : t.requireAwareUtc = some u) :
    u.offset = 0 ∧ u.instant = t.instant := by
  unfold requireAwareUtc at h
  split at h
  · next n hn => rw [hn]; exact DateTime.ofMicroseconds_instant h
  · cases h

theorem requireAwareUtc_none (t : Aware) :
    t.requireAwareUtc = none ↔ t.instant < minMicrosecond ∨ maxMicrosecond < t.instant := by
  unfold requireAwareUtc
  split
  · next n hn =>
    rw [hn, DateTime.ofMicroseconds_none, Int.ofNat_eq_natCast]
    omega
  · next n hn =>
    rw [hn]
    exact iff_of_true rfl (.inl (by omega))

/-- The texts of two times compare like their instants. There is no text only of an instant that is out of range. -/
theorem dt_orders (x y : Aware) :
    (x.dt = none ↔ x.instant < minMicrosecond ∨ maxMicrosecond < x.instant) ∧
      ∀ s t, x.dt = some s → y.dt = some t →
        (s < t ↔ x.instant < y.instant) ∧ (s ≤ t ↔ x.instant ≤ y.instant) ∧ (s = t ↔ x.instant = y.instant) := by
  constructor
  · rw [dt, Option.map_eq_none_iff, requireAwareUtc_none]
  · intro s t hs ht
    obtain ⟨a, ha, rfl⟩ := Option.map_eq_some_iff.mp hs
    obtain ⟨b, hb, rfl⟩ := Option.map_eq_some_iff.mp ht
    obtain ⟨hzero, hinstant⟩ := requireAwareUtc_instant ha
    obtain ⟨hzero', hinstant'⟩ := requireAwareUtc_instant hb
    have hlt : a.isoformat < b.isoformat ↔ x.instant < y.instant := by
      rw [DateTime.isoformat_lt_iff_instant (hzero.trans hzero'.symm), hinstant, hinstant']
    have hgt : b.isoformat < a.isoformat ↔ y.instant < x.instant := by
      rw [DateTime.isoformat_lt_iff_instant (hzero'.trans hzero.symm), hinstant, hinstant']
    refine ⟨hlt, ?_, ?_⟩
    · rw [← not_lt, hgt, not_lt]
    · constructor
      · intro heq
        simp only [heq, lt_irrefl, false_iff, not_lt] at hlt hgt
        exact le_antisymm hgt hlt
      · intro heq
        rw [heq] at hlt hgt
        exact le_antisymm (not_lt.mp (mt hgt.mp (lt_irrefl _))) (not_lt.mp (mt hlt.mp (lt_irrefl _)))

/-- Half a second after midnight in Paris comes after what New York shows then. -/
def paris : Aware where
  shown := {
    date := { year := 2025, month := 1, day := 1 }
    hour := 0, minute := 0, second := 0, microsecond := 500000, offset := 0 }
  utcoffset := 3600000000

def newYork : Aware where
  shown := {
    date := { year := 2024, month := 12, day := 31 }
    hour := 18, minute := 0, second := 0, microsecond := 0, offset := 0 }
  utcoffset := -18000000000

theorem dt_orders_cities : ∃ s t, newYork.dt = some s ∧ paris.dt = some t ∧ s < t := by
  obtain ⟨s, hs⟩ := Option.isSome_iff_exists.mp (show newYork.dt.isSome = true by decide +kernel)
  obtain ⟨t, ht⟩ := Option.isSome_iff_exists.mp (show paris.dt.isSome = true by decide +kernel)
  exact ⟨s, t, hs, ht, (((dt_orders newYork paris).2 s t hs ht).1).mpr (by decide +kernel)⟩

end Aware

end Operant.Time
