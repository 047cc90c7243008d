import Mathlib.Data.List.Lex
import Mathlib.Tactic

/-! Dates and times as ISO texts, and how the texts compare.

An aware time is what a clock on a wall shows and how far the wall is ahead of UTC. Its text is
written digit by digit, so texts compare as what the walls show (`isoformat_lt_iff`), which is how
the instants compare as long as the offset is the same. -/
namespace Operant.Time

/-! ### Texts that compare like numbers -/

/-- Whatever follows, the texts compare like the numbers, and then as what follows. -/
def OrdersLike (s t : List Char) (m n : Nat) : Prop := ∀ u v, s ++ u < t ++ v ↔ m < n ∨ m = n ∧ u < v

/-- The order of two digits of a mixed radix. -/
theorem radix_lt_iff {m n a b radix : Nat} (ha : a < radix) (hb : b < radix) :
    m * radix + a < n * radix + b ↔ m < n ∨ m = n ∧ a < b := by
  rcases lt_trichotomy m n with h | rfl | h
  · have hmul := Nat.mul_le_mul_right radix (Nat.succ_le_of_lt h)
    rw [Nat.succ_mul] at hmul
    constructor <;> omega
  · omega
  · have hmul := Nat.mul_le_mul_right radix (Nat.succ_le_of_lt h)
    rw [Nat.succ_mul] at hmul
    constructor <;> omega

theorem radix_eq_iff {m n a b radix : Nat} (ha : a < radix) (hb : b < radix) :
    m * radix + a = n * radix + b ↔ m = n ∧ a = b := by
  have hlt := radix_lt_iff (m := m) (n := n) ha hb
  have hgt := radix_lt_iff (m := n) (n := m) hb ha
  omega

namespace OrdersLike
variable {s t s' t' : List Char} {m n m' n' : Nat}

theorem literal (h : OrdersLike s t m n) (c : Char) : OrdersLike (s ++ [c]) (t ++ [c]) m n := by
  intro u v
  rw [List.append_assoc, List.append_assoc, h, List.singleton_append, List.singleton_append,
    List.cons_lt_cons_self]

theorem append (h : OrdersLike s t m n) (h' : OrdersLike s' t' m' n') {radix : Nat} (hm : m' < radix)
    (hn : n' < radix) : OrdersLike (s ++ s') (t ++ t') (m * radix + m') (n * radix + n') := by
  intro u v
  rw [List.append_assoc, List.append_assoc, h, h', radix_lt_iff hm hn, radix_eq_iff hm hn, and_or_left,
    or_assoc, and_assoc]

/-- The numbers may be replaced by others in the same order. -/
theorem map (h : OrdersLike s t m n) (hlt : m < n ↔ m' < n') (heq : m = n ↔ m' = n') : OrdersLike s t m' n' := by
  intro u v
  rw [h, hlt, heq]

end OrdersLike

/-! ### Digits -/

def digit (n : Nat) : Char := Char.ofNat (48 + n)

theorem digit_lt_iff : ∀ a < 10, ∀ b < 10, (digit a < digit b ↔ a < b) ∧ (digit a = digit b ↔ a = b) := by
  decide

/-- A number below `10 ^ width`, as `f"{n:0{width}d}"`. -/
def digits : Nat → Nat → List Char
  | 0, _ => []
  | width + 1, n => digit (n / 10 ^ width) :: digits width (n % 10 ^ width)

/-- A number by its first digit and the rest. -/
theorem digit_split_iff {p m n : Nat} (hp : 0 < p) :
    (m < n ↔ m / p < n / p ∨ m / p = n / p ∧ m % p < n % p) ∧ (m = n ↔ m / p = n / p ∧ m % p = n % p) := by
  have hm := Nat.mod_lt m hp
  have hn := Nat.mod_lt n hp
  have hlt := radix_lt_iff (m := m / p) (n := n / p) hm hn
  have heq := radix_eq_iff (m := m / p) (n := n / p) hm hn
  rw [Nat.div_add_mod', Nat.div_add_mod'] at hlt heq
  exact ⟨hlt, heq⟩

theorem digits_ordersLike (width : Nat) : ∀ {m n : Nat}, m < 10 ^ width → n < 10 ^ width →
    OrdersLike (digits width m) (digits width n) m n := by
  induction width with
  | zero =>
    intro m n hm hn u v
    have hm0 : m = 0 := by simpa using hm
    have hn0 : n = 0 := by simpa using hn
    simp [digits, hm0, hn0]
  | succ width ih =>
    intro m n hm hn u v
    have hpos : 0 < 10 ^ width := Nat.pow_pos (by decide)
    have hm' : m / 10 ^ width < 10 := Nat.div_lt_of_lt_mul (by rwa [Nat.pow_succ] at hm)
    have hn' : n / 10 ^ width < 10 := Nat.div_lt_of_lt_mul (by rwa [Nat.pow_succ] at hn)
    have hrest := ih (Nat.mod_lt m hpos) (Nat.mod_lt n hpos) u v
    obtain ⟨hdigit, hsame⟩ := digit_lt_iff _ hm' _ hn'
    obtain ⟨hlt, heq⟩ := digit_split_iff (m := m) (n := n) hpos
    unfold digits
    rw [List.cons_append, List.cons_append, List.cons_lt_cons_iff, hdigit, hsame, hrest, hlt, heq,
      and_or_left, or_assoc, and_assoc]

/-! ### The calendar -/

def isLeap (year : Nat) : Bool := year % 4 = 0 && (year % 100 ≠ 0 || year % 400 = 0)

def monthLength (leap : Bool) (month : Nat) : Nat :=
  if leap && month = 2 then 29 else [0, 31, 28, 31, 30, 31, 30, 31, 31, 30, 31, 30, 31].getD month 0

def daysBeforeMonth (leap : Bool) (month : Nat) : Nat :=
  [0, 0, 31, 59, 90, 120, 151, 181, 212, 243, 273, 304, 334].getD month 0 + if leap && 2 < month then 1 else 0

def daysBeforeYear (year : Nat) : Nat := (year - 1) * 365 + (year - 1) / 4 - (year - 1) / 100 + (year - 1) / 400

theorem daysBeforeMonth_le : ∀ leap, ∀ a < 13, ∀ b < 13, 1 ≤ a → a < b →
    daysBeforeMonth leap a + monthLength leap a ≤ daysBeforeMonth leap b := by
  decide

theorem daysBeforeMonth_year : ∀ leap, ∀ a < 13, 1 ≤ a →
    daysBeforeMonth leap a + monthLength leap a ≤ 365 + leap.toNat := by
  decide

theorem succ_div_eq (n k : Nat) : (n + 1) / k = n / k + if (n + 1) % k = 0 then 1 else 0 := by
  rw [Nat.succ_div]
  simp only [Nat.dvd_iff_mod_eq_zero]

theorem daysBeforeYear_succ (year : Nat) (h : 1 ≤ year) :
    daysBeforeYear (year + 1) = daysBeforeYear year + 365 + (isLeap year).toNat := by
  obtain ⟨n, rfl⟩ : ∃ n, year = n + 1 := ⟨year - 1, by omega⟩
  have hleap : (isLeap (n + 1)).toNat + (if (n + 1) % 100 = 0 then 1 else 0) =
      (if (n + 1) % 4 = 0 then 1 else 0) + if (n + 1) % 400 = 0 then 1 else 0 := by
    have h100 : (n + 1) % 100 = 0 → (n + 1) % 4 = 0 := by omega
    have h400 : (n + 1) % 400 = 0 → (n + 1) % 100 = 0 := by omega
    unfold isLeap
    by_cases hn4 : (n + 1) % 4 = 0
    · by_cases hn100 : (n + 1) % 100 = 0
      · by_cases hn400 : (n + 1) % 400 = 0 <;> simp [hn4, hn100, hn400]
      · simp [hn4, hn100, mt h400 hn100]
    · simp [hn4, mt h100 hn4, mt h400 (mt h100 hn4)]
  have hle : n / 100 ≤ n / 4 := Nat.div_le_div_left (by decide) (by decide)
  unfold daysBeforeYear
  rw [Nat.add_sub_cancel, Nat.add_sub_cancel, succ_div_eq n 4, succ_div_eq n 100,
    succ_div_eq n 400]
  have h100 : (if (n + 1) % 100 = 0 then 1 else 0) ≤ if (n + 1) % 4 = 0 then 1 else 0 := by
    split
    · rw [if_pos (by omega)]
    · exact Nat.zero_le _
  omega

theorem daysBeforeYear_le {a b : Nat} (ha : 1 ≤ a) (h : a < b) :
    daysBeforeYear a + 365 + (isLeap a).toNat ≤ daysBeforeYear b := by
  induction b, h using Nat.le_induction with
  | base => exact (daysBeforeYear_succ a ha).ge
  | succ b hab ih =>
    have hstep := daysBeforeYear_succ b (ha.trans (Nat.le_of_succ_le hab))
    omega

structure Date where
  year : Nat
  month : Nat
  day : Nat
  year_pos : 1 ≤ year := by decide
  year_le : year ≤ 9999 := by decide
  month_pos : 1 ≤ month := by first | exact Nat.one_pos | decide
  month_le : month ≤ 12 := by decide
  day_pos : 1 ≤ day := by first | exact Nat.one_pos | decide
  day_le : day ≤ monthLength (isLeap year) month := by decide

instance : DecidableEq Date := fun a b =>
  decidable_of_iff (a.year = b.year ∧ a.month = b.month ∧ a.day = b.day)
    ⟨fun h => by cases a; cases b; simp_all, fun h => by simp [h]⟩

namespace Date

/-- The number of the day, the first of January of the year one being the first. -/
def ordinal (d : Date) : Nat := daysBeforeYear d.year + daysBeforeMonth (isLeap d.year) d.month + d.day

/-- One date comes before another one. -/
def Before (a b : Date) : Prop :=
  a.year < b.year ∨ a.year = b.year ∧ (a.month < b.month ∨ a.month = b.month ∧ a.day < b.day)

theorem Before.ordinal_lt {a b : Date} (h : a.Before b) : a.ordinal < b.ordinal := by
  have hday := a.day_le
  have hpos := b.day_pos
  unfold ordinal
  rcases h with hyear | ⟨hyear, hmonth | ⟨hmonth, hlt⟩⟩
  · have hle := daysBeforeYear_le a.year_pos hyear
    have hmonth := daysBeforeMonth_year (isLeap a.year) a.month (by have h := a.month_le; omega) a.month_pos
    omega
  · have hle := daysBeforeMonth_le (isLeap a.year) a.month (by have h := a.month_le; omega) b.month
      (by have h := b.month_le; omega) a.month_pos hmonth
    rw [← hyear]
    omega
  · rw [← hyear, ← hmonth]
    omega

theorem before_or_eq (a b : Date) : a.Before b ∨ b.Before a ∨ (a.year = b.year ∧ a.month = b.month ∧ a.day = b.day) := by
  unfold Before
  omega

theorem ordinal_lt_iff {a b : Date} : a.ordinal < b.ordinal ↔ a.Before b := by
  refine ⟨fun h => ?_, Before.ordinal_lt⟩
  rcases before_or_eq a b with hlt | hgt | ⟨hyear, hmonth, hday⟩
  · exact hlt
  · exact absurd hgt.ordinal_lt (Nat.lt_asymm h)
  · refine absurd h (Nat.not_lt_of_le (Nat.le_of_eq ?_))
    rw [ordinal, ordinal, hyear, hmonth, hday]

theorem ordinal_eq_iff {a b : Date} :
    a.ordinal = b.ordinal ↔ a.year = b.year ∧ a.month = b.month ∧ a.day = b.day := by
  constructor
  · intro h
    rcases before_or_eq a b with hlt | hgt | heq
    · exact absurd h (Nat.ne_of_lt hlt.ordinal_lt)
    · exact absurd h.symm (Nat.ne_of_lt hgt.ordinal_lt)
    · exact heq
  · rintro ⟨hyear, hmonth, hday⟩
    rw [ordinal, ordinal, hyear, hmonth, hday]

def isoformat (d : Date) : List Char := digits 4 d.year ++ ['-'] ++ digits 2 d.month ++ ['-'] ++ digits 2 d.day

theorem monthLength_le : ∀ leap, ∀ m < 13, monthLength leap m ≤ 31 := by decide

theorem isoformat_ordersLike (a b : Date) : OrdersLike a.isoformat b.isoformat a.ordinal b.ordinal := by
  have hmonth (d : Date) : d.month < 100 := by have h := d.month_le; omega
  have hday (d : Date) : d.day < 100 := by
    have h := d.day_le
    have hle := monthLength_le (isLeap d.year) d.month (by have h := d.month_le; omega)
    omega
  have hyears : OrdersLike (digits 4 a.year) (digits 4 b.year) a.year b.year :=
    digits_ordersLike 4 (Nat.lt_succ_of_le a.year_le) (Nat.lt_succ_of_le b.year_le)
  have hmonths := (hyears.literal '-').append (digits_ordersLike 2 (hmonth a) (hmonth b)) (hmonth a) (hmonth b)
  have hdays := (hmonths.literal '-').append (digits_ordersLike 2 (hday a) (hday b)) (hday a) (hday b)
  refine hdays.map ?_ ?_
  · rw [radix_lt_iff (hday a) (hday b), radix_lt_iff (hmonth a) (hmonth b), radix_eq_iff (hmonth a) (hmonth b),
      ordinal_lt_iff, Before]
    tauto
  · rw [radix_eq_iff (hday a) (hday b), radix_eq_iff (hmonth a) (hmonth b), ordinal_eq_iff, and_assoc]

end Date

/-! ### Aware times -/

theorem sixty_pos : 0 < 60 := by decide
theorem million_pos : 0 < 1000000 := by decide

/-- An aware `datetime`: what the wall shows, and the offset from UTC in seconds. -/
structure DateTime where
  date : Date
  hour : Nat
  minute : Nat
  second : Nat
  microsecond : Nat
  offset : Int
  hour_lt : hour < 24 := by decide
  minute_lt : minute < 60 := by first | exact Operant.Time.sixty_pos | decide
  second_lt : second < 60 := by first | exact Operant.Time.sixty_pos | decide
  microsecond_lt : microsecond < 1000000 := by first | exact Operant.Time.million_pos | decide
  offset_lt : offset.natAbs < 86400 := by decide
  deriving DecidableEq

/-- The minus sign comes after the plus sign. -/
def offsetText (offset : Int) : List Char :=
  let n := offset.natAbs
  (if offset < 0 then '-' else '+') :: (digits 2 (n / 3600) ++ [':'] ++ digits 2 (n / 60 % 60) ++
    if n % 60 = 0 then [] else ':' :: digits 2 (n % 60))

/-- A fraction that is zero is left out. -/
def fractionText (microsecond : Nat) : List Char := if microsecond = 0 then [] else '.' :: digits 6 microsecond

namespace DateTime

/-- The whole seconds on the wall. -/
def seconds (t : DateTime) : Nat := ((t.date.ordinal * 24 + t.hour) * 60 + t.minute) * 60 + t.second

/-- The microseconds on the wall. -/
def wall (t : DateTime) : Nat := t.seconds * 1000000 + t.microsecond

/-- The microseconds in UTC. -/
def instant (t : DateTime) : Int := t.wall - t.offset * 1000000

def secondsText (t : DateTime) : List Char :=
  t.date.isoformat ++ ['T'] ++ digits 2 t.hour ++ [':'] ++ digits 2 t.minute ++ [':'] ++ digits 2 t.second

/-- `isoformat()`. -/
def isoformat (t : DateTime) : List Char := t.secondsText ++ (fractionText t.microsecond ++ offsetText t.offset)

theorem secondsText_ordersLike (a b : DateTime) : OrdersLike a.secondsText b.secondsText a.seconds b.seconds := by
  have hhour (t : DateTime) : t.hour < 10 ^ 2 := t.hour_lt.trans (by decide)
  have hminute (t : DateTime) : t.minute < 10 ^ 2 := t.minute_lt.trans (by decide)
  have hsecond (t : DateTime) : t.second < 10 ^ 2 := t.second_lt.trans (by decide)
  have hdates := (Date.isoformat_ordersLike a.date b.date).literal 'T'
  have hhours := (hdates.append (digits_ordersLike 2 (hhour a) (hhour b)) a.hour_lt b.hour_lt).literal ':'
  have hminutes := (hhours.append (digits_ordersLike 2 (hminute a) (hminute b)) a.minute_lt b.minute_lt).literal ':'
  exact hminutes.append (digits_ordersLike 2 (hsecond a) (hsecond b)) a.second_lt b.second_lt

end DateTime

/-- The text of an offset begins with a sign, which comes before a point. -/
theorem offsetText_sign (offset : Int) : ∃ sign rest, offsetText offset = sign :: rest ∧ sign < '.' := by
  unfold offsetText
  refine ⟨_, _, rfl, ?_⟩
  split <;> decide

theorem fraction_lt_iff {a b : Nat} (ha : a < 1000000) (hb : b < 1000000) (o o' : Int) :
    fractionText a ++ offsetText o < fractionText b ++ offsetText o' ↔
      a < b ∨ a = b ∧ offsetText o < offsetText o' := by
  have hpoint (offset : Int) (rest : List Char) :
      offsetText offset < '.' :: rest ∧ ¬ ('.' :: rest) < offsetText offset := by
    obtain ⟨sign, text, htext, hsign⟩ := offsetText_sign offset
    rw [htext, List.cons_lt_cons_iff, List.cons_lt_cons_iff]
    refine ⟨.inl hsign, ?_⟩
    rintro (hlt | ⟨heq, -⟩)
    · exact absurd hlt (Char.lt_asymm hsign)
    · exact absurd (heq ▸ hsign) (Char.lt_irrefl _)
  unfold fractionText
  by_cases ha0 : a = 0
  · by_cases hb0 : b = 0
    · simp [ha0, hb0]
    · rw [if_pos ha0, if_neg hb0]
      exact iff_of_true (hpoint o _).1 (.inl (by omega))
  · by_cases hb0 : b = 0
    · rw [if_neg ha0, if_pos hb0]
      exact iff_of_false (hpoint o' _).2 (by omega)
    · rw [if_neg ha0, if_neg hb0, List.cons_append, List.cons_append, List.cons_lt_cons_self,
        digits_ordersLike 6 ha hb]

/-- The texts of two offsets with one sign compare like what follows the sign. -/
theorem offsetDigits_lt_iff {m n : Nat} (hm : m < 86400) (hn : n < 86400) :
    (digits 2 (m / 3600) ++ [':'] ++ digits 2 (m / 60 % 60) ++ if m % 60 = 0 then [] else ':' :: digits 2 (m % 60)) <
      (digits 2 (n / 3600) ++ [':'] ++ digits 2 (n / 60 % 60) ++ if n % 60 = 0 then [] else ':' :: digits 2 (n % 60)) ↔
    m < n := by
  have hhours : OrdersLike (digits 2 (m / 3600)) (digits 2 (n / 3600)) (m / 3600) (n / 3600) :=
    digits_ordersLike 2 (by omega) (by omega)
  have hminute (k : Nat) : k / 60 % 60 < 60 := Nat.mod_lt _ (by decide)
  have hminutes := (hhours.literal ':').append
    (digits_ordersLike 2 ((hminute m).trans (by decide)) ((hminute n).trans (by decide))) (hminute m) (hminute n)
  rw [hminutes]
  have htail : ((if m % 60 = 0 then [] else ':' :: digits 2 (m % 60)) < if n % 60 = 0 then [] else ':' :: digits 2 (n % 60)) ↔
      m % 60 < n % 60 := by
    by_cases hm0 : m % 60 = 0
    · by_cases hn0 : n % 60 = 0
      · simp [hm0, hn0]
      · rw [if_pos hm0, if_neg hn0]
        exact iff_of_true (List.nil_lt_cons _ _) (by omega)
    · by_cases hn0 : n % 60 = 0
      · rw [if_neg hm0, if_pos hn0]
        exact iff_of_false (List.not_lt_nil _) (by omega)
      · have hdigits := digits_ordersLike 2 (m := m % 60) (n := n % 60) (by omega) (by omega) [] []
        rw [List.append_nil, List.append_nil] at hdigits
        rw [if_neg hm0, if_neg hn0, List.cons_lt_cons_self, hdigits]
        simp
  rw [htail]
  omega

theorem offsetText_lt_iff {o o' : Int} (ho : o.natAbs < 86400) (ho' : o'.natAbs < 86400) :
    offsetText o < offsetText o' ↔ 0 ≤ o ∧ (o' < 0 ∨ o < o') ∨ o < 0 ∧ o' < o := by
  have hdigits := offsetDigits_lt_iff ho ho'
  unfold offsetText
  dsimp only
  rw [List.cons_lt_cons_iff, hdigits]
  by_cases hneg : o < 0
  · by_cases hneg' : o' < 0
    · rw [if_pos hneg, if_pos hneg', or_iff_right (Char.lt_irrefl _), and_iff_right rfl]
      omega
    · rw [if_pos hneg, if_neg hneg']
      refine iff_of_false ?_ (by omega)
      simp only [not_or, not_and]
      exact ⟨by decide, fun h => absurd h (by decide)⟩
  · by_cases hneg' : o' < 0
    · rw [if_neg hneg, if_pos hneg']
      exact iff_of_true (.inl (by decide)) (by omega)
    · rw [if_neg hneg, if_neg hneg', or_iff_right (Char.lt_irrefl _), and_iff_right rfl]
      omega

namespace DateTime

/-- Texts compare as what the walls show, and then by the signs and offsets. -/
theorem isoformat_lt_iff (a b : DateTime) :
    a.isoformat < b.isoformat ↔ a.wall < b.wall ∨ a.wall = b.wall ∧
      (0 ≤ a.offset ∧ (b.offset < 0 ∨ a.offset < b.offset) ∨ a.offset < 0 ∧ b.offset < a.offset) := by
  unfold isoformat wall
  rw [secondsText_ordersLike a b, fraction_lt_iff a.microsecond_lt b.microsecond_lt,
    offsetText_lt_iff a.offset_lt b.offset_lt, radix_lt_iff a.microsecond_lt b.microsecond_lt,
    radix_eq_iff a.microsecond_lt b.microsecond_lt]
  tauto

/-- Texts that do not compare like the instants: the clock has been set back, and has not come
to the other time again. -/
theorem isoformat_lt_iff_of_le {a b : DateTime} (h : b.instant ≤ a.instant) :
    a.isoformat < b.isoformat ↔ a.wall < b.wall ∨ a.wall = b.wall ∧ 0 ≤ a.offset ∧ a.offset < b.offset := by
  unfold instant at h
  rw [isoformat_lt_iff]
  omega

/-- Under one offset texts compare like instants. -/
theorem isoformat_lt_iff_instant {a b : DateTime} (h : a.offset = b.offset) :
    a.isoformat < b.isoformat ↔ a.instant < b.instant := by
  unfold instant
  rw [isoformat_lt_iff, h]
  omega

end DateTime
end Operant.Time
