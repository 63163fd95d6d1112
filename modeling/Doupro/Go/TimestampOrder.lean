import Doupro.Go.Timestamp
import Mathlib.Data.List.TakeWhile
import Mathlib.Order.Monotone.Basic
import Mathlib.Tactic.IntervalCases
import Mathlib.Tactic.Linarith
import Mathlib.Data.Int.ConditionallyCompleteOrder

/-!
# The order of stored instants

Where the seconds of two instants differ their texts are in the order of the instants. Within one
second the shorter fraction ends in `Z`, which comes after every digit and after the dot.
-/

namespace Doupro.Time

/-! ### The order of texts -/

theorem textLE_refl (a : List Char) : textLE a a = true := by
  induction a with
  | nil => rfl
  | cons c a ih => simp [textLE, ih]

theorem textLE_append_left (p a b : List Char) : textLE (p ++ a) (p ++ b) = textLE a b := by
  induction p with
  | nil => rfl
  | cons c p ih => simp [textLE, ih]

/-- Where two texts differ before either ends, what follows does not matter. -/
theorem textLE_append {a b : List Char} (h : ¬ a <+: b) (h' : ¬ b <+: a) (x y : List Char) :
    textLE (a ++ x) (b ++ y) = textLE a b := by
  induction a generalizing b with
  | nil => exact absurd (List.nil_prefix) h
  | cons c a ih =>
    cases b with
    | nil => exact absurd (List.nil_prefix) h'
    | cons d b =>
      by_cases hcd : c = d
      · subst hcd
        have hrest := ih (fun hp => h (List.cons_prefix_cons.mpr ⟨rfl, hp⟩))
          (fun hp => h' (List.cons_prefix_cons.mpr ⟨rfl, hp⟩))
        simp [textLE, hrest]
      · have hne : (c == d) = false := by simpa using hcd
        simp [textLE, hne]

theorem textLE_append_of_length {a b : List Char} (hlength : a.length = b.length) (x y : List Char) :
    textLE (a ++ x) (b ++ y) = true ↔ (textLE a b = true ∧ a ≠ b) ∨ (a = b ∧ textLE x y = true) := by
  by_cases hab : a = b
  · subst hab
    simp [textLE_append_left]
  · have hprefix : ¬ a <+: b := fun hp => hab (hp.eq_of_length hlength)
    have hprefix' : ¬ b <+: a := fun hp => hab (hp.eq_of_length hlength.symm).symm
    rw [textLE_append hprefix hprefix']
    simp [hab]

/-! ### Fields -/

/-- Two texts of the same length are in the order of the numbers they stand for. -/
structure InOrder (p q : List Char) (a b : Int) : Prop where
  length : p.length = q.length
  le : textLE p q = true ↔ a ≤ b
  eq : p = q ↔ a = b

theorem InOrder.lt {p q : List Char} {a b : Int} (h : InOrder p q a b) :
    (textLE p q = true ∧ p ≠ q) ↔ a < b := by
  rw [h.le, Ne, h.eq]
  omega

/-- A field followed by one that stays below `k`. -/
theorem InOrder.append {p q p' q' : List Char} {a b a' b' k : Int} (h : InOrder p q a b)
    (h' : InOrder p' q' a' b') (ha : 0 ≤ a' ∧ a' < k) (hb : 0 ≤ b' ∧ b' < k) :
    InOrder (p ++ p') (q ++ q') (a * k + a') (b * k + b') where
  length := by simp [h.length, h'.length]
  le := by
    rw [textLE_append_of_length h.length, h.lt, h.eq, h'.le]
    constructor
    · rintro (hlt | ⟨rfl, hle⟩)
      · have hmul : (a + 1) * k ≤ b * k := Int.mul_le_mul_of_nonneg_right (by omega) (by omega)
        linarith
      · linarith
    · intro hle
      by_cases hlt : a < b
      · exact .inl hlt
      by_cases heq : a = b
      · subst heq
        exact .inr ⟨rfl, by linarith⟩
      · have hmul : (b + 1) * k ≤ a * k := Int.mul_le_mul_of_nonneg_right (by omega) (by omega)
        exfalso
        linarith
  eq := by
    constructor
    · intro he
      obtain ⟨hp, hp'⟩ := List.append_inj he h.length
      rw [h.eq.mp hp, h'.eq.mp hp']
    · intro he
      have hab : a = b := by
        by_contra hne
        rcases lt_or_gt_of_ne hne with hlt | hlt
        · have hmul : (a + 1) * k ≤ b * k := Int.mul_le_mul_of_nonneg_right (by omega) (by omega)
          linarith
        · have hmul : (b + 1) * k ≤ a * k := Int.mul_le_mul_of_nonneg_right (by omega) (by omega)
          linarith
      subst hab
      rw [h.eq.mpr rfl, h'.eq.mpr (by linarith)]

theorem InOrder.cons {p q : List Char} {a b : Int} (h : InOrder p q a b) (sep : Char) :
    InOrder (sep :: p) (sep :: q) a b where
  length := by simp [h.length]
  le := by
    rw [← h.le]
    exact iff_of_eq (congrArg (· = true) (textLE_append_left [sep] p q))
  eq := by simp [h.eq]

theorem InOrder.digit {a b : Nat} (ha : a < 10) (hb : b < 10) :
    InOrder [Char.ofNat (48 + a)] [Char.ofNat (48 + b)] a b := by
  have hle : ∀ a < 10, ∀ b < 10, (textLE [Char.ofNat (48 + a)] [Char.ofNat (48 + b)] = true ↔ a ≤ b)
      ∧ (Char.ofNat (48 + a) = Char.ofNat (48 + b) ↔ a = b) := by decide
  obtain ⟨hle, heq⟩ := hle a ha b hb
  exact ⟨rfl, by simpa using hle, by simpa using heq⟩

theorem padded_inOrder {w a b : Nat} (ha : a < 10 ^ w) (hb : b < 10 ^ w) :
    InOrder (padded w a) (padded w b) a b := by
  induction w generalizing a b with
  | zero =>
    have ha : a = 0 := by simpa using ha
    have hb : b = 0 := by simpa using hb
    subst ha hb
    exact ⟨rfl, by simp [padded, textLE], by simp⟩
  | succ w ih =>
    have hpow : 10 ^ (w + 1) = 10 ^ w * 10 := pow_succ ..
    have hrest := ih (a := a / 10) (b := b / 10) (by omega) (by omega)
    have hlast : InOrder _ _ _ _ := InOrder.digit (Nat.mod_lt a (by decide : 10 > 0))
      (Nat.mod_lt b (by decide : 10 > 0))
    have h := hrest.append (k := 10) hlast (by omega) (by omega)
    have hsplit (n : Nat) : ((n / 10 : Nat) : Int) * 10 + ((n % 10 : Nat) : Int) = n := by omega
    rwa [hsplit, hsplit] at h

@[simp] theorem padded_length (width n : Nat) : (padded width n).length = width := by
  induction width generalizing n with
  | zero => rfl
  | succ width ih => simp [padded, ih]

/-! ### The calendar -/

/-- The days of an era that are not leap days. -/
def leapless (doe : Nat) : Nat := doe - doe / 1460 + doe / 36524 - doe / 146096

def yearStart (yoe : Nat) : Nat := 365 * yoe + yoe / 4 - yoe / 100

theorem leapless_succ (doe : Nat) : leapless doe ≤ leapless (doe + 1) := by
  have hquad (n : Nat) : n / 146096 = n / 36524 / 4 := by rw [Nat.div_div_eq_div_mul]
  unfold leapless
  rw [hquad, hquad]
  have hcent : (doe + 1) / 36524 ≤ doe / 36524 + 1 := by omega
  have hcent' : doe / 36524 ≤ (doe + 1) / 36524 := Nat.div_le_div_right (by omega)
  have hfour : (doe + 1) / 1460 ≤ doe / 1460 + 1 := by omega
  have hle : doe / 1460 ≤ doe := Nat.div_le_self ..
  have hle' : (doe + 1) / 1460 ≤ doe + 1 := Nat.div_le_self ..
  by_cases hboth : (doe + 1) / 36524 / 4 = doe / 36524 / 4
  · omega
  · omega

theorem leapless_mono : Monotone leapless := monotone_nat_of_le_succ leapless_succ

/-- A year of the era starts where `365` days more of the era are not leap days. -/
theorem yearStart_counts : ∀ yoe < 400, 365 * yoe ≤ leapless (yearStart yoe) ∧
    (0 < yoe → leapless (yearStart yoe - 1) < 365 * yoe) := by
  decide +kernel

/-- The fields `civil` computes on its way: the year of the era, the day of that year and the
month counted from March. -/
structure Fields (days : Int) (era : Int) (yoe doy mp : Nat) : Prop where
  counted : days + 719468 = era * 146097 + yearStart yoe + doy
  inEra : yoe < 400
  inYear : doy ≤ 365
  month : mp = (5 * doy + 2) / 153
  date : civil days = ((yoe : Int) + era * 400 + (if mp < 10 then 0 else 1),
    if mp < 10 then mp + 3 else mp - 9, doy - (153 * mp + 2) / 5 + 1)
  ends : yoe + 1 < 400 → yearStart yoe + doy < yearStart (yoe + 1)

theorem fields (days : Int) : ∃ era yoe doy mp, Fields days era yoe doy mp := by
  obtain ⟨doe, hdoe⟩ : ∃ doe : Nat, doe = ((days + 719468) % 146097).toNat := ⟨_, rfl⟩
  have hbound : doe < 146097 := by omega
  obtain ⟨yoe, hyoe⟩ : ∃ yoe, yoe = leapless doe / 365 := ⟨_, rfl⟩
  have hlast : leapless doe ≤ leapless 146096 := leapless_mono (by omega)
  have hlast : leapless doe ≤ 145999 := hlast
  have hyoe' : yoe < 400 := by omega
  have hstart : yearStart yoe ≤ doe := by
    by_contra hlt
    have hpos : 0 < yoe := by
      by_contra hzero
      have hzero : yoe = 0 := by omega
      simp [hzero, yearStart] at hlt
    have hle : leapless doe ≤ leapless (yearStart yoe - 1) := leapless_mono (by omega)
    have := (yearStart_counts yoe hyoe').2 hpos
    omega
  have hnext : yoe + 1 < 400 → doe < yearStart (yoe + 1) := by
    intro hin
    by_contra hge
    have hle : leapless (yearStart (yoe + 1)) ≤ leapless doe := leapless_mono (by omega)
    have := (yearStart_counts (yoe + 1) hin).1
    omega
  have hdoy : doe - yearStart yoe ≤ 365 := by
    by_cases hin : yoe + 1 < 400
    · have := hnext hin
      unfold yearStart at *
      omega
    · have h399 : yoe = 399 := by omega
      subst h399
      have : yearStart 399 = 145731 := by decide
      omega
  refine ⟨(days + 719468) / 146097, yoe, doe - yearStart yoe, _, ?_, hyoe', hdoy, rfl, ?_, ?_⟩
  · omega
  · have hyear : (doe - doe / 1460 + doe / 36524 - doe / 146096) / 365 = yoe := hyoe.symm
    have hday : doe - (365 * yoe + yoe / 4 - yoe / 100) = doe - yearStart yoe := rfl
    simp only [civil, ← hdoe, hyear, hday]
    split
    · simp
    · simp
      omega
  · intro hin
    have := hnext hin
    omega

/-- A date as one number. -/
def dateKey (date : Int × Nat × Nat) : Int := (date.1 * 100 + date.2.1) * 100 + date.2.2

theorem Fields.bounds {days era : Int} {yoe doy mp : Nat} (h : Fields days era yoe doy mp) :
    mp ≤ 11 ∧ (153 * mp + 2) / 5 ≤ doy ∧ doy - (153 * mp + 2) / 5 ≤ 30 := by
  have hmonth := h.month
  have hdoy := h.inYear
  omega

theorem yearStart_succ (yoe : Nat) : yearStart yoe ≤ yearStart (yoe + 1) := by
  have hleap : yoe / 4 ≤ (yoe + 1) / 4 := Nat.div_le_div_right (by omega)
  have hcent : (yoe + 1) / 100 ≤ yoe / 100 + 1 := by omega
  unfold yearStart
  omega

theorem yearStart_mono : Monotone yearStart := monotone_nat_of_le_succ yearStart_succ

/-- A later day is in a later year, or later in the same one; years start in March here. -/
theorem Fields.later {x y era era' : Int} {yoe yoe' doy doy' mp mp' : Nat}
    (hx : Fields x era yoe doy mp) (hy : Fields y era' yoe' doy' mp') (h : x < y) :
    yoe + era * 400 < yoe' + era' * 400 ∨ (yoe + era * 400 = yoe' + era' * 400 ∧ doy < doy') := by
  have hcount := hx.counted
  have hcount' := hy.counted
  have hin := hx.inEra
  have hin' := hy.inEra
  have hdoy := hx.inYear
  have hdoy' := hy.inYear
  have hfits : yearStart yoe ≤ yearStart 399 := yearStart_mono (by omega)
  have hfits' : yearStart yoe' ≤ yearStart 399 := yearStart_mono (by omega)
  have hlast : yearStart 399 = 145731 := by decide
  by_cases hera : era < era'
  · omega
  · have hera : era = era' := by omega
    subst hera
    by_cases hyoe : yoe' < yoe
    · have hends := hy.ends (by omega)
      have hle : yearStart (yoe' + 1) ≤ yearStart yoe := yearStart_mono hyoe
      omega
    · by_cases hsame : yoe = yoe'
      · subst hsame
        omega
      · omega

theorem dateKey_lt {x y : Int} (h : x < y) : dateKey (civil x) < dateKey (civil y) := by
  obtain ⟨era, yoe, doy, mp, hx⟩ := fields x
  obtain ⟨era', yoe', doy', mp', hy⟩ := fields y
  have hlater := hx.later hy h
  have hbounds := hx.bounds
  have hbounds' := hy.bounds
  have hmonth (hle : doy ≤ doy') : mp ≤ mp' := by
    rw [hx.month, hy.month]
    exact Nat.div_le_div_right (by omega)
  simp only [hx.date, hy.date, dateKey]
  rcases hlater with hyear | ⟨hyear, hday⟩
  · split <;> split <;> omega
  · have hmonth := hmonth hday.le
    by_cases hsame : mp = mp'
    · subst hsame
      split <;> omega
    · split <;> split <;> omega

theorem dateKey_strictMono : StrictMono fun days => dateKey (civil days) := fun _ _ h => dateKey_lt h

theorem civil_bounds (days : Int) : (civil days).2.1 < 100 ∧ (civil days).2.2 < 100 := by
  obtain ⟨era, yoe, doy, mp, h⟩ := fields days
  have hbounds := h.bounds
  rw [h.date]
  constructor
  · dsimp only
    split <;> omega
  · dsimp only
    omega

/-! ### Seconds -/

def year (t : Time) : Int := (civil (t / second / 86400)).1

/-- The text up to the seconds. -/
def stamp (seconds : Int) : List Char :=
  let clock := (seconds % 86400).toNat
  let (year, month, day) := civil (seconds / 86400)
  yearText year ++ '-' :: padded 2 month ++ '-' :: padded 2 day ++
    'T' :: padded 2 (clock / 3600) ++ ':' :: padded 2 (clock / 60 % 60) ++ ':' :: padded 2 (clock % 60)

def fractionText (nanos : Nat) : List Char :=
  if nanos = 0 then [] else '.' :: dropTrailingZeros (padded 9 nanos)

theorem rfc3339Nano_eq (t : Time) :
    t.rfc3339Nano = stamp (t / second) ++ (fractionText (t % second).toNat ++ ['Z']) := by
  simp [rfc3339Nano, stamp, fractionText]

def clockKey (clock : Nat) : Int :=
  (((clock / 3600 : Nat) : Int) * 100 + ((clock / 60 % 60 : Nat) : Int)) * 100 + ((clock % 60 : Nat) : Int)

/-- The digits up to the seconds as one number. -/
def stampKey (seconds : Int) : Int :=
  dateKey (civil (seconds / 86400)) * 1000000 + clockKey (seconds % 86400).toNat

theorem clockKey_bounds {c : Nat} (h : c < 86400) : 0 ≤ clockKey c ∧ clockKey c < 1000000 := by
  unfold clockKey
  omega

theorem clockKey_lt {a b : Nat} (h : a < b) : clockKey a < clockKey b := by
  have hhour (n : Nat) : n / 3600 = n / 60 / 60 := by rw [Nat.div_div_eq_div_mul]
  unfold clockKey
  rw [hhour, hhour]
  omega

theorem stampKey_lt {x y : Int} (h : x < y) : stampKey x < stampKey y := by
  have hbounds := clockKey_bounds (c := (x % 86400).toNat) (by omega)
  have hbounds' := clockKey_bounds (c := (y % 86400).toNat) (by omega)
  unfold stampKey
  by_cases hday : x / 86400 < y / 86400
  · have hdate := dateKey_lt hday
    omega
  · have hday : x / 86400 = y / 86400 := by omega
    have hclock : clockKey (x % 86400).toNat < clockKey (y % 86400).toNat := clockKey_lt (by omega)
    rw [hday]
    omega

theorem stampKey_strictMono : StrictMono stampKey := fun _ _ h => stampKey_lt h

theorem yearText_inOrder {a b : Int} (ha : 0 ≤ a ∧ a < 10000) (hb : 0 ≤ b ∧ b < 10000) :
    InOrder (yearText a) (yearText b) a b := by
  have htext (a : Int) (ha : 0 ≤ a ∧ a < 10000) : yearText a = padded 4 a.natAbs := by
    unfold yearText
    rw [if_neg (by omega), if_pos (by omega)]
  have h : InOrder (padded 4 a.natAbs) (padded 4 b.natAbs) _ _ := padded_inOrder (by omega) (by omega)
  rw [htext a ha, htext b hb]
  have habs (a : Int) (ha : 0 ≤ a ∧ a < 10000) : (a.natAbs : Int) = a := by omega
  rwa [habs a ha, habs b hb] at h

theorem InOrder.field {p q : List Char} {a b : Int} {c d : Nat} (h : InOrder p q a b) (sep : Char)
    (hc : c < 100) (hd : d < 100) :
    InOrder (p ++ sep :: padded 2 c) (q ++ sep :: padded 2 d) (a * 100 + c) (b * 100 + d) :=
  h.append ((padded_inOrder hc hd).cons sep) (by omega) (by omega)

theorem stamp_key {x y : Int} (hx : 0 ≤ (civil (x / 86400)).1 ∧ (civil (x / 86400)).1 < 10000)
    (hy : 0 ≤ (civil (y / 86400)).1 ∧ (civil (y / 86400)).1 < 10000) :
    InOrder (stamp x) (stamp y) (stampKey x) (stampKey y) := by
  have hdate := civil_bounds (x / 86400)
  have hdate' := civil_bounds (y / 86400)
  have hyear := yearText_inOrder hx hy
  have hday := (hyear.field '-' hdate.1 hdate'.1).field '-' hdate.2 hdate'.2
  have hhour := hday.field 'T' (c := (x % 86400).toNat / 3600) (d := (y % 86400).toNat / 3600)
    (by omega) (by omega)
  have hminute := hhour.field ':' (c := (x % 86400).toNat / 60 % 60)
    (d := (y % 86400).toNat / 60 % 60) (by omega) (by omega)
  have hsecond := hminute.field ':' (c := (x % 86400).toNat % 60) (d := (y % 86400).toNat % 60)
    (by omega) (by omega)
  have hnumber (x : Int) : (((((civil (x / 86400)).1 * 100 + (civil (x / 86400)).2.1) * 100 +
      (civil (x / 86400)).2.2) * 100 + ((x % 86400).toNat / 3600 : Nat)) * 100 +
      ((x % 86400).toNat / 60 % 60 : Nat)) * 100 + ((x % 86400).toNat % 60 : Nat) = stampKey x := by
    unfold stampKey clockKey dateKey
    omega
  rw [hnumber, hnumber] at hsecond
  exact hsecond

theorem stamp_inOrder {x y : Int} (hx : 0 ≤ (civil (x / 86400)).1 ∧ (civil (x / 86400)).1 < 10000)
    (hy : 0 ≤ (civil (y / 86400)).1 ∧ (civil (y / 86400)).1 < 10000) :
    InOrder (stamp x) (stamp y) x y := by
  have hkey := stamp_key hx hy
  exact ⟨hkey.length, hkey.le.trans stampKey_strictMono.le_iff_le,
    hkey.eq.trans stampKey_strictMono.injective.eq_iff⟩

/-! ### Fractions -/

theorem dropTrailingZeros_append (digits : List Char) :
    ∃ k, digits = dropTrailingZeros digits ++ List.replicate k '0' := by
  have hzeros : digits.reverse.takeWhile (· == '0') =
      List.replicate (digits.reverse.takeWhile (· == '0')).length '0' := by
    refine List.eq_replicate_of_mem fun c hc => ?_
    simpa using List.mem_takeWhile_imp hc
  refine ⟨(digits.reverse.takeWhile (· == '0')).length, ?_⟩
  have hsplit := congrArg List.reverse
    (List.takeWhile_append_dropWhile (p := (· == '0')) (l := digits.reverse))
  rw [List.reverse_append, List.reverse_reverse, hzeros, List.reverse_replicate] at hsplit
  exact hsplit.symm

theorem digit_bounds {w n : Nat} {c : Char} (hc : c ∈ padded w n) :
    '0'.toNat ≤ c.toNat ∧ c.toNat < 'Z'.toNat := by
  induction w generalizing n with
  | zero => cases hc
  | succ w ih =>
    rcases List.mem_append.mp hc with hc | hc
    · exact ih hc
    · have hdigit : ∀ d < 10, '0'.toNat ≤ (Char.ofNat (48 + d)).toNat ∧
          (Char.ofNat (48 + d)).toNat < 'Z'.toNat := by decide
      rw [List.mem_singleton.mp hc]
      exact hdigit _ (Nat.mod_lt n (by decide))

theorem zeros_le {k : Nat} {xs : List Char} (hlength : xs.length = k)
    (hdigits : ∀ c ∈ xs, '0'.toNat ≤ c.toNat) : textLE (List.replicate k '0') xs = true := by
  induction xs generalizing k with
  | nil =>
    subst hlength
    rfl
  | cons c xs ih =>
    subst hlength
    have hrest := ih rfl fun c hc => hdigits c (List.mem_cons_of_mem _ hc)
    have hc := hdigits c List.mem_cons_self
    rw [List.length_cons, List.replicate_succ]
    simp only [textLE, hrest, Bool.and_true, Bool.or_eq_true, decide_eq_true_eq, beq_iff_eq]
    by_cases heq : c.toNat = '0'.toNat
    · exact .inr (Char.toNat_inj.mp heq).symm
    · exact .inl (by omega)

@[simp] theorem fractionText_zero : fractionText 0 = [] := rfl

theorem fractionText_digits {n : Nat} (h : n ≠ 0) :
    ∃ digits k, fractionText n = '.' :: digits ∧ padded 9 n = digits ++ List.replicate k '0' ∧
      digits = dropTrailingZeros (padded 9 n) := by
  obtain ⟨k, hk⟩ := dropTrailingZeros_append (padded 9 n)
  exact ⟨dropTrailingZeros (padded 9 n), k, if_neg h, hk, rfl⟩

/-- Texts that differ before one ends: the fraction is in the order of the nanoseconds. -/
theorem fractionText_le {a b : Nat} (ha : a < 1000000000) (hb : b < 1000000000)
    (h : ¬ fractionText a <+: fractionText b) (h' : ¬ fractionText b <+: fractionText a) :
    textLE (fractionText a ++ ['Z']) (fractionText b ++ ['Z']) = true ↔ a ≤ b := by
  have ha0 : a ≠ 0 := fun h0 => h (by simp [h0])
  have hb0 : b ≠ 0 := fun h0 => h' (by simp [h0])
  obtain ⟨d, k, hd, hk, -⟩ := fractionText_digits ha0
  obtain ⟨e, l, he, hl, -⟩ := fractionText_digits hb0
  have horder := (padded_inOrder (w := 9) ha hb).le
  rw [hd, he, List.cons_prefix_cons] at h h'
  have h : ¬ d <+: e := by simpa using h
  have h' : ¬ e <+: d := by simpa using h'
  rw [hk, hl, textLE_append h h'] at horder
  have hdot : textLE ('.' :: d ++ ['Z']) ('.' :: e ++ ['Z']) = textLE (d ++ ['Z']) (e ++ ['Z']) :=
    textLE_append_left ['.'] _ _
  rw [hd, he, hdot, textLE_append h h', horder]
  omega

theorem zulu_last {c : Char} (hc : c.toNat < 'Z'.toNat) (rest : List Char) :
    textLE ['Z'] (c :: rest) = false ∧ textLE (c :: rest) ['Z'] = true := by
  have hne : ('Z' == c) = false := by
    by_contra h
    have h : 'Z' = c := by simpa using h
    subst h
    omega
  simp only [textLE, hne, Bool.false_and, Bool.or_false, decide_eq_false_iff_not, Bool.or_eq_true,
    decide_eq_true_eq]
  omega

/-- Where one fraction goes on after the other has ended, the shorter one is earlier and its text is
the greater one: `Z` is compared with a dot or a digit. -/
theorem fractionText_prefix {a b : Nat} (ha : a < 1000000000) (hb : b < 1000000000) (hne : a ≠ b)
    (h : fractionText a <+: fractionText b) :
    a < b ∧ textLE (fractionText a ++ ['Z']) (fractionText b ++ ['Z']) = false ∧
      textLE (fractionText b ++ ['Z']) (fractionText a ++ ['Z']) = true := by
  by_cases ha0 : a = 0
  · subst ha0
    obtain ⟨e, l, he, -⟩ := fractionText_digits hne.symm
    rw [he]
    exact ⟨by omega, zulu_last (by decide) _⟩
  · obtain ⟨d, k, hd, hk, -⟩ := fractionText_digits ha0
    have hb0 : b ≠ 0 := by
      rintro rfl
      rw [hd] at h
      simp at h
    obtain ⟨e, l, he, hl, -⟩ := fractionText_digits hb0
    rw [hd, he, List.cons_prefix_cons] at h
    obtain ⟨r, rfl⟩ := h.2
    rw [List.append_assoc] at hl
    have horder := padded_inOrder (w := 9) ha hb
    have hlength := horder.length
    have hdigits (c : Char) (hc : c ∈ r ++ List.replicate l '0') := digit_bounds (w := 9) (n := b)
      (hl ▸ List.mem_append_right d hc)
    rw [hk, hl] at horder hlength
    have hle : a ≤ b := by
      have hle := zeros_le (k := k) (by simp at hlength ⊢; omega) fun c hc => (hdigits c hc).1
      rw [← textLE_append_left d, horder.le] at hle
      omega
    cases r with
    | nil =>
      have hkl : k = l := by simpa using hlength
      subst hkl
      have := horder.eq.mp rfl
      omega
    | cons c r =>
      rw [hd, he]
      have hlast := zulu_last (hdigits c (by simp)).2 (r ++ ['Z'])
      have hleft : textLE ('.' :: d ++ ['Z']) ('.' :: (d ++ c :: r) ++ ['Z']) =
          textLE ['Z'] (c :: (r ++ ['Z'])) := by
        have h := textLE_append_left ('.' :: d) ['Z'] (c :: (r ++ ['Z']))
        simpa using h
      have hright : textLE ('.' :: (d ++ c :: r) ++ ['Z']) ('.' :: d ++ ['Z']) =
          textLE (c :: (r ++ ['Z'])) ['Z'] := by
        have h := textLE_append_left ('.' :: d) (c :: (r ++ ['Z'])) ['Z']
        simpa using h
      rw [hleft, hright]
      exact ⟨by omega, hlast⟩

/-! ### Cut fractions -/

theorem padded_append (k j n : Nat) : padded (k + j) n = padded k (n / 10 ^ j) ++ padded j n := by
  induction j generalizing n with
  | zero => simp [padded]
  | succ j ih =>
    have hdiv : n / 10 / 10 ^ j = n / 10 ^ (j + 1) := by rw [Nat.div_div_eq_div_mul, pow_succ']
    rw [← Nat.add_assoc, padded, ih, hdiv, List.append_assoc, padded]

theorem padded_mod (j n : Nat) : padded j (n % 10 ^ j) = padded j n := by
  induction j generalizing n with
  | zero => rfl
  | succ j ih =>
    have hdiv : n % 10 ^ (j + 1) / 10 = n / 10 % 10 ^ j := by
      rw [pow_succ', Nat.mod_mul_right_div_self]
    have hmod : n % 10 ^ (j + 1) % 10 = n % 10 := Nat.mod_mod_of_dvd n (dvd_pow_self 10 (by omega))
    rw [padded, padded, hdiv, hmod, ih]

theorem padded_zero (j : Nat) : padded j 0 = List.replicate j '0' := by
  induction j with
  | zero => rfl
  | succ j ih =>
    rw [padded, List.replicate_succ', ← ih]

theorem padded_zeros {j n : Nat} : padded j n = List.replicate j '0' ↔ n % 10 ^ j = 0 := by
  have hbound : n % 10 ^ j < 10 ^ j := Nat.mod_lt _ (by positivity)
  have h := (padded_inOrder hbound (b := 0) (by positivity)).eq
  rw [padded_mod, padded_zero] at h
  exact h.trans Int.natCast_inj

theorem padded_split {k : Nat} (hk : k ≤ 9) (n : Nat) :
    padded 9 n = padded (9 - k) (n / 10 ^ k) ++ padded k n := by
  rw [← padded_append, Nat.sub_add_cancel hk]

theorem cut_iff {a b : Nat} (k : Nat) :
    a = b - b % 10 ^ k ↔ a / 10 ^ k = b / 10 ^ k ∧ a % 10 ^ k = 0 := by
  have ha := Nat.div_add_mod a (10 ^ k)
  have hb := Nat.div_add_mod b (10 ^ k)
  constructor
  · intro h
    have h : a = 10 ^ k * (b / 10 ^ k) := by omega
    rw [h, Nat.mul_div_cancel_left _ (by positivity)]
    exact ⟨rfl, Nat.mul_mod_right ..⟩
  · rintro ⟨hdiv, hmod⟩
    rw [hdiv] at ha
    omega

/-- The digits kept decide the places above them. -/
theorem padded_above {k a b : Nat} (hk : k ≤ 9) (ha : a < 1000000000) (hb : b < 1000000000) :
    padded (9 - k) (a / 10 ^ k) = padded (9 - k) (b / 10 ^ k) ↔ a / 10 ^ k = b / 10 ^ k := by
  have hpow : 10 ^ k * 10 ^ (9 - k) = 1000000000 := by
    rw [← pow_add, Nat.add_sub_cancel' hk]
    rfl
  have horder := padded_inOrder (w := 9 - k) (a := a / 10 ^ k) (b := b / 10 ^ k)
    (Nat.div_lt_of_lt_mul (by omega)) (Nat.div_lt_of_lt_mul (by omega))
  exact horder.eq.trans Int.natCast_inj

theorem dropTrailingZeros_zeros (digits : List Char) (k : Nat) :
    dropTrailingZeros (digits ++ List.replicate k '0') = dropTrailingZeros digits := by
  induction k with
  | zero => simp
  | succ k ih =>
    rw [← ih, List.replicate_succ', ← List.append_assoc]
    unfold dropTrailingZeros
    rw [List.reverse_append]
    rfl

/-- One fraction goes on where the other ends just when the one is the other with its last places
cut off. -/
theorem fractionText_prefix_iff {a b : Nat} (ha : a < 1000000000) (hb : b < 1000000000) (hne : a ≠ b) :
    fractionText a <+: fractionText b ↔ ∃ j ≤ 9, a = b - b % 10 ^ j := by
  by_cases ha0 : a = 0
  · subst ha0
    have hcut : b - b % 10 ^ 9 = 0 := by omega
    exact iff_of_true (by simp) ⟨9, le_rfl, hcut.symm⟩
  by_cases hb0 : b = 0
  · subst hb0
    refine iff_of_false (fun h => ?_) (fun h => ?_)
    · obtain ⟨d, k, hd, -⟩ := fractionText_digits ha0
      simp [hd] at h
    · obtain ⟨j, -, hj⟩ := h
      omega
  obtain ⟨d, k, hd, hk, htrim⟩ := fractionText_digits ha0
  obtain ⟨e, l, he, hl, -⟩ := fractionText_digits hb0
  rw [hd, he, List.cons_prefix_cons]
  simp only [true_and]
  constructor
  · rintro ⟨r, rfl⟩
    have hplaces := congrArg List.length hk
    simp only [padded_length, List.length_append, List.length_replicate] at hplaces
    have hk9 : k ≤ 9 := by omega
    rw [padded_split hk9] at hk hl
    rw [List.append_assoc] at hl
    obtain ⟨hhead, htail⟩ := List.append_inj hk (by simp; omega)
    obtain ⟨hhead', -⟩ := List.append_inj hl (by simp; omega)
    exact ⟨k, hk9, (cut_iff k).mpr
      ⟨(padded_above hk9 ha hb).mp (hhead.trans hhead'.symm), padded_zeros.mp htail⟩⟩
  · rintro ⟨j, hj, hcut⟩
    obtain ⟨hdiv, hmod⟩ := (cut_iff j).mp hcut
    have hsplit := padded_split hj a
    have hsplit' := padded_split hj b
    rw [hdiv, padded_zeros.mpr hmod] at hsplit
    have hleft : d <+: padded (9 - j) (b / 10 ^ j) := by
      rw [htrim, hsplit, dropTrailingZeros_zeros]
      obtain ⟨l, hl⟩ := dropTrailingZeros_append (padded (9 - j) (b / 10 ^ j))
      exact ⟨_, hl.symm⟩
    have hright : e <+: padded 9 b := hl ▸ List.prefix_append ..
    rcases List.prefix_or_prefix_of_prefix (hleft.trans ⟨_, hsplit'.symm⟩) hright with h | h
    · exact h
    · -- the places cut off are then all zeros
      obtain ⟨s, hs⟩ := h.trans hleft
      rw [← hs, hl, List.append_assoc] at hsplit'
      have hzeros := List.append_cancel_left hsplit'
      have hrest := (List.append_eq_replicate_iff.mp hzeros.symm).2.2
      rw [padded_length, padded_zeros] at hrest
      exact absurd hcut (by omega)

/-! ### Instants -/

/-- `a` is `b` with places of the fraction of its second cut off. -/
def CutFrom (a b : Time) : Prop := a ≠ b ∧ ∃ j ≤ 9, a = b - b % 10 ^ j

theorem columnLE_second {a b : Time} (ha : 0 ≤ a.year ∧ a.year < 10000)
    (hb : 0 ≤ b.year ∧ b.year < 10000) : columnLE a b = true ↔ a / second < b / second ∨
      (a / second = b / second ∧ textLE (fractionText (a % second).toNat ++ ['Z'])
        (fractionText (b % second).toNat ++ ['Z']) = true) := by
  have hstamp := stamp_inOrder ha hb
  rw [columnLE, rfc3339Nano_eq, rfc3339Nano_eq, textLE_append_of_length hstamp.length, hstamp.lt,
    hstamp.eq]

theorem cutFrom_iff {a b : Int} : CutFrom a b ↔ a / second = b / second ∧
    (a % second).toNat ≠ (b % second).toNat ∧
      ∃ j ≤ 9, (a % second).toNat = (b % second).toNat - (b % second).toNat % 10 ^ j := by
  unfold CutFrom second
  constructor
  · rintro ⟨hne, j, hj, hcut⟩
    change (a : Int) = b - b % 10 ^ j at hcut
    change (a : Int) ≠ b at hne
    refine ⟨?_, ?_, j, hj, ?_⟩ <;> interval_cases j <;> omega
  · rintro ⟨hs, hne, j, hj, hcut⟩
    refine ⟨fun h => hne (by rw [h]), j, hj, ?_⟩
    change (a : Int) = b - b % 10 ^ j
    interval_cases j <;> omega

theorem nanos_lt (t : Int) : (t % second).toNat < 1000000000 := by
  unfold second
  omega

theorem nanos_order {a b : Int} (h : a / second = b / second) :
    (a ≤ b ↔ (a % second).toNat ≤ (b % second).toNat) ∧
      (a = b ↔ (a % second).toNat = (b % second).toNat) := by
  unfold second at *
  omega

theorem le_iff_of_second_ne {a b : Int} (h : a / second ≠ b / second) :
    a ≤ b ↔ a / second < b / second := by
  unfold second at *
  omega

theorem cutFrom_iff_prefix {a b : Int} : CutFrom a b ↔ a / second = b / second ∧
    (a % second).toNat ≠ (b % second).toNat ∧
      fractionText (a % second).toNat <+: fractionText (b % second).toNat := by
  rw [cutFrom_iff]
  refine and_congr_right fun _ => and_congr_right fun hne => ?_
  exact (fractionText_prefix_iff (nanos_lt a) (nanos_lt b) hne).symm

/-- The texts are in the order of the instants but for pairs of which one is the other with places
of its fraction cut off. -/
theorem columnLE_iff {a b : Time} (ha : 0 ≤ a.year ∧ a.year ≤ 9999)
    (hb : 0 ≤ b.year ∧ b.year ≤ 9999) :
    (a ≤ b ↔ columnLE a b = true) ↔ ¬ (CutFrom a b ∨ CutFrom b a) := by
  rw [columnLE_second (by omega) (by omega), cutFrom_iff_prefix, cutFrom_iff_prefix]
  by_cases hs : a / second = b / second
  · obtain ⟨horder, hequal⟩ := nanos_order hs
    by_cases heq : a = b
    · subst heq
      simp [textLE_refl]
    have hne := mt hequal.mpr heq
    by_cases hp : fractionText (a % second).toNat <+: fractionText (b % second).toNat
    · have hprefix := fractionText_prefix (nanos_lt a) (nanos_lt b) hne hp
      simp [hs, hne, hp, hprefix.2.1, horder, hprefix.1.le]
    by_cases hp' : fractionText (b % second).toNat <+: fractionText (a % second).toNat
    · have hprefix := fractionText_prefix (nanos_lt b) (nanos_lt a) (Ne.symm hne) hp'
      have hlt : ¬ a ≤ b := fun h => by
        have := horder.mp h
        omega
      simp [hs, Ne.symm hne, hp', hprefix.2.2, hlt]
    · have hle := fractionText_le (nanos_lt a) (nanos_lt b) hp hp'
      simp [hp, hp', hs, horder, hle]
  · have hs' : ¬ b / second = a / second := fun h => hs h.symm
    simp [hs, hs', le_iff_of_second_ne hs]

theorem columnLE_iff_seconds : ((1700000000 * second : Time) ≤ 1700000001 * second ↔
    columnLE (1700000000 * second) (1700000001 * second) = true) ↔
      ¬ (CutFrom (1700000000 * second) (1700000001 * second) ∨
        CutFrom (1700000001 * second) (1700000000 * second)) :=
  columnLE_iff (by decide) (by decide)

/-- `…20Z` comes after `…20.5Z`. -/
theorem half_second_misplaced : ¬ ∀ a b : Time, (0 ≤ a.year ∧ a.year ≤ 9999) →
    (0 ≤ b.year ∧ b.year ≤ 9999) → (a ≤ b ↔ columnLE a b = true) := by
  intro h
  have horder := h (1700000000 * second) (1700000000 * second + 500000000) (by decide) (by decide)
  have hlate : columnLE (1700000000 * second) (1700000000 * second + 500000000) = false := by decide
  rw [hlate] at horder
  exact Bool.noConfusion (horder.mp (by decide))

/-- Instants of different seconds are stored in their order. -/
theorem columnLE_of_second_lt {a b : Time} (ha : 0 ≤ a.year ∧ a.year ≤ 9999)
    (hb : 0 ≤ b.year ∧ b.year ≤ 9999) (h : a / second < b / second) : columnLE a b = true :=
  (columnLE_second (by omega) (by omega)).mpr (.inl h)

/-! ### Due instants -/

theorem year_mono {a b : Int} (h : a ≤ b) : year a ≤ year b := by
  have hday : a / second / 86400 ≤ b / second / 86400 := by
    unfold second
    omega
  have hkey : dateKey (civil (a / second / 86400)) ≤ dateKey (civil (b / second / 86400)) :=
    dateKey_strictMono.monotone hday
  have hbounds := civil_bounds (a / second / 86400)
  have hbounds' := civil_bounds (b / second / 86400)
  unfold dateKey at hkey
  unfold year
  omega

theorem rfc3339Nano_year (t : Time) : ∃ rest, t.rfc3339Nano = yearText t.year ++ '-' :: rest := by
  rw [rfc3339Nano_eq]
  simp only [stamp, year, List.append_assoc, List.cons_append]
  exact ⟨_, rfl⟩

theorem textLE_cons_of_lt {c d : Char} (h : c.toNat < d.toNat) (a b : List Char) :
    textLE (c :: a) (d :: b) = true ∧ textLE (d :: b) (c :: a) = false := by
  have hne : (d == c) = false := by
    by_contra heq
    have heq : d = c := by simpa using heq
    subst heq
    omega
  constructor
  · rw [textLE]
    simp [h]
  · rw [textLE, hne]
    simp
    omega

/-- The text of an instant is later than that of every instant a second or more before it. -/
theorem columnLE_of_second_le {due now : Int} (hnow : 0 ≤ year now ∧ year now ≤ 9999)
    (h : due + second ≤ now) : columnLE due now = true := by
  have hyear : year due ≤ year now := year_mono (by
    unfold second at h
    omega)
  by_cases hneg : year due < 0
  · -- a sign comes before every digit
    obtain ⟨rest, hrest⟩ := rfc3339Nano_year due
    obtain ⟨rest', hrest'⟩ := rfc3339Nano_year now
    have hsign : ∃ digits, yearText (year due) = '-' :: digits := ⟨_, if_pos hneg⟩
    have hdigit : ∃ c digits, yearText (year now) = c :: digits ∧ '0'.toNat ≤ c.toNat := by
      have htext : yearText (year now) = padded 4 (year now).natAbs := by
        unfold yearText
        rw [if_neg (by omega), if_pos (by omega)]
      rw [htext]
      exact ⟨_, _, rfl, (digit_bounds (w := 4) (n := (year now).natAbs) List.mem_cons_self).1⟩
    obtain ⟨digits, hdigits⟩ := hsign
    obtain ⟨c, digits', hdigits', hc⟩ := hdigit
    rw [columnLE, hrest, hrest', hdigits, hdigits']
    exact (textLE_cons_of_lt (Nat.lt_of_lt_of_le (by decide) hc) _ _).1
  · refine columnLE_of_second_lt (by omega) hnow ?_
    change (due : Int) / 1000000000 < (now : Int) / 1000000000
    unfold second at h
    omega

/-- March 1st of the year `10 ^ (k + 4)`. -/
def distant (k : Nat) : Int := (146097 * (25 * 10 ^ k) - 719468) * 86400 * 1000000000

theorem le_distant (t : Int) : t ≤ distant t.toNat := by
  have hpow : t.toNat < 10 ^ t.toNat := Nat.lt_pow_self (by decide)
  have hpow : (t.toNat : Int) < 10 ^ t.toNat := by exact_mod_cast hpow
  unfold distant
  omega

theorem year_distant (k : Nat) : year (distant k) = 10 ^ (k + 4) := by
  have hday : distant k / second / 86400 = 146097 * (25 * 10 ^ k) - 719468 := by
    unfold distant second
    omega
  have hera : (146097 * (25 * 10 ^ k) - 719468 + 719468 : Int) / 146097 = 25 * 10 ^ k := by omega
  have hdoe : ((146097 * (25 * 10 ^ k) - 719468 + 719468 : Int) % 146097).toNat = 0 := by omega
  have hpow : (10 : Int) ^ (k + 4) = 10 ^ k * 10000 := by
    rw [pow_add]
    rfl
  unfold year
  rw [hday, hpow]
  simp only [civil, hera, hdoe]
  norm_num
  omega

theorem toDigits_pow (k : Nat) : ∃ rest, Nat.toDigits 10 (10 ^ k) = '1' :: rest := by
  induction k with
  | zero => exact ⟨[], rfl⟩
  | succ k ih =>
    obtain ⟨rest, hrest⟩ := ih
    have happend := Nat.toDigits_append_toDigits (b := 10) (n := 10 ^ k) (d := 0) (by decide)
      (by positivity) (by decide)
    rw [hrest, Nat.add_zero, ← pow_succ'] at happend
    exact ⟨_, happend.symm⟩

/-- No instant stays the earlier text for ever: the years get a fifth digit. -/
theorem columnLE_distant {due : Time} {c : Char} {rest : List Char} (hdue : rfc3339Nano due = c :: rest)
    (hc : '1'.toNat < c.toNat) (k : Nat) : columnLE due (distant k) = false := by
  have habs : ((10 : Int) ^ (k + 4)).natAbs = 10 ^ (k + 4) := by
    rw [Int.natAbs_pow]
    rfl
  have hlarge : ¬ 10 ^ (k + 4) < 10000 := by
    have := Nat.pow_le_pow_right (n := 10) (by decide) (show 4 ≤ k + 4 by omega)
    omega
  obtain ⟨digits, hdigits⟩ := toDigits_pow (k + 4)
  have hyear : yearText (year (distant k)) = '1' :: digits := by
    unfold yearText
    rw [year_distant, habs, if_neg (not_lt.mpr (by positivity)), if_neg hlarge, hdigits]
  obtain ⟨rest', hrest'⟩ := rfc3339Nano_year (distant k)
  rw [columnLE, hdue, hrest', hyear]
  exact (textLE_cons_of_lt hc _ _).2

end Doupro.Time
