import Mathlib.Data.List.Lex
import Mathlib.Data.String.Basic
import Mathlib.Data.Nat.Basic
import Himmy.Core.DateTime

/-! # Timestamps as texts

The `isoformat` of a UTC datetime has fields of fixed width in falling order of size, so the order of
the texts is the order of the instants (`isoformat_lt_iff`). The microseconds are the one field that
may be missing; it is followed by `+`, which is below `.`. -/

namespace Himmy

namespace Calendar

private theorem succ_div_eq (k d : Nat) :
    (k + 1) / d = k / d + if (k + 1) % d = 0 then 1 else 0 := by
  rw [Nat.succ_div]
  simp only [Nat.dvd_iff_mod_eq_zero]

theorem daysBeforeYear_succ {year : Nat} (h : 1 ≤ year) :
    daysBeforeYear (year + 1) = daysBeforeYear year + 365 + (isLeap year).toNat := by
  obtain ⟨k, rfl⟩ : ∃ k, year = k + 1 := ⟨year - 1, by omega⟩
  have hleap : (isLeap (k + 1)).toNat
      = (if (k + 1) % 4 = 0 then 1 else 0) - (if (k + 1) % 100 = 0 then 1 else 0)
        + (if (k + 1) % 400 = 0 then 1 else 0) := by
    by_cases h4 : (k + 1) % 4 = 0 <;> by_cases h100 : (k + 1) % 100 = 0 <;>
      by_cases h400 : (k + 1) % 400 = 0 <;> simp [isLeap, h4, h100, h400] <;> omega
  have h4 := succ_div_eq k 4
  have h100 := succ_div_eq k 100
  have h400 := succ_div_eq k 400
  unfold daysBeforeYear
  simp only [Nat.add_sub_cancel]
  rw [hleap, h4, h100, h400]
  have hle : k / 100 ≤ k / 4 := Nat.div_le_div_left (by omega) (by omega)
  by_cases hdiv : (k + 1) % 100 = 0
  · have hfour : (k + 1) % 4 = 0 := by omega
    rw [if_pos hdiv, if_pos hfour]
    omega
  · rw [if_neg hdiv]
    omega

theorem daysBeforeYear_mono {y y' : Nat} (hy : 1 ≤ y) (h : y ≤ y') :
    daysBeforeYear y ≤ daysBeforeYear y' := by
  induction y', h using Nat.le_induction with
  | base => exact le_rfl
  | succ n hn ih =>
    have hsucc := daysBeforeYear_succ (show 1 ≤ n by omega)
    omega

theorem daysBeforeMonth_add_le : ∀ leap : Bool, ∀ m < 13, 1 ≤ m →
    daysBeforeMonth leap m + daysInMonth leap m ≤ 365 + leap.toNat ∧ ∀ m' < 13, m < m' →
        daysBeforeMonth leap m + daysInMonth leap m ≤ daysBeforeMonth leap m' := by
  decide

/-- One date is before another: field by field, the larger ones first. -/
def Before (date date' : Nat × Nat × Nat) : Prop :=
  date.1 < date'.1 ∨ date.1 = date'.1 ∧ (date.2.1 < date'.2.1
    ∨ date.2.1 = date'.2.1 ∧ date.2.2 < date'.2.2)

theorem ymd2ord_lt {date date' : Nat × Nat × Nat} (hdate : IsDate date) (hdate' : IsDate date')
    (h : Before date date') : ymd2ord date < ymd2ord date' := by
  obtain ⟨y, m, d⟩ := date
  obtain ⟨y', m', d'⟩ := date'
  obtain ⟨⟨hy, -⟩, ⟨hm, hm12⟩, hd, hdmax⟩ := hdate
  obtain ⟨-, ⟨hm', hm12'⟩, hd', -⟩ := hdate'
  simp only at hy hm hm12 hd hdmax hm' hm12' hd'
  obtain ⟨hyear, hmonth⟩ := daysBeforeMonth_add_le (isLeap y) m (by omega) hm
  show daysBeforeYear y + daysBeforeMonth (isLeap y) m + d
    < daysBeforeYear y' + daysBeforeMonth (isLeap y') m' + d'
  have hbefore : y < y' ∨ y = y' ∧ (m < m' ∨ m = m' ∧ d < d') := h
  rcases hbefore with hyears | ⟨rfl, hmonths | ⟨rfl, hdays⟩⟩
  · have hsucc := daysBeforeYear_succ hy
    have hmono := daysBeforeYear_mono (by omega) (show y + 1 ≤ y' from hyears)
    omega
  · have hle := hmonth m' (by omega) hmonths
    omega
  · omega

theorem before_ord2ymd {n n' : Nat} (h1 : 1 ≤ n) (hlt : n < n') (hn' : n' ≤ maxOrdinal) :
    Before (ord2ymd n) (ord2ymd n') := by
  have hdate := isDate_ord2ymd h1 (by omega)
  have hdate' := isDate_ord2ymd (n := n') (by omega) hn'
  have hback := ymd2ord_ord2ymd h1 (by omega)
  have hback' := ymd2ord_ord2ymd (n := n') (by omega) hn'
  by_contra hnot
  -- otherwise the dates are the same, or the other way round
  by_cases hafter : Before (ord2ymd n') (ord2ymd n)
  · have hord := ymd2ord_lt hdate' hdate hafter
    omega
  · have heq : ord2ymd n = ord2ymd n' := by
      unfold Before at hnot hafter
      refine Prod.ext ?_ (Prod.ext ?_ ?_) <;> omega
    rw [heq] at hback
    omega

end Calendar

namespace DateTime

/-! ## Fields of fixed width -/

theorem append_lt_append {l l' : List Char} (hlen : l.length = l'.length) (h : l < l')
    (r r' : List Char) : l ++ r < l' ++ r' := by
  induction l generalizing l' with
  | nil =>
    cases l' with
    | nil => exact absurd h (lt_irrefl _)
    | cons c' l' => cases hlen
  | cons c l ih =>
    cases l' with
    | nil => cases hlen
    | cons c' l' =>
      rw [List.cons_append, List.cons_append, List.cons_lt_cons_iff]
      rcases List.cons_lt_cons_iff.1 h with hc | ⟨rfl, hl⟩
      · exact Or.inl hc
      · exact Or.inr ⟨rfl, ih (by simpa using hlen) hl⟩

theorem digitChar_lt : ∀ b < 10, ∀ a < b, Nat.digitChar a < Nat.digitChar b := by
  decide

theorem padded_lt_padded {k m n : Nat} (h : m < n) (hn : n < 10 ^ k) : padded k m < padded k n := by
  induction k generalizing m n with
  | zero => omega
  | succ k ih =>
    unfold padded
    have hpow : n / 10 < 10 ^ k := by
      rw [Nat.pow_succ] at hn
      omega
    by_cases hfront : m / 10 < n / 10
    · exact append_lt_append (by simp) (ih hfront hpow) _ _
    · have heq : m / 10 = n / 10 := by omega
      rw [heq]
      refine List.append_left_lt ?_
      rw [List.cons_lt_cons_iff]
      exact Or.inl (digitChar_lt _ (Nat.mod_lt _ (by decide)) _ (by omega))

theorem padded_append_lt {k m n : Nat} (h : m < n) (hn : n < 10 ^ k) (r r' : List Char) :
    padded k m ++ r < padded k n ++ r' :=
  append_lt_append (by simp) (padded_lt_padded h hn) r r'

/-! ## Times -/

theorem formatTime_lt {us us' : Nat} (h : us < us') (hus' : us' < 86400000000) (zone : List Char) :
    formatTime us ++ '+' :: zone < formatTime us' ++ '+' :: zone := by
  unfold formatTime
  simp only [List.append_assoc, List.cons_append]
  by_cases hhour : us / 1000000 / 3600 < us' / 1000000 / 3600
  · exact padded_append_lt hhour (by omega) _ _
  have hhour : us / 1000000 / 3600 = us' / 1000000 / 3600 := by omega
  rw [hhour]
  refine List.append_left_lt (List.cons_lt_cons_iff.2 (Or.inr ⟨rfl, ?_⟩))
  by_cases hminute : us / 1000000 / 60 % 60 < us' / 1000000 / 60 % 60
  · exact padded_append_lt hminute (by omega) _ _
  have hminute : us / 1000000 / 60 % 60 = us' / 1000000 / 60 % 60 := by omega
  rw [hminute]
  refine List.append_left_lt (List.cons_lt_cons_iff.2 (Or.inr ⟨rfl, ?_⟩))
  by_cases hsecond : us / 1000000 % 60 < us' / 1000000 % 60
  · exact padded_append_lt hsecond (by omega) _ _
  have hsecond : us / 1000000 % 60 = us' / 1000000 % 60 := by omega
  rw [hsecond]
  refine List.append_left_lt ?_
  have hmicro : us % 1000000 < us' % 1000000 := by omega
  rw [if_neg (show ¬ us' % 1000000 = 0 by omega)]
  by_cases hzero : us % 1000000 = 0
  · -- without microseconds the sign of the offset stands in the place of the point
    rw [if_pos hzero, List.nil_append, List.cons_append, List.cons_lt_cons_iff]
    exact Or.inl (by decide)
  · rw [if_neg hzero, List.cons_append, List.cons_append, List.cons_lt_cons_iff]
    exact Or.inr ⟨rfl, padded_append_lt hmicro (by omega) _ _⟩

/-! ## Datetimes in UTC -/

theorem isoformat_lt {a b : DateTime} (ha : a.utcoffset = 0) (hb : b.utcoffset = 0)
    (h : a.wall < b.wall) : a.isoformat < b.isoformat := by
  have hwall := a.inRange
  have hwall' := b.inRange
  rw [maxWall_eq] at hwall hwall'
  unfold isoformat
  simp only [ha, hb, usDay_eq, lt_irrefl, if_false, List.append_assoc, List.cons_append]
  by_cases hday : a.wall / 86400000000 < b.wall / 86400000000
  · have hbefore : Calendar.Before (Calendar.ord2ymd ((a.wall / 86400000000).toNat + 1))
        (Calendar.ord2ymd ((b.wall / 86400000000).toNat + 1)) :=
      Calendar.before_ord2ymd (by omega) (by omega) (by unfold Calendar.maxOrdinal; omega)
    have hdate := Calendar.isDate_ord2ymd (n := (b.wall / 86400000000).toNat + 1) (by omega)
      (by unfold Calendar.maxOrdinal; omega)
    obtain ⟨⟨-, hy⟩, ⟨-, hm⟩, -, hd⟩ := hdate
    have hdays := daysInMonth_le
      (Calendar.isLeap (Calendar.ord2ymd ((b.wall / 86400000000).toNat + 1)).1)
      (Calendar.ord2ymd ((b.wall / 86400000000).toNat + 1)).2.1
    rcases hbefore with hyear | ⟨hyear, hmonth | ⟨hmonth, hdate⟩⟩
    · exact padded_append_lt hyear (by omega) _ _
    · rw [hyear]
      refine List.append_left_lt (List.cons_lt_cons_iff.2 (Or.inr ⟨rfl, ?_⟩))
      exact padded_append_lt hmonth (by omega) _ _
    · rw [hyear, hmonth]
      refine List.append_left_lt (List.cons_lt_cons_iff.2 (Or.inr ⟨rfl, ?_⟩))
      refine List.append_left_lt (List.cons_lt_cons_iff.2 (Or.inr ⟨rfl, ?_⟩))
      exact padded_append_lt hdate (by omega) _ _
  · have hsame : a.wall / 86400000000 = b.wall / 86400000000 := by omega
    rw [hsame]
    refine List.append_left_lt (List.cons_lt_cons_iff.2 (Or.inr ⟨rfl, ?_⟩))
    refine List.append_left_lt (List.cons_lt_cons_iff.2 (Or.inr ⟨rfl, ?_⟩))
    refine List.append_left_lt (List.cons_lt_cons_iff.2 (Or.inr ⟨rfl, ?_⟩))
    exact formatTime_lt (by omega) (by omega) _

theorem isoformat_lt_iff {a b : DateTime} (ha : a.utcoffset = 0) (hb : b.utcoffset = 0) :
    a.isoformat < b.isoformat ↔ a.wall < b.wall := by
  constructor
  · intro h
    by_contra hnot
    rcases lt_or_eq_of_le (not_lt.1 hnot) with hlt | heq
    · exact absurd (isoformat_lt hb ha hlt) (lt_asymm h)
    · have hsame : a = b := DateTime.ext heq.symm (ha.trans hb.symm)
      rw [hsame] at h
      exact absurd h (lt_irrefl _)
  · exact isoformat_lt ha hb

end DateTime

end Himmy
