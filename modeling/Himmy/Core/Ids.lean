import Mathlib.Data.Int.Order.Basic

/-! # Timestamps

Every timestamp the run store writes is `datetime.now(UTC).isoformat()` or `iso_plus_seconds` of
one: ISO-8601 text with the one fixed offset `+00:00`, on which the stores' string comparisons
(`<=` on a Python `str`, on a SQLite `TEXT` column) are the comparisons of the instants. An
`Instant` is such a timestamp as a number of microseconds, a `Duration` a number of microseconds. -/

namespace Himmy

abbrev Instant := Int

/-- A `timedelta`. -/
abbrev Duration := Int

/-- The integers' own order, which runs; a conditionally complete one, where it is in scope, does
    not. -/
instance (priority := 2000) instLinearOrderInstant : LinearOrder Instant := Int.instLinearOrder

instance (priority := 2000) instPreorderInstant : Preorder Instant :=
  Int.instLinearOrder.toPreorder

/-- `timedelta(seconds=n)`. -/
def seconds (n : Int) : Duration := n * 1000000

def isoPlusSeconds (base : Instant) (duration : Duration) : Instant := base + duration

theorem isoPlusSeconds_le {a b : Instant} (h : a ≤ b) (d : Duration) :
    isoPlusSeconds a d ≤ isoPlusSeconds b d := Int.add_le_add_right h d

end Himmy
