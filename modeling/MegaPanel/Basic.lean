import MegaPanel.Lib.Chars

set_option autoImplicit false

/-! # Identifiers, time and errors

Every table of the panel has UUID primary keys. The model only compares them, so they are
numbers here, one type synonym per table. Instants are counted in microseconds, the
resolution of the database timestamps.
-/

namespace MegaPanel

abbrev TenantId := Nat
abbrev ProjectId := Nat
abbrev SiteId := Nat
abbrev UserId := Nat
abbrev BuildId := Nat

/-- An instant, in microseconds. -/
abbrev Time := Nat

/-- `timedelta(seconds=n)` -/
def seconds (n : Nat) : Time := n * 1000000

/-- `timedelta(days=n)` -/
def days (n : Nat) : Time := seconds (n * 86400)

/-- `HTTPException`: several details are lists of blockers with one entry. -/
structure HttpError where
  status : Nat
  detail : String
  deriving DecidableEq

end MegaPanel
