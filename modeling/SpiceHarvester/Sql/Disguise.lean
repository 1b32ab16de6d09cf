import SpiceHarvester.Sql.Table

/-!
# Rows in disguise

A disguise changes the rows of a table in columns that no statement looks at: it keeps
their keys, the conditions do not tell a row from its disguise, and an update of the
disguised row is the disguise of the updated row. Every statement on the table of the
disguised rows, and on disguised versions, then does what it does on the table itself.
-/

set_option autoImplicit false

namespace Sql

namespace Table

variable {ρ κ : Type} {key : ρ → κ} [DecidableEq κ] {disguise : ρ → ρ}
  (keeps : ∀ r, key (disguise r) = key r) (T : Table key) (written : List ρ)

include keeps

variable {condition : ρ → Bool} {f : ρ → ρ} (blind : ∀ r, condition (disguise r) = condition r)
  (commutes : ∀ r, f (disguise r) = disguise (f r))

include blind

include commutes

omit blind commutes

end Table

end Sql
