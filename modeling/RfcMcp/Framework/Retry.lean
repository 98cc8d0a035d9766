import Mathlib.Data.Nat.Notation
import Mathlib.Order.Basic

namespace Framework

section Retry

variable {α : Type} (again : α → Bool) (outcomes : ℕ → α)

variable {again outcomes}

end Retry

end Framework
