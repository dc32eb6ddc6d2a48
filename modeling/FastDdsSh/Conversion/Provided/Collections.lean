import FastDdsSh.Conversion.Provided

/-!
# Provided sequences and maps

The elements are appended to those that are there, and the entries are entered one after another.
-/

namespace FastDdsSh

open Lookup Trace

namespace DdsData

end DdsData

variable [Xtypes] [Dds]

namespace FastddsToXtypes

variable {fuel : Nat}

/-! ## Sequences -/

end FastddsToXtypes

end FastDdsSh
