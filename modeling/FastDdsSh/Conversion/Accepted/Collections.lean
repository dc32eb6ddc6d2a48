import FastDdsSh.Conversion.Accepted

/-!
# Accepted sequences and maps

The loops that insert element after element and entry after entry: each insertion can be refused,
and what has been inserted is not touched again.
-/

namespace FastDdsSh

open Lookup Trace

variable [Xtypes] [Dds]

namespace XtypesToFastdds

variable {refusals : Refusals}

/-! ## Sequences -/

end XtypesToFastdds

end FastDdsSh
