import FastDdsSh.Conversion.Accepted

/-!
# Accepted structures and unions

The members are written one after another, each where its name is found; the discriminator of a
union is written first, as 64 bits.
-/

namespace FastDdsSh

open Lookup Trace

variable [Xtypes] [Dds]

namespace XtypesToFastdds

variable {refusals : Refusals}

end XtypesToFastdds

end FastDdsSh
