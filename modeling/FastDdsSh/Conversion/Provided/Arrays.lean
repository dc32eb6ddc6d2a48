import FastDdsSh.Conversion.Provided

/-!
# Provided arrays

An element of an array is found by the indexes on the way to it; one that is an array takes up the
block of components that they lead to.
-/

namespace FastDdsSh

open Lookup Trace

variable [Xtypes] [Dds]

namespace FastddsToXtypes

variable {fuel : Nat}

end FastddsToXtypes

end FastDdsSh
