import Bfs.Lib.Fallible
import Bfs.Utils.RegExp

/-! The base 64 encoder and decoder. The decoder writes into a buffer of a length that it computes
from the text; the bytes found there after the allocation are a parameter. -/
namespace Bfs.Utils.Base64
open Fallible

section Model

/-- `bfsUtilError`, and a write behind the end of a buffer. -/
inductive Err
  | utilError (msg : Text)
  | outside (idx : ℕ)
  deriving DecidableEq

/-- `BASE64_DIGITS`. -/
def digits : Text := ascii "ABCDEFGHIJKLMNOPQRSTUVWXYZabcdefghijklmnopqrstuvwxyz0123456789+/"

end Model

section Bytes

end Bytes

section RoundTrip

def digit (d : ℕ) : UInt8 := digits.getD d 0

end RoundTrip

section Law

end Law

end Bfs.Utils.Base64
