import Mathlib.Data.Nat.Notation

/-!
The error codes of `rtdef.h` that the drivers and the kernel return.
-/
namespace Ucm108e

def RT_EOK : Int := 0
def RT_ERROR : Int := 1
def RT_ETIMEOUT : Int := 2
def RT_EFULL : Int := 3
def RT_ENOSYS : Int := 6
def RT_EBUSY : Int := 7
def RT_EINVAL : Int := 10

end Ucm108e
