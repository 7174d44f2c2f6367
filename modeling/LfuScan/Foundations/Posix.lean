import Mathlib.Data.Int.Notation

/-! The error numbers and the file types of the system's headers. A call that fails returns the
number with a minus sign.
-/

namespace LfuScan.Foundations

def enoent : Int := 2
def esrch : Int := 3
def eintr : Int := 4
def eio : Int := 5
def eagain : Int := 11
def enomem : Int := 12
def efault : Int := 14
def ebusy : Int := 16
def enodev : Int := 19
def einval : Int := 22
def enotty : Int := 25
def erange : Int := 34
def enametoolong : Int := 36
def eloop : Int := 40
def enodata : Int := 61
def eproto : Int := 71
def eopnotsupp : Int := 95
def enotsup : Int := 95
def estale : Int := 116
def erestartsys : Int := 512

def sIfmt : UInt32 := 0o170000
def sIfdir : UInt32 := 0o040000

def sIsdir (mode : UInt32) : Bool := mode &&& sIfmt == sIfdir
def sIsreg (mode : UInt32) : Bool := mode &&& sIfmt == 0o100000
def sIschr (mode : UInt32) : Bool := mode &&& sIfmt == 0o020000
def sIsblk (mode : UInt32) : Bool := mode &&& sIfmt == 0o060000

end LfuScan.Foundations
