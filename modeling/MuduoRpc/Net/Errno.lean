/-!
The error numbers that the network code tells apart, and the creation of a
socket, which tells none apart.
-/

namespace MuduoRpc

inductive Errno
  | EINTR
  | EINPROGRESS
  | EISCONN
  | EAGAIN
  | EADDRNOTAVAIL
  | ECONNREFUSED
  | ENETUNREACH
  | ETIMEDOUT
  | EACCES
  | EPERM
  | EAFNOSUPPORT
  | EALREADY
  | EBADF
  | EFAULT
  | ENOTSOCK
  | EPROTONOSUPPORT
  | EPIPE
  | ECONNRESET
  | EMFILE
  | other (number : Nat)
deriving DecidableEq, Repr

/-- The same number as `EAGAIN` on Linux. -/
def Errno.EWOULDBLOCK : Errno := .EAGAIN

def Errno.ECONNABORTED : Errno := .other 103

def Errno.EPROTO : Errno := .other 71

/-- `socketops::createNoblocking_stop`, where `sockfd` is the next descriptor of the
process: an error of `socket` is `LOG(FATAL)`. The type it asks for has `IPPROTO_TCP` in
it. That makes it 0x80807, which Linux refuses. -/
def createNoblocking_stop (sockfd : Nat) : Option Errno → Option Nat
  | none => some sockfd
  | some _ => none

theorem eq_of_createNoblocking_stop {sockfd fd : Nat} {error : Option Errno}
    (h : createNoblocking_stop sockfd error = some fd) : sockfd = fd := by
  cases error <;> cases h
  rfl

end MuduoRpc
