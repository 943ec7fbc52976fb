/-! Project error codes returned by the modelled functions. -/

namespace Modvm

/-- The members of `enum vm_error` that modelled functions return; `-VM_E*` is `Except.error`. -/
inductive VmError where
  | enoent
  | eio
  | enomem
  | efault
  | ebusy
  | eexist
  | einval
  | enospc
  | enotsup
  | eloop
  | eoverflow
  | enotconn
  | eshutdown
  | ealready
  deriving DecidableEq, Repr

abbrev Byte := BitVec 8

end Modvm
