import Mathlib.Data.Nat.Notation

/-!
# Machine integers

The fixed-width integers of the source that carry data. Addresses and bytes are
bit vectors, so that sums wrap where the program's sums wrap.
-/

namespace ScpuEmu

/-- `u16` addresses. -/
abbrev Addr := BitVec 16

/-- `u8` values. -/
abbrev Byte := BitVec 8

end ScpuEmu
