import ScpuEmu.Cpu.AccessTrace
import ScpuEmu.Cpu.W65C816.Reachable

/-!
# Where the 65816 goes on its bus

Every access of an instruction has a purpose, and the purpose decides how its address is
formed and where it wraps: the instruction stream in the program bank, direct page, stack and
indirect pointers in bank 0, and other data in the data bank or in a bank of their own, with a
carry into the next.
-/

namespace ScpuEmu

namespace W65C816

/-! ### Purposes -/

/-- What is accessed in bank 0. -/
inductive BankZero
  | direct
  | stackRelative
  | pointer
  | stack

/-- The purpose of an access, with what its address is formed from. `second` is the second
byte of a word. -/
inductive Place
  | fetch (pbr : Byte) (pc : BitVec 16)
  | programPointer (pbr : Byte) (offset : BitVec 16)
  | bankZero (use : BankZero) (offset : BitVec 16)
  | data (bank : Byte) (offset index : BitVec 16) (second : Bool)

/-- Only the sum of a data address may leave its bank. -/
def Place.address : Place → BitVec 24
  | .fetch pbr offset | .programPointer pbr offset => pbr ++ offset
  | .bankZero _ offset => 0#8 ++ offset
  | .data bank offset index second =>
      BitVec.ofNat 24
        (bank.toNat * 2 ^ 16 + offset.toNat + index.toNat + if second then 1 else 0)

inductive Access
  | read (place : Place) (value : Byte)
  | write (place : Place) (value : Byte)

/-- What the bus sees of an access. -/
def Access.onBus : Access → BusAccess
  | .read place v => .read place.address v
  | .write place v => .write place.address v

/-! ### Parts of an instruction -/

/-- Bytes of the instruction stream. -/
def fetches (pbr : Byte) (pc : BitVec 16) : List Byte → List Access
  | [] => []
  | v :: bytes => .read (.fetch pbr pc) v :: fetches pbr (pc + 1) bytes

/-- A place of the direct page: in emulation mode with an aligned page it stays in the page. -/
def directPage (r : Regs) (sum : BitVec 16) : BitVec 16 :=
  if r.e = true ∧ r.d &&& 0xFF = 0 then (r.d &&& 0xFF00) ||| (sum &&& 0xFF) else sum

/-- A move of the stack pointer. The stack of the 6502 instructions stays in page 1 in emulation
mode; that of the new ones does not. -/
def stackMove (e new : Bool) (s : BitVec 16) : BitVec 16 :=
  if e = true ∧ new = false then 0x0100 ||| (s &&& 0xFF) else s

def pushes (e new : Bool) (s : BitVec 16) : List Byte → List Access
  | [] => []
  | v :: bytes => .write (.bankZero .stack s) v :: pushes e new (stackMove e new (s - 1)) bytes

def pulls (e new : Bool) (s : BitVec 16) : List Byte → List Access
  | [] => []
  | v :: bytes =>
      .read (.bankZero .stack (stackMove e new (s + 1))) v ::
        pulls e new (stackMove e new (s + 1)) bytes

/-- The word of a pointer in the direct page. -/
def directPointer (r : Regs) (sum : BitVec 16) (lo hi : Byte) : List Access :=
  [.read (.bankZero .pointer (directPage r sum)) lo,
    .read (.bankZero .pointer (directPage r (sum + 1))) hi]

/-- Bytes of a pointer that wraps at the end of bank 0 only. -/
def pointer (offset : BitVec 16) : List Byte → List Access
  | [] => []
  | v :: bytes => .read (.bankZero .pointer offset) v :: pointer (offset + 1) bytes

/-- Where the bytes of an operand are. -/
structure Word where
  low : Place
  high : Place

def bankZeroWord (use : BankZero) (low high : BitVec 16) : Word :=
  ⟨.bankZero use low, .bankZero use high⟩

def dataWord (bank : Byte) (offset index : BitVec 16) : Word :=
  ⟨.data bank offset index false, .data bank offset index true⟩

/-- What an addressing mode reads before the operand, and where the operand is. The registers
are those after the fetch of the opcode. -/
def Mode.Reaches (r : Regs) : Mode → List Access → Word → Prop
  | .direct, t, w => ∃ off : Byte, t = fetches r.pbr r.pc [off] ∧
      w = bankZeroWord .direct (off.setWidth 16 + r.d) (off.setWidth 16 + r.d + 1)
  | .directX, t, w => ∃ off : Byte, t = fetches r.pbr r.pc [off] ∧
      w = bankZeroWord .direct (directPage r (off.setWidth 16 + r.getX + r.d))
        (directPage r (off.setWidth 16 + r.getX + r.d + 1))
  | .directY, t, w => ∃ off : Byte, t = fetches r.pbr r.pc [off] ∧
      w = bankZeroWord .direct (directPage r (off.setWidth 16 + r.getY + r.d))
        (directPage r (off.setWidth 16 + r.getY + r.d + 1))
  | .absolute, t, w => ∃ lo hi : Byte, t = fetches r.pbr r.pc [lo, hi] ∧
      w = dataWord r.dbr (hi ++ lo) 0
  | .absoluteX, t, w => ∃ lo hi : Byte, t = fetches r.pbr r.pc [lo, hi] ∧
      w = dataWord r.dbr (hi ++ lo) r.getX
  | .absoluteY, t, w => ∃ lo hi : Byte, t = fetches r.pbr r.pc [lo, hi] ∧
      w = dataWord r.dbr (hi ++ lo) r.getY
  | .long, t, w => ∃ lo mid bank : Byte, t = fetches r.pbr r.pc [lo, mid, bank] ∧
      w = dataWord bank (mid ++ lo) 0
  | .longX, t, w => ∃ lo mid bank : Byte, t = fetches r.pbr r.pc [lo, mid, bank] ∧
      w = dataWord bank (mid ++ lo) r.getX
  | .indirect, t, w => ∃ off lo hi : Byte,
      t = fetches r.pbr r.pc [off] ++ directPointer r (off.setWidth 16 + r.d) lo hi ∧
      w = dataWord r.dbr (hi ++ lo) 0
  | .indirectX, t, w => ∃ off lo hi : Byte,
      t = fetches r.pbr r.pc [off] ++ directPointer r (off.setWidth 16 + r.getX + r.d) lo hi ∧
      w = dataWord r.dbr (hi ++ lo) 0
  | .indirectY, t, w => ∃ off lo hi : Byte,
      t = fetches r.pbr r.pc [off] ++ directPointer r (off.setWidth 16 + r.d) lo hi ∧
      w = dataWord r.dbr (hi ++ lo) r.getY
  | .indirectLong, t, w => ∃ off lo mid bank : Byte,
      t = fetches r.pbr r.pc [off] ++ pointer (off.setWidth 16 + r.d) [lo, mid, bank] ∧
      w = dataWord bank (mid ++ lo) 0
  | .indirectLongY, t, w => ∃ off lo mid bank : Byte,
      t = fetches r.pbr r.pc [off] ++ pointer (off.setWidth 16 + r.d) [lo, mid, bank] ∧
      w = dataWord bank (mid ++ lo) r.getY
  | .stackRelative, t, w => ∃ off : Byte, t = fetches r.pbr r.pc [off] ∧
      w = bankZeroWord .stackRelative (off.setWidth 16 + r.s) (off.setWidth 16 + r.s + 1)
  | .stackRelativeIndirectY, t, w => ∃ off lo hi : Byte,
      t = fetches r.pbr r.pc [off] ++ pointer (off.setWidth 16 + r.s) [lo, hi] ∧
      w = dataWord r.dbr (hi ++ lo) r.getY

/-- A read of an operand of the width. -/
def Word.Read (w : Word) (narrow : Bool) (t : List Access) : Prop :=
  if narrow then ∃ v, t = [.read w.low v]
  else ∃ lo hi, t = [.read w.low lo, .read w.high hi]

def Word.Written (w : Word) (narrow : Bool) (t : List Access) : Prop :=
  if narrow then ∃ v, t = [.write w.low v]
  else ∃ lo hi, t = [.write w.low lo, .write w.high hi]

/-- The writes of a read-modify-write: in emulation mode the original byte goes back first, and
in native mode a word goes back high byte first. -/
def Word.Modified (w : Word) (r : Regs) (t : List Access) : Prop :=
  if r.e then ∃ original v, t = [.write w.low original, .write w.low v]
  else if r.m8 then ∃ v, t = [.write w.low v]
  else ∃ hi lo, t = [.write w.high hi, .write w.low lo]

def StoreOp.narrow (r : Regs) : StoreOp → Bool
  | .sta | .stz => r.m8
  | .stx | .sty => r.x8

/-- A number of bytes of the instruction stream. -/
def Fetched (r : Regs) (n : ℕ) (t : List Access) : Prop :=
  ∃ bytes : List Byte, bytes.length = n ∧ t = fetches r.pbr r.pc bytes

def Pushed (r : Regs) (new : Bool) (n : ℕ) (t : List Access) : Prop :=
  ∃ bytes : List Byte, bytes.length = n ∧ t = pushes r.e new r.s bytes

def Pulled (r : Regs) (new : Bool) (n : ℕ) (t : List Access) : Prop :=
  ∃ bytes : List Byte, bytes.length = n ∧ t = pulls r.e new r.s bytes

def PushOp.Accesses (r : Regs) : PushOp → List Access → Prop
  | .pha, t => Pushed r false (if r.m8 then 1 else 2) t
  | .phx, t | .phy, t => Pushed r false (if r.x8 then 1 else 2) t
  | .php, t | .phb, t | .phk, t => Pushed r false 1 t
  | .phd, t => Pushed r true 2 t
  | .pea, t | .per, t => ∃ stream stacked, Fetched r 2 stream ∧ Pushed r true 2 stacked ∧
      t = stream ++ stacked
  | .pei, t => ∃ (off lo hi : Byte) (stacked : List Access), Pushed r true 2 stacked ∧
      t = fetches r.pbr r.pc [off] ++ pointer (off.setWidth 16 + r.d) [lo, hi] ++ stacked

def PullOp.Accesses (r : Regs) : PullOp → List Access → Prop
  | .pla, t => Pulled r false (if r.m8 then 1 else 2) t
  | .plx, t | .ply, t => Pulled r false (if r.x8 then 1 else 2) t
  | .plp, t | .plb, t => Pulled r false 1 t
  | .pld, t => Pulled r true 2 t

/-- The pointer of `(abs,X)`, in the program bank. -/
def programPointer (r : Regs) (offset : BitVec 16) (lo hi : Byte) : List Access :=
  [.read (.programPointer r.pbr offset) lo, .read (.programPointer r.pbr (offset + 1)) hi]

def JumpOp.Accesses (r : Regs) : JumpOp → List Access → Prop
  | .jmp, t => Fetched r 2 t
  | .jmpIndirect, t => ∃ lo hi lo' hi' : Byte,
      t = fetches r.pbr r.pc [lo, hi] ++ pointer (hi ++ lo) [lo', hi']
  | .jmpIndirectX, t => ∃ lo hi lo' hi' : Byte,
      t = fetches r.pbr r.pc [lo, hi] ++ programPointer r ((hi ++ lo : BitVec 16) + r.getX) lo' hi'
  | .jml, t => Fetched r 3 t
  | .jmlIndirect, t => ∃ lo hi lo' hi' bank : Byte,
      t = fetches r.pbr r.pc [lo, hi] ++ pointer (hi ++ lo) [lo', hi', bank]
  | .jsr, t => ∃ stream stacked, Fetched r 2 stream ∧ Pushed r false 2 stacked ∧
      t = stream ++ stacked
  | .jsrIndirectX, t => ∃ (lo hi lo' hi' : Byte) (stacked : List Access),
      Pushed r true 2 stacked ∧
      t = fetches r.pbr r.pc [lo, hi] ++ stacked ++
        programPointer r ((hi ++ lo : BitVec 16) + r.getX) lo' hi'
  | .jsl, t => ∃ stream stacked, Fetched r 3 stream ∧ Pushed r true 3 stacked ∧
      t = stream ++ stacked
  | .rts, t => Pulled r false 2 t
  | .rtl, t => Pulled r true 3 t
  | .rti, t => Pulled r false (if r.e then 3 else 4) t

/-- An interrupt sequence: the frame, and the vector, unless the bus answers for it. -/
def InterruptAccesses (r : Regs) (vector : Vector) (t : List Access) : Prop :=
  ∃ stacked vectored, Pushed r false (if r.e then 3 else 4) stacked ∧
    (vectored = [] ∨ ∃ lo hi : Byte,
      vectored = pointer (if r.e then vector.emulation else vector.native) [lo, hi]) ∧
    t = stacked ++ vectored

/-- What an instruction accesses after its opcode. -/
def Instr.Accesses (r : Regs) : Instr → List Access → Prop
  | .acc _ .immediate, t => Fetched r (if r.m8 then 1 else 2) t
  | .acc _ (.memory mode), t => ∃ found operand w, mode.Reaches r found w ∧
      w.Read r.m8 operand ∧ t = found ++ operand
  | .index _ .immediate, t => Fetched r (if r.x8 then 1 else 2) t
  | .index _ (.memory mode), t => ∃ found operand w, mode.Reaches r found w ∧
      w.Read r.x8 operand ∧ t = found ++ operand
  | .store op mode, t => ∃ found operand w, mode.Reaches r found w ∧
      w.Written (op.narrow r) operand ∧ t = found ++ operand
  | .rmw _ mode, t => ∃ found operand back w, mode.Reaches r found w ∧ w.Read r.m8 operand ∧
      w.Modified r back ∧ t = found ++ operand ++ back
  | .push op, t => op.Accesses r t
  | .pull op, t => op.Accesses r t
  | .jump op, t => op.Accesses r t
  | .branch _ _, t | .bra, t | .rep, t | .sep, t | .wdm, t => Fetched r 1 t
  | .brl, t => Fetched r 2 t
  | .blockMove _, t => ∃ dst src v : Byte,
      t = fetches r.pbr r.pc [dst, src] ++
        [.read (.data src r.getX 0 false) v, .write (.data dst r.getY 0 false) v]
  | .brk, t => ∃ signature rest, Fetched r 1 signature ∧ InterruptAccesses r vecBRK rest ∧
      t = signature ++ rest
  | .cop, t => ∃ signature rest, Fetched r 1 signature ∧ InterruptAccesses r vecCOP rest ∧
      t = signature ++ rest
  | .rmwAcc _, t | .reg _, t | .stp, t | .wai, t => t = []

/-! ### The sums of the code -/

variable {r : Regs}

theorem toNat_longAddress (bank : Byte) (offset : BitVec 16) :
    (bank ++ offset : BitVec 24).toNat = bank.toNat * 2 ^ 16 + offset.toNat := by
  rw [BitVec.toNat_append, Nat.shiftLeft_eq, Nat.mul_comm,
    Nat.two_pow_add_eq_or_of_lt offset.isLt]

theorem bank0_eq (use : BankZero) (offset : BitVec 16) :
    bank0 offset = (Place.bankZero use offset).address := by
  apply BitVec.eq_of_toNat_eq
  have := offset.isLt
  show (offset.setWidth 24).toNat = (0#8 ++ offset : BitVec 24).toNat
  rw [toNat_longAddress]
  simp
  omega

theorem data_address (bank : Byte) (offset index : BitVec 16) :
    (bank ++ offset : BitVec 24) + index.setWidth 24 =
      (Place.data bank offset index false).address := by
  apply BitVec.eq_of_toNat_eq
  have := index.isLt
  rw [BitVec.toNat_add, toNat_longAddress]
  simp only [Place.address, BitVec.toNat_ofNat, BitVec.toNat_setWidth]
  simp

theorem data_address_next (bank : Byte) (offset index : BitVec 16) :
    (Place.data bank offset index false).address + 1 =
      (Place.data bank offset index true).address := by
  simp [Place.address, BitVec.ofNat_add]

theorem toNat_high (d : BitVec 16) : (d &&& 0xFF00).toNat = d.toNat / 2 ^ 8 * 2 ^ 8 := by
  have hshift : d &&& (0xFF00 : BitVec 16) = (d >>> 8) <<< 8 := by
    ext i hi
    have hmask : (0xFF00 : BitVec 16)[i] = decide (8 ≤ i) := by decide +revert
    rw [BitVec.getElem_and, BitVec.getElem_shiftLeft, hmask, BitVec.getElem_ushiftRight]
    by_cases h8 : i < 8
    · simp [h8]
    · have hle : 8 ≤ i := Nat.le_of_not_lt h8
      simp [h8, hle, Nat.add_sub_cancel' hle, BitVec.getLsbD_eq_getElem hi]
  rw [hshift, BitVec.toNat_shiftLeft, BitVec.toNat_ushiftRight, Nat.shiftLeft_eq,
    Nat.shiftRight_eq_div_pow]
  have := d.isLt
  omega

theorem toNat_samePage (d s : BitVec 16) :
    ((d &&& 0xFF00) ||| (s &&& 0xFF)).toNat = d.toNat / 2 ^ 8 * 2 ^ 8 + s.toNat % 2 ^ 8 := by
  rw [BitVec.toNat_or, toNat_high, toNat_and_low, Nat.mul_comm,
    Nat.two_pow_add_eq_or_of_lt (Nat.mod_lt _ (by decide))]

theorem directPage_of_page (h : r.e = true ∧ r.d &&& 0xFF = 0) (off : Byte) :
    directPage r (off.setWidth 16 + r.d) = off.setWidth 16 + r.d := by
  rw [directPage, if_pos h]
  apply BitVec.eq_of_toNat_eq
  rw [toNat_samePage]
  have h2 := congrArg BitVec.toNat h.2
  rw [toNat_and_low] at h2
  have := off.isLt
  simp at h2 ⊢
  omega

theorem directIndexed_eq (off : Byte) (index : BitVec 16) :
    directIndexed r off index = bank0 (directPage r (off.setWidth 16 + index + r.d)) := by
  unfold directIndexed directPage Regs.dpUnaligned
  split
  next h =>
    have ha : r.e = true ∧ r.d &&& 0xFF = 0 := by simpa using h
    rw [if_pos ha]
    apply BitVec.eq_of_toNat_eq
    have h2 := congrArg BitVec.toNat ha.2
    rw [toNat_and_low] at h2
    unfold bank0
    rw [BitVec.toNat_add]
    simp only [BitVec.toNat_setWidth, toNat_samePage]
    simp at h2 ⊢
    omega
  next h =>
    rw [if_neg]
    simpa using h

theorem dpPointerNext_eq (s : BitVec 16) :
    dpPointerNext r (directPage r s) = directPage r (s + 1) := by
  by_cases h : r.e = true ∧ r.d &&& 0xFF = 0
  · simp only [directPage, dpPointerNext, Regs.dpUnaligned, if_pos h]
    rw [if_pos (by simpa using h)]
    apply BitVec.eq_of_toNat_eq
    rw [toNat_samePage, toNat_samePage, BitVec.toNat_add, toNat_samePage, BitVec.toNat_add]
    simp
    omega
  · simp only [directPage, dpPointerNext, Regs.dpUnaligned, if_neg h]
    rw [if_neg (by simpa using h)]

end W65C816

end ScpuEmu
