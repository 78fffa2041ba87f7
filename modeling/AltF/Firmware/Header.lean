/-
  Firmware/Header.lean --- the firmware headers of dns323-fw.c: the signature
  table, the two on-disk layouts `CONTROL_HEADER_64` and `CONTROL_HEADER_128`,
  the program's own `MY_CONTROL_HEADER`, and the conversions between them.

  A header on disk is the memory image of its C structure on the little-endian
  target, so a layout is a list of fields in order and a reader is a byte offset.
  Memory a C function never writes keeps what it held: `getInfo64` takes the
  structure it fills and leaves its sqimage fields alone.
-/
import AltF.Foundation.Words

set_option autoImplicit false

namespace AltF.Firmware

open AltF.Foundation

/-! ## The signature table -/

/-- `SIG_LEN`. -/
def sigLen : Nat := 12

/-- `nsig`, the number of rows of the signature table. -/
abbrev nsig : Nat := 9

instance : NeZero nsig := ⟨by decide⟩

/-- An index into the signature table. -/
abbrev SigNum : Type := Fin nsig

/-- One row of the signature table, `sig_t`.  A row has one of the two header
sizes, a signature of `SIG_LEN` bytes, and limits that keep every offset of a
merged file inside 32 bits. -/
structure Sig where
  idx : SigNum
  /-- File header size, 64 or 128 bytes. -/
  size : Nat
  kernelMax : Nat
  initramfsMax : Nat
  sqimageMax : Nat
  defaultsMax : Nat
  signature : Bytes
  size_eq : size = 64 ∨ size = 128 := by decide
  signature_length : signature.length = sigLen := by decide
  total_lt : size + kernelMax + initramfsMax + sqimageMax + defaultsMax < 2 ^ 32 := by decide

/-- The bytes of an ASCII text. -/
def ascii (text : List Char) : Bytes := text.map fun c => UInt8.ofNat c.toNat

/-- `signatures[]`. -/
def signatures : Vector Sig nsig :=
  #v[{ idx := 0, size := 64, kernelMax := 1572864, initramfsMax := 6488064, sqimageMax := 0,
       defaultsMax := 65536,
       signature := [0x55, 0xAA] ++ ascii ['F', 'r', 'o', 'd', 'o', 'I', 'I'] ++
         [0x00, 0x55, 0xAA] },
     { idx := 1, size := 64, kernelMax := 1572864, initramfsMax := 10485760, sqimageMax := 0,
       defaultsMax := 131072,
       signature := [0x55, 0xAA] ++ ascii ['C', 'h', 'o', 'p', 'p', 'e', 'r'] ++
         [0x00, 0x55, 0xAA] },
     { idx := 2, size := 64, kernelMax := 1572864, initramfsMax := 14417920, sqimageMax := 0,
       defaultsMax := 131072,
       signature := [0x55, 0xAA] ++ ascii ['G', 'a', 'n', 'd', 'o', 'l', 'f'] ++
         [0x00, 0x55, 0xAA] },
     { idx := 3, size := 128, kernelMax := 5242880, initramfsMax := 5242880,
       sqimageMax := 106954752, defaultsMax := 5242880,
       signature := [0x55, 0xAA] ++ ascii ['D', 'N', 'S', '-', '3', '2', '5'] ++
         [0x00, 0x55, 0xAA] },
     { idx := 4, size := 128, kernelMax := 5242880, initramfsMax := 5242880,
       sqimageMax := 106954752, defaultsMax := 5242880,
       signature := [0x55, 0xAA] ++ ascii ['D', 'N', 'S', '3', '2', '3', 'D', '1'] ++
         [0x55, 0xAA] },
     { idx := 5, size := 128, kernelMax := 5242880, initramfsMax := 5242880,
       sqimageMax := 104857600, defaultsMax := 5242880,
       signature := [0x55, 0xAA] ++ ascii ['D', 'N', 'S', '3', '2', '0', 'B'] ++
         [0x00, 0x55, 0xAA] },
     { idx := 6, size := 128, kernelMax := 5242880, initramfsMax := 5242880,
       sqimageMax := 104857600, defaultsMax := 5242880,
       signature := [0x55, 0xAA] ++ ascii ['D', 'N', 'S', '3', '2', '0', 'L'] ++
         [0x00, 0x55, 0xAA] },
     { idx := 7, size := 128, kernelMax := 5242880, initramfsMax := 5242880,
       sqimageMax := 81788928, defaultsMax := 10485760,
       signature := [0x55, 0xAA] ++ ascii ['D', 'N', 'S', '3', '2', '7', 'L'] ++
         [0x00, 0x55, 0xAA] },
     { idx := 8, size := 128, kernelMax := 5242880, initramfsMax := 5242880,
       sqimageMax := 73400320, defaultsMax := 5242880,
       signature := [0x55, 0xAA] ++ ascii ['D', 'N', 'R', '-', '3', '2', '2'] ++
         [0x00, 0x55, 0xAA] }]

/-- The row of a signature index. -/
def sigOf (t : SigNum) : Sig := signatures.get t

/-- `cmp_sig`: the index of the row whose signature the twelve bytes are; the
source's -1 is `none`. -/
def cmpSig (t : Bytes) : Option SigNum :=
  (signatures.toList.find? fun s => decide (s.signature = t)).map (·.idx)

/-- No two rows share a signature, so the signature of a row finds that row. -/
theorem cmpSig_signature (t : SigNum) : cmpSig (sigOf t).signature = some t := by
  revert t
  decide +kernel

/-! ## The program's own header -/

/-- The three fields a header keeps for one component: `x_off`, `x_len` and
`x_checksum`. -/
structure Region where
  off : UInt32
  len : UInt32
  checksum : UInt32
  deriving DecidableEq, Repr, Inhabited

/-- `MY_CONTROL_HEADER`. -/
structure MyControlHeader where
  kernel : Region
  initramfs : Region
  sqimage : Region
  defaults : Region
  nextOffset : UInt32
  productId : UInt8
  customId : UInt8
  modelId : UInt8
  subId : UInt8
  newVersion : UInt8
  /-- 64 or 128 bytes header. -/
  type : Nat
  sigNum : SigNum
  deriving DecidableEq, Repr, Inhabited

/-! ## The 64-byte layout -/

/-- `RESERVED64`. -/
def reserved64 : Nat := 7

/-- `set_header64`: the memory image of the `CONTROL_HEADER_64` it fills. -/
def setHeader64 (myhd : MyControlHeader) : Bytes :=
  [ bytes32 myhd.kernel.off, bytes32 myhd.kernel.len,
    bytes32 myhd.initramfs.off, bytes32 myhd.initramfs.len,
    bytes32 myhd.defaults.off, bytes32 myhd.defaults.len,
    bytes32 myhd.kernel.checksum, bytes32 myhd.initramfs.checksum,
    bytes32 myhd.defaults.checksum,
    (sigOf myhd.sigNum).signature,
    [myhd.productId], [myhd.customId], [myhd.modelId], [myhd.subId], [myhd.newVersion],
    List.replicate reserved64 0, bytes32 myhd.nextOffset ].flatten

/-- `get_info64`. -/
def getInfo64 (hd : Bytes) (myhd : MyControlHeader) : MyControlHeader :=
  { myhd with
    productId := byteAt hd 48
    customId := byteAt hd 49
    modelId := byteAt hd 50
    subId := byteAt hd 51
    newVersion := byteAt hd 52
    type := 64
    kernel := ⟨u32At hd 0, u32At hd 4, u32At hd 24⟩
    initramfs := ⟨u32At hd 8, u32At hd 12, u32At hd 28⟩
    defaults := ⟨u32At hd 16, u32At hd 20, u32At hd 32⟩
    nextOffset := u32At hd 60 }

theorem setHeader64_length (myhd : MyControlHeader) : (setHeader64 myhd).length = 64 := by
  simp [setHeader64, (sigOf myhd.sigNum).signature_length, sigLen, reserved64]

/-- `get_info64` reads back what `set_header64` wrote; the sqimage fields, which
this layout lacks, and the signature index stay as they were. -/
theorem getInfo64_setHeader64 (myhd old : MyControlHeader) (rest : Bytes) :
    getInfo64 (setHeader64 myhd ++ rest) old =
      { myhd with sqimage := old.sqimage, type := 64, sigNum := old.sigNum } := by
  have hsig := (sigOf myhd.sigNum).signature_length
  simp [getInfo64, setHeader64, u32At_skip, u32At_bytes32, u32At_cons_succ, byteAt_skip,
    byteAt_cons_zero, byteAt_cons_succ, hsig, sigLen, reserved64]

/-- `hd64->magic_num`. -/
def magicNum64 (hd : Bytes) : Bytes := slice hd 36 sigLen

/-! ## The 128-byte layout -/

/-- `RESERVED128`. -/
def reserved128 : Nat := 59

/-- `set_header128`: the memory image of the `CONTROL_HEADER_128` it fills. -/
def setHeader128 (myhd : MyControlHeader) : Bytes :=
  [ bytes32 myhd.kernel.off, bytes32 myhd.kernel.len,
    bytes32 myhd.initramfs.off, bytes32 myhd.initramfs.len,
    bytes32 myhd.sqimage.off, bytes32 myhd.sqimage.len,
    bytes32 myhd.defaults.off, bytes32 myhd.defaults.len,
    bytes32 myhd.kernel.checksum, bytes32 myhd.initramfs.checksum,
    bytes32 myhd.sqimage.checksum, bytes32 myhd.defaults.checksum,
    (sigOf myhd.sigNum).signature,
    [myhd.productId], [myhd.customId], [myhd.modelId], [myhd.subId], [myhd.newVersion],
    List.replicate reserved128 0, bytes32 myhd.nextOffset ].flatten

/-- `get_info128`. -/
def getInfo128 (hd : Bytes) (myhd : MyControlHeader) : MyControlHeader :=
  { myhd with
    productId := byteAt hd 60
    customId := byteAt hd 61
    modelId := byteAt hd 62
    subId := byteAt hd 63
    newVersion := byteAt hd 64
    type := 128
    kernel := ⟨u32At hd 0, u32At hd 4, u32At hd 32⟩
    initramfs := ⟨u32At hd 8, u32At hd 12, u32At hd 36⟩
    sqimage := ⟨u32At hd 16, u32At hd 20, u32At hd 40⟩
    defaults := ⟨u32At hd 24, u32At hd 28, u32At hd 44⟩
    nextOffset := u32At hd 124 }

theorem setHeader128_length (myhd : MyControlHeader) : (setHeader128 myhd).length = 128 := by
  simp [setHeader128, (sigOf myhd.sigNum).signature_length, sigLen, reserved128]

/-- `get_info128` reads back what `set_header128` wrote. -/
theorem getInfo128_setHeader128 (myhd old : MyControlHeader) (rest : Bytes) :
    getInfo128 (setHeader128 myhd ++ rest) old =
      { myhd with type := 128, sigNum := old.sigNum } := by
  have hsig := (sigOf myhd.sigNum).signature_length
  simp [getInfo128, setHeader128, u32At_skip, u32At_bytes32, u32At_cons_succ, byteAt_skip,
    byteAt_cons_zero, byteAt_cons_succ, hsig, sigLen, reserved128]

/-- `hd128->magic_num`. -/
def magicNum128 (hd : Bytes) : Bytes := slice hd 48 sigLen

/-- `check_sig`: the 64-byte layout is probed first, and any row of the table is
accepted in either layout. -/
def checkSig (hd : Bytes) (myhd : MyControlHeader) : Option MyControlHeader :=
  match cmpSig (magicNum64 hd) with
  | some t => some { getInfo64 hd myhd with sigNum := t }
  | none =>
      match cmpSig (magicNum128 hd) with
      | some t => some { getInfo128 hd myhd with sigNum := t }
      | none => none

/-! ## What `check_sig` makes of a written header -/

/-- The twelve bytes of a 128-byte header that the probe of the 64-byte layout
takes for its signature: the checksums of initramfs, sqimage and defaults. -/
def checksumWords (myhd : MyControlHeader) : Bytes :=
  bytes32 myhd.initramfs.checksum ++ bytes32 myhd.sqimage.checksum ++
    bytes32 myhd.defaults.checksum

theorem magicNum64_setHeader64 (myhd : MyControlHeader) (rest : Bytes) :
    magicNum64 (setHeader64 myhd ++ rest) = (sigOf myhd.sigNum).signature := by
  have hsig := (sigOf myhd.sigNum).signature_length
  simp [magicNum64, setHeader64, slice_skip, slice_here _ hsig]

theorem magicNum128_setHeader128 (myhd : MyControlHeader) (rest : Bytes) :
    magicNum128 (setHeader128 myhd ++ rest) = (sigOf myhd.sigNum).signature := by
  have hsig := (sigOf myhd.sigNum).signature_length
  simp [magicNum128, setHeader128, slice_skip, slice_here _ hsig]

theorem magicNum64_setHeader128 (myhd : MyControlHeader) (rest : Bytes) :
    magicNum64 (setHeader128 myhd ++ rest) = checksumWords myhd := by
  simp only [magicNum64, setHeader128, checksumWords, List.flatten_cons, List.append_assoc]
  -- Nine words lie in front of the initramfs checksum.
  iterate 9 rw [slice_skip _ (by simp)]
  simp only [bytes32_length, Nat.reduceSub]
  rw [← List.append_assoc (bytes32 _) (bytes32 _), ← List.append_assoc (bytes32 _ ++ bytes32 _),
    slice_here _ (by simp [sigLen]), List.append_assoc]

/-- A written 64-byte header is read back as it was, whatever follows it. -/
theorem checkSig_setHeader64 {myhd : MyControlHeader} (old : MyControlHeader) (rest : Bytes)
    (htype : myhd.type = 64) :
    checkSig (setHeader64 myhd ++ rest) old = some { myhd with sqimage := old.sqimage } := by
  simp only [checkSig, magicNum64_setHeader64, cmpSig_signature, getInfo64_setHeader64, ← htype]

/-- A written 128-byte header is read back as it was when its checksum words are
no signature. -/
theorem checkSig_setHeader128 {myhd : MyControlHeader} (old : MyControlHeader) (rest : Bytes)
    (htype : myhd.type = 128) (hwords : cmpSig (checksumWords myhd) = none) :
    checkSig (setHeader128 myhd ++ rest) old = some myhd := by
  simp only [checkSig, magicNum64_setHeader128, hwords, magicNum128_setHeader128,
    cmpSig_signature, getInfo128_setHeader128, ← htype]

/-- A written 128-byte header whose checksum words are the signature of row `t`
is taken for a 64-byte header of that row. -/
theorem checkSig_setHeader128_misread {myhd : MyControlHeader} {t : SigNum}
    (old : MyControlHeader) (rest : Bytes) (hwords : cmpSig (checksumWords myhd) = some t) :
    checkSig (setHeader128 myhd ++ rest) old =
      some { getInfo64 (setHeader128 myhd ++ rest) old with sigNum := t } := by
  simp only [checkSig, magicNum64_setHeader128, hwords]

/-- The regions a 128-byte header shows to a reader of the 64-byte layout: the
sqimage fields stand where that layout keeps the defaults, and the defaults
fields and the kernel checksum stand where it keeps the three checksums. -/
theorem getInfo64_setHeader128 (myhd old : MyControlHeader) (rest : Bytes) :
    let hd := getInfo64 (setHeader128 myhd ++ rest) old
    hd.type = 64 ∧
      hd.kernel = ⟨myhd.kernel.off, myhd.kernel.len, myhd.defaults.off⟩ ∧
      hd.initramfs = ⟨myhd.initramfs.off, myhd.initramfs.len, myhd.defaults.len⟩ ∧
      hd.defaults = ⟨myhd.sqimage.off, myhd.sqimage.len, myhd.kernel.checksum⟩ := by
  simp [getInfo64, setHeader128, u32At_skip, u32At_bytes32]

end AltF.Firmware
