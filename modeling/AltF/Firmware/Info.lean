/-
  Firmware/Info.lean --- what dns323-fw prints: `print_info`, and the standard
  output of a `split` that succeeds.

  Output is text with one character per byte.  The target's `unsigned long` has 32
  bits and its `off_t` 64: what `%lu` prints for `filesz` and `compsz`, where one is
  passed for the other, comes from the caller's registers and is a parameter.
-/
import AltF.Firmware.Split
import AltF.SysFiles.Text

set_option autoImplicit false

namespace AltF.Firmware

open AltF.Foundation AltF.SysFiles

/-! ## Conversions -/

/-- `%x` of a byte. -/
def hexText (b : UInt8) : Text := Nat.toDigits 16 b.toNat

/-- `%lu`, and `%d` of a number that is not negative. -/
def decText (n : Nat) : Text := Nat.toDigits 10 n

/-- `%.ns` of bytes: at most `n` of them, up to the first NUL. -/
def bytesText (n : Nat) (bs : Bytes) : Text :=
  ((bs.take n).takeWhile (· ≠ 0)).map fun b => Char.ofNat b.toNat

/-- `%.8s` of `signatures[t].signature+2`. -/
def sigText (t : SigNum) : Text := bytesText 8 ((sigOf t).signature.drop 2)

/-! ## The extension header -/

/-- `EXTEND_HEADER`, as far as it is printed. -/
structure ExtendHeader where
  directory : Bytes
  fileName : Bytes
  offset : UInt32
  len : UInt32
  checksum : UInt32
  nextOffset : UInt32

/-- `sizeof(EXTEND_HEADER)`. -/
def extendHeaderSize : Nat := 96

/-- The header that `read` leaves in `ehd`; where the file ends it is as it was. -/
def readExtendHeader (ehd : Junk) (fd : Bytes) (off : Nat) : ExtendHeader :=
  let buf := readBuffer ehd fd off extendHeaderSize
  ⟨slice buf 0 32, slice buf 32 32, u32At buf 80, u32At buf 84, u32At buf 88, u32At buf 92⟩

/-! ## The program -/

/-- What `print_info` finds in memory it reads before writing it. -/
structure InfoStack where
  ehd : Junk
  /-- what `%lu` prints for `filesz` and `compsz` -/
  sizes : UInt32 × UInt32

/-- A stack of zeros. -/
def InfoStack.zero : InfoStack := ⟨fun _ => 0, (0, 0)⟩

/-- `%s=%s;` -/
def assignment (name value : Text) : Text := name ++ '=' :: value ++ [';']

/-- The names of the five id bytes, with their values. -/
def ids (hd : MyControlHeader) : List (Text × UInt8) :=
  [("product_id".toList, hd.productId), ("custom_id".toList, hd.customId),
    ("model_id".toList, hd.modelId), ("sub_id".toList, hd.subId),
    ("NewVersion".toList, hd.newVersion)]

/-- The first lines of `print_info`, without their newlines. -/
def assignments (hd : MyControlHeader) : List Text :=
  (ids hd).map (fun x => assignment x.1 (hexText x.2)) ++
    [assignment "signature".toList ('"' :: sigText hd.sigNum ++ ['"'])]

/-- One component: offset, length, rest, checksum and end, between the given texts. -/
def regionLine (names : List Text) (r : Region) : Text :=
  (names.zip [decText r.off.toNat, decText r.len.toNat, decText (r.len.toNat % 4),
    decText r.checksum.toNat, decText (r.off + r.len).toNat]).flatMap (fun x => x.1 ++ x.2) ++
      ['\n']

/-- The lines of `print_info` about the header and its components. -/
def regionLines (stack : InfoStack) (hd : MyControlHeader) : Text :=
  "\nsig_num=".toList ++ decText hd.sigNum.val ++ " header=".toList ++ decText hd.type ++
    " Next_offset=".toList ++ decText hd.nextOffset.toNat ++ "\n".toList ++
  regionLine ["ko=".toList, "\t\tkl=".toList, "\tkr=".toList, "\tkc=".toList, "\tnext=".toList]
    hd.kernel ++
  regionLine ["io=".toList, "\til=".toList, "\tir=".toList, "\tic=".toList, "\tnext=".toList]
    hd.initramfs ++
  (if hd.type = 128 then
    regionLine ["so=".toList, "\tsl=".toList, "\tsr=".toList, "\tsc=".toList, "\tnext=".toList]
      hd.sqimage
  else []) ++
  regionLine ["do=".toList, "\tdl=".toList, "\t\tdr=".toList, "\tdc=".toList, "\tnext=".toList]
    hd.defaults ++
  "filesz=".toList ++ decText stack.sizes.1.toNat ++ " compsz=".toList ++
    decText stack.sizes.2.toNat ++ "\n".toList

/-- `dir=%.32s file=%.32s`, the bytes of the firmware file that are printed. -/
def extendNames (ehd : ExtendHeader) : Text :=
  "dir=".toList ++ bytesText 32 ehd.directory ++ " file=".toList ++ bytesText 32 ehd.fileName

/-- The lines of `print_info` about the extension header. -/
def extendLines (stack : InfoStack) (fd : Bytes) (hd : MyControlHeader) : Text :=
  if hd.nextOffset ≠ 0 then
    let ehd := readExtendHeader stack.ehd fd hd.nextOffset.toNat
    "Next header at ".toList ++ decText hd.nextOffset.toNat ++ ":".toList ++ ' ' ::
      extendNames ehd ++ '\n' ::
      ("\toff=".toList ++ decText ehd.offset.toNat ++ " len=".toList ++ decText ehd.len.toNat ++
        " checksum=".toList ++ decText ehd.checksum.toNat ++ " next_offset=".toList ++
        decText ehd.nextOffset.toNat ++ "\n".toList)
  else []

/-- `print_info`, not quiet. -/
def printInfo (stack : InfoStack) (fd : Bytes) (hd : MyControlHeader) : Text :=
  (assignments hd).flatMap (· ++ ['\n']) ++ regionLines stack hd ++ extendLines stack fd hd

/-- `%s saved, checksum is OK.` -/
def savedLine (name : Text) : Text := name ++ " saved, checksum is OK.\n".toList

/-- What `split` prints after `print_info`, when it succeeds. -/
def savedLines (hd : MyControlHeader) : Text :=
  (if hd.nextOffset ≠ 0 then
    "\nWARNING, this firmware has unknown components.\n".toList
  else []) ++
  "\nsignature is \"".toList ++ sigText hd.sigNum ++ "\"\n".toList ++
  savedLine "kernel".toList ++ savedLine "initramfs".toList ++
  (if hd.type = 128 then savedLine "sqimage".toList else []) ++
  savedLine "defaults".toList

/-- The standard output of a `split` that read the header `hd` and succeeds. -/
def splitOutput (stack : InfoStack) (fd : Bytes) (hd : MyControlHeader) : Text :=
  printInfo stack fd hd ++ savedLines hd

/-! ## The characters printed -/

/-- The digits of `%x`. -/
def isHexDigit (c : Char) : Bool := "0123456789abcdef".toList.contains c

theorem isHexDigit_hexText (b : UInt8) : ∀ c ∈ hexText b, isHexDigit c = true := by
  have hall : ∀ n < 256, (Nat.toDigits 16 n).all isHexDigit = true := by decide +kernel
  exact List.all_eq_true.mp (hall b.toNat b.toNat_lt)

theorem isDigit_decText (n : Nat) : ∀ c ∈ decText n, c.isDigit = true :=
  fun _ hc => Nat.isDigit_of_mem_toDigits (by decide) (by decide) hc

end AltF.Firmware
