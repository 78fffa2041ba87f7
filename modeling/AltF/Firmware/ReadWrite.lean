/-
  Firmware/ReadWrite.lean --- copying components: `readwrite`, `is_uboot`,
  `savefile` and `savecomp` of dns323-fw.c.

  A regular file is its content: `read` at position `p` returns the next
  `min(requested, remaining)` bytes, and a file that is only appended to is
  extended at its end.  `off_t` has 64 bits, so no `lseek` here fails.  Local
  buffers that C leaves uninitialised are parameters (`Junk`): the results below
  hold whatever they contained.
-/
import AltF.Firmware.Header

set_option autoImplicit false

namespace AltF.Firmware

open AltF.Foundation

/-- What ends the program early.  Every one of these is an `exit(1)`. -/
inductive Failure where
  /-- a required option is missing, or the device type is not in the table -/
  | usage
  /-- a component file cannot be opened -/
  | open_
  /-- "doesn't have uboot format" -/
  | notUboot
  /-- "size can not be more than %d bytes" -/
  | sizeMax
  /-- "Error on header type" -/
  | headerType
  /-- the firmware file has fewer than 128 bytes -/
  | shortRead
  /-- "Signature does not match known signatures" -/
  | signature
  /-- "File has insuficient size for its header specification" -/
  | size
  /-- "chksum is %lu, expected %lu" -/
  | checksum
  deriving DecidableEq, Repr

/-- The exit status of the program. -/
def exitStatus {α : Type} : Except Failure α → Nat
  | .ok _ => 0
  | .error _ => 1

/-- The content of an uninitialised buffer. -/
abbrev Junk : Type := Nat → UInt8

/-! ## The copy loop -/

/-- `BLOCK_SIZE`. -/
def blockSize : Nat := 0x10000

/-- How many bytes the next block asks for, `i` of `sz` being done. -/
def blockLen (sz i : Nat) : Nat :=
  if sz - i > blockSize then blockSize else sz - i

/-- A block is a whole number of words, unless it is the last one. -/
theorem blockLen_cases {sz i : Nat} (h : i < sz) :
    0 < blockLen sz i ∧ blockLen sz i ≤ sz - i ∧
      (4 ∣ blockLen sz i ∨ blockLen sz i = sz - i) := by
  unfold blockLen
  split
  · exact ⟨by decide, by omega, Or.inl (by decide)⟩
  · exact ⟨by omega, Nat.le_refl _, Or.inr rfl⟩

/-- The `while` loop of `readwrite`.  `fdi` is what is left of the input from its
file position on, `fdo` the output so far. -/
def readwriteLoop (fdi : Bytes) (sz i : Nat) (fdo : Bytes) (lchk : UInt32) : Bytes × UInt32 :=
  if i < sz then
    let k := blockLen sz i
    let buf := fdi.take k
    if buf.length = 0 then (fdo, lchk)
    else
      -- A short block is padded with zeros and counts as a full one.
      let buf := buf ++ List.replicate (k - buf.length) 0
      readwriteLoop (fdi.drop k) sz (i + k) (fdo ++ buf) ((words buf).foldl (· ^^^ ·) lchk)
  else (fdo, lchk)
termination_by sz - i
decreasing_by
  have hk := blockLen_cases ‹i < sz›
  omega

/-- `readwrite`: the output file and `*chk` after the call.  A `*chk` of 0 asks
for the checksum, any other value is compared with it. -/
def readwrite (fdo fdi : Bytes) (off sz : Nat) (chk : UInt32) : Except Failure (Bytes × UInt32) :=
  let (fdo, lchk) := readwriteLoop (fdi.drop off) sz 0 fdo 0
  if chk = 0 then .ok (fdo, lchk)
  else if lchk ≠ chk then .error .checksum
  else .ok (fdo, chk)

/-- On an input that holds all the bytes asked for, the loop appends exactly
these, and adds the exclusive-or of their whole words to the checksum.  Every
block but the last is a whole number of words, so the blocks do not show. -/
theorem readwriteLoop_full (fdi : Bytes) (sz i : Nat) (fdo : Bytes) (lchk : UInt32)
    (hfull : sz - i ≤ fdi.length) :
    readwriteLoop fdi sz i fdo lchk =
      (fdo ++ fdi.take (sz - i), lchk ^^^ xorWords (fdi.take (sz - i))) := by
  fun_induction readwriteLoop fdi sz i fdo lchk with
  | case1 fdi i fdo lchk hlt k buf hnil =>
      obtain ⟨hpos, hle, -⟩ := blockLen_cases hlt
      simp only [buf, k, List.length_take] at hnil
      omega
  | case2 fdi i fdo lchk hlt k buf hbuf buf' ih =>
      have hk : 0 < k ∧ k ≤ sz - i ∧ (4 ∣ k ∨ k = sz - i) := blockLen_cases hlt
      have hpad : buf' = fdi.take k := by
        have hlen : (fdi.take k).length = k := by
          rw [List.length_take]
          omega
        simp only [buf', buf, hlen, Nat.sub_self, List.replicate_zero, List.append_nil]
      have hsplit : fdi.take (sz - i) = fdi.take k ++ (fdi.drop k).take (sz - (i + k)) := by
        have hsum : sz - i = k + (sz - (i + k)) := by omega
        rw [hsum, List.take_add]
      have hxor : xorWords (fdi.take (sz - i)) =
          xorWords (fdi.take k) ^^^ xorWords ((fdi.drop k).take (sz - (i + k))) := by
        rw [hsplit]
        rcases hk.2.2 with hdvd | hlast
        · refine xorWords_append _ ?_
          rwa [List.length_take, Nat.min_eq_left (by omega)]
        · have hrest : sz - (i + k) = 0 := by omega
          rw [hrest, List.take_zero, List.append_nil, xorWords_nil, UInt32.xor_zero]
      rw [ih (by rw [List.length_drop]; omega), hpad, foldl_words, List.append_assoc, ← hsplit,
        hxor, UInt32.xor_assoc]
  | case3 fdi i fdo lchk hge =>
      have hzero : sz - i = 0 := by omega
      rw [hzero, List.take_zero, List.append_nil, xorWords_nil, UInt32.xor_zero]

/-- `readwrite` inside its input file. -/
theorem readwrite_full {fdo fdi : Bytes} {off sz : Nat} (chk : UInt32)
    (hfull : off + sz ≤ fdi.length) :
    readwrite fdo fdi off sz chk =
      if chk = 0 then .ok (fdo ++ slice fdi off sz, xorWords (slice fdi off sz))
      else if xorWords (slice fdi off sz) ≠ chk then .error .checksum
      else .ok (fdo ++ slice fdi off sz, chk) := by
  have hloop := readwriteLoop_full (fdi.drop off) sz 0 fdo 0
    (by rw [List.length_drop]; omega)
  rw [readwrite, hloop, Nat.sub_zero, UInt32.zero_xor]
  rfl

/-! ## The uboot magic -/

/-- `uboot_sig`. -/
def ubootSig : Bytes := [0x27, 0x05, 0x19, 0x56]

/-- What a buffer of `n` bytes holds after `read(fd, buf, n)` at `off`: bytes the
file does not have keep what the buffer held. -/
def readBuffer (junk : Junk) (fd : Bytes) (off n : Nat) : Bytes :=
  (List.range n).map fun i => fd.getD (off + i) (junk i)

/-- `is_uboot`. -/
def isUboot (junk : Junk) (fd : Bytes) (off : Nat) : Bool :=
  decide (readBuffer junk fd off 4 = ubootSig)

/-- Inside the file the buffer's old content does not matter. -/
theorem readBuffer_full (junk : Junk) {fd : Bytes} {off n : Nat} (h : off + n ≤ fd.length) :
    readBuffer junk fd off n = slice fd off n := by
  apply List.ext_getElem?
  intro i
  simp only [readBuffer, slice, List.getElem?_map, List.getElem?_take, List.getElem?_drop]
  by_cases hi : i < n
  · rw [List.getElem?_range hi, if_pos hi, List.getElem?_eq_getElem (by omega)]
    simp [List.getD_eq_getElem?_getD, List.getElem?_eq_getElem (show off + i < fd.length by omega)]
  · rw [List.getElem?_eq_none (by simpa using hi), if_neg hi]
    rfl

theorem isUboot_full (junk : Junk) {fd : Bytes} {off : Nat} (h : off + 4 ≤ fd.length) :
    isUboot junk fd off = decide (slice fd off 4 = ubootSig) := by
  rw [isUboot, readBuffer_full junk h]

/-! ## Saving components -/

/-- `savefile`: the content of the file it creates. -/
def savefile (fdi : Bytes) (r : Region) : Except Failure Bytes :=
  (readwrite [] fdi r.off.toNat r.len.toNat r.checksum).map (·.1)

/-- A region lies inside a file. -/
def Region.Inside (r : Region) (fd : Bytes) : Prop :=
  r.off.toNat + r.len.toNat ≤ fd.length

/-- The bytes of a region. -/
def Region.content (r : Region) (fd : Bytes) : Bytes :=
  slice fd r.off.toNat r.len.toNat

/-- The stored checksum lets the content pass: it is 0, or the sum of the content. -/
def Region.Passes (r : Region) (fd : Bytes) : Prop :=
  r.checksum = 0 ∨ xorWords (r.content fd) = r.checksum

instance (r : Region) (fd : Bytes) : Decidable (r.Passes fd) :=
  inferInstanceAs (Decidable (_ ∨ _))

/-- `savefile` on a region inside the file. -/
theorem savefile_inside {fdi : Bytes} {r : Region} (h : r.Inside fdi) :
    savefile fdi r = if r.Passes fdi then .ok (r.content fdi) else .error .checksum := by
  rw [savefile, readwrite_full _ h]
  by_cases hzero : r.checksum = 0
  · simp [Region.Passes, Region.content, hzero, Except.map]
  · by_cases heq : xorWords (r.content fdi) = r.checksum
    · have heq' := heq
      simp only [Region.content] at heq'
      simp [Region.Passes, Region.content, hzero, heq', Except.map]
    · have heq' := heq
      simp only [Region.content] at heq'
      simp [Region.Passes, Region.content, hzero, heq', Except.map]

/-- A component file as the command line gives it. -/
inductive FileArg where
  /-- the option is absent, the file name is `NULL` -/
  | null
  /-- `open` fails -/
  | unreadable
  | regular (content : Bytes)
  deriving DecidableEq, Repr

/-- An option that may be absent. -/
def FileArg.ofOption : Option Bytes → FileArg
  | none => .null
  | some content => .regular content

/-- `savecomp`: the region it records and the output file. -/
def savecomp (junk : Junk) (file : FileArg) (fdo : Bytes) (uboot : Bool) (sizeMax : Nat) :
    Except Failure (Region × Bytes) :=
  match file with
  | .regular fdi =>
      if uboot && !isUboot junk fdi 0 then .error .notUboot
      else
        let offset := UInt32.ofNat fdo.length
        let length := UInt32.ofNat fdi.length
        if length.toNat > sizeMax then .error .sizeMax
        else
          match readwrite fdo fdi 0 length.toNat 0 with
          | .error e => .error e
          | .ok (fdo, checksum) => .ok (⟨offset, length, checksum⟩, fdo)
  | _ => .error .open_

/-- The bytes `savecomp` copies from a file.  `*length` is a `uint32_t`: a file
of 2^32 bytes or more is recorded, and copied, modulo 2^32. -/
def FileArg.payload : FileArg → Bytes
  | .regular fdi => fdi.take (UInt32.ofNat fdi.length).toNat
  | _ => []

/-- The region recorded for a component appended at `off`. -/
def regionAt (off : Nat) (payload : Bytes) : Region :=
  ⟨UInt32.ofNat off, UInt32.ofNat payload.length, xorWords payload⟩

/-- `savecomp` accepts the file. -/
def Accepts (junk : Junk) (file : FileArg) (uboot : Bool) (sizeMax : Nat) : Prop :=
  ∃ fdi, file = .regular fdi ∧ (uboot = true → isUboot junk fdi 0 = true) ∧
    (UInt32.ofNat fdi.length).toNat ≤ sizeMax

theorem payload_length (fdi : Bytes) :
    (FileArg.regular fdi).payload.length = (UInt32.ofNat fdi.length).toNat := by
  simp only [FileArg.payload, List.length_take, UInt32.toNat_ofNat']
  omega

/-- A file of fewer than 2^32 bytes is copied whole. -/
theorem payload_regular {fdi : Bytes} (h : fdi.length < 2 ^ 32) :
    (FileArg.regular fdi).payload = fdi := by
  simp only [FileArg.payload, UInt32.toNat_ofNat', Nat.mod_eq_of_lt h, List.take_length]

theorem payload_length_le {junk : Junk} {file : FileArg} {uboot : Bool} {sizeMax : Nat}
    (h : Accepts junk file uboot sizeMax) : file.payload.length ≤ sizeMax := by
  obtain ⟨fdi, rfl, -, hsize⟩ := h
  rwa [payload_length]

/-- `savecomp` succeeds exactly on the files it accepts: it appends the payload
and records its place, its length and its checksum. -/
theorem savecomp_ok_iff {junk : Junk} {file : FileArg} {fdo : Bytes} {uboot : Bool}
    {sizeMax : Nat} {res : Region × Bytes} :
    savecomp junk file fdo uboot sizeMax = .ok res ↔
      Accepts junk file uboot sizeMax ∧
        res = (regionAt fdo.length file.payload, fdo ++ file.payload) := by
  cases file with
  | null => simp [savecomp, Accepts]
  | unreadable => simp [savecomp, Accepts]
  | regular fdi =>
      have hfull : 0 + (UInt32.ofNat fdi.length).toNat ≤ fdi.length := by
        simp only [UInt32.toNat_ofNat']
        omega
      have hcopy : readwrite fdo fdi 0 (UInt32.ofNat fdi.length).toNat 0 = _ :=
        readwrite_full 0 hfull
      have hslice : slice fdi 0 (UInt32.ofNat fdi.length).toNat =
          (FileArg.regular fdi).payload := by
        simp [slice, FileArg.payload]
      have hlen : UInt32.ofNat (FileArg.regular fdi).payload.length = UInt32.ofNat fdi.length := by
        rw [payload_length, UInt32.ofNat_toNat]
      simp only [if_true, hslice] at hcopy
      simp only [savecomp, hcopy, Accepts, regionAt, hlen, FileArg.regular.injEq,
        exists_eq_left']
      by_cases huboot : (uboot && !isUboot junk fdi 0) = true
      · rw [if_pos huboot]
        simp only [Bool.and_eq_true, Bool.not_eq_true'] at huboot
        simp [huboot.1, huboot.2]
      · rw [if_neg huboot]
        have hmagic : uboot = true → isUboot junk fdi 0 = true := by
          intro hu
          simpa [hu] using huboot
        by_cases hsize : (UInt32.ofNat fdi.length).toNat > sizeMax
        · rw [if_pos hsize]
          simp only [reduceCtorEq, false_iff, not_and]
          intro h
          omega
        · rw [if_neg hsize]
          simp only [Except.ok.injEq, Nat.not_lt.mp hsize, and_true]
          exact ⟨fun h => ⟨hmagic, h.symm⟩, fun h => h.2.symm⟩

end AltF.Firmware
