/-
  Firmware/Recognition.lean --- how `open_read` reads a merged file.

  Three things can happen, and `openRead_merged` tells them apart by the inputs
  of `merge`: the file is too short for the 128 bytes `open_read` asks for, the
  header is read as it was written, or, in the 128-byte layout, the checksums of
  initramfs, sqimage and defaults spell a signature and the header is taken for a
  64-byte one.
-/
import AltF.Firmware.Split

set_option autoImplicit false

namespace AltF.Firmware

open AltF.Foundation

/-- The checksums of initramfs, sqimage and defaults, as twelve bytes. -/
def MergeArgs.checksums (args : MergeArgs) (t : SigNum) : Bytes :=
  bytes32 (xorWords args.initramfs.payload) ++ bytes32 (xorWords (args.sqimagePayload t)) ++
    bytes32 (xorWords args.defaults.payload)

/-- The size of the merged file: header and components. -/
def MergeArgs.fileSize (args : MergeArgs) (t : SigNum) : Nat :=
  (sigOf t).size + (args.components t).length

/-- Two headers agree on all a layout stores: `CONTROL_HEADER_64` has no sqimage. -/
def Agrees (read written : MyControlHeader) : Prop :=
  { read with sqimage := if written.type = 128 then read.sqimage else written.sqimage } = written

instance (read written : MyControlHeader) : Decidable (Agrees read written) :=
  inferInstanceAs (Decidable (_ = _))

section Agrees

variable {read written : MyControlHeader}

theorem Agrees.kernel (h : Agrees read written) : read.kernel = written.kernel := by
  rw [Agrees] at h
  rw [← h]

theorem Agrees.initramfs (h : Agrees read written) : read.initramfs = written.initramfs := by
  rw [Agrees] at h
  rw [← h]

theorem Agrees.defaults (h : Agrees read written) : read.defaults = written.defaults := by
  rw [Agrees] at h
  rw [← h]

theorem Agrees.type (h : Agrees read written) : read.type = written.type := by
  rw [Agrees] at h
  rw [← h]

theorem Agrees.sqimage (h : Agrees read written) (h128 : written.type = 128) :
    read.sqimage = written.sqimage := by
  rw [Agrees, if_pos h128] at h
  rw [← h]

theorem Agrees.refl (written : MyControlHeader) : Agrees written written := by
  simp only [Agrees, ite_self]

/-- A layout without sqimage fields says nothing of them. -/
theorem Agrees.without_sqimage (h64 : written.type ≠ 128) (r : Region) :
    Agrees { written with sqimage := r } written := by
  simp only [Agrees, h64, if_false]

end Agrees

/-- The file is recognised for what it is: `open_read` succeeds, with the index
of its row, the layout of its row, and every value `merge` computed. -/
def Recognised (old : MyControlHeader) (t : SigNum) (written : MyControlHeader) (fw : Bytes) :
    Prop :=
  ∃ read, openRead old fw = .ok read ∧ read.sigNum = t ∧ read.type = (sigOf t).size ∧
    Agrees read written

instance (old : MyControlHeader) (t : SigNum) (written : MyControlHeader) (fw : Bytes) :
    Decidable (Recognised old t written fw) :=
  match h : openRead old fw with
  | .ok read =>
      decidable_of_iff (read.sigNum = t ∧ read.type = (sigOf t).size ∧ Agrees read written)
        (by simp [Recognised, h])
  | .error _ => isFalse (by simp [Recognised, h])

section Merged

variable {stack : MergeStack} {args : MergeArgs} {t : SigNum} {old : MyControlHeader}
  {comps : Bytes}

/-! The header `merge` computes, in front of any bytes: a corrupted component
leaves the header alone. -/

theorem openRead_short (h : (sigOf t).size + comps.length < 128) :
    openRead old (headerBytes (mergedHeader stack args t) ++ comps) = .error .shortRead := by
  have hlen : ((headerBytes (mergedHeader stack args t) ++ comps).take 128).length ≠ 128 := by
    rw [List.length_take, List.length_append, headerBytes_mergedHeader_length]
    omega
  simp only [openRead, if_pos hlen]

/-- A file of 128 bytes or more is read through `check_sig`: the header, and in
the 64-byte layout some of what follows it. -/
theorem openRead_long (h : 128 ≤ (sigOf t).size + comps.length) :
    openRead old (headerBytes (mergedHeader stack args t) ++ comps) =
      match checkSig (headerBytes (mergedHeader stack args t) ++
        comps.take (128 - (sigOf t).size)) old with
      | none => .error .signature
      | some myhd => .ok myhd := by
  have hlen : ((headerBytes (mergedHeader stack args t) ++ comps).take 128).length = 128 := by
    rw [List.length_take, List.length_append, headerBytes_mergedHeader_length]
    omega
  have htake : (headerBytes (mergedHeader stack args t) ++ comps).take 128 =
      headerBytes (mergedHeader stack args t) ++ comps.take (128 - (sigOf t).size) := by
    rw [List.take_append, headerBytes_mergedHeader_length, List.take_of_length_le]
    rw [headerBytes_mergedHeader_length]
    rcases (sigOf t).size_eq with h | h <;> omega
  unfold openRead
  simp only
  rw [← htake]
  exact if_neg (not_not_intro hlen)

theorem openRead_64 (h : 128 ≤ (sigOf t).size + comps.length) (h64 : (sigOf t).size = 64) :
    openRead old (headerBytes (mergedHeader stack args t) ++ comps) =
      .ok { mergedHeader stack args t with sqimage := old.sqimage } := by
  have htype : (mergedHeader stack args t).type = 64 := h64
  rw [openRead_long h, headerBytes, if_pos htype, checkSig_setHeader64 old _ htype]

theorem checksumWords_mergedHeader (stack : MergeStack) (h128 : (sigOf t).size = 128) :
    checksumWords (mergedHeader stack args t) = args.checksums t := by
  simp only [checksumWords, mergedHeader, h128, if_true, MergeArgs.checksums, regionAt]

theorem openRead_128 (h128 : (sigOf t).size = 128) (hwords : cmpSig (args.checksums t) = none) :
    openRead old (headerBytes (mergedHeader stack args t) ++ comps) =
      .ok (mergedHeader stack args t) := by
  have htype : (mergedHeader stack args t).type = 128 := h128
  rw [← checksumWords_mergedHeader stack h128] at hwords
  rw [openRead_long (by omega), headerBytes, if_neg (by omega),
    checkSig_setHeader128 old _ htype hwords]

/-- The header of a 128-byte type whose checksums spell a signature, as
`open_read` takes it. -/
theorem openRead_misread (stack : MergeStack) (old : MyControlHeader) (comps : Bytes)
    {t' : SigNum} (h128 : (sigOf t).size = 128) (hwords : cmpSig (args.checksums t) = some t') :
    ∃ read, openRead old (headerBytes (mergedHeader stack args t) ++ comps) = .ok read ∧
      read.sigNum = t' ∧ read.type = 64 ∧
      read.kernel = { regionAt (sigOf t).size args.kernel.payload with
        checksum := UInt32.ofNat (defaultsOff args t) } ∧
      read.initramfs = { regionAt (initramfsOff args t) args.initramfs.payload with
        checksum := UInt32.ofNat args.defaults.payload.length } ∧
      read.defaults = { regionAt (sqimageOff args t) (args.sqimagePayload t) with
        checksum := xorWords args.kernel.payload } := by
  have htype : ¬ (mergedHeader stack args t).type = 64 := by
    simp only [mergedHeader]
    omega
  rw [← checksumWords_mergedHeader stack h128] at hwords
  obtain ⟨htype64, hk, hi, hd⟩ := getInfo64_setHeader128 (mergedHeader stack args t) old
    (comps.take (128 - (sigOf t).size))
  refine ⟨{ getInfo64 (setHeader128 (mergedHeader stack args t) ++
      comps.take (128 - (sigOf t).size)) old with sigNum := t' }, ?_, rfl, htype64, ?_, ?_, ?_⟩
  · rw [openRead_long (by omega), headerBytes, if_neg htype,
      checkSig_setHeader128_misread old _ hwords]
  · rw [hk]
    simp only [mergedHeader, regionAt]
  · rw [hi]
    simp only [mergedHeader, regionAt]
  · rw [hd]
    simp only [mergedHeader, regionAt, h128, if_true]

/-- **The three readings of a merged header**, whatever follows it: none at all,
the one `merge` wrote, or the one in the other layout. -/
theorem openRead_header_cases (stack : MergeStack) (args : MergeArgs) (t : SigNum)
    (old : MyControlHeader) (comps : Bytes) :
    let res := openRead old (headerBytes (mergedHeader stack args t) ++ comps)
    ((sigOf t).size + comps.length < 128 ∧ res = .error .shortRead) ∨
    (128 ≤ (sigOf t).size + comps.length ∧
      ((sigOf t).size = 64 ∨ cmpSig (args.checksums t) = none) ∧
      ∃ read, res = .ok read ∧ read.sigNum = t ∧ Agrees read (mergedHeader stack args t)) ∨
    ((sigOf t).size = 128 ∧ cmpSig (args.checksums t) ≠ none ∧
      ∃ read, res = .ok read ∧ read.type = 64 ∧
        read.kernel = { regionAt (sigOf t).size args.kernel.payload with
          checksum := UInt32.ofNat (defaultsOff args t) } ∧
        read.initramfs = { regionAt (initramfsOff args t) args.initramfs.payload with
          checksum := UInt32.ofNat args.defaults.payload.length } ∧
        read.defaults = { regionAt (sqimageOff args t) (args.sqimagePayload t) with
          checksum := xorWords args.kernel.payload }) := by
  by_cases hlen : (sigOf t).size + comps.length < 128
  · exact Or.inl ⟨hlen, openRead_short hlen⟩
  refine Or.inr ?_
  rcases (sigOf t).size_eq with h64 | h128
  · have h : (mergedHeader stack args t).type ≠ 128 := by
      simp only [mergedHeader]
      omega
    exact Or.inl ⟨by omega, Or.inl h64, _, openRead_64 (by omega) h64, rfl,
      Agrees.without_sqimage h _⟩
  · cases hwords : cmpSig (args.checksums t) with
    | none =>
        exact Or.inl ⟨by omega, Or.inr rfl, _, openRead_128 h128 hwords, rfl, Agrees.refl _⟩
    | some t' =>
        obtain ⟨read, hread, -, hregions⟩ := openRead_misread stack old comps h128 hwords
        exact Or.inr ⟨h128, Option.some_ne_none t', read, hread, hregions⟩

end Merged

/-! ## The main result -/

/-- **Recognition.**  The file `merge` writes for row `t` is recognised for what
it is exactly when it holds the 128 bytes `open_read` asks for and, in the
128-byte layout, the checksums of initramfs, sqimage and defaults spell no
signature. -/
theorem recognised_iff {stack : MergeStack} {args : MergeArgs} {t : SigNum}
    {written : MyControlHeader} {fw : Bytes} (old : MyControlHeader)
    (hmerge : merge stack args = .ok (written, fw)) (htype : args.type.toNat = t) :
    Recognised old t written fw ↔
      128 ≤ args.fileSize t ∧ ((sigOf t).size = 64 ∨ cmpSig (args.checksums t) = none) := by
  obtain ⟨t', haccepts, heq⟩ := merge_ok_iff.mp hmerge
  obtain rfl : t' = t := Fin.ext (haccepts.type.symm.trans htype)
  obtain ⟨rfl, rfl⟩ := Prod.mk.inj heq
  simp only [Recognised, mergedFile, MergeArgs.fileSize]
  rcases openRead_header_cases stack args t' old (args.components t') with
    ⟨hshort, herr⟩ | ⟨hlen, hlayout, read, hread, hsig, hagrees⟩ |
      ⟨h128, hwords, read, hread, h64, -⟩
  · simp only [herr, reduceCtorEq, false_and, exists_false, false_iff, not_and]
    omega
  · simp only [hread, Except.ok.injEq, exists_eq_left', hlen, hlayout, and_self, iff_true]
    exact ⟨hsig, hagrees.type, hagrees⟩
  · simp only [hread, Except.ok.injEq, exists_eq_left', hwords, or_false]
    omega

/-- A DNS-325 firmware whose last three checksums spell the FrodoII signature. -/
def misreadArgs : MergeArgs :=
  { type := 3
    kernel := .regular ubootSig
    initramfs := .regular (ubootSig ++ [0x72, 0xAF, 0x5F, 0x24])
    sqimage := .regular (ascii ['o', 'd', 'o', 'I'])
    defaults := .regular [0x49, 0x00, 0x55, 0xAA]
    product := 0, custom := 8, model := 9, sub := 2, version := 4 }

/-- A FrodoII firmware with the given defaults. -/
def frodoArgs (defaults : Option Bytes) : MergeArgs :=
  { type := 0
    kernel := .regular ubootSig
    initramfs := .regular ubootSig
    sqimage := .null
    defaults := .ofOption defaults
    product := 1, custom := 2, model := 3, sub := 4, version := 5 }

/-- The smallest FrodoII firmware. -/
def shortArgs : MergeArgs := frodoArgs none

theorem recognised_frodo :
    let args := frodoArgs (some (List.replicate 56 1))
    Recognised default 0 (mergedHeader .zero args 0) (mergedFile .zero args 0) :=
  have hmerge : merge .zero (frodoArgs (some (List.replicate 56 1))) =
      .ok (mergedHeader .zero _ 0, mergedFile .zero _ 0) := by
    decide +kernel
  (recognised_iff default hmerge (by decide)).mpr (by decide +kernel)

/-- Neither file is recognised: the first is read in the other layout, as the
firmware of another device, and of the second no header is read at all. -/
theorem not_recognised :
    (merge .zero misreadArgs =
        .ok (mergedHeader .zero misreadArgs 3, mergedFile .zero misreadArgs 3) ∧
      ¬ Recognised default 3 (mergedHeader .zero misreadArgs 3)
        (mergedFile .zero misreadArgs 3)) ∧
    (merge .zero shortArgs =
        .ok (mergedHeader .zero shortArgs 0, mergedFile .zero shortArgs 0) ∧
      ¬ Recognised default 0 (mergedHeader .zero shortArgs 0) (mergedFile .zero shortArgs 0)) := by
  decide +kernel

end AltF.Firmware
