/-
  Firmware/Corruption.lean --- which single-byte changes of a merged file `split`
  notices.

  A component is guarded by the exclusive-or of its whole words, and two things
  escape it: the bytes behind the last whole word, and every byte of a component
  whose sum is 0, because `readwrite` takes a stored 0 for a request to compute
  the sum and not for a sum to compare with.
-/
import AltF.Firmware.RoundTrip

set_option autoImplicit false

namespace AltF.Firmware

open AltF.Foundation

/-- One byte of a component of a merged file becomes another one. -/
structure Corruption (args : MergeArgs) (t : SigNum) where
  component : Component
  /-- The place in the component. -/
  r : Nat
  b : UInt8
  inside : r < (args.payload t component).length
  changed : (args.payload t component)[r] ≠ b

namespace Corruption

variable {stack : MergeStack} {args : MergeArgs} {t : SigNum} (x : Corruption args t)

/-- The place in the file. -/
def place : Nat := x.component.off args t + x.r

/-- The file with the byte changed. -/
def apply (fw : Bytes) : Bytes := fw.set x.place x.b

/-- The components of the changed file. -/
def after (c : Component) : Bytes :=
  if c = x.component then (args.payload t c).set x.r x.b else args.payload t c

theorem apply_length (fw : Bytes) : (x.apply fw).length = fw.length := by
  rw [apply, List.length_set]

/-- Components do not overlap. -/
theorem disjoint {c : Component} (hne : c ≠ x.component) :
    x.place < c.off args t ∨ c.off args t + (args.payload t c).length ≤ x.place := by
  have hin := x.inside
  unfold place
  generalize x.component = c' at hne hin ⊢
  cases c <;> cases c' <;>
    simp only [ne_eq, not_true_eq_false, Component.off, MergeArgs.payload, defaultsOff, sqimageOff,
      initramfsOff] at hne hin ⊢ <;> omega

/-- What a region holds in the changed file. -/
theorem content_apply (haccepts : MergeAccepts stack args t) (c : Component) :
    (regionAt (c.off args t) (args.payload t c)).content (x.apply (mergedFile stack args t)) =
      x.after c := by
  obtain ⟨hoff, hlen, -, hcontent⟩ := region_mergedFile haccepts c
  rw [Region.content] at hcontent ⊢
  rw [hoff, hlen] at hcontent ⊢
  by_cases hc : c = x.component
  · have hle : c.off args t ≤ x.place := by
      rw [hc]
      exact Nat.le_add_right _ _
    rw [apply, slice_set_inside hle, hcontent, after, if_pos hc, place, hc,
      Nat.add_sub_cancel_left]
  · rw [apply, slice_set_outside (x.disjoint hc), hcontent, after, if_neg hc]

/-- The byte is changed behind the header. -/
theorem apply_mergedFile :
    x.apply (mergedFile stack args t) =
      headerBytes (mergedHeader stack args t) ++
        (args.components t).set (x.place - (sigOf t).size) x.b := by
  have hsize : (sigOf t).size ≤ x.component.off args t := by
    cases x.component <;>
      simp only [Component.off, defaultsOff, sqimageOff, initramfsOff] <;> omega
  rw [apply, mergedFile, List.set_append, headerBytes_mergedHeader_length,
    if_neg (by unfold place; omega)]

/-- Every change of one byte of the file inside a component is a corruption. -/
theorem exists_of_byte (haccepts : MergeAccepts stack args t) {c : Component} {p : Nat} {b : UInt8}
    (hlo : c.off args t ≤ p) (hhi : p < c.off args t + (args.payload t c).length)
    (hne : (mergedFile stack args t)[p]? ≠ some b) :
    ∃ x : Corruption args t, x.component = c ∧ x.place = p ∧ x.b = b := by
  obtain ⟨hoff, hlen, -, hcontent⟩ := region_mergedFile haccepts c
  rw [Region.content, hoff, hlen] at hcontent
  have hr : p - c.off args t < (args.payload t c).length := by omega
  have hbyte : (mergedFile stack args t)[p]? = some (args.payload t c)[p - c.off args t] := by
    rw [← List.getElem?_eq_getElem hr]
    conv_rhs => rw [← hcontent]
    rw [slice, List.getElem?_take_of_lt hr, List.getElem?_drop, Nat.add_sub_cancel' hlo]
  refine ⟨⟨c, p - c.off args t, b, hr, fun h => hne (hbyte.trans (congrArg some h))⟩, rfl, ?_, rfl⟩
  exact Nat.add_sub_cancel' hlo

/-- The regions lie inside the changed file. -/
theorem inside_apply (haccepts : MergeAccepts stack args t) (c : Component) :
    (regionAt (c.off args t) (args.payload t c)).Inside (x.apply (mergedFile stack args t)) :=
  (region_mergedFile haccepts c).2.2.1.of_length (x.apply_length _)

/-- A region whose checksum is its own sum notices the change exactly when the
sum is not 0 and the changed byte lies in a whole word. -/
theorem passes_apply_iff (haccepts : MergeAccepts stack args t) (c : Component) :
    (regionAt (c.off args t) (args.payload t c)).Passes (x.apply (mergedFile stack args t)) ↔
      (c = x.component →
        xorWords (args.payload t c) = 0 ∨ 4 * ((args.payload t c).length / 4) ≤ x.r) := by
  rw [Region.Passes, x.content_apply haccepts, after]
  by_cases hc : c = x.component
  · subst hc
    simp only [regionAt, if_true, true_imp_iff, xorWords_set_eq_iff x.inside x.changed]
  · simp only [regionAt, hc, if_false, false_imp_iff, or_true]

end Corruption

/-! ## The checksums of a file that is read back -/

section Checksums

variable {stack : MergeStack} {args : MergeArgs} {t : SigNum} {read : MyControlHeader}
  {fd : Bytes}

/-- A header that is read as it was written checks all four components; the
sqimage a 64-byte header lacks is empty, and passes. -/
theorem allPass_iff_of_agrees (h : Agrees read (mergedHeader stack args t)) :
    AllPass fd read ↔ ∀ c, (regionAt (c.off args t) (args.payload t c)).Passes fd := by
  obtain ⟨hk, hi, hs, hd⟩ := h.regions
  have htype : read.type = (sigOf t).size := h.type
  constructor
  · intro hpass c
    cases c with
    | kernel => exact hk ▸ hpass.kernel
    | initramfs => exact hi ▸ hpass.initramfs
    | defaults => exact hd ▸ hpass.defaults
    | sqimage =>
        by_cases h128 : read.type = 128
        · exact hs h128 ▸ hpass.sqimage h128
        · left
          simp only [regionAt, MergeArgs.payload, MergeArgs.sqimagePayload, ← htype, h128,
            if_false, xorWords_nil]
  · intro hpass
    exact ⟨hk ▸ hpass .kernel, hi ▸ hpass .initramfs, fun h128 => hs h128 ▸ hpass .sqimage,
      hd ▸ hpass .defaults⟩

/-- In a header read in the other layout the kernel is checked against the offset
of the defaults, the initramfs against their length, and the sqimage, under the
name of the defaults, against the sum of the kernel. -/
theorem allPass_iff_of_misread (h64 : read.type = 64)
    (hk : read.kernel = { regionAt (sigOf t).size args.kernel.payload with
      checksum := UInt32.ofNat (defaultsOff args t) })
    (hi : read.initramfs = { regionAt (initramfsOff args t) args.initramfs.payload with
      checksum := UInt32.ofNat args.defaults.payload.length })
    (hd : read.defaults = { regionAt (sqimageOff args t) (args.sqimagePayload t) with
      checksum := xorWords args.kernel.payload }) :
    AllPass fd read ↔
      (UInt32.ofNat (defaultsOff args t) = 0 ∨
        xorWords ((regionAt (Component.kernel.off args t) (args.payload t .kernel)).content fd) =
          UInt32.ofNat (defaultsOff args t)) ∧
      (UInt32.ofNat args.defaults.payload.length = 0 ∨
        xorWords
            ((regionAt (Component.initramfs.off args t) (args.payload t .initramfs)).content fd) =
          UInt32.ofNat args.defaults.payload.length) ∧
      (xorWords args.kernel.payload = 0 ∨
        xorWords ((regionAt (Component.sqimage.off args t) (args.payload t .sqimage)).content fd) =
          xorWords args.kernel.payload) := by
  constructor
  · rintro ⟨pk, pi, -, pd⟩
    rw [hk] at pk
    rw [hi] at pi
    rw [hd] at pd
    exact ⟨pk, pi, pd⟩
  · rintro ⟨pk, pi, pd⟩
    refine ⟨?_, ?_, fun h128 => by omega, ?_⟩
    · rw [hk]
      exact pk
    · rw [hi]
      exact pi
    · rw [hd]
      exact pd

end Checksums

/-! ## The main result -/

/-- What gives a change away: the file is refused anyway, a uboot magic is gone,
or a checksum that is compared comes out different.  In a header read as it was
written that is the sum of the changed component, when it is not 0 and the byte
lies in a whole word; in a 128-byte header read as a 64-byte one the fields
compared with are no sums of what they are compared with. -/
def Corruption.Caught {args : MergeArgs} {t : SigNum} (x : Corruption args t)
    (stack : SplitStack) (fw : Bytes) : Prop :=
  args.fileSize t < 128 ∨
  isUboot stack.kernelSig (x.apply fw) (sigOf t).size = false ∨
  isUboot stack.initramfsSig (x.apply fw) (initramfsOff args t) = false ∨
  if (sigOf t).size = 64 ∨ cmpSig (args.checksums t) = none then
    xorWords (args.payload t x.component) ≠ 0 ∧
      x.r < 4 * ((args.payload t x.component).length / 4)
  else
    xorWords (x.after .kernel) ≠ UInt32.ofNat (defaultsOff args t) ∨
    (args.defaults.payload ≠ [] ∧
      xorWords (x.after .initramfs) ≠ UInt32.ofNat args.defaults.payload.length) ∨
    (xorWords args.kernel.payload ≠ 0 ∧
      xorWords (x.after .sqimage) ≠ xorWords args.kernel.payload)

theorem exitStatus_eq_zero_iff {α : Type} {res : Except Failure α} :
    exitStatus res = 0 ↔ ∃ out, res = .ok out := by
  cases res <;> simp [exitStatus]

/-- The exit status of `split`, by the header it reads. -/
theorem split_exitStatus_iff {stack : SplitStack} {fw : Bytes} {read : MyControlHeader}
    (hopen : openRead stack.myhd fw = .ok read) (hin : Contained fw read) :
    exitStatus (split stack fw) = 0 ↔
      isUboot stack.kernelSig fw read.kernel.off.toNat = true ∧
      isUboot stack.initramfsSig fw read.initramfs.off.toNat = true ∧ AllPass fw read := by
  simp only [exitStatus_eq_zero_iff, split_ok_iff hopen hin]
  constructor
  · rintro ⟨out, hk, hi, hpass, -⟩
    exact ⟨hk, hi, hpass⟩
  · rintro ⟨hk, hi, hpass⟩
    exact ⟨_, hk, hi, hpass, rfl⟩

/-- A number below 2^32 is 0 exactly when its 32-bit image is. -/
theorem ofNat_eq_zero_iff {n : Nat} (h : n < 2 ^ 32) : UInt32.ofNat n = 0 ↔ n = 0 := by
  rw [← UInt32.toNat_inj, UInt32.toNat_ofNat', Nat.mod_eq_of_lt h, UInt32.toNat_zero]

/-- **Single-byte corruption.**  `split` refuses a merged file with one byte of a
component changed exactly when something gives the change away. -/
theorem split_corrupted_iff {mstack : MergeStack} {args : MergeArgs} {t : SigNum}
    {written : MyControlHeader} {fw : Bytes} (sstack : SplitStack)
    (hmerge : merge mstack args = .ok (written, fw)) (htype : args.type.toNat = t)
    (x : Corruption args t) :
    exitStatus (split sstack (x.apply fw)) ≠ 0 ↔ x.Caught sstack fw := by
  obtain ⟨t', haccepts, heq⟩ := merge_ok_iff.mp hmerge
  obtain rfl : t' = t := Fin.ext (haccepts.type.symm.trans htype)
  obtain ⟨rfl, rfl⟩ := Prod.mk.inj heq
  have hlen : (x.apply (mergedFile mstack args t')).length = (mergedFile mstack args t').length :=
    x.apply_length _
  have hlt := mergedFile_lt haccepts
  have hin := fun c => x.inside_apply haccepts c
  have hoff := fun c => (region_mergedFile haccepts c).1
  have hcases := openRead_header_cases mstack args t' sstack.myhd
    ((args.components t').set (x.place - (sigOf t').size) x.b)
  rw [← x.apply_mergedFile, List.length_set] at hcases
  rcases hcases with ⟨hshort, herr⟩ | ⟨hlong, hlayout, read, hread, -, hagrees⟩ |
      ⟨h128, hwords, read, hread, h64, hk, hi, hd⟩
  · rw [split_error_of_openRead herr]
    exact iff_of_true (by decide) (Or.inl hshort)
  · have hshort : ¬ args.fileSize t' < 128 := Nat.not_lt.mpr hlong
    obtain ⟨hk, hi, -, -⟩ := hagrees.regions
    rw [ne_eq, split_exitStatus_iff hread (contained_of_agrees haccepts hagrees hlen),
      allPass_iff_of_agrees hagrees, hk, hi, hoff, hoff]
    simp only [x.passes_apply_iff haccepts, forall_eq, Corruption.Caught, hshort, false_or,
      if_pos hlayout, not_and_or, Bool.not_eq_true, not_or, Nat.not_le, ne_eq]
    rfl
  · have hshort : ¬ args.fileSize t' < 128 := by
      rw [MergeArgs.fileSize]
      omega
    have hlayout : ¬ ((sigOf t').size = 64 ∨ cmpSig (args.checksums t') = none) := by
      rintro (h | h)
      · omega
      · exact hwords h
    have hcontained : Contained (x.apply (mergedFile mstack args t')) read :=
      { kernel := hk ▸ hin .kernel
        initramfs := hi ▸ hin .initramfs
        sqimage := fun h => by omega
        defaults := hd ▸ hin .sqimage }
    have hdefaults : UInt32.ofNat (defaultsOff args t') ≠ 0 := by
      rw [mergedFile_length] at hlt
      rw [ne_eq, ofNat_eq_zero_iff (by omega), defaultsOff, sqimageOff, initramfsOff]
      omega
    have hempty : UInt32.ofNat args.defaults.payload.length = 0 ↔ args.defaults.payload = [] := by
      rw [mergedFile_length] at hlt
      rw [ofNat_eq_zero_iff (by omega), List.length_eq_zero_iff]
    have hko : read.kernel.off.toNat = (sigOf t').size := by
      rw [hk]
      exact hoff .kernel
    have hio : read.initramfs.off.toNat = initramfsOff args t' := by
      rw [hi]
      exact hoff .initramfs
    rw [ne_eq, split_exitStatus_iff hread hcontained, allPass_iff_of_misread h64 hk hi hd, hko, hio]
    simp only [x.content_apply haccepts, Corruption.Caught, hshort, false_or, if_neg hlayout,
      hdefaults, hempty, not_and_or, Bool.not_eq_true, not_or, ne_eq]

/-- A DNS-325 firmware of the given kernel and the smallest initramfs. -/
def kernelArgs (kernel : Bytes) : MergeArgs :=
  { type := 3
    kernel := .regular kernel
    initramfs := .regular ubootSig
    sqimage := .null
    defaults := .null
    product := 0, custom := 8, model := 9, sub := 2, version := 4 }

/-- The last byte of a five-byte kernel. -/
def tailByte : Corruption (kernelArgs (ubootSig ++ [0x41])) 3 :=
  ⟨.kernel, 4, 0x42, by decide, by decide⟩

/-- A byte of a kernel whose two words are equal, so that its sum is 0. -/
def zeroSum : Corruption (kernelArgs (ubootSig ++ ubootSig)) 3 :=
  ⟨.kernel, 4, 0x42, by decide, by decide⟩

/-- A byte of the second word of a kernel whose sum is not 0. -/
def wordByte : Corruption (kernelArgs (ubootSig ++ [1, 2, 3, 4])) 3 :=
  ⟨.kernel, 4, 0x42, by decide, by decide⟩

theorem split_wordByte :
    let args := kernelArgs (ubootSig ++ [1, 2, 3, 4])
    exitStatus (split .zero (wordByte.apply (mergedFile .zero args 3))) ≠ 0 :=
  let args := kernelArgs (ubootSig ++ [1, 2, 3, 4])
  have hmerge : merge .zero args = .ok (mergedHeader .zero args 3, mergedFile .zero args 3) := by
    decide +kernel
  (split_corrupted_iff .zero hmerge (by decide) wordByte).mpr
    (Or.inr (Or.inr (Or.inr (by
      rw [if_pos (by decide +kernel)]
      decide +kernel))))

/-- Two changed files that `split` accepts: a byte behind the last whole word,
and a byte of a kernel with sum 0. -/
theorem split_corrupted :
    (merge .zero (kernelArgs (ubootSig ++ [0x41])) =
        .ok (mergedHeader .zero (kernelArgs (ubootSig ++ [0x41])) 3,
          mergedFile .zero (kernelArgs (ubootSig ++ [0x41])) 3) ∧
      exitStatus (split .zero
        (tailByte.apply (mergedFile .zero (kernelArgs (ubootSig ++ [0x41])) 3))) = 0) ∧
    (merge .zero (kernelArgs (ubootSig ++ ubootSig)) =
        .ok (mergedHeader .zero (kernelArgs (ubootSig ++ ubootSig)) 3,
          mergedFile .zero (kernelArgs (ubootSig ++ ubootSig)) 3) ∧
      exitStatus (split .zero
        (zeroSum.apply (mergedFile .zero (kernelArgs (ubootSig ++ ubootSig)) 3))) = 0) := by
  decide +kernel

end AltF.Firmware
