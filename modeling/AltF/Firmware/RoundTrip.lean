/-
  Firmware/RoundTrip.lean --- `split` undoes `merge`.

  The component files of a firmware are a structure that carries the limits of
  its type.  `merge` accepts every such structure, and `split` gives its files
  back from any file whose header is read as it was written.
-/
import AltF.Firmware.Recognition

set_option autoImplicit false

namespace AltF.Firmware

open AltF.Foundation

/-- The component files of a firmware of type `t`, within the limits of the type:
kernel and initramfs begin with the uboot magic, and only a 128-byte header has
room for an sqimage. -/
structure Parts (t : SigNum) where
  kernel : Bytes
  initramfs : Bytes
  sqimage : Option Bytes
  defaults : Option Bytes
  kernel_uboot : kernel.take 4 = ubootSig
  initramfs_uboot : initramfs.take 4 = ubootSig
  kernel_le : kernel.length ≤ (sigOf t).kernelMax
  initramfs_le : initramfs.length ≤ (sigOf t).initramfsMax
  sqimage_layout : sqimage ≠ none → (sigOf t).size = 128
  sqimage_le : ∀ s, sqimage = some s → s.length ≤ (sigOf t).sqimageMax
  defaults_le : ∀ d, defaults = some d → d.length ≤ (sigOf t).defaultsMax

/-- The id bytes of a firmware. -/
structure Ids where
  product : UInt8
  custom : UInt8
  model : UInt8
  sub : UInt8
  version : UInt8

namespace Parts

variable {t : SigNum}

/-- The command line that merges the parts. -/
def args (parts : Parts t) (ids : Ids) : MergeArgs :=
  { type := UInt8.ofNat t
    kernel := .regular parts.kernel
    initramfs := .regular parts.initramfs
    sqimage := .ofOption parts.sqimage
    defaults := .ofOption parts.defaults
    product := ids.product, custom := ids.custom, model := ids.model, sub := ids.sub,
    version := ids.version }

/-- The files of the parts: a component that was left out comes back empty. -/
def files (parts : Parts t) : SplitFiles :=
  { kernel := parts.kernel
    initramfs := parts.initramfs
    sqimage := if (sigOf t).size = 128 then some (parts.sqimage.getD []) else none
    defaults := parts.defaults.getD [] }

end Parts

/-! ## What `merge` stores -/

theorem isUboot_regular {junk : Junk} {fd : Bytes} (h : fd.take 4 = ubootSig) :
    isUboot junk fd 0 = true := by
  have hlen := congrArg List.length h
  have hsig : ubootSig.length = 4 := rfl
  rw [List.length_take, hsig] at hlen
  rw [isUboot_full junk (by omega), slice, List.drop_zero, decide_eq_true h]

/-- A file within the limit is accepted. -/
theorem accepts_regular {junk : Junk} {fd : Bytes} {uboot : Bool} {sizeMax : Nat}
    (huboot : uboot = true → fd.take 4 = ubootSig) (hle : fd.length ≤ sizeMax) :
    Accepts junk (.regular fd) uboot sizeMax := by
  refine ⟨fd, rfl, fun h => isUboot_regular (huboot h), ?_⟩
  have hmod := Nat.mod_le fd.length (2 ^ 32)
  rw [UInt32.toNat_ofNat']
  omega

theorem accepts_ofOption {junk : Junk} {file : Option Bytes} {sizeMax : Nat}
    (hle : ∀ fd, file = some fd → fd.length ≤ sizeMax) (hnull : FileArg.ofOption file ≠ .null) :
    Accepts junk (.ofOption file) false sizeMax := by
  cases file with
  | none => exact absurd rfl hnull
  | some fd => exact accepts_regular (by simp) (hle fd rfl)

/-- An option's file is stored whole, an absent one as no bytes. -/
theorem payload_ofOption {file : Option Bytes}
    (hlt : ∀ fd, file = some fd → fd.length < 2 ^ 32) :
    (FileArg.ofOption file).payload = file.getD [] := by
  cases file with
  | none => rfl
  | some fd => exact payload_regular (hlt fd rfl)

section Parts

variable {t : SigNum} (parts : Parts t) (ids : Ids) (stack : MergeStack)

theorem Parts.accepts : MergeAccepts stack (parts.args ids) t where
  type := by
    have ht : t.val < nsig := t.isLt
    have hnsig : nsig = 9 := rfl
    simp only [Parts.args, UInt8.toNat_ofNat']
    exact Nat.mod_eq_of_lt (by omega)
  kernel := accepts_regular (fun _ => parts.kernel_uboot) parts.kernel_le
  initramfs := accepts_regular (fun _ => parts.initramfs_uboot) parts.initramfs_le
  sqimage := fun _ hnull => accepts_ofOption parts.sqimage_le hnull
  defaults := fun hnull => accepts_ofOption parts.defaults_le hnull

/-- The payload of each component is its file. -/
theorem Parts.payload (c : Component) :
    (parts.args ids).payload t c =
      match c with
      | .kernel => parts.kernel
      | .initramfs => parts.initramfs
      | .sqimage => parts.sqimage.getD []
      | .defaults => parts.defaults.getD [] := by
  have htotal := (sigOf t).total_lt
  cases c with
  | kernel => exact payload_regular (by have := parts.kernel_le; omega)
  | initramfs => exact payload_regular (by have := parts.initramfs_le; omega)
  | defaults => exact payload_ofOption fun d hd => by have := parts.defaults_le d hd; omega
  | sqimage =>
      have hs : (FileArg.ofOption parts.sqimage).payload = parts.sqimage.getD [] :=
        payload_ofOption fun s hs => by have := parts.sqimage_le s hs; omega
      simp only [MergeArgs.payload, MergeArgs.sqimagePayload, Parts.args, hs]
      split
      · rfl
      · rename_i h64
        cases hsq : parts.sqimage with
        | none => rfl
        | some s => exact absurd (parts.sqimage_layout (by simp [hsq])) h64

end Parts

/-! ## Reading a merged file back -/

section Merged

variable {stack : MergeStack} {args : MergeArgs} {t : SigNum} {read : MyControlHeader}
  {fd : Bytes}

/-- The regions of a header that is read as it was written. -/
theorem Agrees.regions (h : Agrees read (mergedHeader stack args t)) :
    read.kernel = regionAt (Component.kernel.off args t) (args.payload t .kernel) ∧
      read.initramfs = regionAt (Component.initramfs.off args t) (args.payload t .initramfs) ∧
      (read.type = 128 →
        read.sqimage = regionAt (Component.sqimage.off args t) (args.payload t .sqimage)) ∧
      read.defaults = regionAt (Component.defaults.off args t) (args.payload t .defaults) := by
  refine ⟨h.kernel, h.initramfs, fun h128 => ?_, h.defaults⟩
  rw [h.type] at h128
  rw [h.sqimage h128]
  simp only [mergedHeader] at h128 ⊢
  rw [if_pos h128]
  rfl

theorem Region.Inside.of_length {r : Region} {fd' : Bytes} (h : r.Inside fd')
    (hlen : fd.length = fd'.length) : r.Inside fd := by
  rw [Region.Inside] at h ⊢
  rwa [hlen]

/-- The regions lie inside every file of the merged file's length. -/
theorem contained_of_agrees (haccepts : MergeAccepts stack args t)
    (h : Agrees read (mergedHeader stack args t))
    (hlen : fd.length = (mergedFile stack args t).length) : Contained fd read := by
  have hin := fun c => (region_mergedFile haccepts c).2.2.1
  obtain ⟨hk, hi, hs, hd⟩ := h.regions
  exact
    { kernel := hk ▸ (hin .kernel).of_length hlen
      initramfs := hi ▸ (hin .initramfs).of_length hlen
      sqimage := fun h128 => hs h128 ▸ (hin .sqimage).of_length hlen
      defaults := hd ▸ (hin .defaults).of_length hlen }

/-- The first four bytes of a region. -/
theorem isUboot_region (junk : Junk) {r : Region} (hin : r.Inside fd) (hlen : 4 ≤ r.len.toNat) :
    isUboot junk fd r.off.toNat = decide ((r.content fd).take 4 = ubootSig) := by
  rw [Region.Inside] at hin
  rw [isUboot_full junk (by omega), Region.content, slice, slice, List.take_take,
    Nat.min_eq_left hlen]

/-- A component that begins with the uboot magic passes `is_uboot`. -/
theorem isUboot_mergedFile (junk : Junk) (haccepts : MergeAccepts stack args t) (c : Component)
    (hmagic : (args.payload t c).take 4 = ubootSig) :
    isUboot junk (mergedFile stack args t)
      (regionAt (c.off args t) (args.payload t c)).off.toNat = true := by
  obtain ⟨-, hrlen, hrin, hrcontent⟩ := region_mergedFile haccepts c
  have hfour : 4 ≤ (args.payload t c).length := by
    have hlen := congrArg List.length hmagic
    have hsiglen : ubootSig.length = 4 := rfl
    rw [List.length_take, hsiglen] at hlen
    omega
  rw [isUboot_region junk hrin (by omega), hrcontent, decide_eq_true hmagic]

/-- The contents of the regions are the payloads. -/
theorem regionFiles_mergedFile (haccepts : MergeAccepts stack args t)
    (h : Agrees read (mergedHeader stack args t)) :
    regionFiles (mergedFile stack args t) read =
      { kernel := args.payload t .kernel
        initramfs := args.payload t .initramfs
        sqimage := if (sigOf t).size = 128 then some (args.payload t .sqimage) else none
        defaults := args.payload t .defaults } := by
  have hcontent := fun c => (region_mergedFile haccepts c).2.2.2
  obtain ⟨hk, hi, hs, hd⟩ := h.regions
  have htype : read.type = (sigOf t).size := h.type
  unfold regionFiles
  rw [hk, hi, hd, hcontent, hcontent, hcontent]
  by_cases h128 : read.type = 128
  · rw [if_pos h128, if_pos (htype ▸ h128), hs h128, hcontent]
  · rw [if_neg h128, if_neg (htype ▸ h128)]

/-- A header that is read in the layout of its type is read as it was written:
the other reading of a 128-byte header has the other layout. -/
theorem agrees_of_layout {old : MyControlHeader}
    (hopen : openRead old (mergedFile stack args t) = .ok read)
    (hlayout : read.type = (sigOf t).size) : Agrees read (mergedHeader stack args t) := by
  rw [mergedFile] at hopen
  rcases openRead_header_cases stack args t old (args.components t) with
    ⟨-, herr⟩ | ⟨-, -, read', hread', -, hagrees⟩ | ⟨h128, -, read', hread', h64, -⟩
  · cases herr.symm.trans hopen
  · obtain rfl := Except.ok.inj (hread'.symm.trans hopen)
    exact hagrees
  · obtain rfl := Except.ok.inj (hread'.symm.trans hopen)
    omega

/-- `open_read` is `check_sig` on the first 128 bytes. -/
theorem openRead_of_checkSig {old : MyControlHeader} (hlen : 128 ≤ fd.length)
    (hread : checkSig (fd.take 128) old = some read) : openRead old fd = .ok read := by
  have htake : ¬ (fd.take 128).length ≠ 128 := by
    rw [List.length_take]
    omega
  unfold openRead
  simp only [if_neg htake, hread]

end Merged

/-! ## The main result -/

/-- **`split` undoes `merge`.**  `merge` accepts the parts of every type, and
whenever the merged file holds 128 bytes and `check_sig` finds the layout and the
index of the type in it, `split` succeeds and writes the files `merge` was given. -/
theorem split_merge {t : SigNum} (parts : Parts t) (ids : Ids) (mstack : MergeStack)
    (sstack : SplitStack) :
    ∃ hd fw, merge mstack (parts.args ids) = .ok (hd, fw) ∧
      (128 ≤ fw.length →
        (∃ read, checkSig (fw.take 128) sstack.myhd = some read ∧
          read.type = (sigOf t).size ∧ read.sigNum = t) →
        split sstack fw = .ok parts.files) := by
  have haccepts := parts.accepts ids mstack
  refine ⟨_, _, merge_ok_iff.mpr ⟨t, haccepts, rfl⟩, ?_⟩
  rintro hlen ⟨read, hread, hlayout, -⟩
  have hopen := openRead_of_checkSig hlen hread
  have hagrees := agrees_of_layout hopen hlayout
  have hpass := fun c => passes_mergedFile haccepts c
  have hboot := fun junk c => isUboot_mergedFile junk haccepts c
  obtain ⟨hk, hi, hs, hd⟩ := hagrees.regions
  refine (split_ok_iff hopen (contained_of_agrees haccepts hagrees rfl)).mpr
    ⟨?_, ?_, ⟨?_, ?_, fun h128 => ?_, ?_⟩, ?_⟩
  · rw [hk]
    exact hboot _ .kernel (by rw [parts.payload]; exact parts.kernel_uboot)
  · rw [hi]
    exact hboot _ .initramfs (by rw [parts.payload]; exact parts.initramfs_uboot)
  · exact hk ▸ hpass .kernel
  · exact hi ▸ hpass .initramfs
  · exact hs h128 ▸ hpass .sqimage
  · exact hd ▸ hpass .defaults
  · simp only [regionFiles_mergedFile haccepts hagrees, parts.payload]
    rfl

/-- The parts of a small DNS-323 D1 firmware, of lengths that are no multiple of
four, without defaults. -/
def smallParts : Parts 4 where
  kernel := ubootSig ++ [0x41]
  initramfs := ubootSig ++ [0x42, 0x43, 0x44]
  sqimage := some [1, 2, 3, 4, 5, 6]
  defaults := none
  kernel_uboot := by decide
  initramfs_uboot := by decide
  kernel_le := by decide
  initramfs_le := by decide
  sqimage_layout := fun _ => by decide
  sqimage_le := by
    rintro s ⟨⟩
    decide
  defaults_le := by
    rintro d ⟨⟩

theorem split_merge_small :
    ∃ hd fw, merge .zero (smallParts.args ⟨1, 2, 3, 4, 5⟩) = .ok (hd, fw) ∧
      split .zero fw = .ok smallParts.files := by
  obtain ⟨hd, fw, hmerge, hsplit⟩ := split_merge smallParts ⟨1, 2, 3, 4, 5⟩ .zero .zero
  refine ⟨hd, fw, hmerge, ?_⟩
  obtain ⟨rfl, rfl⟩ : hd = mergedHeader .zero (smallParts.args ⟨1, 2, 3, 4, 5⟩) 4 ∧
      fw = mergedFile .zero (smallParts.args ⟨1, 2, 3, 4, 5⟩) 4 := by
    have h : merge .zero (smallParts.args ⟨1, 2, 3, 4, 5⟩) =
        .ok (mergedHeader .zero (smallParts.args ⟨1, 2, 3, 4, 5⟩) 4,
          mergedFile .zero (smallParts.args ⟨1, 2, 3, 4, 5⟩) 4) := by decide +kernel
    exact Prod.mk.inj (Except.ok.inj (hmerge.symm.trans h))
  exact hsplit (by decide +kernel)
    ⟨mergedHeader .zero (smallParts.args ⟨1, 2, 3, 4, 5⟩) 4, by decide +kernel, rfl, rfl⟩

end AltF.Firmware
