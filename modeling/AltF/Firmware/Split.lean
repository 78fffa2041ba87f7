/-
  Firmware/Split.lean --- `open_read` and `split` of dns323-fw.c, and what they
  make of a file whose regions lie inside it.
-/
import AltF.Firmware.Merge

set_option autoImplicit false

namespace AltF.Firmware

open AltF.Foundation

/-! ## The program -/

/-- `open_read`: the header it reads, into a structure that held `old`. -/
def openRead (old : MyControlHeader) (fw : Bytes) : Except Failure MyControlHeader :=
  let hd := fw.take 128
  if hd.length ≠ 128 then .error .shortRead
  else
    match checkSig hd old with
    | none => .error .signature
    | some myhd => .ok myhd

/-- `size_ok`: the `return 1` in front of the comparison is the whole function. -/
def sizeOk (_fw : Bytes) (_hd : MyControlHeader) : Bool := true

/-- The files `split` writes; a 64-byte header has no sqimage. -/
structure SplitFiles where
  kernel : Bytes
  initramfs : Bytes
  sqimage : Option Bytes
  defaults : Bytes
  deriving DecidableEq, Repr

/-- What `split` finds in memory it reads before writing it. -/
structure SplitStack where
  myhd : MyControlHeader
  kernelSig : Junk
  initramfsSig : Junk

/-- A stack of zeros. -/
def SplitStack.zero : SplitStack := ⟨default, fun _ => 0, fun _ => 0⟩

/-- The sqimage file, which only a 128-byte header describes. -/
def splitSqimage (fd : Bytes) (myhd : MyControlHeader) : Except Failure (Option Bytes) :=
  if myhd.type = 128 then (savefile fd myhd.sqimage).map some else .ok none

/-- The four `savefile` calls. -/
def saveAll (fd : Bytes) (myhd : MyControlHeader) : Except Failure SplitFiles := do
  let kernel ← savefile fd myhd.kernel
  let initramfs ← savefile fd myhd.initramfs
  let sqimage ← splitSqimage fd myhd
  let defaults ← savefile fd myhd.defaults
  .ok ⟨kernel, initramfs, sqimage, defaults⟩

/-- `split`. -/
def split (stack : SplitStack) (fw : Bytes) : Except Failure SplitFiles :=
  match openRead stack.myhd fw with
  | .error e => .error e
  | .ok myhd =>
      if sizeOk fw myhd = false then .error .size
      else if isUboot stack.kernelSig fw myhd.kernel.off.toNat = false ∨
          isUboot stack.initramfsSig fw myhd.initramfs.off.toNat = false then .error .notUboot
      else saveAll fw myhd

/-! ## Splitting a file that holds its regions -/

/-- Every region `split` saves lies inside the file. -/
structure Contained (fd : Bytes) (myhd : MyControlHeader) : Prop where
  kernel : myhd.kernel.Inside fd
  initramfs : myhd.initramfs.Inside fd
  sqimage : myhd.type = 128 → myhd.sqimage.Inside fd
  defaults : myhd.defaults.Inside fd

/-- Every checksum `split` checks lets its region pass. -/
structure AllPass (fd : Bytes) (myhd : MyControlHeader) : Prop where
  kernel : myhd.kernel.Passes fd
  initramfs : myhd.initramfs.Passes fd
  sqimage : myhd.type = 128 → myhd.sqimage.Passes fd
  defaults : myhd.defaults.Passes fd

/-- The contents of the regions. -/
def regionFiles (fd : Bytes) (myhd : MyControlHeader) : SplitFiles :=
  { kernel := myhd.kernel.content fd
    initramfs := myhd.initramfs.content fd
    sqimage := if myhd.type = 128 then some (myhd.sqimage.content fd) else none
    defaults := myhd.defaults.content fd }

theorem savefile_ok_iff {fd : Bytes} {r : Region} {out : Bytes} (h : r.Inside fd) :
    savefile fd r = .ok out ↔ r.Passes fd ∧ out = r.content fd := by
  rw [savefile_inside h]
  by_cases hp : r.Passes fd
  · simp [hp, eq_comm]
  · simp [hp]

theorem splitSqimage_ok_iff {fd : Bytes} {myhd : MyControlHeader} {out : Option Bytes}
    (h : myhd.type = 128 → myhd.sqimage.Inside fd) :
    splitSqimage fd myhd = .ok out ↔
      (myhd.type = 128 → myhd.sqimage.Passes fd) ∧ out = (regionFiles fd myhd).sqimage := by
  unfold splitSqimage
  by_cases h128 : myhd.type = 128
  · rw [if_pos h128, savefile_inside (h h128)]
    by_cases hp : myhd.sqimage.Passes fd
    · simp [hp, h128, regionFiles, Except.map, eq_comm]
    · simp [hp, h128, Except.map]
  · simp [h128, regionFiles, eq_comm]

theorem saveAll_ok_iff {fd : Bytes} {myhd : MyControlHeader} {out : SplitFiles}
    (h : Contained fd myhd) :
    saveAll fd myhd = .ok out ↔ AllPass fd myhd ∧ out = regionFiles fd myhd := by
  simp only [saveAll, bind_eq_ok_iff, savefile_ok_iff h.kernel, savefile_ok_iff h.initramfs,
    savefile_ok_iff h.defaults, splitSqimage_ok_iff h.sqimage, Except.ok.injEq]
  constructor
  · rintro ⟨k, ⟨hk, rfl⟩, i, ⟨hi, rfl⟩, s, ⟨hs, rfl⟩, d, ⟨hd, rfl⟩, rfl⟩
    exact ⟨⟨hk, hi, hs, hd⟩, rfl⟩
  · rintro ⟨⟨hk, hi, hs, hd⟩, rfl⟩
    exact ⟨_, ⟨hk, rfl⟩, _, ⟨hi, rfl⟩, _, ⟨hs, rfl⟩, _, ⟨hd, rfl⟩, rfl⟩

/-- **What `split` does** with a file that holds the regions of its header: it
succeeds exactly when kernel and initramfs begin with the uboot magic and every
checksum passes, and then writes the regions. -/
theorem split_ok_iff {stack : SplitStack} {fw : Bytes} {myhd : MyControlHeader} {out : SplitFiles}
    (hopen : openRead stack.myhd fw = .ok myhd) (hin : Contained fw myhd) :
    split stack fw = .ok out ↔
      isUboot stack.kernelSig fw myhd.kernel.off.toNat = true ∧
      isUboot stack.initramfsSig fw myhd.initramfs.off.toNat = true ∧
      AllPass fw myhd ∧ out = regionFiles fw myhd := by
  simp only [split, hopen, sizeOk, Bool.true_eq_false, if_false]
  by_cases hboot : isUboot stack.kernelSig fw myhd.kernel.off.toNat = false ∨
      isUboot stack.initramfsSig fw myhd.initramfs.off.toNat = false
  · rw [if_pos hboot]
    rcases hboot with h | h <;> simp [h]
  · rw [if_neg hboot, saveAll_ok_iff hin]
    simp only [not_or, Bool.not_eq_false] at hboot
    simp [hboot.1, hboot.2]

/-- A file whose header is not recognised is refused. -/
theorem split_error_of_openRead {stack : SplitStack} {fw : Bytes} {e : Failure}
    (hopen : openRead stack.myhd fw = .error e) : split stack fw = .error e := by
  simp only [split, hopen]

/-! ## The regions of a merged file -/

/-- The four components of a firmware file. -/
inductive Component where
  | kernel
  | initramfs
  | sqimage
  | defaults
  deriving DecidableEq, Repr

/-- The bytes `merge` stores for a component. -/
def MergeArgs.payload (args : MergeArgs) (t : SigNum) : Component → Bytes
  | .kernel => args.kernel.payload
  | .initramfs => args.initramfs.payload
  | .sqimage => args.sqimagePayload t
  | .defaults => args.defaults.payload

/-- Where `merge` stores a component. -/
def Component.off (args : MergeArgs) (t : SigNum) : Component → Nat
  | .kernel => (sigOf t).size
  | .initramfs => initramfsOff args t
  | .sqimage => sqimageOff args t
  | .defaults => defaultsOff args t

section Merged

variable {stack : MergeStack} {args : MergeArgs} {t : SigNum}

theorem headerBytes_mergedHeader_length :
    (headerBytes (mergedHeader stack args t)).length = (sigOf t).size :=
  headerBytes_length (sigOf t).size_eq

/-- A merged file cut at a component. -/
theorem mergedFile_cut (stack : MergeStack) (args : MergeArgs) (t : SigNum) (c : Component) :
    ∃ pre post, mergedFile stack args t = pre ++ (args.payload t c ++ post) ∧
      pre.length = c.off args t := by
  have hlen : (headerBytes (mergedHeader stack args t)).length = (sigOf t).size :=
    headerBytes_mergedHeader_length
  let hd := headerBytes (mergedHeader stack args t)
  cases c with
  | kernel => exact ⟨hd, _, rfl, hlen⟩
  | initramfs =>
      refine ⟨hd ++ args.kernel.payload, args.sqimagePayload t ++ args.defaults.payload, ?_, ?_⟩
      · simp [mergedFile, MergeArgs.components, MergeArgs.payload, hd]
      · simp [hd, hlen, Component.off, initramfsOff]
  | sqimage =>
      refine ⟨hd ++ args.kernel.payload ++ args.initramfs.payload, args.defaults.payload, ?_, ?_⟩
      · simp [mergedFile, MergeArgs.components, MergeArgs.payload, hd]
      · simp [hd, hlen, Component.off, sqimageOff, initramfsOff, Nat.add_assoc]
  | defaults =>
      refine ⟨hd ++ args.kernel.payload ++ args.initramfs.payload ++ args.sqimagePayload t, [],
        ?_, ?_⟩
      · simp [mergedFile, MergeArgs.components, MergeArgs.payload, hd]
      · simp [hd, hlen, Component.off, defaultsOff, sqimageOff, initramfsOff, Nat.add_assoc]

theorem mergedFile_length :
    (mergedFile stack args t).length = defaultsOff args t + args.defaults.payload.length := by
  simp only [mergedFile, MergeArgs.components, List.length_append,
    headerBytes_mergedHeader_length, defaultsOff, sqimageOff, initramfsOff]
  omega

/-- The size limits keep a merged file, and so every offset in it, below 2^32. -/
theorem mergedFile_lt (h : MergeAccepts stack args t) :
    (mergedFile stack args t).length < 2 ^ 32 := by
  have hk := payload_length_le h.kernel
  have hi := payload_length_le h.initramfs
  have hs : (args.sqimagePayload t).length ≤ (sigOf t).sqimageMax := by
    unfold MergeArgs.sqimagePayload
    split
    · rename_i h128
      by_cases hnull : args.sqimage = .null
      · simp [hnull, FileArg.payload]
      · exact payload_length_le (h.sqimage h128 hnull)
    · simp
  have hd : args.defaults.payload.length ≤ (sigOf t).defaultsMax := by
    by_cases hnull : args.defaults = .null
    · simp [hnull, FileArg.payload]
    · exact payload_length_le (h.defaults hnull)
  have htotal := (sigOf t).total_lt
  simp only [mergedFile_length, defaultsOff, sqimageOff, initramfsOff]
  omega

/-- The region recorded for a component, as a reader of the file finds it: its
place, its length, and its bytes. -/
theorem region_mergedFile (h : MergeAccepts stack args t) (c : Component) :
    let r := regionAt (c.off args t) (args.payload t c)
    r.off.toNat = c.off args t ∧ r.len.toNat = (args.payload t c).length ∧
      r.Inside (mergedFile stack args t) ∧
      r.content (mergedFile stack args t) = args.payload t c := by
  obtain ⟨pre, post, hcut, hpre⟩ := mergedFile_cut stack args t c
  have hlt := mergedFile_lt h
  have hlen : (mergedFile stack args t).length =
      c.off args t + ((args.payload t c).length + post.length) := by
    rw [hcut, List.length_append, List.length_append, hpre]
  have hoff : (UInt32.ofNat (c.off args t)).toNat = c.off args t := by
    rw [UInt32.toNat_ofNat', Nat.mod_eq_of_lt (by omega)]
  have hplen : (UInt32.ofNat (args.payload t c).length).toNat = (args.payload t c).length := by
    rw [UInt32.toNat_ofNat', Nat.mod_eq_of_lt (by omega)]
  refine ⟨hoff, hplen, ?_, ?_⟩
  · simp only [Region.Inside, regionAt, hoff, hplen]
    omega
  · simp only [Region.content, regionAt, hoff, hplen, slice]
    rw [hcut, ← hpre, List.drop_left, List.take_left]

/-- A recorded region passes its own checksum. -/
theorem passes_mergedFile (h : MergeAccepts stack args t) (c : Component) :
    (regionAt (c.off args t) (args.payload t c)).Passes (mergedFile stack args t) := by
  obtain ⟨-, -, -, hcontent⟩ := region_mergedFile h c
  right
  rw [hcontent]
  rfl

end Merged

end AltF.Firmware
