/-
  Firmware/Merge.lean --- `merge` of dns323-fw.c: kernel, initramfs, sqimage and
  defaults appended behind a header that is written last.

  `merge_ok_iff` is the whole of what the later modules use: which arguments
  `merge` accepts, the header it computes, and the file it leaves.
-/
import AltF.Foundation.Runs
import AltF.Firmware.ReadWrite

set_option autoImplicit false

namespace AltF.Firmware

open AltF.Foundation

/-- The options `merge` reads. -/
structure MergeArgs where
  type : UInt8
  kernel : FileArg
  initramfs : FileArg
  sqimage : FileArg
  defaults : FileArg
  product : UInt8
  custom : UInt8
  model : UInt8
  sub : UInt8
  version : UInt8
  deriving DecidableEq, Repr

/-- What `merge` finds in memory it reads before writing it: the structure
`myhd`, whose bytes the fake header is made of, and the buffers of the two
`is_uboot` calls. -/
structure MergeStack where
  myhd : MyControlHeader
  fake : Junk
  kernelSig : Junk
  initramfsSig : Junk

/-- A stack of zeros. -/
def MergeStack.zero : MergeStack := ⟨default, fun _ => 0, fun _ => 0, fun _ => 0⟩

/-! ## The program -/

/-- `save_header`: the header overwrites the front of the file. -/
def saveHeader (fdo : Bytes) (myhd : MyControlHeader) : Except Failure Bytes :=
  if myhd.type = 64 then .ok (setHeader64 myhd ++ fdo.drop 64)
  else if myhd.type = 128 then .ok (setHeader128 myhd ++ fdo.drop 128)
  else .error .headerType

/-- A component that may be left out: `savecomp` when its option is given, an
empty region at the end of the file otherwise. -/
def saveOptional (junk : Junk) (file : FileArg) (fdo : Bytes) (sizeMax : Nat) :
    Except Failure (Region × Bytes) :=
  if file = .null then .ok (⟨UInt32.ofNat fdo.length, 0, 0⟩, fdo)
  else savecomp junk file fdo false sizeMax

/-- The sqimage component, which only the 128-byte layout has. -/
def saveSqimage (stack : MergeStack) (args : MergeArgs) (t : SigNum) (fdo : Bytes) :
    Except Failure (Region × Bytes) :=
  if (sigOf t).size = 128 then saveOptional stack.fake args.sqimage fdo (sigOf t).sqimageMax
  else .ok (stack.myhd.sqimage, fdo)

/-- The body of `merge`, from the device type on: the header it computes and the
file it writes. -/
def mergeType (stack : MergeStack) (args : MergeArgs) (t : SigNum) :
    Except Failure (MyControlHeader × Bytes) := do
  let hdSize := (sigOf t).size
  let fdo := (List.range hdSize).map stack.fake
  let (kernel, fdo) ← savecomp stack.kernelSig args.kernel fdo true (sigOf t).kernelMax
  let (initramfs, fdo) ←
    savecomp stack.initramfsSig args.initramfs fdo true (sigOf t).initramfsMax
  let (sqimage, fdo) ← saveSqimage stack args t fdo
  let (defaults, fdo) ← saveOptional stack.fake args.defaults fdo (sigOf t).defaultsMax
  let myhd : MyControlHeader :=
    { kernel := kernel, initramfs := initramfs, sqimage := sqimage, defaults := defaults,
      nextOffset := 0, productId := args.product, customId := args.custom,
      modelId := args.model, subId := args.sub, newVersion := args.version,
      type := hdSize, sigNum := t }
  let fdo ← saveHeader fdo myhd
  .ok (myhd, fdo)

/-- `merge`. -/
def merge (stack : MergeStack) (args : MergeArgs) : Except Failure (MyControlHeader × Bytes) :=
  if args.kernel = .null ∨ args.initramfs = .null then .error .usage
  else if htype : args.type.toNat < nsig then mergeType stack args ⟨args.type.toNat, htype⟩
  else .error .usage

/-! ## What it accepts and what it writes -/

/-- `merge` accepts the arguments for row `t`. -/
structure MergeAccepts (stack : MergeStack) (args : MergeArgs) (t : SigNum) : Prop where
  type : args.type.toNat = t
  kernel : Accepts stack.kernelSig args.kernel true (sigOf t).kernelMax
  initramfs : Accepts stack.initramfsSig args.initramfs true (sigOf t).initramfsMax
  sqimage : (sigOf t).size = 128 → args.sqimage ≠ .null →
    Accepts stack.fake args.sqimage false (sigOf t).sqimageMax
  defaults : args.defaults ≠ .null →
    Accepts stack.fake args.defaults false (sigOf t).defaultsMax

/-- The bytes of the sqimage component: a 64-byte layout has none. -/
def MergeArgs.sqimagePayload (args : MergeArgs) (t : SigNum) : Bytes :=
  if (sigOf t).size = 128 then args.sqimage.payload else []

/-- The components in file order. -/
def MergeArgs.components (args : MergeArgs) (t : SigNum) : Bytes :=
  args.kernel.payload ++ (args.initramfs.payload ++
    (args.sqimagePayload t ++ args.defaults.payload))

/-- Where each component begins. -/
def initramfsOff (args : MergeArgs) (t : SigNum) : Nat :=
  (sigOf t).size + args.kernel.payload.length

def sqimageOff (args : MergeArgs) (t : SigNum) : Nat :=
  initramfsOff args t + args.initramfs.payload.length

def defaultsOff (args : MergeArgs) (t : SigNum) : Nat :=
  sqimageOff args t + (args.sqimagePayload t).length

/-- The header `merge` computes. -/
def mergedHeader (stack : MergeStack) (args : MergeArgs) (t : SigNum) : MyControlHeader :=
  { kernel := regionAt (sigOf t).size args.kernel.payload
    initramfs := regionAt (initramfsOff args t) args.initramfs.payload
    sqimage := if (sigOf t).size = 128 then regionAt (sqimageOff args t) (args.sqimagePayload t)
      else stack.myhd.sqimage
    defaults := regionAt (defaultsOff args t) args.defaults.payload
    nextOffset := 0
    productId := args.product
    customId := args.custom
    modelId := args.model
    subId := args.sub
    newVersion := args.version
    type := (sigOf t).size
    sigNum := t }

/-- The memory image of a header in the layout its type names. -/
def headerBytes (myhd : MyControlHeader) : Bytes :=
  if myhd.type = 64 then setHeader64 myhd else setHeader128 myhd

/-- The file `merge` writes. -/
def mergedFile (stack : MergeStack) (args : MergeArgs) (t : SigNum) : Bytes :=
  headerBytes (mergedHeader stack args t) ++ args.components t

theorem headerBytes_length {myhd : MyControlHeader} (h : myhd.type = 64 ∨ myhd.type = 128) :
    (headerBytes myhd).length = myhd.type := by
  rcases h with h | h
  · rw [headerBytes, if_pos h, setHeader64_length, h]
  · rw [headerBytes, if_neg (by omega), setHeader128_length, h]

/-- The header takes the place of as many bytes in front of the components. -/
theorem saveHeader_append {myhd : MyControlHeader} {fake comps : Bytes}
    (htype : myhd.type = 64 ∨ myhd.type = 128) (hfake : fake.length = myhd.type) :
    saveHeader (fake ++ comps) myhd = .ok (headerBytes myhd ++ comps) := by
  rcases htype with h | h
  · rw [saveHeader, headerBytes, if_pos h, if_pos h, ← h, ← hfake, List.drop_left]
  · have h64 : ¬ myhd.type = 64 := by omega
    rw [saveHeader, headerBytes, if_neg h64, if_neg h64, if_pos h, ← h, ← hfake, List.drop_left]

/-- A component that may be left out is appended like any other. -/
theorem saveOptional_ok_iff {junk : Junk} {file : FileArg} {fdo : Bytes} {sizeMax : Nat}
    {res : Region × Bytes} :
    saveOptional junk file fdo sizeMax = .ok res ↔
      (file ≠ .null → Accepts junk file false sizeMax) ∧
        res = (regionAt fdo.length file.payload, fdo ++ file.payload) := by
  unfold saveOptional
  by_cases hnull : file = .null
  · subst hnull
    simp [regionAt, FileArg.payload, eq_comm]
  · rw [if_neg hnull, savecomp_ok_iff]
    simp [hnull]

theorem saveSqimage_ok_iff {stack : MergeStack} {args : MergeArgs} {t : SigNum} {fdo : Bytes}
    {res : Region × Bytes} (hlen : fdo.length = sqimageOff args t) :
    saveSqimage stack args t fdo = .ok res ↔
      ((sigOf t).size = 128 → args.sqimage ≠ .null →
        Accepts stack.fake args.sqimage false (sigOf t).sqimageMax) ∧
      res = ((mergedHeader stack args t).sqimage, fdo ++ args.sqimagePayload t) := by
  unfold saveSqimage
  by_cases h128 : (sigOf t).size = 128
  · simp only [saveOptional_ok_iff, h128, true_imp_iff, mergedHeader,
      MergeArgs.sqimagePayload, hlen, if_true]
  · simp only [h128, false_imp_iff, true_and, mergedHeader,
      MergeArgs.sqimagePayload, List.append_nil, Except.ok.injEq, if_false]
    exact eq_comm

/-- `saveHeader` on the file `merge` has built so far. -/
theorem saveHeader_merged (stack : MergeStack) (args : MergeArgs) (t : SigNum) :
    saveHeader ((List.range (sigOf t).size).map stack.fake ++ args.components t)
      (mergedHeader stack args t) = .ok (mergedFile stack args t) :=
  saveHeader_append (sigOf t).size_eq (by simp [mergedHeader])

theorem mergeType_ok_iff {stack : MergeStack} {args : MergeArgs} {t : SigNum}
    {res : MyControlHeader × Bytes} (htype : args.type.toNat = t) :
    mergeType stack args t = .ok res ↔
      MergeAccepts stack args t ∧
        res = (mergedHeader stack args t, mergedFile stack args t) := by
  -- The file after the fake header, the kernel, the initramfs and the sqimage.
  let fake := (List.range (sigOf t).size).map stack.fake
  let fk := fake ++ args.kernel.payload
  let fi := fk ++ args.initramfs.payload
  let fs := fi ++ args.sqimagePayload t
  have hfake : fake.length = (sigOf t).size := by simp [fake]
  have hfk : fk.length = initramfsOff args t := by simp [fk, hfake, initramfsOff]
  have hfi : fi.length = sqimageOff args t := by simp [fi, hfk, sqimageOff]
  have hfs : fs.length = defaultsOff args t := by simp [fs, hfi, defaultsOff]
  have hfile : fs ++ args.defaults.payload = fake ++ args.components t := by
    simp [fs, fi, fk, MergeArgs.components]
  have hsave : saveHeader (fs ++ args.defaults.payload) (mergedHeader stack args t) =
      .ok (mergedFile stack args t) := hfile ▸ saveHeader_merged stack args t
  simp only [mergeType, bind_eq_ok_iff, savecomp_ok_iff, saveOptional_ok_iff]
  constructor
  · rintro ⟨⟨rk, fk'⟩, ⟨hk, hkeq⟩, ⟨ri, fi'⟩, ⟨hi, hieq⟩, ⟨rs, fs'⟩, hs, ⟨rd, fd'⟩, ⟨hd, hdeq⟩,
      fw, hfw, hres⟩
    obtain ⟨rfl, rfl⟩ := Prod.mk.inj hkeq
    obtain ⟨rfl, rfl⟩ := Prod.mk.inj hieq
    obtain ⟨hsacc, hseq⟩ := (saveSqimage_ok_iff hfi).mp hs
    obtain ⟨rfl, rfl⟩ := Prod.mk.inj hseq
    obtain ⟨rfl, rfl⟩ := Prod.mk.inj hdeq
    refine ⟨⟨htype, hk, hi, hsacc, hd⟩, ?_⟩
    rw [hfake, hfk, hfs] at hfw hres
    have hfile : Except.ok (mergedFile stack args t) = Except.ok fw := hsave.symm.trans hfw
    obtain rfl := Except.ok.inj hfile
    exact (Except.ok.inj hres).symm
  · rintro ⟨⟨-, hk, hi, hs, hd⟩, rfl⟩
    refine ⟨_, ⟨hk, rfl⟩, _, ⟨hi, rfl⟩, _, (saveSqimage_ok_iff hfi).mpr ⟨hs, rfl⟩, _,
      ⟨hd, rfl⟩, mergedFile stack args t, ?_, ?_⟩
    · rw [hfake, hfk, hfs]
      exact hsave
    · rw [hfake, hfk, hfs]
      rfl

/-- **What `merge` does.**  It succeeds exactly on the arguments it accepts for
the row of the given type, with the header and the file stated above. -/
theorem merge_ok_iff {stack : MergeStack} {args : MergeArgs} {res : MyControlHeader × Bytes} :
    merge stack args = .ok res ↔
      ∃ t, MergeAccepts stack args t ∧
        res = (mergedHeader stack args t, mergedFile stack args t) := by
  unfold merge
  by_cases hnull : args.kernel = .null ∨ args.initramfs = .null
  · rw [if_pos hnull]
    simp only [reduceCtorEq, false_iff, not_exists, not_and]
    intro t haccepts
    obtain ⟨k, hk, -⟩ := haccepts.kernel
    obtain ⟨i, hi, -⟩ := haccepts.initramfs
    rcases hnull with h | h <;> simp_all
  · rw [if_neg hnull]
    by_cases htype : args.type.toNat < nsig
    · rw [dif_pos htype, mergeType_ok_iff rfl]
      constructor
      · exact fun h => ⟨_, h⟩
      · rintro ⟨t, haccepts, hres⟩
        obtain rfl : (⟨args.type.toNat, htype⟩ : SigNum) = t := Fin.ext haccepts.type
        exact ⟨haccepts, hres⟩
    · rw [dif_neg htype]
      simp only [reduceCtorEq, false_iff, not_exists, not_and]
      intro t haccepts
      exact absurd (haccepts.type ▸ t.isLt) htype

end AltF.Firmware
