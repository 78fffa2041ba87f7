/-
  Cgi/NandErase.lean --- nand_flash of firmware2_proc.cgi: which blocks it erases before it
  writes.

  The count has the bad blocks of the partition for the image in it, and its size decides
  when the whole device is erased.  Another partition has its bad blocks elsewhere.
-/
import AltF.Cgi.Firmware2Proc

set_option autoImplicit false

namespace AltF.Cgi.Flashing

open AltF.Foundation AltF.Shell AltF.SysFiles

/-! ## What is asked of the flash -/

/-- The world in which a part ends, in either way. -/
def worldAfter {α : Type} (m : Page α) (w : World) : World :=
  match m w with
  | .ok _ w' => w'
  | .error _ w' => w'

/-- What a part asks of the flash. -/
def newOps {α : Type} (m : Page α) (w : World) : List Op :=
  (worldAfter m w).ops.drop w.ops.length

/-- Blocks are asked for inside of the device only, and what is written then was erased by
the request in front of it. -/
structure Covers (chip : Chip) (ops : List Op) : Prop where
  inside : ∀ m ecnt, .flashErase m ecnt ∈ ops → chip.Erases m ecnt
  erased : ∀ before m file after, ops = before ++ .nandwrite m file :: after →
    ∃ ecnt, before.getLast? = some (.flashErase m ecnt) ∧
      ∀ b ∈ chip.written m file.length, b ∈ chip.erased m ecnt

section Nand

variable (tools : Tools)

/-- The requests of `nand_flash`: a refused one is the last. -/
def nandOps (q : Mtd) (file : Bytes) (m : Mtd) : List Op :=
  let ecnt := eraseCount tools q file.length
  if tools.chip.Erases m ecnt then [.flashErase m ecnt, .nandwrite m file]
  else [.flashErase m ecnt]

/-- A test that only ends the script leaves the world alone. -/
theorem worldAfter_onlyIf {c : Prop} [Decidable c] (txt : Text) (k : Page PUnit) (w : World)
    (hk : worldAfter k w = w) :
    worldAfter (do onlyIf c (flashError txt); k) w = w := by
  unfold worldAfter at hk ⊢
  by_cases hc : c
  · rw [bind_of_error ((onlyIf_of hc _ w).trans (flashError_run txt w))]
  · rw [bind_of_ok (onlyIf_of_not hc _ w)]
    exact hk

theorem worldAfter_flashError {c : Prop} [Decidable c] (txt : Text) (w : World) :
    worldAfter (onlyIf c (flashError txt)) w = w := by
  unfold worldAfter
  by_cases hc : c
  · rw [onlyIf_of hc]
    rfl
  · rw [onlyIf_of_not hc]

theorem worldAfter_nandFlash (q : Mtd) (file : Bytes) (m : Mtd) (w : World) :
    worldAfter (nandFlash tools (some q) file m) w =
      { w with ops := w.ops ++ nandOps tools q file m } := by
  have hask := ask_run (.flashErase m (eraseCount tools q file.length)) w
  generalize hasked : ({ w with ops := w.ops ++ [.flashErase m
    (eraseCount tools q file.length)] } : World) = asked at hask
  by_cases herases : tools.chip.Erases m (eraseCount tools q file.length)
  · have hwrite := ask_run (.nandwrite m file) asked
    have hrest : ∀ wrote, worldAfter (do
        onlyIf (tools.nandwrite m file = false) (flashError "nandwrite: ".toList)
        onlyIf (tools.nanddump m file = false) (flashError "nanddump: ".toList)
        onlyIf (tools.cmp m file = false) (flashError "cmp: ".toList)) wrote = wrote :=
      fun _ => worldAfter_onlyIf _ _ _ (worldAfter_onlyIf _ _ _ (worldAfter_flashError _ _))
    unfold worldAfter at hrest ⊢
    rw [nandFlash, bind_of_ok hask, bind_of_ok (onlyIf_of_not (not_not_intro herases) _ asked),
      bind_of_ok hwrite, hrest, ← hasked]
    simp only [nandOps, if_pos herases, List.append_assoc, List.cons_append, List.nil_append]
  · unfold worldAfter
    rw [nandFlash, bind_of_ok hask,
      bind_of_error ((onlyIf_of herases _ asked).trans (flashError_run _ asked)), ← hasked]
    simp only [nandOps, if_neg herases]

theorem newOps_nandFlash (q : Mtd) (file : Bytes) (m : Mtd) (w : World) :
    newOps (nandFlash tools (some q) file m) w = nandOps tools q file m := by
  rw [newOps, worldAfter_nandFlash, List.drop_left]

/-! ## The count -/

/-- The blocks a file needs, and as many more as the partition for the image has bad ones. -/
def withSpare (chip : Chip) (q : Mtd) (sz : Nat) : Nat :=
  chip.needed sz + (chip.blocks q).badCount

theorem eraseCount_eq (q : Mtd) (sz : Nat) :
    eraseCount tools q sz =
      if withSpare tools.chip q sz ≥ (tools.chip.blocks q).length then 0
      else withSpare tools.chip q sz := by
  simp only [eraseCount, Chip.size, Nat.mul_div_cancel _ tools.chip.erasesize_pos]
  rfl

/-- The count is for the device: it is not too large, and the bad blocks in front are no
more than the partition for the image has. -/
def CountFits (chip : Chip) (q m : Mtd) (sz : Nat) : Prop :=
  withSpare chip q sz < (chip.blocks q).length →
    withSpare chip q sz ≤ (chip.blocks m).length ∧
      EraseBlocks.badCount ((chip.blocks m).take (withSpare chip q sz)) ≤
        (chip.blocks q).badCount

theorem covers_nandOps_iff (q : Mtd) (file : Bytes) (m : Mtd) :
    Covers tools.chip (nandOps tools q file m) ↔
      tools.chip.Erases m (eraseCount tools q file.length) ∧
        ∀ b ∈ tools.chip.written m file.length,
          b ∈ tools.chip.erased m (eraseCount tools q file.length) := by
  constructor
  · intro h
    have hin : tools.chip.Erases m (eraseCount tools q file.length) := by
      refine h.inside m _ ?_
      rw [nandOps]
      split <;> exact List.mem_cons_self
    refine ⟨hin, ?_⟩
    obtain ⟨ecnt, hlast, hall⟩ := h.erased [.flashErase m (eraseCount tools q file.length)] m
      file [] (by rw [nandOps, if_pos hin]; rfl)
    simp only [List.getLast?_singleton, Option.some.injEq, Op.flashErase.injEq, true_and] at hlast
    rw [hlast]
    exact hall
  · rintro ⟨hin, hall⟩
    rw [nandOps, if_pos hin]
    refine ⟨fun m' n hmem => ?_, fun before m' file' after heq => ?_⟩
    · simp only [List.mem_cons, Op.flashErase.injEq, reduceCtorEq, List.not_mem_nil, or_false]
        at hmem
      rw [hmem.1, hmem.2]
      exact hin
    · rcases before with _ | ⟨o, _ | ⟨o', rest⟩⟩
      · cases heq
      · simp only [List.cons_append, List.nil_append, List.cons.injEq, Op.nandwrite.injEq] at heq
        obtain ⟨rfl, ⟨rfl, rfl⟩, -⟩ := heq
        exact ⟨_, rfl, hall⟩
      · have hlen := congrArg List.length heq
        simp at hlen

/-- **Erasing what is written**: with room for the file on the device, `nand_flash` asks for
blocks of the device only and has erased every block that is written, exactly if the count
fits the device. -/
theorem nandFlash_covers_iff (q : Mtd) (file : Bytes) (m : Mtd) (w : World)
    (hroom : tools.chip.needed file.length ≤ (tools.chip.blocks m).good.length) :
    Covers tools.chip (newOps (nandFlash tools (some q) file m) w) ↔
      CountFits tools.chip q m file.length := by
  rw [newOps_nandFlash, covers_nandOps_iff, eraseCount_eq, CountFits]
  have hwhole : ∀ b ∈ tools.chip.written m file.length, b ∈ (tools.chip.blocks m).good :=
    fun b hb => List.mem_of_mem_take hb
  by_cases hfull : withSpare tools.chip q file.length ≥ (tools.chip.blocks q).length
  · rw [if_pos hfull]
    refine iff_of_true ⟨?_, hwhole⟩ fun hlt => absurd hlt (Nat.not_lt.mpr hfull)
    rw [Chip.Erases, Chip.asked, if_pos rfl]
  · rw [if_neg hfull, Chip.Erases, Chip.erased, Chip.written, Chip.asked]
    by_cases hzero : withSpare tools.chip q file.length = 0
    · rw [if_pos hzero, hzero]
      refine iff_of_true ⟨Nat.le_refl _, hwhole⟩ fun _ => ⟨Nat.zero_le _, ?_⟩
      rw [List.take_zero]
      exact Nat.zero_le _
    · rw [if_neg hzero]
      simp only [Nat.not_le.mp hfull, true_imp_iff]
      refine and_congr_right fun hin => ?_
      rw [(tools.chip.blocks m).take_good_subset_iff hroom hin]
      have hcount := (tools.chip.blocks m).length_goodBelow hin
      unfold withSpare at hcount ⊢
      omega

/-- Partitions of eight blocks, with a bad one in front of the kernel's. -/
def badKernelChip : Chip where
  erasesize := 4
  erasesize_pos := by decide
  blocks := fun m => if m = 1 then true :: List.replicate 7 false else List.replicate 8 false

/-- A DNS-325 with this flash. -/
def badKernelBox : Tools :=
  .sound "DNS-325-Ax".toList .nand badKernelChip fun _ => ⟨true, fun _ => none⟩

/-- The initramfs goes to erased blocks. -/
theorem nandFlash_covers_initramfs :
    Covers badKernelBox.chip
      (newOps (nandFlash badKernelBox (some 3) [1, 2, 3, 4, 5] 2) ⟨[], fun _ => none⟩) :=
  (nandFlash_covers_iff badKernelBox 3 [1, 2, 3, 4, 5] 2 ⟨[], fun _ => none⟩
    (by decide)).mpr fun _ => by decide

/-- A kernel of one block goes to block 1, and block 0 is all that was to be erased. -/
theorem nandFlash_not_covers :
    partitions badKernelBox.board = some ⟨1, 2, some 3⟩ ∧
      badKernelBox.chip.needed [1, 2, 3].length ≤ (badKernelBox.chip.blocks 1).good.length ∧
      badKernelBox.chip.written 1 [1, 2, 3].length = [1] ∧
      ¬ Covers badKernelBox.chip
        (newOps (nandFlash badKernelBox (some 3) [1, 2, 3] 1) ⟨[], fun _ => none⟩) := by
  refine ⟨by decide +kernel, by decide, by decide, ?_⟩
  rw [newOps_nandFlash, covers_nandOps_iff]
  decide

/-- The image itself is always flashed to erased blocks. -/
theorem countFits_image (chip : Chip) (q : Mtd) (sz : Nat) : CountFits chip q q sz :=
  fun hlt => ⟨Nat.le_of_lt hlt, (chip.blocks q).badCount_take_le _⟩

end Nand

end AltF.Cgi.Flashing
