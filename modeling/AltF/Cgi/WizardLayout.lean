/-
  Cgi/WizardLayout.lean --- the MBR tables of the disk wizard: the numbers that `minsize`, `align`
  and `mbr_partition` of diskwiz_proc.cgi compute, and what sfdisk is given for each disk.

  The numbers of a script that runs on a box with a working `expr` are these.
-/
import Mathlib.Order.Interval.Basic
import AltF.Foundation.Areas
import AltF.Cgi.DiskWiz

set_option autoImplicit false

namespace AltF.Cgi.WizardLayout

open AltF.Foundation AltF.Shell AltF.SysFiles

/-! ## Numbers -/

/-- `lower common size of all disks (in sectors)`, less 1MB -/
def minsize (sizes : List Int) : Int :=
  sizes.foldl (fun msz sz => if sz < msz then sz else msz) 99999999999 - 2048

/-- `4k align: $1=pos, $2=nsect, $3=maxsect` -/
def align (pos nsect maxsect : Int) : Int :=
  let nsect := if maxsect < pos + nsect then maxsect - pos else nsect
  let rem := nsect.tmod 8
  if rem ≠ 0 then nsect - rem else nsect

/-- A line of the input of sfdisk. -/
structure Line where
  start : Int
  len : Int
  type : Text
  deriving DecidableEq, Repr

def Line.area (l : Line) : Area Int := ⟨l.start, l.len⟩

/-- `$par3` -/
def thirdPart (pos2 nsect2 maxsect commonsect : Int) : Option Line :=
  if maxsect ≠ commonsect then
    let pos3 := pos2 + nsect2
    let nsect3 := align pos3 (maxsect - pos3) maxsect
    if 20000 < nsect3 then some ⟨pos3, nsect3, "83".toList⟩ else none
  else none

/-- The lines for a disk. -/
structure Table where
  swap : Line
  data : Line
  rest : Option Line
  deriving DecidableEq, Repr

def Table.lines (t : Table) : List Line := t.swap :: t.data :: t.rest.toList

/-- 512MB for swap, twice that for RAID. -/
def swapSize (raid : Bool) : Int := 1048576 * if raid then 2 else 1

/-- `mbr_partition`, up to sfdisk: the size of the disk, and the common size. -/
def mbrPartition (raid equal : Bool) (common size : Int) : Table :=
  let maxsect := size - 2048
  let maxsect := if 4294967296 ≤ maxsect then 4294967296 else maxsect
  let commonsect := if equal then common else maxsect
  let nsect := align 64 (swapSize raid) maxsect
  let pos2 := 64 + nsect
  let nsect2 := align pos2 (commonsect - pos2) maxsect
  ⟨⟨64, nsect, "S".toList⟩, ⟨pos2, nsect2, if raid then "da".toList else "83".toList⟩,
    thirdPart pos2 nsect2 maxsect commonsect⟩

/-- A disk that gets an MBR. -/
structure Disk where
  dev : Text
  size : Nat
  small : size < 4294967296

/-- The disks that are partitioned, with the success of sfdisk: the wizard ends where it fails. -/
def partitioned : List (Disk × Bool) → List Disk
  | [] => []
  | (d, ok) :: ds => d :: if ok then partitioned ds else []

/-- `minsize` of the disks that are selected. -/
def common (ds : List (Disk × Bool)) : Int := minsize (ds.map fun d => (d.1.size : Int))

/-- `partition`: what sfdisk is given, disk by disk. -/
def partition (raid equal : Bool) (ds : List (Disk × Bool)) : List (Disk × Table) :=
  (partitioned ds).map fun d => (d, mbrPartition raid equal (common ds) d.size)

/-- `$wish_part`, where something is done. -/
inductive Mode where
  | standard
  | jbod
  | raid0
  | raid1
  | raid5
  deriving DecidableEq, Repr

def Mode.raid (m : Mode) : Bool := m != .standard

def Mode.equal : Mode → Bool
  | .standard | .jbod => false
  | .raid0 | .raid1 | .raid5 => true

/-! ## What is valid -/

/-- The partitions are aligned, not empty, apart, and inside the disk. -/
structure ValidTable (size : Int) (t : Table) : Prop where
  starts : ∀ l ∈ t.lines, 8 ∣ l.start ∧ 64 ≤ l.start
  lengths : ∀ l ∈ t.lines, 8 ∣ l.len ∧ 0 < l.len
  apart : t.lines.Pairwise fun l m => l.area.Apart m.area
  inside : ∀ l ∈ t.lines, l.area.stop ≤ size

/-- All tables are valid, and in the equal modes the second partitions have one length. -/
def ValidLayouts (equal : Bool) (tables : List (Disk × Table)) : Prop :=
  (∀ x ∈ tables, ValidTable x.1.size x.2) ∧
    (equal = true → ∀ x ∈ tables, ∀ y ∈ tables, x.2.data.len = y.2.data.len)

/-! ## Alignment -/

/-- The last aligned number before it, towards 0. -/
def floor8 (n : Int) : Int := 8 * n.tdiv 8

theorem align_eq (pos nsect maxsect : Int) :
    align pos nsect maxsect =
      floor8 (if maxsect < pos + nsect then maxsect - pos else nsect) := by
  have hfloor : ∀ n : Int, (if n.tmod 8 ≠ 0 then n - n.tmod 8 else n) = floor8 n := by
    intro n
    have hn := Int.mul_tdiv_add_tmod n 8
    rw [floor8]
    split <;> omega
  exact hfloor _

theorem align_of_le {pos nsect maxsect : Int} (h : pos + nsect ≤ maxsect) :
    align pos nsect maxsect = floor8 nsect := by
  rw [align_eq, if_neg (by omega)]

theorem dvd_floor8 (n : Int) : 8 ∣ floor8 n := ⟨n.tdiv 8, rfl⟩

theorem floor8_of_dvd {n : Int} (h : 8 ∣ n) : floor8 n = n := by
  have hn := Int.mul_tdiv_add_tmod n 8
  have hmod := Int.tmod_eq_zero_of_dvd h
  rw [floor8]
  omega

theorem floor8_of_nonneg {n : Int} (h : 0 ≤ n) : floor8 n ≤ n ∧ n < floor8 n + 8 := by
  have hn := Int.mul_tdiv_add_tmod n 8
  have hnonneg := Int.tmod_nonneg 8 h
  have hlt := Int.tmod_lt_of_pos n (b := 8) (by decide)
  rw [floor8]
  omega

/-- Less than one unit is nothing, and what is negative stays so. -/
theorem floor8_pos_iff (n : Int) : 0 < floor8 n ↔ 8 ≤ n := by
  have hn := Int.mul_tdiv_add_tmod n 8
  constructor
  · intro h
    have hlow := Int.lt_tmod_of_pos n (b := 8) (by decide)
    rw [floor8] at h
    have hnonneg := Int.tmod_nonneg (a := n) 8 (by omega)
    omega
  · intro h
    have hfloor := floor8_of_nonneg (n := n) (by omega)
    omega

/-! ## One disk -/

theorem dvd_swapSize (raid : Bool) : 8 ∣ swapSize raid := by
  cases raid <;> decide

theorem swapSize_pos (raid : Bool) : 0 < swapSize raid := by
  cases raid <;> decide

/-- The third partition is what is left, in whole units, if that is enough. -/
theorem mem_thirdPart {pos2 nsect2 maxsect commonsect : Int} {l : Line}
    (h : l ∈ thirdPart pos2 nsect2 maxsect commonsect) :
    l.start = pos2 + nsect2 ∧ l.len = floor8 (maxsect - l.start) ∧ 20000 < l.len := by
  rw [thirdPart] at h
  split at h
  · dsimp only at h
    split at h
    · next hmany =>
        obtain rfl := Option.some.inj h
        refine ⟨rfl, ?_, hmany⟩
        exact align_of_le (by omega)
    · cases h
  · cases h

section OneDisk

variable {raid equal : Bool} {common size : Int}

/-- What the second partition may reach up to. -/
def commonsect (equal : Bool) (common size : Int) : Int := if equal then common else size - 2048

/-- Where there is room for the swap and some data, the table is this one. -/
theorem mbrPartition_of_room (hsize : size < 4294967296)
    (hcommon : commonsect equal common size ≤ size - 2048)
    (hroom : 72 + swapSize raid ≤ commonsect equal common size) :
    (mbrPartition raid equal common size).swap.len = swapSize raid ∧
      (mbrPartition raid equal common size).data.start = 64 + swapSize raid ∧
      (mbrPartition raid equal common size).data.len =
        floor8 (commonsect equal common size - (64 + swapSize raid)) := by
  have hmax : (if (4294967296 : Int) ≤ size - 2048 then 4294967296 else size - 2048) =
      size - 2048 := if_neg (by omega)
  have hswap : align 64 (swapSize raid) (size - 2048) = swapSize raid := by
    rw [align_of_le (by omega), floor8_of_dvd (dvd_swapSize raid)]
  have hdata : align (64 + swapSize raid)
      (commonsect equal common size - (64 + swapSize raid)) (size - 2048) =
        floor8 (commonsect equal common size - (64 + swapSize raid)) := align_of_le (by omega)
  simp only [mbrPartition, hmax, hswap, true_and]
  exact hdata

theorem mem_rest {l : Line} (hsize : size < 4294967296)
    (h : l ∈ (mbrPartition raid equal common size).rest) :
    l.start = (mbrPartition raid equal common size).data.start +
        (mbrPartition raid equal common size).data.len ∧
      l.len = floor8 (size - 2048 - l.start) ∧ 20000 < l.len := by
  have hmax : (if (4294967296 : Int) ≤ size - 2048 then 4294967296 else size - 2048) =
      size - 2048 := if_neg (by omega)
  simp only [mbrPartition, hmax] at h ⊢
  exact mem_thirdPart h

/-- Where there is not, the second partition has no length. -/
theorem mbrPartition_of_no_room (hsize : size < 4294967296)
    (hcommon : commonsect equal common size ≤ size - 2048)
    (hroom : commonsect equal common size < 72 + swapSize raid) :
    (mbrPartition raid equal common size).swap.len ≤ 0 ∨
      (mbrPartition raid equal common size).data.len ≤ 0 := by
  have hmax : (if (4294967296 : Int) ≤ size - 2048 then 4294967296 else size - 2048) =
      size - 2048 := if_neg (by omega)
  rw [or_iff_not_imp_left, not_le]
  intro hpos
  have hswap : (mbrPartition raid equal common size).swap.len =
      align 64 (swapSize raid) (size - 2048) := by simp only [mbrPartition, hmax]
  have hdata : (mbrPartition raid equal common size).data.len =
      align (64 + align 64 (swapSize raid) (size - 2048))
        (commonsect equal common size - (64 + align 64 (swapSize raid) (size - 2048)))
        (size - 2048) := by
    simp only [mbrPartition, hmax]
    rfl
  rw [hswap] at hpos
  rw [hdata, align_of_le (by omega), ← not_lt, floor8_pos_iff, not_le]
  rw [align_eq] at hpos ⊢
  -- the swap is cut only where nothing is left behind it
  split at hpos
  · have hlen := (floor8_pos_iff _).mp hpos
    have hfloor := floor8_of_nonneg (n := size - 2048 - 64) (by omega)
    rw [if_pos ‹_›]
    omega
  · rw [if_neg ‹_›, floor8_of_dvd (dvd_swapSize raid)]
    omega

/-- **One disk**: the table is valid if and only if there is room for the swap and some data. -/
theorem mbrPartition_valid_iff (hsize : size < 4294967296)
    (hcommon : commonsect equal common size ≤ size - 2048) :
    ValidTable size (mbrPartition raid equal common size) ↔
      72 + swapSize raid ≤ commonsect equal common size := by
  constructor
  · intro hvalid
    by_contra hroom
    have hswap := (hvalid.lengths _ List.mem_cons_self).2
    have hdata := (hvalid.lengths _ (List.mem_cons_of_mem _ List.mem_cons_self)).2
    rcases mbrPartition_of_no_room hsize hcommon (not_le.mp hroom) with hle | hle
    · exact absurd hswap (not_lt.mpr hle)
    · exact absurd hdata (not_lt.mpr hle)
  · intro hroom
    obtain ⟨hswap, hstart, hdata⟩ := mbrPartition_of_room hsize hcommon hroom
    have hrest := fun l (hl : l ∈ (mbrPartition raid equal common size).rest) => mem_rest hsize hl
    have hzero : (mbrPartition raid equal common size).swap.start = 64 := rfl
    have hpos := swapSize_pos raid
    have hdvd := dvd_swapSize raid
    have hdatapos := (floor8_pos_iff (commonsect equal common size - (64 + swapSize raid))).mpr
      (by omega)
    have hfloor := floor8_of_nonneg (n := commonsect equal common size - (64 + swapSize raid))
      (by omega)
    have hdatadvd := dvd_floor8 (commonsect equal common size - (64 + swapSize raid))
    rw [← hdata] at hdatapos hfloor hdatadvd
    generalize mbrPartition raid equal common size = t at *
    have hlines : ∀ l ∈ t.lines, l = t.swap ∨ l = t.data ∨ l ∈ t.rest := by
      intro l hl
      rcases List.mem_cons.mp hl with rfl | hl
      · exact Or.inl rfl
      · exact Or.inr ((List.mem_cons.mp hl).imp_right Option.mem_toList.mp)
    have hthird : ∀ l ∈ t.rest, l.len ≤ size - 2048 - l.start ∧ 8 ∣ l.len := by
      intro l hl
      obtain ⟨hlstart, hllen, hmany⟩ := hrest l hl
      have hlpos := (floor8_pos_iff (size - 2048 - l.start)).mp (by omega)
      exact ⟨hllen ▸ (floor8_of_nonneg (by omega)).1, hllen ▸ dvd_floor8 _⟩
    refine ⟨fun l hl => ?_, fun l hl => ?_, ?_, fun l hl => ?_⟩
    · rcases hlines l hl with rfl | rfl | hl
      · rw [hzero]
        decide
      · rw [hstart]
        omega
      · have hlstart := (hrest l hl).1
        omega
    · rcases hlines l hl with rfl | rfl | hl
      · rw [hswap]
        exact ⟨hdvd, hpos⟩
      · exact ⟨hdatadvd, hdatapos⟩
      · have hmany := (hrest l hl).2.2
        exact ⟨(hthird l hl).2, by omega⟩
    · refine List.pairwise_cons.mpr ⟨fun l hl => Or.inl ?_, List.pairwise_cons.mpr
        ⟨fun l hl => Or.inl ?_, ?_⟩⟩
      · change t.swap.start + t.swap.len ≤ l.start
        rcases (List.mem_cons.mp hl).imp_right Option.mem_toList.mp with rfl | hl
        · omega
        · have hlstart := (hrest l hl).1
          omega
      · change t.data.start + t.data.len ≤ l.start
        exact (hrest l (Option.mem_toList.mp hl)).1.ge
      · cases t.rest with
        | none => exact List.Pairwise.nil
        | some l => exact List.pairwise_singleton _ _
    · change l.start + l.len ≤ size
      rcases hlines l hl with rfl | rfl | hl
      · omega
      · omega
      · have hle := (hthird l hl).1
        omega

end OneDisk

/-! ## All disks -/

theorem foldl_min_le (sizes : List Int) (msz : Int) :
    sizes.foldl (fun msz sz => if sz < msz then sz else msz) msz ≤ msz := by
  induction sizes generalizing msz with
  | nil => exact le_rfl
  | cons sz sizes ih =>
      refine (ih _).trans ?_
      dsimp only
      split <;> omega

/-- The common size is not above a number if and only if a size, or the limit, is not. -/
theorem le_foldl_min_iff (n : Int) (sizes : List Int) (msz : Int) :
    n ≤ sizes.foldl (fun msz sz => if sz < msz then sz else msz) msz ↔
      n ≤ msz ∧ ∀ sz ∈ sizes, n ≤ sz := by
  induction sizes generalizing msz with
  | nil => exact ⟨fun h => ⟨h, fun sz hsz => absurd hsz List.not_mem_nil⟩, fun h => h.1⟩
  | cons sz sizes ih =>
      rw [List.foldl_cons, ih, List.forall_mem_cons, ← and_assoc]
      refine and_congr_left fun _ => ?_
      split <;> omega

theorem le_minsize_iff {n : Int} (hn : n ≤ 99999997951) (sizes : List Int) :
    n ≤ minsize sizes ↔ ∀ sz ∈ sizes, n + 2048 ≤ sz := by
  have hle := le_foldl_min_iff (n + 2048) sizes 99999999999
  rw [minsize, le_sub_iff_add_le, hle]
  exact and_iff_right (by omega)

theorem common_le {ds : List (Disk × Bool)} {d : Disk × Bool} (hd : d ∈ ds) :
    common ds ≤ d.1.size - 2048 := by
  have hmin := (le_foldl_min_iff (common ds + 2048) (ds.map fun d => (d.1.size : Int))
    99999999999).mp (by rw [common, minsize]; omega)
  have hsize := hmin.2 d.1.size (List.mem_map.mpr ⟨d, hd, rfl⟩)
  omega

theorem mem_of_mem_partitioned {ds : List (Disk × Bool)} {d : Disk} (h : d ∈ partitioned ds) :
    ∃ ok, (d, ok) ∈ ds := by
  induction ds with
  | nil => cases h
  | cons x ds ih =>
      obtain ⟨e, ok⟩ := x
      rcases List.mem_cons.mp h with rfl | h
      · exact ⟨ok, List.mem_cons_self⟩
      · split at h
        · obtain ⟨ok', hmem⟩ := ih h
          exact ⟨ok', List.mem_cons_of_mem _ hmem⟩
        · cases h

/-- The disks whose sizes matter: in the equal modes all that are selected, else those that are
partitioned. -/
def sized (equal : Bool) (ds : List (Disk × Bool)) : List Disk :=
  if equal then ds.map Prod.fst else partitioned ds

section AllDisks

variable {raid equal : Bool} {ds : List (Disk × Bool)}

theorem commonsect_le {d : Disk} (hd : d ∈ partitioned ds) :
    commonsect equal (common ds) d.size ≤ d.size - 2048 := by
  obtain ⟨ok, hmem⟩ := mem_of_mem_partitioned hd
  rw [commonsect]
  split
  · exact common_le hmem
  · exact le_rfl

/-- One table is valid where its disk has room, and in the equal modes all disks have. -/
theorem table_valid_iff (raid equal : Bool) {d : Disk} (hd : d ∈ partitioned ds) :
    ValidTable d.size (mbrPartition raid equal (common ds) d.size) ↔
      if equal then ∀ e ∈ ds, 2120 + swapSize raid ≤ e.1.size
      else 2120 + swapSize raid ≤ d.size := by
  have hsmall : (d.size : Int) < 4294967296 := by exact_mod_cast d.small
  have hswap : swapSize raid ≤ 2097152 := by cases raid <;> decide
  rw [mbrPartition_valid_iff hsmall (commonsect_le hd), commonsect]
  split
  · rw [common, le_minsize_iff (by omega), List.forall_mem_map]
    refine forall₂_congr fun e _ => ?_
    omega
  · omega

/-- In the equal modes, with room on all disks, the second partitions end where the smallest disk
does. -/
theorem data_len_of_room (hroom : ∀ e ∈ ds, 2120 + swapSize raid ≤ (e.1.size : Int)) {d : Disk}
    (hd : d ∈ partitioned ds) :
    (mbrPartition raid true (common ds) d.size).data.len =
      floor8 (common ds - (64 + swapSize raid)) := by
  have hsmall : (d.size : Int) < 4294967296 := by exact_mod_cast d.small
  have hswap : swapSize raid ≤ 2097152 := by cases raid <;> decide
  have hcommon : 72 + swapSize raid ≤ common ds := by
    rw [common, le_minsize_iff (by omega), List.forall_mem_map]
    intro e he
    have hsize := hroom e he
    omega
  exact (mbrPartition_of_room hsmall (commonsect_le hd) hcommon).2.2

theorem partition_valid_iff (raid equal : Bool) (ds : List (Disk × Bool)) :
    ValidLayouts equal (partition raid equal ds) ↔
      ∀ d ∈ sized equal ds, 2120 + swapSize raid ≤ d.size := by
  have hmem : ∀ {x}, x ∈ partition raid equal ds ↔
      ∃ d ∈ partitioned ds, (d, mbrPartition raid equal (common ds) d.size) = x := List.mem_map
  rw [sized]
  cases equal with
  | false =>
      rw [if_neg Bool.false_ne_true]
      constructor
      · intro h d hd
        exact (table_valid_iff raid false hd).mp (h.1 _ (hmem.mpr ⟨d, hd, rfl⟩))
      · intro h
        refine ⟨fun x hx => ?_, fun hfalse => absurd hfalse Bool.false_ne_true⟩
        obtain ⟨d, hd, rfl⟩ := hmem.mp hx
        exact (table_valid_iff raid false hd).mpr (h d hd)
  | true =>
      rw [if_pos rfl, List.forall_mem_map]
      constructor
      · intro h e he
        -- the first disk is partitioned in any case
        obtain ⟨x, rest, rfl⟩ := List.exists_cons_of_ne_nil (List.ne_nil_of_mem he)
        have hfirst : x.1 ∈ partitioned (x :: rest) := List.mem_cons_self
        have hvalid := h.1 _ (hmem.mpr ⟨x.1, hfirst, rfl⟩)
        exact (table_valid_iff raid true hfirst).mp hvalid e he
      · intro h
        refine ⟨fun x hx => ?_, fun _ x hx y hy => ?_⟩
        · obtain ⟨d, hd, rfl⟩ := hmem.mp hx
          exact (table_valid_iff raid true hd).mpr h
        · obtain ⟨d, hd, rfl⟩ := hmem.mp hx
          obtain ⟨e, he, rfl⟩ := hmem.mp hy
          exact (data_len_of_room h hd).trans (data_len_of_room h he).symm

end AllDisks

/-- **The tables of the wizard** are valid, if and only if each disk whose size matters has room
for the swap, one unit of data and what is left out at both ends. -/
theorem layouts_valid_iff (m : Mode) (ds : List (Disk × Bool)) :
    ValidLayouts m.equal (partition m.raid m.equal ds) ↔
      ∀ d ∈ sized m.equal ds, 2120 + swapSize m.raid ≤ d.size :=
  partition_valid_iff m.raid m.equal ds

/-- One disk of 256MB. -/
def oneSmall : List (Disk × Bool) := [(⟨"/dev/sda".toList, 500000, by decide⟩, true)]

/-- Nothing is left behind the swap. -/
theorem oneSmall_not_valid :
    ¬ ∀ (m : Mode) (ds : List (Disk × Bool)),
      ValidLayouts m.equal (partition m.raid m.equal ds) := by
  intro h
  have hroom := (partition_valid_iff false false oneSmall).mp (h .standard oneSmall)
  exact absurd (hroom _ List.mem_cons_self) (by decide)

example : (partition false false oneSmall).map (fun x => x.2.lines.map fun l => (l.start, l.len)) =
    [[(64, 497888), (497952, 0)]] := by decide

/-! ## The script -/

/-- The text of a line. -/
def Line.text (l : Line) : Text :=
  printInt l.start ++ ",".toList ++ printInt l.len ++ ",".toList ++ l.type

/-- The file for sfdisk is written. -/
def tableCmd (fmtfile : Text) (t : Table) : Text :=
  "cat > ".toList ++ fmtfile ++ " ".toList ++ t.swap.text ++ " ".toList ++ t.data.text ++
    " ".toList ++ (t.rest.map Line.text).getD []

def sfdiskCmd (dev fmtfile : Text) : Text :=
  "sfdisk --force -uS ".toList ++ dev ++ " < ".toList ++ fmtfile

/-- The command writes a file for sfdisk, or runs it. -/
def forSfdisk (cmd : Text) : Bool :=
  "cat > ".toList.isPrefixOf cmd || "sfdisk --force ".toList.isPrefixOf cmd

/-- What sfdisk has been given. -/
def Gave (cmds : List Text) (w : Disks.World) : Prop := w.calls.filter forSfdisk = cmds

/-- On the box `expr` computes, and the disks have these sizes. -/
structure Numeric (box : Disks.Box) (size : Text → Nat) : Prop where
  add : ∀ calls a b, commandSubst (box.tools calls
    ("expr ".toList ++ (printInt a ++ " + ".toList ++ printInt b))).out = printInt (a + b)
  sub : ∀ calls a b, commandSubst (box.tools calls
    ("expr ".toList ++ (printInt a ++ " - ".toList ++ printInt b))).out = printInt (a - b)
  mul : ∀ calls a b, commandSubst (box.tools calls
    ("expr ".toList ++ (printInt a ++ " * ".toList ++ printInt b))).out = printInt (a * b)
  mod : ∀ calls a b, commandSubst (box.tools calls
    ("expr ".toList ++ (printInt a ++ " % ".toList ++ printInt b))).out = printInt (a.tmod b)
  size : ∀ calls calls' i, commandSubst (box.tools calls' ("cat /sys/block/".toList ++
    commandSubst (box.tools calls ("basename ".toList ++ i)).out ++ "/size".toList)).out =
      printInt (size i)

theorem testInt_printInt (n : Int) : Disks.testInt (printInt n) = some n := by
  cases n with
  | ofNat n =>
      have hdigits : (Nat.toDigits 10 n).all Char.isDigit = true :=
        List.all_eq_true.mpr fun c => Nat.isDigit_of_mem_toDigits (by decide) (by decide)
      rw [printInt, Disks.testInt, if_pos ⟨Nat.toDigits_ne_nil, hdigits⟩,
        Nat.ofDigitChars_ten_toDigits]
      rfl
  | negSucc n =>
      have hdigits : (Nat.toDigits 10 (n + 1)).all Char.isDigit = true :=
        List.all_eq_true.mpr fun c => Nat.isDigit_of_mem_toDigits (by decide) (by decide)
      rw [printInt, Disks.testInt, if_neg (fun h => absurd h.2 (by simp)),
        if_pos ⟨rfl, Nat.toDigits_ne_nil, hdigits⟩, List.tail_cons, Nat.ofDigitChars_ten_toDigits]
      rfl

theorem printInt_inj {a b : Int} : printInt a = printInt b ↔ a = b := by
  refine ⟨fun h => ?_, fun h => h ▸ rfl⟩
  have htest := congrArg Disks.testInt h
  rw [testInt_printInt, testInt_printInt] at htest
  exact Option.some.inj htest

theorem lt_printInt (a b : Int) : Disks.lt (printInt a) (printInt b) = decide (a < b) := by
  rw [Disks.lt, testInt_printInt, testInt_printInt]

theorem ge_printInt (a b : Int) : Disks.ge (printInt a) (printInt b) = decide (b ≤ a) := by
  rw [Disks.ge, testInt_printInt, testInt_printInt]

section Script

variable {box : Disks.Box} {size : Text → Nat} {cmds : List Text}
  {Q : Disks.Ending → Disks.World → Prop}

theorem tool_gave {cmd : Text} (hcmd : forSfdisk cmd = false) :
    Stays (Gave cmds) (Disks.tool box cmd) Q := by
  refine Runs.modifyGet fun w hw => ?_
  rw [Gave, List.filter_append, hw, List.filter_cons_of_neg (by rw [hcmd]; decide),
    List.filter_nil, List.append_nil]

theorem capture_gave {cmd : Text} (hcmd : forSfdisk cmd = false) :
    Runs (Gave cmds) (Disks.capture box cmd)
      (fun r w => (∃ calls, r = commandSubst (box.tools calls cmd).out) ∧ Gave cmds w) Q := by
  intro w hw
  rw [Disks.capture_run]
  exact ⟨⟨w.calls, rfl⟩, (tool_gave hcmd : Stays (Gave cmds) (Disks.tool box cmd) Q) w hw⟩

theorem quiet_gave {cmd : Text} (hcmd : forSfdisk cmd = false) :
    Stays (Gave cmds) (Disks.quiet box cmd) Q :=
  Runs.bind (tool_gave hcmd) fun _ => Runs.pure fun _ hw => hw

theorem capture_value {cmd v : Text} (hcmd : forSfdisk cmd = false)
    (hv : ∀ calls, commandSubst (box.tools calls cmd).out = v) :
    Runs (Gave cmds) (Disks.capture box cmd) (fun r w => r = v ∧ Gave cmds w) Q :=
  (capture_gave hcmd).weaken (fun _ hw => hw) fun _ _ ⟨⟨calls, hr⟩, hw⟩ => ⟨hr.trans (hv calls), hw⟩

theorem forWords_gave {ws : Text} {body : Text → Disks.Page PUnit}
    (h : ∀ i, Stays (Gave cmds) (body i) Q) : Stays (Gave cmds) (Disks.forWords box ws body) Q :=
  Runs.forM fun i _ => h i

section Numbers

variable (hbox : Numeric box size)

include hbox

theorem add_value (a b : Int) :
    Runs (Gave cmds) (Disks.expr box (printInt a ++ " + ".toList ++ printInt b))
      (fun r w => r = printInt (a + b) ∧ Gave cmds w) Q :=
  capture_value rfl fun calls => hbox.add calls a b

theorem sub_value (a b : Int) :
    Runs (Gave cmds) (Disks.expr box (printInt a ++ " - ".toList ++ printInt b))
      (fun r w => r = printInt (a - b) ∧ Gave cmds w) Q :=
  capture_value rfl fun calls => hbox.sub calls a b

theorem less1MB_value (a : Int) :
    Runs (Gave cmds) (Disks.expr box (printInt a ++ " - 2048".toList))
      (fun r w => r = printInt (a - 2048) ∧ Gave cmds w) Q := by
  have htext : printInt a ++ " - 2048".toList = printInt a ++ " - ".toList ++ printInt 2048 := by
    rw [List.append_assoc]
    rfl
  rw [htext]
  exact sub_value hbox a 2048

theorem mul_value (a b : Int) :
    Runs (Gave cmds) (Disks.expr box (printInt a ++ " * ".toList ++ printInt b))
      (fun r w => r = printInt (a * b) ∧ Gave cmds w) Q :=
  capture_value rfl fun calls => hbox.mul calls a b

theorem mod_value (a b : Int) :
    Runs (Gave cmds) (Disks.expr box (printInt a ++ " % ".toList ++ printInt b))
      (fun r w => r = printInt (a.tmod b) ∧ Gave cmds w) Q :=
  capture_value rfl fun calls => hbox.mod calls a b

theorem sizeOf_value (i : Text) :
    Runs (Gave cmds) (Disks.sizeOf box i) (fun r w => r = printInt (size i) ∧ Gave cmds w) Q := by
  refine Runs.bind (capture_gave rfl) fun dsk => Runs.assume ?_
  rintro ⟨calls, rfl⟩
  exact capture_value rfl fun calls' => hbox.size calls calls' i

theorem align_value (pos nsect maxsect : Int) :
    Runs (Gave cmds) (Disks.align box (printInt pos) (printInt nsect) (printInt maxsect))
      (fun r w => r = printInt (align pos nsect maxsect) ∧ Gave cmds w) Q := by
  unfold Disks.align
  refine Runs.bind_value (add_value hbox pos nsect) ?_
  rw [lt_printInt]
  refine Runs.bind_value (a := printInt (if maxsect < pos + nsect then maxsect - pos else nsect))
    (R := Gave cmds) (Runs.ite (fun hlt => ?_) fun hlt => Runs.pure fun w hw => ?_) ?_
  · rw [if_pos (of_decide_eq_true hlt)]
    exact sub_value hbox maxsect pos
  · rw [if_neg fun h => hlt (decide_eq_true h)]
    exact ⟨rfl, hw⟩
  · rw [align]
    generalize (if maxsect < pos + nsect then maxsect - pos else nsect) = n
    have height : printInt n ++ " % 8".toList = printInt n ++ " % ".toList ++ printInt 8 := by
      rw [List.append_assoc]
      rfl
    rw [height]
    refine Runs.bind_value (mod_value hbox n 8) ?_
    rw [testInt_printInt]
    refine Runs.ite (fun hrem => ?_) fun hrem => Runs.pure fun w hw => ?_
    · rw [if_pos fun h => hrem.2 (congrArg some h)]
      exact sub_value hbox n _
    · rw [if_neg fun h => hrem ⟨rfl, fun heq => h (Option.some.inj heq)⟩]
      exact ⟨rfl, hw⟩

theorem minsize_value {wiz : Disks.Wizard} {ds : List Disk}
    (hdisks : expand box.glob wiz.disks = ds.map Disk.dev) (hsize : ∀ d ∈ ds, size d.dev = d.size) :
    Runs (Gave cmds) (Disks.minsize box wiz)
      (fun r w => r = printInt (minsize (ds.map fun d => (d.size : Int))) ∧ Gave cmds w) Q := by
  unfold Disks.minsize
  rw [hdisks]
  refine Runs.bind_value (a := printInt ((ds.map Disk.dev).foldl
    (fun msz i => if (size i : Int) < msz then (size i : Int) else msz) 99999999999))
      (R := Gave cmds) ?_ ?_
  · refine Runs.foldlM_eq printInt (fun msz i _ => ?_) 99999999999
    refine Runs.bind_value (sizeOf_value hbox i) (Runs.pure fun w hw => ⟨?_, hw⟩)
    rw [lt_printInt, apply_ite printInt]
    simp only [decide_eq_true_eq]
  · have hsizes : (ds.map Disk.dev).map (fun i => (size i : Int)) =
        ds.map fun d => (d.size : Int) := by
      rw [List.map_map]
      exact List.map_congr_left fun d hd => congrArg Nat.cast (hsize d hd)
    have hfold : (ds.map Disk.dev).foldl
        (fun msz i => if (size i : Int) < msz then (size i : Int) else msz) 99999999999 =
          (ds.map fun d => (d.size : Int)).foldl (fun msz sz => if sz < msz then sz else msz)
            99999999999 := by
      rw [← hsizes]
      exact (List.foldl_map (f := fun i => (size i : Int))
        (g := fun msz sz : Int => if sz < msz then sz else msz)).symm
    rw [minsize, hfold]
    exact less1MB_value hbox _

theorem thirdPart_value (pos2 nsect2 maxsect commonsect : Int) :
    Runs (Gave cmds) (Disks.thirdPart box (printInt pos2) (printInt nsect2) (printInt maxsect)
        (printInt commonsect))
      (fun r w => r = ((thirdPart pos2 nsect2 maxsect commonsect).map Line.text).getD [] ∧
        Gave cmds w) Q := by
  unfold Disks.thirdPart
  rw [thirdPart]
  refine Runs.ite (fun hne => ?_) fun heq => Runs.pure fun w hw => ?_
  · rw [if_pos fun h => hne (congrArg printInt h)]
    refine Runs.bind_value (add_value hbox _ _) (Runs.bind_value (sub_value hbox _ _)
      (Runs.bind_value (align_value hbox _ _ _) (Runs.pure fun w hw => ⟨?_, hw⟩)))
    have hmin : Disks.minSize = printInt 20000 := by decide
    rw [hmin, lt_printInt]
    dsimp only
    by_cases hmany : 20000 < align (pos2 + nsect2) (maxsect - (pos2 + nsect2)) maxsect
    · rw [if_pos (decide_eq_true hmany), if_pos hmany]
      simp [Line.text]
    · rw [if_neg fun h => hmany (of_decide_eq_true h), if_neg hmany]
      rfl
  · rw [if_neg fun h => heq fun htext => h (printInt_inj.mp htext)]
    exact ⟨rfl, hw⟩

end Numbers

theorem cleanTraces_gave (i : Text) : Stays (Gave cmds) (Disks.cleanTraces box i) Q :=
  forWords_gave fun _ => Runs.bind (tool_gave rfl) fun _ =>
    Runs.onlyIf fun _ => Runs.bind (quiet_gave rfl) fun _ => quiet_gave rfl

theorem rescan_gave (i : Text) : Stays (Gave cmds) (Disks.rescan box i) Q :=
  Runs.bind (quiet_gave rfl) fun _ => Runs.bind (quiet_gave rfl) fun _ =>
    Runs.bind (quiet_gave rfl) fun _ => Runs.bind (quiet_gave rfl) fun _ => quiet_gave rfl

theorem cleanraid_gave (wiz : Disks.Wizard) : Stays (Gave cmds) (Disks.cleanraid box wiz) Q :=
  forWords_gave fun _ => Runs.bind ((capture_gave rfl).weaken (fun _ hw => hw) fun _ _ hw => hw.2)
    fun _ => forWords_gave fun _ => quiet_gave rfl

theorem errWiz_gave {α : Type} {R : α → Disks.World → Prop} (txt : Text)
    (h : ∀ e w, Gave cmds w → Q e w) :
    Runs (Gave cmds) (Disks.errWiz box txt : Disks.Page α) R Q :=
  Runs.bind (Q := fun _ => Gave cmds) (Runs.modifyGet fun _ hw => hw) fun _ =>
    Runs.bind (quiet_gave rfl) fun _ => Runs.exit fun w hw => h _ w hw

theorem forSfdisk_tableCmd (fmtfile : Text) (t : Table) :
    forSfdisk (tableCmd fmtfile t) = true := by
  have hcat : "cat > ".toList <+: tableCmd fmtfile t := by
    unfold tableCmd
    simp only [List.append_assoc]
    exact List.prefix_append _ _
  exact Bool.or_eq_true_iff.mpr (Or.inl (List.isPrefixOf_iff_prefix.mpr hcat))

theorem forSfdisk_sfdiskCmd (dev fmtfile : Text) : forSfdisk (sfdiskCmd dev fmtfile) = true := by
  have hcmd : "sfdisk --force -uS ".toList = "sfdisk --force ".toList ++ "-uS ".toList := by decide
  have hsfdisk : "sfdisk --force ".toList <+: sfdiskCmd dev fmtfile := by
    unfold sfdiskCmd
    simp only [hcmd, List.append_assoc]
    exact List.prefix_append _ _
  exact Bool.or_eq_true_iff.mpr (Or.inr (List.isPrefixOf_iff_prefix.mpr hsfdisk))

/-- The file as the script writes it. -/
theorem tableCmd_eq (fmtfile type : Text) (par3 : Option Line) (nsect pos2 nsect2 : Int) :
    "cat > ".toList ++ fmtfile ++ " ".toList ++ "64".toList ++ ",".toList ++ printInt nsect ++
        ",S ".toList ++ printInt pos2 ++ ",".toList ++ printInt nsect2 ++ ",".toList ++ type ++
        " ".toList ++ (par3.map Line.text).getD [] =
      tableCmd fmtfile ⟨⟨64, nsect, "S".toList⟩, ⟨pos2, nsect2, type⟩, par3⟩ := by
  have h64 : "64".toList = printInt 64 := by decide
  have hS : ",S ".toList = ",".toList ++ "S".toList ++ " ".toList := by decide
  unfold tableCmd Line.text
  simp only [h64, hS, List.append_assoc]

/-- A command for sfdisk. -/
theorem tool_gives {cmd : Text} (hcmd : forSfdisk cmd = true) :
    Runs (Gave cmds) (Disks.tool box cmd) (fun _ => Gave (cmds ++ [cmd])) Q := by
  refine Runs.modifyGet fun w hw => ?_
  rw [Gave, List.filter_append, hw, List.filter_cons_of_pos hcmd, List.filter_nil]

theorem quiet_gives {cmd : Text} (hcmd : forSfdisk cmd = true) :
    Runs (Gave cmds) (Disks.quiet box cmd) (fun _ => Gave (cmds ++ [cmd])) Q :=
  Runs.bind (tool_gives hcmd) fun _ => Runs.pure fun _ hw => hw

/-- The commands with which sfdisk is given a table. -/
def Gives (cmds : List Text) (dev : Text) (t : Table) (w : Disks.World) : Prop :=
  ∃ fmtfile, Gave (cmds ++ [tableCmd fmtfile t, sfdiskCmd dev fmtfile]) w

/-- The commands with which sfdisk is given tables. -/
def sfdiskCmds (tables : List (Disk × Table)) (fmtfiles : List Text) : List Text :=
  (tables.zip fmtfiles).flatMap fun (x, fmtfile) =>
    [tableCmd fmtfile x.2, sfdiskCmd x.1.dev fmtfile]

/-- Of these disks some are partitioned, and sfdisk is given their tables. -/
def Given (cmds : List Text) (raid equal : Bool) (n : Int) (ds : List Disk) (w : Disks.World) :
    Prop :=
  ∃ run : List (Disk × Bool), run.map Prod.fst = ds ∧ ∃ fmtfiles : List Text,
    fmtfiles.length = (partitioned run).length ∧ Gave (cmds ++ sfdiskCmds
      ((partitioned run).map fun d => (d, mbrPartition raid equal n d.size)) fmtfiles) w

/-- **One disk**: sfdisk is given the table, whether it takes it or not. -/
theorem mbrPartition_gives (hbox : Numeric box size) (i : Text) (raid equal : Bool) {c : Text}
    {n : Int} (hc : equal = true → c = printInt n) :
    Runs (Gave cmds) (Disks.mbrPartition box i raid equal c)
      (fun _ => Gives cmds i (mbrPartition raid equal n (size i)))
      fun _ => Gives cmds i (mbrPartition raid equal n (size i)) := by
  have hmul : "1048576 * ".toList ++ (if raid = true then "2".toList else "1".toList) =
      printInt 1048576 ++ " * ".toList ++ printInt (if raid then 2 else 1) := by
    cases raid <;> decide
  have hmax : (if Disks.ge (printInt (size i - 2048)) Disks.twoTB = true then Disks.twoTB
      else printInt (size i - 2048)) =
        printInt (if (4294967296 : Int) ≤ size i - 2048 then 4294967296 else size i - 2048) := by
    have htwo : Disks.twoTB = printInt 4294967296 := by decide
    rw [htwo, ge_printInt, apply_ite printInt]
    simp only [decide_eq_true_eq]
  have hcommon : ∀ m : Int, (if equal = true then c else printInt m) =
      printInt (if equal then n else m) := by
    intro m
    split
    · exact hc ‹_›
    · rfl
  unfold Disks.mbrPartition
  dsimp only
  rw [hmul]
  refine Runs.bind (cleanTraces_gave i) fun _ => Runs.bind_value (sizeOf_value hbox i)
    (Runs.bind_value (less1MB_value hbox _) ?_)
  rw [hmax]
  rw [hcommon]
  refine Runs.bind_value (mul_value hbox _ _) (Runs.bind_value (align_value hbox 64 _ _)
    (Runs.bind_value (add_value hbox 64 _) (Runs.bind_value (sub_value hbox _ _)
      (Runs.bind_value (align_value hbox _ _ _)
        (Runs.bind_value (thirdPart_value hbox _ _ _ _) ?_)))))
  -- the file, and sfdisk
  refine Runs.bind (capture_gave rfl) fun fmtfile => Runs.assume fun _ => ?_
  rw [tableCmd_eq]
  refine Runs.bind (quiet_gives (forSfdisk_tableCmd fmtfile _)) fun _ => ?_
  refine Runs.bind (quiet_gave rfl) fun _ => ?_
  refine Runs.bind (tool_gives (forSfdisk_sfdiskCmd i fmtfile)) fun _ => ?_
  rw [List.append_assoc]
  have hgives : ∀ w, Gave (cmds ++ [tableCmd fmtfile (mbrPartition raid equal n (size i)),
      sfdiskCmd i fmtfile]) w → Gives cmds i (mbrPartition raid equal n (size i)) w :=
    fun w hw => ⟨fmtfile, hw⟩
  simp only [mbrPartition] at hgives ⊢
  refine Runs.bind (quiet_gave rfl) fun _ => Runs.bind (Runs.onlyIf fun _ =>
    errWiz_gave _ fun _ => hgives) fun _ => Runs.bind (quiet_gave rfl) fun _ => ?_
  exact (rescan_gave i).weaken (fun _ hw => hw) fun _ => hgives

/-- The wizard ends at this disk. -/
theorem given_of_failed {raid equal : Bool} {n : Int} {d : Disk} {ds : List Disk} {w : Disks.World}
    (h : Gives cmds d.dev (mbrPartition raid equal n d.size) w) :
    Given cmds raid equal n (d :: ds) w := by
  obtain ⟨fmtfile, hw⟩ := h
  refine ⟨(d, false) :: ds.map fun e => (e, false), ?_, [fmtfile], rfl, hw⟩
  rw [List.map_cons, List.map_map]
  exact congrArg (d :: ·) (List.map_id ds)

/-- The wizard goes on after it. -/
theorem given_cons {raid equal : Bool} {n : Int} {d : Disk} {ds : List Disk} {w : Disks.World}
    {fmtfile : Text} (h : Given (cmds ++ [tableCmd fmtfile (mbrPartition raid equal n d.size),
      sfdiskCmd d.dev fmtfile]) raid equal n ds w) : Given cmds raid equal n (d :: ds) w := by
  obtain ⟨run, hrun, fmtfiles, hlen, hw⟩ := h
  refine ⟨(d, true) :: run, congrArg (d :: ·) hrun, fmtfile :: fmtfiles,
    congrArg Nat.succ hlen, ?_⟩
  rw [List.append_assoc] at hw
  exact hw

/-- The script goes on to the next disk where sfdisk succeeds, and ends where it fails. -/
theorem partitioned_gives (hbox : Numeric box size) (raid equal : Bool) {c : Text} {n : Int}
    (hc : equal = true → c = printInt n) {ds : List Disk} (hsize : ∀ d ∈ ds, size d.dev = d.size) :
    Runs (Gave cmds)
      ((ds.map Disk.dev).forM fun i => do
        let size ← Disks.sizeOf box i
        if Disks.ge size Disks.twoTB then Disks.gptPartition box i raid equal c
        else Disks.mbrPartition box i raid equal c)
      (fun _ => Given cmds raid equal n ds) fun _ => Given cmds raid equal n ds := by
  induction ds generalizing cmds with
  | nil =>
      refine Runs.pure fun w hw => ⟨[], rfl, [], rfl, ?_⟩
      rw [partitioned, List.map_nil, sfdiskCmds, List.zip_nil_left, List.flatMap_nil,
        List.append_nil]
      exact hw
  | cons d ds ih =>
      obtain ⟨hd, hds⟩ := List.forall_mem_cons.mp hsize
      have hmbr : Disks.ge (printInt (size d.dev)) Disks.twoTB = false := by
        have htwo : Disks.twoTB = printInt 4294967296 := by decide
        have hsmall : ¬ (4294967296 : Int) ≤ size d.dev := by
          rw [hd]
          exact_mod_cast not_le.mpr d.small
        rw [htwo, ge_printInt, decide_eq_false hsmall]
      have hfirst : Runs (Gave cmds) (do
          let size ← Disks.sizeOf box d.dev
          if Disks.ge size Disks.twoTB then Disks.gptPartition box d.dev raid equal c
          else Disks.mbrPartition box d.dev raid equal c)
          (fun _ => Gives cmds d.dev (mbrPartition raid equal n d.size))
          fun _ => Gives cmds d.dev (mbrPartition raid equal n d.size) := by
        refine Runs.bind_value (sizeOf_value hbox d.dev) ?_
        rw [hmbr, if_neg Bool.false_ne_true, ← hd]
        exact mbrPartition_gives hbox d.dev raid equal hc
      refine Runs.bind (hfirst.ending fun _ _ => given_of_failed) fun _ w ⟨fmtfile, hw⟩ => ?_
      exact (((ih hds).weaken (fun _ hw => hw) fun _ _ => given_cons).ending
        fun _ _ => given_cons) w hw

/-- What sfdisk is given in a run of the wizard with these disks. -/
def GivenTables (raid equal : Bool) (ds : List Disk) (w : Disks.World) : Prop :=
  ∃ run : List (Disk × Bool), run.map Prod.fst = ds ∧ ∃ fmtfiles : List Text,
    fmtfiles.length = (partition raid equal run).length ∧
      Gave (sfdiskCmds (partition raid equal run) fmtfiles) w

theorem givenTables_of_given {raid equal : Bool} {ds : List Disk} {w : Disks.World}
    (h : Given [] raid equal (minsize (ds.map fun d => (d.size : Int))) ds w) :
    GivenTables raid equal ds w := by
  obtain ⟨run, rfl, fmtfiles, hlen, hw⟩ := h
  refine ⟨run, rfl, fmtfiles, hlen.trans (List.length_map _).symm, ?_⟩
  rw [List.map_map] at hw
  exact hw

/-- **The script**: what sfdisk is given are the tables of `partition`, for some run. -/
theorem partition_gives (hbox : Numeric box size) {wiz : Disks.Wizard} {ds : List Disk}
    (hdisks : expand box.glob wiz.disks = ds.map Disk.dev) (hsize : ∀ d ∈ ds, size d.dev = d.size)
    (raid equal : Bool) :
    Runs (Gave []) (Disks.partition box wiz raid equal) (fun _ => GivenTables raid equal ds)
      fun _ => GivenTables raid equal ds := by
  have hcommon : Runs (Gave []) (if equal = true then Disks.minsize box wiz else pure [])
      (fun r w => (equal = true → r = printInt (minsize (ds.map fun d => (d.size : Int)))) ∧
        Gave [] w) fun _ => GivenTables raid equal ds := by
    refine Runs.ite (fun _ => ?_) fun hequal => Runs.pure fun w hw => ⟨fun h => absurd h hequal, hw⟩
    exact (minsize_value hbox hdisks hsize).weaken (fun _ hw => hw) fun _ _ hw =>
      ⟨fun _ => hw.1, hw.2⟩
  refine Runs.bind hcommon fun c => Runs.assume fun hc => ?_
  unfold Disks.forWords
  rw [hdisks]
  refine Runs.bind ((partitioned_gives hbox raid equal hc hsize).ending fun _ _ =>
    givenTables_of_given) fun _ w hgiven => ?_
  obtain ⟨run, hrun, fmtfiles, hlen, hw⟩ := givenTables_of_given hgiven
  exact ((cleanraid_gave wiz).weaken (fun _ hw => hw) fun _ _ hw =>
    ⟨run, hrun, fmtfiles, hlen, hw⟩).ending (fun _ _ hw => ⟨run, hrun, fmtfiles, hlen, hw⟩) w hw

end Script

end AltF.Cgi.WizardLayout
