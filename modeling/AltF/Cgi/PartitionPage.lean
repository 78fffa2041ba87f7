/-
  Cgi/PartitionPage.lean --- the functions of diskpart.cgi that place partitions and check them
  in the browser: `updatesect` and `psubmit`.

  Numbers are rationals, where the browser has floats; `none` is NaN.
-/
import Mathlib.Data.Rat.Floor
import Mathlib.Data.List.Sort
import Mathlib.Tactic.Linarith
import AltF.Foundation.Areas
import AltF.SysFiles.Text

set_option autoImplicit false

namespace AltF.Cgi.PartitionPage

open AltF.Foundation AltF.SysFiles

/-! ## Numbers -/

/-- The part of a number in front of its point. -/
def integerPart (q : Rat) : Int := if 0 ≤ q then ⌊q⌋ else ⌈q⌉

/-- `a % b` -/
def remainder (a b : Rat) : Rat := a - b * integerPart (a / b)

/-- `Math.round` -/
def mathRound (q : Rat) : Int := ⌊q + 1 / 2⌋

/-- `Math.round(n * 512 / 1e6)/1000` -/
def gigabytes (n : Rat) : Rat := mathRound (n * 512 / 1000000) / 1000

/-- A multiple of 8. -/
def Aligned (q : Rat) : Prop := ∃ z : Int, q = 8 * z

theorem remainder_of_nonneg {a : Rat} (ha : 0 ≤ a) : remainder a 8 = a - 8 * ⌊a / 8⌋ := by
  rw [remainder, integerPart, if_pos (div_nonneg ha (by norm_num))]

theorem remainder_eq_zero_iff (a : Rat) : remainder a 8 = 0 ↔ Aligned a := by
  constructor
  · intro h
    exact ⟨integerPart (a / 8), sub_eq_zero.mp h⟩
  · rintro ⟨z, rfl⟩
    have hdiv : (8 : Rat) * z / 8 = z := mul_div_cancel_left₀ _ (by norm_num)
    rw [remainder, hdiv, integerPart]
    split
    · rw [Int.floor_intCast, sub_self]
    · rw [Int.ceil_intCast, sub_self]

theorem Aligned.add {a b : Rat} (ha : Aligned a) (hb : Aligned b) : Aligned (a + b) := by
  obtain ⟨x, rfl⟩ := ha
  obtain ⟨y, rfl⟩ := hb
  exact ⟨x + y, by push_cast; ring⟩

/-! ## `updatesect` -/

/-- An element of `part`. -/
structure Part where
  pn : Nat
  chk : Bool
  start : Rat
  len : Rat
  cap : Option Rat
  deriving DecidableEq, Repr

/-- What is written into the fields of a partition. -/
structure Fields where
  start : Option Rat
  len : Option Rat
  cap : Option Rat
  deriving DecidableEq, Repr

def printNat (n : Nat) : Text := Nat.toDigits 10 n

def sizeMsg (p : Part) : Text :=
  if p.cap = none then
    "Size of partition ".toList ++ printNat p.pn ++ " is not a number\n".toList
  else []

def spaceMsg (p : Part) : Text :=
  "No continuos free disk space for partition ".toList ++ printNat p.pn

/-- `rem = curr % 8; if (rem != 0) curr += 8 - rem` -/
def roundUp (curr : Rat) : Rat :=
  if remainder curr 8 ≠ 0 then curr + (8 - remainder curr 8) else curr

/-- The free areas, from `curr` on. -/
def freeAreas (dcap : Rat) : Rat → List Part → List (Area Rat)
  | curr, [] => if curr < dcap then [⟨curr, dcap - curr⟩] else []
  | curr, p :: ps =>
      if p.chk = true ∧ p.len ≠ 0 then
        ⟨curr, p.start - curr⟩ :: freeAreas dcap (roundUp (p.start + p.len)) ps
      else freeAreas dcap curr ps

/-- `nsect = part[i].cap * 1e9 / 512; nsect -= nsect % 8` -/
def nsect (cap : Rat) : Rat := cap * 1000000000 / 512 - remainder (cap * 1000000000 / 512) 8

/-- One turn of the last loop: the areas that are left, the fields and the message.  `st` keeps
its value where no area is found. -/
def fitPart (free : List (Area Rat)) (st : Option Rat) (p : Part) :
    List (Area Rat) × Fields × Text :=
  if p.chk then (free, ⟨some p.start, some p.len, some (gigabytes p.len)⟩, [])
  else
    match p.cap.map nsect with
    | none => (free, ⟨st, none, none⟩, spaceMsg p)
    | some n =>
        if n = 0 then (free, ⟨some 0, some n, some (gigabytes n)⟩, [])
        else
          match firstFit n free with
          | some (s, free) => (free, ⟨some s, some n, some (gigabytes n)⟩, [])
          | none => (free, ⟨st, some n, some (gigabytes n)⟩, spaceMsg p)

/-- The last loop. -/
def fitParts : List (Area Rat) → Option Rat → List Part → List Fields × Text
  | _, _, [] => ([], [])
  | free, st, p :: ps =>
      let (free, fields, msg) := fitPart free st p
      let (rest, msgs) := fitParts free fields.start ps
      (fields :: rest, msg ++ msgs)

/-- `updatesect`, with the value that `st` has: the fields it writes, and its message. -/
def updatesect (dcap : Rat) (st : Option Rat) (part : List Part) : List Fields × Text :=
  let sorted := part.insertionSort fun a b => a.start ≤ b.start
  let free := freeAreas dcap 64 sorted
  let (fields, msg) := fitParts free st (sorted.insertionSort fun a b => a.pn ≤ b.pn)
  (fields, part.flatMap sizeMsg ++ msg)

/-- A row of the page. -/
structure Row where
  keep : Bool
  start : Rat
  len : Rat
  cap : Option Rat
  deriving DecidableEq, Repr

/-- `part`, as it is read from the page. -/
def partsOf (rows : Fin 4 → Row) : List Part :=
  (List.finRange 4).map fun i : Fin 4 =>
    ⟨i.val + 1, (rows i).keep, (rows i).start, (rows i).len, (rows i).cap⟩

/-! ### What it should do -/

def Part.area (p : Part) : Area Rat := ⟨p.start, p.len⟩

/-- The partition is kept, and there. -/
def Part.Kept (p : Part) : Prop := p.chk = true ∧ p.len ≠ 0

/-- The kept partitions are apart, aligned and inside the disk, and the sizes of the others not
negative. -/
structure Proper (dcap : Rat) (ps : List Part) : Prop where
  apart : ps.Pairwise fun p q => p.Kept → q.Kept → p.area.Apart q.area
  aligned : ∀ p ∈ ps, p.Kept → Aligned p.start ∧ 64 ≤ p.start
  inside : ∀ p ∈ ps, p.Kept → 0 < p.len ∧ p.area.stop ≤ dcap
  sizes : ∀ p ∈ ps, p.chk = false → ∀ c ∈ p.cap, 0 ≤ c

/-- The area of a partition in the new table: the old one of a kept partition; of another, of the
size asked for but for less than 8 sectors, and aligned and inside the disk if it is not empty. -/
def Placed (dcap : Rat) (p : Part) (a : Area Rat) : Prop :=
  if p.chk then a = p.area
  else ∃ c, p.cap = some c ∧ a.len = 8 * ⌊c * 1000000000 / 512 / 8⌋ ∧
    (a.len = 0 ∨ Aligned a.start ∧ Aligned a.len ∧ 0 < a.len ∧ 64 ≤ a.start ∧ a.stop ≤ dcap)

/-- The new table: what stands in the fields is one area for each partition, and those that are
not empty are apart. -/
def ValidTable (dcap : Rat) (ps : List Part) (fields : List Fields) : Prop :=
  ∃ areas : List (Area Rat),
    fields.map (fun f => (f.start, f.len)) = areas.map (fun a => (some a.start, some a.len)) ∧
      List.Forall₂ (Placed dcap) ps areas ∧
      areas.Pairwise fun a b => a.len ≠ 0 → b.len ≠ 0 → a.Apart b

/-! ### Rounding -/

theorem aligned_floor (q : Rat) : Aligned (8 * ⌊q / 8⌋) := ⟨⌊q / 8⌋, rfl⟩

theorem floor_le (q : Rat) : 8 * (⌊q / 8⌋ : Rat) ≤ q := by
  have h := Int.floor_le (q / 8)
  linarith

theorem lt_floor_add (q : Rat) : q < 8 * (⌊q / 8⌋ : Rat) + 8 := by
  have h := Int.lt_floor_add_one (q / 8)
  linarith

/-- **Rounding up**: the next aligned number. -/
theorem roundUp_spec {c : Rat} (hc : 0 ≤ c) :
    Aligned (roundUp c) ∧ c ≤ roundUp c ∧ ∀ m, Aligned m → c ≤ m → roundUp c ≤ m := by
  unfold roundUp
  split
  · next h =>
      have hrem := remainder_of_nonneg hc
      have hround : c + (8 - remainder c 8) = 8 * ((⌊c / 8⌋ + 1 : Int) : Rat) := by
        rw [hrem]
        push_cast
        ring
      have hlt := lt_floor_add c
      rw [hround]
      refine ⟨⟨_, rfl⟩, by push_cast; linarith, ?_⟩
      rintro m ⟨z, rfl⟩ hle
      have hne : c ≠ 8 * (⌊c / 8⌋ : Rat) := by
        intro heq
        exact h (by rw [hrem]; exact sub_eq_zero.mpr heq)
      have hfloor : 8 * (⌊c / 8⌋ : Rat) < 8 * (z : Rat) :=
        lt_of_lt_of_le (lt_of_le_of_ne (floor_le c) hne.symm) hle
      have hz : ⌊c / 8⌋ < z := by
        have hcast : (⌊c / 8⌋ : Rat) < z := by linarith
        exact_mod_cast hcast
      have hz' : ((⌊c / 8⌋ + 1 : Int) : Rat) ≤ z := by exact_mod_cast hz
      linarith
  · next h =>
      rw [not_not] at h
      exact ⟨(remainder_eq_zero_iff c).mp h, le_rfl, fun m _ hle => hle⟩

theorem nsect_eq {c : Rat} (hc : 0 ≤ c) : nsect c = 8 * ⌊c * 1000000000 / 512 / 8⌋ := by
  have hpos : 0 ≤ c * 1000000000 / 512 := by positivity
  rw [nsect, remainder_of_nonneg hpos, sub_sub_cancel]

theorem nsect_nonneg {c : Rat} (hc : 0 ≤ c) : 0 ≤ nsect c := by
  have hfloor : (0 : Int) ≤ ⌊c * 1000000000 / 512 / 8⌋ := Int.floor_nonneg.mpr (by positivity)
  have hcast : (0 : Rat) ≤ (⌊c * 1000000000 / 512 / 8⌋ : Rat) := by exact_mod_cast hfloor
  rw [nsect_eq hc]
  linarith

/-! ### The free areas -/

section Table

variable {dcap : Rat}

/-- An area that may be given to a partition. -/
structure Usable (dcap : Rat) (a : Area Rat) : Prop where
  aligned : Aligned a.start
  low : 64 ≤ a.start
  high : a.stop ≤ dcap

/-- The kept partitions among these lie one behind the other, and behind `curr`. -/
structure Behind (dcap curr : Rat) (ps : List Part) : Prop where
  order : ps.Pairwise fun p q => p.Kept → q.Kept → p.area.stop ≤ q.start
  aligned : ∀ p ∈ ps, p.Kept → Aligned p.start ∧ curr ≤ p.start
  inside : ∀ p ∈ ps, p.Kept → 0 < p.len ∧ p.area.stop ≤ dcap

/-- **The free areas** are apart from each other and from the kept partitions. -/
theorem freeAreas_spec {curr : Rat} {ps : List Part} (hcurr : Aligned curr) (hlow : 64 ≤ curr)
    (hps : Behind dcap curr ps) :
    (∀ a ∈ freeAreas dcap curr ps, Usable dcap a ∧ curr ≤ a.start) ∧
      (freeAreas dcap curr ps).Pairwise Area.Apart ∧
      ∀ p ∈ ps, p.Kept → ∀ a ∈ freeAreas dcap curr ps, a.Apart p.area := by
  induction ps generalizing curr with
  | nil =>
      rw [freeAreas]
      split
      · refine ⟨fun a ha => ?_, List.pairwise_singleton _ _, fun p hp => absurd hp List.not_mem_nil⟩
        rw [List.mem_singleton.mp ha]
        exact ⟨⟨hcurr, hlow, (add_sub_cancel curr dcap).le⟩, le_rfl⟩
      · exact ⟨fun a ha => absurd ha List.not_mem_nil, List.Pairwise.nil,
          fun p hp => absurd hp List.not_mem_nil⟩
  | cons p ps ih =>
      obtain ⟨hfirst, horder⟩ := List.pairwise_cons.mp hps.order
      have haligned := fun q hq => hps.aligned q (List.mem_cons_of_mem p hq)
      have hinside := fun q hq => hps.inside q (List.mem_cons_of_mem p hq)
      rw [freeAreas]
      split
      · next hkept =>
          obtain ⟨hpaligned, hpcurr⟩ := hps.aligned p List.mem_cons_self hkept
          obtain ⟨hplen, hpstop⟩ := hps.inside p List.mem_cons_self hkept
          have hnonneg : 0 ≤ p.start + p.len := by linarith
          obtain ⟨hround, hle, hleast⟩ := roundUp_spec hnonneg
          have hrest : Behind dcap (roundUp (p.start + p.len)) ps :=
            ⟨horder, fun q hq hqkept => ⟨(haligned q hq hqkept).1,
              hleast _ (haligned q hq hqkept).1 (hfirst q hq hkept hqkept)⟩, hinside⟩
          obtain ⟨husable, hapart, hothers⟩ := ih hround (by linarith) hrest
          -- the new area ends where the partition starts, the others are behind it
          have hstop : (⟨curr, p.start - curr⟩ : Area Rat).stop = p.start :=
            add_sub_cancel curr p.start
          have hbehind : ∀ a ∈ freeAreas dcap (roundUp (p.start + p.len)) ps,
              p.start + p.len ≤ a.start := fun a ha => hle.trans (husable a ha).2
          refine ⟨fun a ha => ?_, List.pairwise_cons.mpr ⟨fun a ha => Or.inl ?_, hapart⟩, ?_⟩
          · rcases List.mem_cons.mp ha with rfl | ha
            · refine ⟨⟨hcurr, hlow, ?_⟩, le_rfl⟩
              rw [hstop]
              have hpstop' : p.start + p.len ≤ dcap := hpstop
              linarith
            · have hbelow := hbehind a ha
              exact ⟨(husable a ha).1, by linarith⟩
          · have hbelow := hbehind a ha
            rw [hstop]
            linarith
          · intro q hq hqkept a ha
            rcases List.mem_cons.mp hq with rfl | hq
            · rcases List.mem_cons.mp ha with rfl | ha
              · exact Or.inl hstop.le
              · exact Or.inr (hbehind a ha)
            · rcases List.mem_cons.mp ha with rfl | ha
              · refine Or.inl ?_
                have hpq : p.start + p.len ≤ q.start := hfirst q hq hkept hqkept
                rw [hstop]
                change p.start ≤ q.start
                linarith
              · exact hothers q hq hqkept a ha
      · next hkept =>
          obtain ⟨husable, hapart, hothers⟩ := ih hcurr hlow ⟨horder, haligned, hinside⟩
          refine ⟨husable, hapart, fun q hq hqkept => ?_⟩
          rcases List.mem_cons.mp hq with rfl | hq
          · exact absurd hqkept hkept
          · exact hothers q hq hqkept

/-! ### Placing -/

/-- The partition has been given the area. -/
def Given (x : Part × Area Rat) : Prop := x.1.chk = false ∧ x.2.len ≠ 0

/-- What is free may be given, and is apart from what is taken. -/
structure Free (dcap : Rat) (taken free : List (Area Rat)) : Prop where
  usable : ∀ a ∈ free, Usable dcap a
  apart : free.Pairwise Area.Apart
  others : ∀ o ∈ taken, ∀ a ∈ free, a.Apart o

theorem spaceMsg_ne_nil (p : Part) : spaceMsg p ≠ [] := by
  intro h
  exact absurd (List.append_eq_nil_iff.mp h).1 (by decide)

theorem not_off {p : Part} (hchk : p.chk = true) : ¬p.chk = false := by
  rw [hchk]
  exact Bool.noConfusion

/-- One partition: it is given an area that is apart from those that are taken. -/
theorem fitPart_spec {taken free : List (Area Rat)} (hfree : Free dcap taken free)
    (st : Option Rat) {p : Part} (hsize : p.chk = false → ∀ c ∈ p.cap, 0 ≤ c)
    (hmsg : (fitPart free st p).2.2 = []) :
    ∃ a : Area Rat, ((fitPart free st p).2.1.start, (fitPart free st p).2.1.len) =
        (some a.start, some a.len) ∧ Placed dcap p a ∧
      (Given (p, a) → ∀ o ∈ taken, a.Apart o) ∧
      Free dcap (if p.chk = false ∧ a.len ≠ 0 then a :: taken else taken)
        (fitPart free st p).1 := by
  unfold fitPart at hmsg ⊢
  by_cases hchk : p.chk = true
  · rw [if_pos hchk]
    refine ⟨p.area, rfl, by rw [Placed, if_pos hchk], fun h => ?_, ?_⟩
    · exact absurd h.1 (not_off hchk)
    · rw [if_neg fun h => not_off hchk h.1]
      exact hfree
  · have hoff : p.chk = false := Bool.eq_false_iff.mpr hchk
    rw [if_neg hchk] at hmsg ⊢
    cases hcap : p.cap with
    | none =>
        rw [hcap] at hmsg
        exact absurd hmsg (spaceMsg_ne_nil p)
    | some c =>
        have hc : 0 ≤ c := hsize hoff c hcap
        have hlen := nsect_eq hc
        rw [hcap] at hmsg
        rw [Option.map_some] at hmsg ⊢
        dsimp only at hmsg ⊢
        by_cases hzero : nsect c = 0
        · rw [if_pos hzero]
          refine ⟨⟨0, nsect c⟩, rfl, ?_, fun h => absurd hzero h.2, ?_⟩
          · rw [Placed, if_neg hchk]
            exact ⟨c, hcap, hlen, Or.inl hzero⟩
          · rw [if_neg fun h => h.2 hzero]
            exact hfree
        · have hpos : 0 < nsect c := lt_of_le_of_ne (nsect_nonneg hc) (Ne.symm hzero)
          rw [if_neg hzero] at hmsg ⊢
          cases hfit : firstFit (nsect c) free with
          | none =>
              rw [hfit] at hmsg
              exact absurd hmsg (spaceMsg_ne_nil p)
          | some found =>
              obtain ⟨s, free'⟩ := found
              dsimp only
              obtain ⟨hapart, hfree', hothers⟩ :=
                firstFit_apart (nsect_nonneg hc) hfit hfree.apart hfree.others
              have haligned : Aligned (nsect c) := hlen ▸ aligned_floor _
              obtain ⟨⟨hstart, hlow, hhigh⟩, husable⟩ := firstFit_forall hfit
                (fun a ha hle => ⟨⟨ha.aligned, ha.low, (Area.first_within hle).2.trans ha.high⟩,
                  ⟨ha.aligned.add haligned, ha.low.trans (Area.rest_within hpos.le).1,
                    (Area.rest_within hpos.le).2.trans ha.high⟩⟩)
                hfree.usable
              refine ⟨⟨s, nsect c⟩, rfl, ?_, fun _ => hapart, ?_⟩
              · rw [Placed, if_neg hchk]
                exact ⟨c, hcap, hlen, Or.inr ⟨hstart, haligned, hpos, hlow, hhigh⟩⟩
              · rw [if_pos ⟨hoff, hzero⟩]
                exact ⟨husable, hfree', hothers⟩

/-- **All partitions**: each is placed, and those that are given an area are apart from what was
taken and from each other. -/
theorem fitParts_spec {taken free : List (Area Rat)} (hfree : Free dcap taken free)
    (st : Option Rat) {ps : List Part} (hsizes : ∀ p ∈ ps, p.chk = false → ∀ c ∈ p.cap, 0 ≤ c)
    (hmsg : (fitParts free st ps).2 = []) :
    ∃ areas : List (Area Rat),
      (fitParts free st ps).1.map (fun f => (f.start, f.len)) =
          areas.map (fun a => (some a.start, some a.len)) ∧
        List.Forall₂ (Placed dcap) ps areas ∧
        (∀ x ∈ ps.zip areas, Given x → ∀ o ∈ taken, x.2.Apart o) ∧
        (ps.zip areas).Pairwise fun x y => Given x → Given y → x.2.Apart y.2 := by
  induction ps generalizing taken free st with
  | nil =>
      exact ⟨[], rfl, List.Forall₂.nil, fun x hx => absurd hx List.not_mem_nil, List.Pairwise.nil⟩
  | cons p ps ih =>
      rw [fitParts] at hmsg ⊢
      obtain ⟨hone, hrest⟩ := List.append_eq_nil_iff.mp hmsg
      obtain ⟨a, hfields, hplaced, hgiven, hfree'⟩ :=
        fitPart_spec hfree st (hsizes p List.mem_cons_self) hone
      obtain ⟨areas, hareas, hall, htaken, hpairs⟩ :=
        ih hfree' _ (fun q hq => hsizes q (List.mem_cons_of_mem p hq)) hrest
      refine ⟨a :: areas, ?_, List.Forall₂.cons hplaced hall, ?_, ?_⟩
      · dsimp only
        rw [List.map_cons, List.map_cons, hareas, hfields]
      · intro x hx hxgiven o ho
        rcases List.mem_cons.mp hx with rfl | hx
        · exact hgiven hxgiven o ho
        · refine htaken x hx hxgiven o ?_
          split
          · exact List.mem_cons_of_mem a ho
          · exact ho
      · refine List.pairwise_cons.mpr ⟨fun y hy hxgiven hygiven => ?_, hpairs⟩
        refine (htaken y hy hygiven a ?_).symm
        have hpgiven : p.chk = false ∧ a.len ≠ 0 := hxgiven
        rw [if_pos hpgiven]
        exact List.mem_cons_self

/-! ### Sorting -/

/-- The second sorting undoes the first. -/
theorem insertionSort_pn {ps : List Part} (hps : ps.Pairwise fun p q => p.pn < q.pn) :
    (ps.insertionSort fun p q => p.start ≤ q.start).insertionSort (fun p q => p.pn ≤ q.pn) =
      ps := by
  have hperm := (List.perm_insertionSort (fun p q : Part => p.pn ≤ q.pn) _).trans
    (List.perm_insertionSort (fun p q : Part => p.start ≤ q.start) ps)
  have htotal : Std.Total fun p q : Part => p.pn ≤ q.pn := ⟨fun p q => le_total p.pn q.pn⟩
  have htrans : IsTrans Part fun p q => p.pn ≤ q.pn := ⟨fun p q r => Nat.le_trans⟩
  have hnodup : (ps.map Part.pn).Nodup := List.pairwise_map.mpr (hps.imp Nat.ne_of_lt)
  refine List.Perm.eq_of_pairwise (fun p q hp hq hpq hqp => ?_)
    (List.pairwise_insertionSort (fun p q : Part => p.pn ≤ q.pn) _) (hps.imp Nat.le_of_lt) hperm
  exact List.inj_on_of_nodup_map hnodup (hperm.mem_iff.mp hp) hq (Nat.le_antisymm hpq hqp)

/-- Sorted by their starts, the kept partitions lie one behind the other. -/
theorem Proper.behind {ps : List Part} (hps : Proper dcap ps) :
    Behind dcap 64 (ps.insertionSort fun p q => p.start ≤ q.start) := by
  have hperm := List.perm_insertionSort (fun p q : Part => p.start ≤ q.start) ps
  have htotal : Std.Total fun p q : Part => p.start ≤ q.start :=
    ⟨fun p q => le_total p.start q.start⟩
  have htrans : IsTrans Part fun p q => p.start ≤ q.start := ⟨fun p q r => le_trans⟩
  have hsorted := List.pairwise_insertionSort (fun p q : Part => p.start ≤ q.start) ps
  have hapart := hperm.symm.pairwise hps.apart fun h hq hp => (h hp hq).symm
  refine ⟨(hsorted.and hapart).imp_of_mem fun {p q} _ hq h hpkept hqkept => ?_,
    fun p hp => hps.aligned p (hperm.mem_iff.mp hp),
    fun p hp => hps.inside p (hperm.mem_iff.mp hp)⟩
  rcases h.2 hpkept hqkept with hpq | hqp
  · exact hpq
  · have hpos := (hps.inside q (hperm.mem_iff.mp hq) hqkept).1
    have hstop : q.start + q.len ≤ p.start := hqp
    have hstart : p.start ≤ q.start := h.1
    linarith

theorem partsOf_pn (rows : Fin 4 → Row) : (partsOf rows).Pairwise fun p q => p.pn < q.pn := by
  refine List.pairwise_map.mpr ((List.pairwise_lt_finRange 4).imp fun h => ?_)
  exact Nat.succ_lt_succ h

/-! ### The new table -/

theorem Placed.kept {p : Part} {a : Area Rat} (h : Placed dcap p a) (hchk : p.chk = true) :
    a = p.area := by
  rw [Placed, if_pos hchk] at h
  exact h

/-- Two of the areas: each is that of a kept partition or has been given. -/
theorem apart_of_placed {x y : Part × Area Rat} (hx : Placed dcap x.1 x.2)
    (hy : Placed dcap y.1 y.2) (hkept : x.1.Kept → y.1.Kept → x.1.area.Apart y.1.area)
    (hxgiven : Given x → y.1.Kept → x.2.Apart y.1.area)
    (hygiven : Given y → x.1.Kept → y.2.Apart x.1.area)
    (hgiven : Given x → Given y → x.2.Apart y.2) (hxlen : x.2.len ≠ 0) (hylen : y.2.len ≠ 0) :
    x.2.Apart y.2 := by
  by_cases hxchk : x.1.chk = true <;> by_cases hychk : y.1.chk = true
  · rw [hx.kept hxchk] at hxlen ⊢
    rw [hy.kept hychk] at hylen ⊢
    exact hkept ⟨hxchk, hxlen⟩ ⟨hychk, hylen⟩
  · rw [hx.kept hxchk] at hxlen ⊢
    exact (hygiven ⟨Bool.eq_false_iff.mpr hychk, hylen⟩ ⟨hxchk, hxlen⟩).symm
  · rw [hy.kept hychk] at hylen ⊢
    exact hxgiven ⟨Bool.eq_false_iff.mpr hxchk, hxlen⟩ ⟨hychk, hylen⟩
  · exact hgiven ⟨Bool.eq_false_iff.mpr hxchk, hxlen⟩ ⟨Bool.eq_false_iff.mpr hychk, hylen⟩

/-- Any number of partitions. -/
theorem updatesect_spec {ps : List Part} (hpn : ps.Pairwise fun p q => p.pn < q.pn)
    (hps : Proper dcap ps) (st : Option Rat) (hmsg : (updatesect dcap st ps).2 = []) :
    ValidTable dcap ps (updatesect dcap st ps).1 := by
  obtain ⟨husable, hapart, hothers⟩ :=
    freeAreas_spec ⟨8, by norm_num⟩ le_rfl hps.behind
  have hperm := List.perm_insertionSort (fun p q : Part => p.start ≤ q.start) ps
  -- what is taken before the first partition is placed: the areas of the kept ones
  have hfree : Free dcap ((ps.filter fun p => p.chk && p.len != 0).map Part.area)
      (freeAreas dcap 64 (ps.insertionSort fun p q => p.start ≤ q.start)) := by
    refine ⟨fun a ha => (husable a ha).1, hapart, fun o ho a ha => ?_⟩
    obtain ⟨p, hp, rfl⟩ := List.mem_map.mp ho
    obtain ⟨hp, hkept⟩ := List.mem_filter.mp hp
    rw [Bool.and_eq_true, bne_iff_ne] at hkept
    exact hothers p (hperm.mem_iff.mpr hp) hkept a ha
  rw [updatesect, insertionSort_pn hpn] at hmsg ⊢
  obtain ⟨areas, hfields, hplaced, htaken, hpairs⟩ :=
    fitParts_spec hfree st hps.sizes (List.append_eq_nil_iff.mp hmsg).2
  refine ⟨areas, hfields, hplaced, ?_⟩
  have hlen := hplaced.length_eq
  have hfst : (ps.zip areas).map Prod.fst = ps := List.map_fst_zip hlen.le
  have hsnd : (ps.zip areas).map Prod.snd = areas := List.map_snd_zip hlen.ge
  have hkept : (ps.zip areas).Pairwise fun x y =>
      x.1.Kept → y.1.Kept → x.1.area.Apart y.1.area :=
    List.pairwise_map.mp (hfst.symm ▸ hps.apart)
  have hplace : ∀ x ∈ ps.zip areas, Placed dcap x.1 x.2 :=
    fun x hx => (List.forall₂_iff_zip.mp hplaced).2 hx
  have hgiven : ∀ x ∈ ps.zip areas, Given x → ∀ y ∈ ps.zip areas, y.1.Kept →
      x.2.Apart y.1.area := by
    intro x hx hxgiven y hy hykept
    refine htaken x hx hxgiven _ (List.mem_map.mpr ⟨y.1, List.mem_filter.mpr ⟨?_, ?_⟩, rfl⟩)
    · exact (List.of_mem_zip hy).1
    · rw [Bool.and_eq_true, bne_iff_ne]
      exact hykept
  rw [← hsnd, List.pairwise_map]
  refine (hkept.and hpairs).imp_of_mem fun {x y} hx hy h => ?_
  exact apart_of_placed (hplace x hx) (hplace y hy) h.1 (fun hxg hyk => hgiven x hx hxg y hy hyk)
    (fun hyg hxk => hgiven y hy hyg x hx hxk) h.2

/-- **Automatic placement**: where no message is shown, the new table is valid. -/
theorem updatesect_valid (dcap : Rat) (st : Option Rat) (rows : Fin 4 → Row)
    (hproper : Proper dcap (partsOf rows))
    (hmsg : (updatesect dcap st (partsOf rows)).2 = []) :
    ValidTable dcap (partsOf rows) (updatesect dcap st (partsOf rows)).1 :=
  updatesect_spec (partsOf_pn rows) hproper st hmsg

/-- The first and the last partition are kept; between them there is room for the second. -/
def fourRows : Fin 4 → Row
  | 0 => ⟨true, 64, 800, some (41 / 100000)⟩
  | 1 => ⟨false, 0, 0, some (1 / 5000)⟩
  | 2 => ⟨false, 0, 0, some 0⟩
  | 3 => ⟨true, 2000, 1000, some (1 / 2000)⟩

theorem fourRows_proper : Proper 4000 (partsOf fourRows) := by
  have hparts : partsOf fourRows = [⟨1, true, 64, 800, some (41 / 100000)⟩,
      ⟨2, false, 0, 0, some (1 / 5000)⟩, ⟨3, false, 0, 0, some 0⟩,
      ⟨4, true, 2000, 1000, some (1 / 2000)⟩] := rfl
  rw [hparts]
  refine ⟨?_, ?_, ?_, ?_⟩
  · simp [Part.Kept, Part.area, Area.Apart, Area.stop]
    norm_num
  · simp [Part.Kept]
    exact ⟨⟨8, by norm_num⟩, ⟨250, by norm_num⟩, by norm_num⟩
  · simp [Part.Kept, Part.area, Area.stop]
    norm_num
  · simp

theorem updatesect_fourRows :
    ValidTable 4000 (partsOf fourRows) (updatesect 4000 none (partsOf fourRows)).1 :=
  updatesect_valid 4000 none fourRows fourRows_proper (by decide +kernel)

/-- The second partition starts where the first ends, and its 390 sectors are rounded down. -/
example : (updatesect 4000 none (partsOf fourRows)).1.map (fun f => (f.start, f.len)) =
    [(some 64, some 800), (some 864, some 384), (some 0, some 0), (some 2000, some 1000)] := by
  decide +kernel

end Table

/-! ## `psubmit` -/

/-- The fields of a partition, as numbers, and whether they are disabled. -/
structure Entry where
  start : Option Rat
  len : Option Rat
  disabled : Bool
  deriving DecidableEq, Repr

/-- What `psubmit` leaves: the field `free_id`, the message, which fields are disabled, and whether
the form is sent. -/
structure Submission where
  free : Option Rat
  message : Text
  disabled : Fin 4 → Bool
  sent : Bool

/-- `a + b` -/
def plus (a b : Option Rat) : Option Rat := a.bind fun x => b.map fun y => x + y

/-- `a - b` -/
def minus (a b : Option Rat) : Option Rat := a.bind fun x => b.map fun y => x - y

/-- `a < b` -/
def less : Option Rat → Option Rat → Bool
  | some a, some b => a < b
  | _, _ => false

/-- `a >= b` -/
def notLess : Option Rat → Option Rat → Bool
  | some a, some b => b ≤ a
  | _, _ => false

/-- `if (c) emsg += msg` -/
def warn (c : Bool) (msg : Text) : Text := if c then msg else []

section Submit

variable (print : Option Rat → Text)

def Entry.stop (e : Entry) : Option Rat := plus e.start e.len

def nanMsg (what : Text) (i : Fin 4) (n : Option Rat) : Text :=
  warn (n == none) (what ++ " of partition ".toList ++ printNat (i.val + 1) ++
    " is not a number\n".toList)

def alignMsg (what : Text) (i : Fin 4) (n : Option Rat) : Text :=
  warn (n.map (remainder · 8) != some 0) (what ++ " of partition ".toList ++
    printNat (i.val + 1) ++ " is not 4K aligned (by ".toList ++ print (n.map (remainder · 8)) ++
    " sectors)\n".toList)

/-- The body of the inner loop. -/
def conflictMsg (rows : Fin 4 → Entry) (i j : Fin 4) : Text :=
  if i = j then []
  else
    let conflict what := what ++ " of partition ".toList ++ printNat (i.val + 1) ++
      " conflicts with partition ".toList ++ printNat (j.val + 1) ++ ['\n']
    warn (notLess (rows i).start (rows j).start && less (rows i).start (rows j).stop)
        (conflict "Start".toList) ++
      warn (less (rows j).start (rows i).stop && less (rows i).stop (rows j).stop)
        (conflict "End".toList)

/-- The body of the outer loop. -/
def entryMsg (rows : Fin 4 → Entry) (i : Fin 4) : Text :=
  nanMsg "Start".toList i (rows i).start ++ nanMsg "Length".toList i (rows i).len ++
    alignMsg print "Start".toList i (rows i).start ++
    alignMsg print "Length".toList i (rows i).len ++
    (List.finRange 4).flatMap (conflictMsg rows i)

/-- `rawcap`, after the loop. -/
def rest (rawcap : Rat) (rows : Fin 4 → Entry) : Option Rat :=
  (List.finRange 4).foldl (fun cap i => minus cap (rows i).len) (some rawcap)

def capacityMsg (dfree : Option Rat) : Text :=
  warn (less dfree (some 0))
    ("\nDisk capacity exceeded by ".toList ++ print (dfree.map (-·)) ++ " GB".toList)

def emsg (rawcap : Rat) (rows : Fin 4 → Entry) : Text :=
  (List.finRange 4).flatMap (entryMsg print rows) ++
    capacityMsg print ((rest rawcap rows).map gigabytes)

/-- `psubmit`: `confirmed` is the answer of the user, and `re_set` disables again what was. -/
def psubmit (confirmed : Bool) (rawcap : Rat) (rows : Fin 4 → Entry) : Submission :=
  let message := emsg print rawcap rows
  let sent := message == [] && confirmed
  ⟨(rest rawcap rows).map gigabytes, message,
    fun i => if sent then false else (rows i).disabled, sent⟩

end Submit

/-! ### What is accepted -/

/-- The areas of the partitions. -/
def areasOf (start len : Fin 4 → Rat) (i : Fin 4) : Area Rat := ⟨start i, len i⟩

/-- The layout is valid: the partitions that are there have a length, are apart, aligned, and inside
the disk. -/
structure ValidLayout (rawcap : Rat) (areas : Fin 4 → Area Rat) : Prop where
  positive : ∀ i, (areas i).len ≠ 0 → 0 < (areas i).len
  apart : ∀ i j, i ≠ j → (areas i).len ≠ 0 → (areas j).len ≠ 0 → (areas i).Apart (areas j)
  aligned : ∀ i, (areas i).len ≠ 0 → Aligned (areas i).start ∧ Aligned (areas i).stop
  inside : ∀ i, (areas i).len ≠ 0 → 0 ≤ (areas i).start ∧ (areas i).stop ≤ rawcap

/-- What is tested: the numbers are aligned, no partition starts or ends in another, and the sum of
the lengths, as gigabytes with three digits, is not above the size of the disk. -/
structure Passes (rawcap : Rat) (areas : Fin 4 → Area Rat) : Prop where
  aligned : ∀ i, Aligned (areas i).start ∧ Aligned (areas i).len
  starts : ∀ i j, i ≠ j → ¬((areas j).start ≤ (areas i).start ∧ (areas i).start < (areas j).stop)
  stops : ∀ i j, i ≠ j → ¬((areas j).start < (areas i).stop ∧ (areas i).stop < (areas j).stop)
  total : (areas 0).len + (areas 1).len + (areas 2).len + (areas 3).len ≤ rawcap + 500000 / 512

/-- What is not: no length is negative, and no partition that is there begins before the disk or
ends behind it. -/
structure Within (rawcap : Rat) (areas : Fin 4 → Area Rat) : Prop where
  positive : ∀ i, 0 ≤ (areas i).len
  inside : ∀ i, (areas i).len ≠ 0 → 0 ≤ (areas i).start ∧ (areas i).stop ≤ rawcap

/-- The fields, where each holds a number. -/
def filled (areas : Fin 4 → Area Rat) (disabled : Fin 4 → Bool) (i : Fin 4) : Entry :=
  ⟨some (areas i).start, some (areas i).len, disabled i⟩

/-! ### The messages -/

theorem warn_eq_nil_iff {c : Bool} {msg : Text} (hmsg : msg ≠ []) :
    warn c msg = [] ↔ c = false := by
  cases c with
  | false => exact ⟨fun _ => rfl, fun _ => rfl⟩
  | true => exact ⟨fun h => absurd h hmsg, fun h => absurd h.symm Bool.false_ne_true⟩

theorem nanMsg_some (what : Text) (i : Fin 4) (q : Rat) : nanMsg what i (some q) = [] := rfl

section Messages

variable (print : Option Rat → Text) {rawcap : Rat} {areas : Fin 4 → Area Rat}
  {disabled : Fin 4 → Bool}

theorem alignMsg_eq_nil_iff {what : Text} (hwhat : what ≠ []) (i : Fin 4) (q : Rat) :
    alignMsg print what i (some q) = [] ↔ Aligned q := by
  rw [alignMsg, warn_eq_nil_iff (by simp [hwhat]), Option.map_some, bne_eq_false_iff_eq,
    Option.some_inj]
  exact remainder_eq_zero_iff q

theorem conflictMsg_eq_nil_iff {i j : Fin 4} (hne : i ≠ j) :
    conflictMsg (filled areas disabled) i j = [] ↔
      ¬((areas j).start ≤ (areas i).start ∧ (areas i).start < (areas j).stop) ∧
        ¬((areas j).start < (areas i).stop ∧ (areas i).stop < (areas j).stop) := by
  rw [conflictMsg, if_neg hne, List.append_eq_nil_iff, warn_eq_nil_iff (by simp),
    warn_eq_nil_iff (by simp), Bool.eq_false_iff, Bool.eq_false_iff, ne_eq, ne_eq,
    Bool.and_eq_true, Bool.and_eq_true]
  simp only [filled, Entry.stop, plus, notLess, less, Option.bind_some, Option.map_some,
    decide_eq_true_eq, Area.stop]

theorem entryMsg_eq_nil_iff (i : Fin 4) :
    entryMsg print (filled areas disabled) i = [] ↔
      (Aligned (areas i).start ∧ Aligned (areas i).len) ∧
        ∀ j, conflictMsg (filled areas disabled) i j = [] := by
  have hstart : (filled areas disabled i).start = some (areas i).start := rfl
  have hlen : (filled areas disabled i).len = some (areas i).len := rfl
  rw [entryMsg, hstart, hlen, nanMsg_some, nanMsg_some, List.nil_append, List.nil_append,
    List.append_eq_nil_iff, List.append_eq_nil_iff, alignMsg_eq_nil_iff print (by decide),
    alignMsg_eq_nil_iff print (by decide), List.flatMap_eq_nil_iff]
  exact and_congr_right fun _ => ⟨fun h j => h j (List.mem_finRange j), fun h j _ => h j⟩

theorem rest_filled : rest rawcap (filled areas disabled) =
    some (rawcap - ((areas 0).len + (areas 1).len + (areas 2).len + (areas 3).len)) := by
  have hrest : rest rawcap (filled areas disabled) =
      some (rawcap - (areas 0).len - (areas 1).len - (areas 2).len - (areas 3).len) := rfl
  rw [hrest]
  congr 1
  ring

/-- No gigabytes are left when half a thousandth is missing. -/
theorem gigabytes_neg_iff (n : Rat) : gigabytes n < 0 ↔ n < -(500000 / 512) := by
  have hdiv : gigabytes n < 0 ↔ ((mathRound (n * 512 / 1000000) : Int) : Rat) < 0 :=
    ⟨fun h => by rw [gigabytes] at h; linarith, fun h => by rw [gigabytes]; linarith⟩
  rw [hdiv, Int.cast_lt_zero, mathRound, Int.floor_lt, Int.cast_zero]
  constructor <;> intro h <;> linarith

theorem capacityMsg_eq_nil_iff (n : Rat) :
    capacityMsg print (some (gigabytes n)) = [] ↔ ¬n < -(500000 / 512) := by
  rw [capacityMsg, warn_eq_nil_iff (by simp), Bool.eq_false_iff, ne_eq, ← gigabytes_neg_iff]
  exact not_congr decide_eq_true_iff

/-- There is no message if and only if all tests pass. -/
theorem emsg_eq_nil_iff : emsg print rawcap (filled areas disabled) = [] ↔ Passes rawcap areas := by
  rw [emsg, List.append_eq_nil_iff, List.flatMap_eq_nil_iff, rest_filled, Option.map_some,
    capacityMsg_eq_nil_iff]
  constructor
  · rintro ⟨hentries, htotal⟩
    have hentry := fun i => (entryMsg_eq_nil_iff print i).mp (hentries i (List.mem_finRange i))
    refine ⟨fun i => (hentry i).1, fun i j hne => ?_, fun i j hne => ?_, by linarith⟩
    · exact ((conflictMsg_eq_nil_iff hne).mp ((hentry i).2 j)).1
    · exact ((conflictMsg_eq_nil_iff hne).mp ((hentry i).2 j)).2
  · intro h
    refine ⟨fun i _ => (entryMsg_eq_nil_iff print i).mpr ⟨h.aligned i, fun j => ?_⟩, ?_⟩
    · by_cases hne : i = j
      · rw [conflictMsg, if_pos hne]
      · exact (conflictMsg_eq_nil_iff hne).mpr ⟨h.starts i j hne, h.stops i j hne⟩
    · have htotal := h.total
      linarith

end Messages

/-! ### Valid layouts -/

section Layouts

variable {rawcap : Rat} {areas : Fin 4 → Area Rat}

/-- Of two partitions that are there, the one that starts later does not start in the other. -/
theorem Passes.apart (h : Passes rawcap areas) {i j : Fin 4} (hne : i ≠ j) :
    (areas i).Apart (areas j) := by
  rcases le_total (areas i).start (areas j).start with hle | hle
  · exact Or.inl (not_lt.mp fun hlt => h.starts j i hne.symm ⟨hle, hlt⟩)
  · exact Or.inr (not_lt.mp fun hlt => h.starts i j hne ⟨hle, hlt⟩)

/-- What is accepted is valid, if it lies within the disk. -/
theorem Passes.valid (h : Passes rawcap areas) (hwithin : Within rawcap areas) :
    ValidLayout rawcap areas := by
  refine ⟨fun i hlen => lt_of_le_of_ne (hwithin.positive i) hlen.symm,
    fun i j hne _ _ => h.apart hne, fun i _ => ?_, hwithin.inside⟩
  exact ⟨(h.aligned i).1, (h.aligned i).1.add (h.aligned i).2⟩

theorem ValidLayout.within (h : ValidLayout rawcap areas) : Within rawcap areas := by
  refine ⟨fun i => ?_, h.inside⟩
  by_cases hlen : (areas i).len = 0
  · exact hlen.ge
  · exact (h.positive i hlen).le

end Layouts

/-- One partition, which is shorter than the disk. -/
def behindEnd : Fin 4 → Area Rat
  | 0 => ⟨1600, 800⟩
  | _ => ⟨0, 0⟩

end AltF.Cgi.PartitionPage
