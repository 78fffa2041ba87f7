/-
  Cgi/DirProgress.lean --- dir_proc.cgi: the loops that show how far `cp`, `mv` or `rm` is, until
  it has ended and its status is reported.

  How far it is comes of what df tells of the whole filesystem, and the time that is left of its
  speed in megabytes per second, without fractions.  An arithmetic error ends the script.
-/
import AltF.Foundation.Decimal
import AltF.SysFiles.Text

set_option autoImplicit false

namespace AltF.Cgi.DirProc

open AltF.Foundation AltF.SysFiles

/-! ## The loops -/

inductive Operation where
  | copy | copyContent | move | delete
  deriving DecidableEq, Repr

/-- What is measured each time: the used megabytes, or the free ones for `delete`, and the time.
awk prints nothing where the line of df has no `/mnt/` in it. -/
structure Round where
  reading : Option Nat
  now : Int

/-- `/` of the shell. -/
def divide (a b : Int) : Option Int := if b = 0 then none else some (a.tdiv b)

/-- What is shown: the percentage, the megabytes, and the time that is left. -/
structure Progress where
  el : Int
  mb : Int
  etat : Text
  deriving DecidableEq

/-- `$etat` -/
def etaText (eta : Int) : Text :=
  let hr := eta.tdiv 3600
  let min := (eta.tmod 3600 + 59).tdiv 60
  if hr = 0 then "ETA: ".toList ++ printInt min ++ "min".toList
  else "ETA: ".toList ++ printInt hr ++ "hour ".toList ++ printInt min ++ "min".toList

/-- A round for `cp` and `mv`; nothing is shown while the used space is as it was. -/
def copyRound (srcSz : Nat) (existSz : Option Nat) (startt : Int) (r : Round) :
    Option (Option Progress) := do
  let currSz ← r.reading
  let existSz ← existSz
  let mvSz : Int := currSz - existSz
  if mvSz = 0 then
    return none
  let el ← divide (mvSz * 100) srcSz
  let speed ← divide mvSz (r.now - startt)
  let eta ← divide (srcSz - mvSz) speed
  return some ⟨el, mvSz, etaText eta⟩

/-- A round for `rm`. -/
def deleteRound (srcSz : Nat) (fsFree : Option Nat) (r : Round) : Option (Option Progress) := do
  let opFree ← r.reading
  let fsFree ← fsFree
  let opRm : Int := opFree - fsFree
  let el ← divide (opRm * 100) (srcSz + 1)
  return some ⟨el, opRm, []⟩

/-- The rounds while the operation runs, and then its status. -/
def loop (round : Round → Option (Option Progress)) (status : Nat) :
    List Round → Option (List Progress × Nat)
  | [] => some ([], status)
  | r :: rs => do
      let shown ← round r
      let (later, st) ← loop round status rs
      return (shown.toList ++ later, st)

/-- An operation, with what du and df tell before it, and its status. -/
structure Task where
  op : Operation
  size : Nat
  before : Option Nat
  start : Int
  rounds : List Round
  status : Nat

def Task.round (t : Task) : Round → Option (Option Progress) :=
  match t.op with
  | .delete => deleteRound t.size t.before
  | _ => copyRound t.size t.before t.start

/-- What is shown, and the status that is reported; `none` where the script ends before. -/
def Task.progress (t : Task) : Option (List Progress × Nat) := loop t.round t.status t.rounds

/-! ## When they fail -/

theorem bind_divide {α : Type} (a b : Int) (f : Int → Option α) :
    (divide a b).bind f = if b = 0 then none else f (a.tdiv b) := by
  unfold divide
  split
  · rfl
  · rfl

theorem isSome_ite_none {α : Type} {p : Prop} [Decidable p] {o : Option α} :
    (if p then none else o).isSome ↔ ¬ p ∧ o.isSome := by
  split
  · rename_i hp
    exact iff_of_false nofun fun h => h.1 hp
  · rename_i hp
    exact (and_iff_right hp).symm

/-- A quotient is rounded to nothing where the divisor is the greater one. -/
theorem tdiv_ne_zero_iff {a b : Int} (hb : b ≠ 0) : a.tdiv b ≠ 0 ↔ b.natAbs ≤ a.natAbs := by
  have hpos : 0 < b.natAbs := Int.natAbs_pos.mpr hb
  rw [← Int.natAbs_ne_zero, Int.natAbs_tdiv]
  change a.natAbs / b.natAbs ≠ 0 ↔ _
  rw [Nat.div_ne_zero_iff, and_iff_right hpos.ne']

/-- A reading for which each divisor is there. -/
def Task.Steady (t : Task) (r : Round) : Prop :=
  ∃ curr ∈ r.reading, ∃ exist ∈ t.before, t.op = .delete ∨ curr = exist ∨
    (t.size ≠ 0 ∧ r.now ≠ t.start ∧
      (r.now - t.start).natAbs ≤ ((curr : Int) - exist).natAbs)

theorem isSome_bind_iff {α β : Type} {o : Option α} {f : α → Option β} :
    (o.bind f).isSome ↔ ∃ a ∈ o, (f a).isSome := by
  rw [Option.isSome_bind, Option.any_eq_true]
  exact Iff.rfl

/-- A round for `cp` and `mv`, with its divisors. -/
theorem copyRound_isSome (srcSz : Nat) (existSz : Option Nat) (startt : Int) (r : Round) :
    (copyRound srcSz existSz startt r).isSome ↔
      ∃ curr ∈ r.reading, ∃ exist ∈ existSz, curr = exist ∨
        (srcSz ≠ 0 ∧ r.now ≠ startt ∧
          (r.now - startt).natAbs ≤ ((curr : Int) - exist).natAbs) := by
  have hround : copyRound srcSz existSz startt r =
      r.reading.bind fun curr => existSz.bind fun exist =>
        if (curr : Int) - exist = 0 then some none
        else (divide (((curr : Int) - exist) * 100) srcSz).bind fun el =>
          (divide ((curr : Int) - exist) (r.now - startt)).bind fun speed =>
            (divide (srcSz - ((curr : Int) - exist)) speed).bind fun eta =>
              some (some ⟨el, (curr : Int) - exist, etaText eta⟩) := rfl
  rw [hround, isSome_bind_iff]
  refine exists_congr fun curr => and_congr_right fun _ => ?_
  rw [isSome_bind_iff]
  refine exists_congr fun exist => and_congr_right fun _ => ?_
  by_cases hmv : (curr : Int) - exist = 0
  · rw [if_pos hmv]
    exact iff_of_true rfl (Or.inl (by omega))
  · have hne : curr ≠ exist := by omega
    rw [if_neg hmv, or_iff_right hne, bind_divide, isSome_ite_none, bind_divide, isSome_ite_none,
      bind_divide, isSome_ite_none, Int.natCast_eq_zero, sub_eq_zero]
    refine and_congr_right fun _ => and_congr_right fun hnow => ?_
    rw [← tdiv_ne_zero_iff (sub_ne_zero.mpr hnow)]
    exact and_iff_left rfl

/-- The divisor for `rm` is never zero. -/
theorem deleteRound_isSome (srcSz : Nat) (fsFree : Option Nat) (r : Round) :
    (deleteRound srcSz fsFree r).isSome ↔ ∃ free ∈ r.reading, ∃ before ∈ fsFree, True := by
  have hround : deleteRound srcSz fsFree r =
      r.reading.bind fun free => fsFree.bind fun before =>
        (divide (((free : Int) - before) * 100) (srcSz + 1)).bind fun el =>
          some (some ⟨el, (free : Int) - before, []⟩) := rfl
  rw [hround, isSome_bind_iff]
  refine exists_congr fun free => and_congr_right fun _ => ?_
  rw [isSome_bind_iff]
  refine exists_congr fun before => and_congr_right fun _ => ?_
  rw [bind_divide, isSome_ite_none]
  exact iff_of_true ⟨by omega, rfl⟩ trivial

/-- One round. -/
theorem round_isSome (t : Task) (r : Round) : (t.round r).isSome ↔ t.Steady r := by
  unfold Task.round Task.Steady
  by_cases hop : t.op = .delete
  · rw [hop, deleteRound_isSome]
    refine exists_congr fun curr => and_congr_right fun _ => exists_congr fun exist => ?_
    exact and_congr_right fun _ => (iff_of_true trivial (Or.inl rfl))
  · have hcopy : (match t.op with
        | .delete => deleteRound t.size t.before
        | _ => copyRound t.size t.before t.start) = copyRound t.size t.before t.start := by
      cases hcase : t.op with
      | delete => exact absurd hcase hop
      | copy => rfl
      | copyContent => rfl
      | move => rfl
    rw [hcopy, copyRound_isSome]
    refine exists_congr fun curr => and_congr_right fun _ => exists_congr fun exist => ?_
    exact and_congr_right fun _ => (or_iff_right hop).symm

/-- All of them. -/
theorem loop_iff (round : Round → Option (Option Progress)) (st : Nat) (rs : List Round) :
    (∃ shown, loop round st rs = some (shown, st)) ↔ ∀ r ∈ rs, (round r).isSome := by
  induction rs with
  | nil => exact iff_of_true ⟨[], rfl⟩ nofun
  | cons r rs ih =>
      have hloop : loop round st (r :: rs) = (round r).bind fun shown =>
          (loop round st rs).bind fun x => some (shown.toList ++ x.1, x.2) := rfl
      rw [List.forall_mem_cons, ← ih, hloop]
      cases hround : round r with
      | none => exact iff_of_false nofun fun h => Bool.false_ne_true h.1
      | some shown =>
          rw [Option.isSome_some, and_iff_right rfl, Option.bind_some]
          cases hrest : loop round st rs with
          | none => exact iff_of_false nofun nofun
          | some x =>
              obtain ⟨later, st'⟩ := x
              constructor
              · rintro ⟨all, hall⟩
                obtain ⟨-, hst⟩ := Prod.mk.inj (Option.some.inj hall)
                exact ⟨later, by rw [← hst]⟩
              · rintro ⟨all, hall⟩
                obtain ⟨-, hst⟩ := Prod.mk.inj (Option.some.inj hall)
                exact ⟨shown.toList ++ later, by rw [Option.bind_some, hst]⟩

/-- `rm`: where df tells something, nothing can fail. -/
theorem Task.reports_delete {t : Task} (hop : t.op = .delete) (hbefore : t.before.isSome)
    (hreading : ∀ r ∈ t.rounds, r.reading.isSome) :
    ∃ shown, t.progress = some (shown, t.status) := by
  refine (loop_iff _ _ _).mpr fun r hr => (round_isSome t r).mpr ?_
  obtain ⟨free, hfree⟩ := Option.isSome_iff_exists.mp (hreading r hr)
  obtain ⟨before, hbefore⟩ := Option.isSome_iff_exists.mp hbefore
  exact ⟨free, hfree, before, hbefore, Or.inl hop⟩

/-- A folder of 100 megabytes, of which one is copied in three seconds. -/
def slowCopy : Task := ⟨.copy, 100, some 10, 0, [⟨some 11, 3⟩], 0⟩

end AltF.Cgi.DirProc
