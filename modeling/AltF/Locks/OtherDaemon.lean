/-
  Locks/OtherDaemon.lean --- `check_other_daemon` of sysctrl.c: one daemon, by a pid file that
  is created exclusively.

  A file that names no live process is unlinked and created once more.  What is unlinked is
  what the name leads to by then, which may be the file of another daemon.
-/
import AltF.Foundation.Interference

set_option autoImplicit false

namespace AltF.Locks.OtherDaemon

open AltF.Foundation

/-! ## The pid file -/

/-- `/var/run/sysctrl.pid`: the inode that the name leads to, and what `fscanf` reads of each. -/
structure Files where
  name : Option Nat
  inode : Nat → Option Int
  /-- The next inode. -/
  fresh : Nat
  below : ∀ i, name = some i → i < fresh

namespace Files

variable (x : Files)

/-- `O_CREAT | O_EXCL`, where there is no file. -/
def create : Files where
  name := some x.fresh
  inode := Function.update x.inode x.fresh none
  fresh := x.fresh + 1
  below := by
    intro i hi
    obtain rfl := Option.some.inj hi
    exact Nat.lt_succ_self x.fresh

def unlink : Files := { x with name := none, below := nofun }

/-- `fprintf`, to what was opened. -/
def print (i : Nat) (p : Pid) : Files := { x with inode := Function.update x.inode i (some p) }

/-- What the file says. -/
def content : Option Int := x.name.bind x.inode

@[simp] theorem create_name : x.create.name = some x.fresh := rfl

@[simp] theorem unlink_name : x.unlink.name = none := rfl

@[simp] theorem print_name (i : Nat) (p : Pid) : (x.print i p).name = x.name := rfl

end Files

/-! ## The daemon -/

/-- The system call that a daemon makes next. -/
inductive Place where
  /-- the first `open` -/
  | create
  /-- `fopen` of the file that is there -/
  | fopen
  /-- `fscanf` of what was opened -/
  | scan (i : Nat)
  /-- `kill(opid, 0)` -/
  | kill (i : Nat) (opid : Int)
  /-- `unlink`, when inode `i` was read -/
  | unlink (i : Nat)
  /-- the second `open` -/
  | recreate
  /-- `fprintf` of the own pid -/
  | print (i : Nat)
  /-- past the check, with inode `i` created -/
  | mainloop (i : Nat)
  deriving DecidableEq, Repr

/-- A daemon has the pid. -/
def answers (alive : Pid → Bool) (opid : Int) : Bool := decide (0 ≤ opid) && alive opid.toNat

/-- One step of the daemon `p`; `a` tells whether another program or group has the pid. -/
def move (p : Pid) (alive : Pid → Bool) (x : Files) : Place → Bool → Files × Option Place
  | .create, _ =>
      match x.name with
      | none => (x.create, some (.print x.fresh))
      | some _ => (x, some .fopen)
  | .fopen, _ =>
      match x.name with
      -- `fscanf` of a null pointer
      | none => (x, none)
      | some i => (x, some (.scan i))
  | .scan i, _ =>
      match x.inode i with
      | none => (x, none)
      | some opid => (x, some (.kill i opid))
  | .kill i opid, a =>
      if a || answers alive opid then (x, none) else (x, some (.unlink i))
  | .unlink _, _ => (x.unlink, some .recreate)
  | .recreate, _ =>
      match x.name with
      | none => (x.create, some (.print x.fresh))
      -- `fprintf` of a null pointer
      | some _ => (x, none)
  | .print i, _ => (x.print i p, some (.mainloop i))
  | .mainloop i, _ => (x, some (.mainloop i))

/-- Any number of daemons. -/
def daemon : Program Files Place Bool := ⟨.create, move⟩

/-- The inode that is this daemon's. -/
def Place.own : Place → Option Nat
  | .print i | .mainloop i => some i
  | _ => none

/-- The inode that is to be unlinked. -/
def Place.stale : Place → Option Nat
  | .unlink i => some i
  | _ => none

/-- The file is this daemon's. -/
def Place.inside (t : Place) : Bool := t.own.isSome

/-- What is unlinked, if anything, is what was read. -/
def UnlinksRead (s : System Files Place) (e : Event Bool) : Prop :=
  ∀ p a i, e = .act p a → s.proc p = .live (.unlink i) → ∀ j, s.shared.name = some j → j = i

/-! ## The invariant -/

/-- What a daemon relies on. -/
def At (x : Files) (p : Pid) : Place → Prop
  | .scan i | .unlink i => i < x.fresh
  | .kill i opid => i < x.fresh ∧ x.inode i = some opid
  | .print i => x.name = some i ∧ x.inode i = none
  | .mainloop i => x.name = some i ∧ x.inode i = some (p : Int)
  | _ => True

/-- One daemon has a file, and nobody is about to unlink it for a stale one. -/
structure Apart (t u : Place) : Prop where
  one : ¬ (t.inside = true ∧ u.inside = true)
  left : ∀ i, t.stale = some i → u.own ≠ some i
  right : ∀ i, u.stale = some i → t.own ≠ some i

def annotation : Annotation Files Place where
  at_ := At
  apart := Apart
  symm := fun h => ⟨fun c => h.one c.symm, h.right, h.left⟩

section Kept

variable {x : Files} {s : System Files Place} {p : Pid} {t u : Place}

theorem At.name_of_own {i : Nat} (h : At x p t) (hown : t.own = some i) : x.name = some i := by
  cases t with
  | print j =>
      obtain rfl := Option.some.inj hown
      exact h.1
  | mainloop j =>
      obtain rfl := Option.some.inj hown
      exact h.1
  | _ => cases hown

/-- Where there is no file, it is nobody's. -/
theorem At.own_of_absent (h : At x p t) (hname : x.name = none) : t.own = none := by
  cases hown : t.own with
  | none => rfl
  | some i =>
      rw [h.name_of_own hown] at hname
      cases hname

theorem At.stale_lt {i : Nat} (h : At x p t) (hstale : t.stale = some i) : i < x.fresh := by
  cases t with
  | unlink j =>
      obtain rfl := Option.some.inj hstale
      exact h
  | _ => cases hstale

theorem Apart.of_neither (hown : t.own = none) (hstale : t.stale = none) : Apart t u where
  one := by
    rintro ⟨h, -⟩
    rw [Place.inside, hown] at h
    cases h
  left := by
    intro i hi
    rw [hstale] at hi
    cases hi
  right := by
    intro i _ hi
    rw [hown] at hi
    cases hi

theorem annotation_freeEntry : annotation.FreeEntry daemon where
  own := fun _ _ => trivial
  pair := fun _ => Apart.of_neither rfl rfl

/-- A step that changes no file, to a place without one. -/
theorem kept_same {t' : Place} (hown : t'.own = none) (hstale : t'.stale = none)
    (hat : At s.shared p t') : annotation.Kept s p t (s.shared, some t') where
  own := by
    intro u hu
    obtain rfl := Option.some.inj hu
    exact hat
  others := fun _ _ _ _ hu _ => hu
  pair := by
    intro u' q u hu _ _ _ _
    obtain rfl := Option.some.inj hu
    exact Apart.of_neither hown hstale

theorem kept_exit : annotation.Kept s p t (s.shared, none) where
  own := nofun
  others := fun _ _ _ _ hu _ => hu
  pair := nofun

/-- A file that is created is nobody else's. -/
theorem kept_create (hname : s.shared.name = none) :
    annotation.Kept s p t (s.shared.create, some (.print s.shared.fresh)) where
  own := by
    intro u hu
    obtain rfl := Option.some.inj hu
    exact ⟨rfl, Function.update_self _ _ _⟩
  others := by
    intro q u _ _ hat _
    have hother : ∀ {i : Nat}, i < s.shared.fresh →
        s.shared.create.inode i = s.shared.inode i := fun hi =>
      Function.update_of_ne (Nat.ne_of_lt hi) _ _
    have hown := hat.own_of_absent hname
    cases u with
    | scan i => exact Nat.lt_succ_of_lt hat
    | unlink i => exact Nat.lt_succ_of_lt hat
    | kill i opid => exact ⟨Nat.lt_succ_of_lt hat.1, (hother hat.1).trans hat.2⟩
    | print i => cases hown
    | mainloop i => cases hown
    | create => trivial
    | fopen => trivial
    | recreate => trivial
  pair := by
    intro t' q u ht' _ _ hat _
    obtain rfl := Option.some.inj ht'
    refine ⟨?_, nofun, ?_⟩
    · rintro ⟨-, h⟩
      rw [Place.inside, hat.own_of_absent hname] at h
      cases h
    · intro i hi hfresh
      obtain rfl := Option.some.inj hfresh
      exact Nat.lt_irrefl _ (hat.stale_lt hi)

/-- The owner of what was read is dead. -/
theorem kept_kill {i : Nat} {opid : Int} (hlt : i < s.shared.fresh)
    (hread : s.shared.inode i = some opid) (hdead : answers s.alive opid = false) :
    annotation.Kept s p t (s.shared, some (.unlink i)) where
  own := by
    intro u hu
    obtain rfl := Option.some.inj hu
    exact hlt
  others := fun _ _ _ _ hu _ => hu
  pair := by
    intro t' q u ht' _ hq hat _
    obtain rfl := Option.some.inj ht'
    refine ⟨nofun, ?_, nofun⟩
    intro j hj hown
    obtain rfl := Option.some.inj hj
    cases u with
    | print j =>
        obtain rfl := Option.some.inj hown
        rw [hat.2] at hread
        cases hread
    | mainloop j =>
        obtain rfl := Option.some.inj hown
        rw [hat.2, Option.some.injEq] at hread
        have halive : s.alive q = true := by rw [System.alive, hq, Life.isLive_live]
        rw [← hread, answers, Int.toNat_natCast, halive] at hdead
        simp at hdead
    | _ => cases hown

/-- What is unlinked is no other daemon's. -/
theorem kept_unlink {i : Nat} (hread : ∀ j, s.shared.name = some j → j = i) :
    annotation.Kept s p (.unlink i) (s.shared.unlink, some .recreate) where
  own := by
    intro u hu
    obtain rfl := Option.some.inj hu
    trivial
  others := by
    intro q u _ _ hat happart
    have hown : u.own = none := by
      cases hown : u.own with
      | none => rfl
      | some j =>
          obtain rfl := hread j (hat.name_of_own hown)
          exact absurd hown (happart.left j rfl)
    cases u with
    | scan j => exact hat
    | unlink j => exact hat
    | kill j opid => exact hat
    | print j => cases hown
    | mainloop j => cases hown
    | create => trivial
    | fopen => trivial
    | recreate => trivial
  pair := by
    intro u' q u hu _ _ _ _
    obtain rfl := Option.some.inj hu
    exact Apart.of_neither rfl rfl

/-- The pid arrives in the file of the daemon. -/
theorem kept_print {i : Nat} (hat : At s.shared p (.print i)) :
    annotation.Kept s p (.print i) (s.shared.print i p, some (.mainloop i)) where
  own := by
    intro u hu
    obtain rfl := Option.some.inj hu
    exact ⟨hat.1, Function.update_self _ _ _⟩
  others := by
    intro q u _ _ hu happart
    have hown : u.own = none := by
      cases hown : u.own with
      | none => rfl
      | some j => exact absurd ⟨rfl, by rw [Place.inside, hown]; rfl⟩ happart.one
    cases u with
    | scan j => exact hu
    | unlink j => exact hu
    | kill j opid =>
        refine ⟨hu.1, ?_⟩
        have hne : j ≠ i := by
          rintro rfl
          exact absurd (hat.2.symm.trans hu.2) nofun
        exact (Function.update_of_ne hne _ _).trans hu.2
    | print j => cases hown
    | mainloop j => cases hown
    | create => trivial
    | fopen => trivial
    | recreate => trivial
  pair := by
    intro u' q u hu _ _ _ happart
    obtain rfl := Option.some.inj hu
    exact ⟨happart.one, happart.left, happart.right⟩

theorem kept_mainloop {i : Nat} (hat : At s.shared p (.mainloop i)) :
    annotation.Kept s p (.mainloop i) (s.shared, some (.mainloop i)) where
  own := by
    intro u hu
    obtain rfl := Option.some.inj hu
    exact hat
  others := fun _ _ _ _ hu _ => hu
  pair := by
    intro u' q u hu _ _ _ happart
    obtain rfl := Option.some.inj hu
    exact happart

end Kept

/-- **Every step under the condition keeps the annotation.** -/
theorem move_kept {s : System Files Place} {p : Pid} {t : Place} {a : Bool}
    (hlive : s.proc p = .live t) (hat : At s.shared p t) (hcond : UnlinksRead s (.act p a)) :
    annotation.Kept s p t (move p s.alive s.shared t a) := by
  cases t with
  | create =>
      cases hname : s.shared.name with
      | none =>
          rw [move, hname]
          exact kept_create hname
      | some i =>
          rw [move, hname]
          exact kept_same rfl rfl trivial
  | fopen =>
      cases hname : s.shared.name with
      | none =>
          rw [move, hname]
          exact kept_exit
      | some i =>
          rw [move, hname]
          exact kept_same rfl rfl (s.shared.below i hname)
  | scan i =>
      cases hread : s.shared.inode i with
      | none =>
          rw [move, hread]
          exact kept_exit
      | some opid =>
          rw [move, hread]
          exact kept_same rfl rfl ⟨hat, hread⟩
  | kill i opid =>
      rw [move]
      split
      · exact kept_exit
      · rename_i hquiet
        rw [Bool.or_eq_true, not_or, Bool.not_eq_true, Bool.not_eq_true] at hquiet
        exact kept_kill hat.1 hat.2 hquiet.2
  | unlink i => exact kept_unlink (hcond p a i rfl hlive)
  | recreate =>
      cases hname : s.shared.name with
      | none =>
          rw [move, hname]
          exact kept_create hname
      | some i =>
          rw [move, hname]
          exact kept_exit
  | print i => exact kept_print hat
  | mainloop i => exact kept_mainloop hat

/-! ## Runs -/

theorem holds_run {s : System Files Place} (hstart : s.Start daemon) {events : List (Event Bool)}
    (hcond : Along (System.step daemon) UnlinksRead s events) :
    annotation.Holds (run (System.step daemon) s events) := by
  refine Annotation.holds_run annotation_freeEntry ?_ hstart hcond
  intro s p a t hh hc hp
  exact move_kept hp (hh.own hp) hc

/-- **One daemon**, and the file names it, as long as nobody unlinks another file than the one
that was read. -/
theorem one_daemon (s : System Files Place) (hstart : s.Start daemon) (events : List (Event Bool))
    (hcond : Along (System.step daemon) UnlinksRead s events) :
    (run (System.step daemon) s events).Excludes Place.inside ∧
      ∀ p i, (run (System.step daemon) s events).proc p = .live (.mainloop i) →
        (run (System.step daemon) s events).shared.content = some (p : Int) := by
  have hholds := holds_run hstart hcond
  refine ⟨hholds.excludes Apart.one, fun p i hp => ?_⟩
  obtain ⟨hname, hinode⟩ := hholds.own hp
  rw [Files.content, hname]
  exact hinode

/-! ## One start at a time -/

/-- In `check_other_daemon` -/
def Place.checking : Place → Bool
  | .mainloop _ => false
  | _ => true

/-- The inode that is being looked at. -/
def Place.looks : Place → Option Nat
  | .scan i | .kill i _ | .unlink i => some i
  | _ => none

/-- No daemon is started while another one checks. -/
def OneStart (s : System Files Place) (_ : Event Bool) : Prop :=
  ∀ p q t u, s.proc p = .live t → s.proc q = .live u → t.checking = true →
    u.checking = true → p = q

/-- Nobody has unlinked what is looked at. -/
def Looked (s : System Files Place) : Prop :=
  ∀ p t i, s.proc p = .live t → t.looks = some i → s.shared.name = some i

theorem checking_of_looks {t : Place} {i : Nat} (h : t.looks = some i) : t.checking = true := by
  cases t <;> first | rfl | cases h

/-- Where a step leads, what is looked at has the name. -/
theorem move_looked {p : Pid} {alive : Pid → Bool} {x : Files} {t t' : Place} {a : Bool} {i : Nat}
    (hlooks : ∀ i, t.looks = some i → x.name = some i)
    (hnext : (move p alive x t a).2 = some t') (ht' : t'.looks = some i) :
    (move p alive x t a).1.name = some i := by
  cases t with
  | create =>
      rw [move] at hnext
      split at hnext <;> (cases hnext; cases ht')
  | fopen =>
      cases hname : x.name with
      | none =>
          rw [move, hname] at hnext
          cases hnext
      | some j =>
          rw [move, hname] at hnext ⊢
          cases hnext
          exact hname.trans ht'
  | scan j =>
      cases hread : x.inode j with
      | none =>
          rw [move, hread] at hnext
          cases hnext
      | some opid =>
          rw [move, hread] at hnext ⊢
          cases hnext
          exact hlooks i ht'
  | kill j opid =>
      rw [move] at hnext ⊢
      split at hnext
      · cases hnext
      · rename_i hquiet
        rw [if_neg hquiet]
        cases hnext
        exact hlooks i ht'
  | recreate =>
      rw [move] at hnext
      split at hnext <;> (cases hnext; try cases ht')
  | unlink j => cases hnext; cases ht'
  | print j => cases hnext; cases ht'
  | mainloop j => cases hnext; cases ht'

theorem move_mainloop (p : Pid) (alive : Pid → Bool) (x : Files) (i : Nat) (a : Bool) :
    move p alive x (.mainloop i) a = (x, some (.mainloop i)) := rfl

theorem Looked.step {s : System Files Place} (h : Looked s) {e : Event Bool} (hone : OneStart s e) :
    Looked (System.step daemon s e) := by
  rcases System.step_cases daemon s e with
    heq | ⟨p, -, -, heq⟩ | ⟨p, a, t, -, hp, heq⟩ | ⟨p, t, -, -, heq⟩
  · rw [heq]
    exact h
  · rw [heq]
    intro q u i hq hu
    rcases System.live_update hq with ⟨-, hlife⟩ | ⟨-, hq⟩
    · cases hlife
      cases hu
    · exact h q u i hq hu
  · rw [heq]
    intro q u i hq hu
    rcases System.live_update hq with ⟨rfl, hlife⟩ | ⟨hne, hq'⟩
    · exact move_looked (fun i hi => h q t i hp hi) (System.after_eq_live hlife) hu
    · -- the other one is the daemon that checks
      have hmain : t.checking = false := by
        cases ht : t.checking with
        | false => rfl
        | true => exact absurd (hone q p u t hq' hp (checking_of_looks hu) ht) hne
      cases t with
      | mainloop j => exact h q u i hq' hu
      | _ => cases hmain
  · rw [heq]
    intro q u i hq hu
    rcases System.live_update hq with ⟨-, hlife⟩ | ⟨-, hq⟩
    · cases hlife
    · exact h q u i hq hu

/-- Starts one at a time unlink what they have read. -/
theorem along_unlinksRead {s : System Files Place} (hstart : s.Start daemon)
    {events : List (Event Bool)} (hcond : Along (System.step daemon) OneStart s events) :
    Along (System.step daemon) UnlinksRead s events := by
  refine along_of_step Looked ?_ ?_ hcond
  · intro s e hlooked hone
    refine ⟨?_, hlooked.step hone⟩
    intro p a i _ hp j hj
    have hname := hlooked p _ i hp rfl
    rw [hj] at hname
    exact Option.some.inj hname
  · intro p t i hp ht
    obtain rfl := hstart p t hp
    cases ht

/-- **Daemons that are started one at a time** are one, and the file names it. -/
theorem one_daemon_of_oneStart (s : System Files Place) (hstart : s.Start daemon)
    (events : List (Event Bool)) (hcond : Along (System.step daemon) OneStart s events) :
    (run (System.step daemon) s events).Excludes Place.inside :=
  (holds_run hstart (along_unlinksRead hstart hcond)).excludes Apart.one

/-- The events of a process that is alone are such starts. -/
theorem along_oneStart {p : Pid} {s : System Files Place}
    (honly : ∀ q t, s.proc q = .live t → q = p) {events : List (Event Bool)}
    (hevents : ∀ e ∈ events, e.pid = p) : Along (System.step daemon) OneStart s events := by
  have hstep : ∀ s e, (∀ q t, s.proc q = .live t → q = p) → e.pid = p →
      OneStart s e ∧ ∀ q t, (System.step daemon s e).proc q = .live t → q = p := by
    intro s e honly he
    refine ⟨fun q q' t u hq hq' _ _ => (honly q t hq).trans (honly q' u hq').symm, ?_⟩
    intro q t hq
    rcases System.step_cases daemon s e with
      heq | ⟨p', rfl, -, heq⟩ | ⟨p', a, t, rfl, -, heq⟩ | ⟨p', t, rfl, -, heq⟩
    · rw [heq] at hq
      exact honly q t hq
    all_goals
      obtain rfl : p' = p := he
      rw [heq] at hq
      exact (System.live_update hq).elim And.left fun h => honly q _ h.2
  have hcond : Along (System.step daemon) (fun _ e => e.pid = p) s events := by
    rw [along_iff]
    intro pre e post heq
    exact hevents e (by rw [heq]; simp)
  exact along_of_step (fun s => ∀ q t, s.proc q = .live t → q = p) hstep honly hcond

/-- The file of process 7, which is dead. -/
def leftByDead : System Files Place where
  shared := ⟨some 0, fun _ => some 7, 1, by rintro i ⟨⟩; exact Nat.one_pos⟩
  proc p := if p = 7 then .dead else .unborn

theorem leftByDead_not_live (p : Pid) (t : Place) : leftByDead.proc p ≠ .live t := by
  intro hp
  change (if p = 7 then Life.dead else Life.unborn) = Life.live t at hp
  split at hp <;> cases hp

/-- Process 2 finds it, and is the daemon. -/
def oneStarts : List (Event Bool) := .spawn 2 :: List.replicate 7 (.act 2 false)

theorem oneStarts_alone : Along (System.step daemon) OneStart leftByDead oneStarts :=
  along_oneStart (fun q t hq => absurd hq (leftByDead_not_live q t)) (p := 2) (by decide)

theorem one_daemon_oneStarts :
    ((run (System.step daemon) leftByDead oneStarts).Excludes Place.inside ∧
      ∀ p i, (run (System.step daemon) leftByDead oneStarts).proc p = .live (.mainloop i) →
        (run (System.step daemon) leftByDead oneStarts).shared.content = some (p : Int)) ∧
    (run (System.step daemon) leftByDead oneStarts).proc 2 = .live (.mainloop 1) := by
  have hstart : leftByDead.Start daemon := fun p t hp => absurd hp (leftByDead_not_live p t)
  exact ⟨one_daemon leftByDead hstart oneStarts (along_unlinksRead hstart oneStarts_alone),
    by decide +kernel⟩

theorem one_daemon_of_oneStart_oneStarts :
    (run (System.step daemon) leftByDead oneStarts).Excludes Place.inside :=
  one_daemon_of_oneStart leftByDead (fun p t hp => absurd hp (leftByDead_not_live p t)) oneStarts
    oneStarts_alone

/-! ## Two starts -/

section Race

variable {s : System Files Place} {p q : Pid} {i : Nat} {opid : Int}

theorem act_eq {t : Place} (hp : s.proc p = .live t) (a : Bool) :
    System.step daemon s (.act p a) = ⟨(move p s.alive s.shared t a).1,
      Function.update s.proc p (System.after (move p s.alive s.shared t a).2)⟩ := by
  simp only [System.step, hp]
  rfl

/-- The life of one process does not change what others answer. -/
theorem answers_update (hne : opid ≠ p) (x : Files) (life : Life Place) :
    answers (System.alive ⟨x, Function.update s.proc p life⟩) opid = answers s.alive opid := by
  by_cases hge : 0 ≤ opid
  · have hnat : opid.toNat ≠ p := by
      rintro rfl
      exact hne (Int.toNat_of_nonneg hge).symm
    have halive : System.alive ⟨x, Function.update s.proc p life⟩ opid.toNat =
        s.alive opid.toNat := congrArg Life.isLive (Function.update_of_ne hnat _ _)
    rw [answers, answers, halive]
  · rw [answers, answers, decide_eq_false hge, Bool.false_and, Bool.false_and]

/-- A start up to `unlink` -/
def finds (p : Pid) : List (Event Bool) := .spawn p :: List.replicate 4 (.act p false)

/-- and from there on -/
def replaces (p : Pid) : List (Event Bool) := List.replicate 3 (.act p false)

theorem run_finds (hname : s.shared.name = some i) (hread : s.shared.inode i = some opid)
    (hdead : answers s.alive opid = false) (hp : s.proc p = .unborn) (hne : opid ≠ p) :
    run (System.step daemon) s (finds p) =
      ⟨s.shared, Function.update s.proc p (.live (.unlink i))⟩ := by
  have hspawn : System.step daemon s (.spawn p) =
      ⟨s.shared, Function.update s.proc p (.live .create)⟩ := by
    simp only [System.step, hp]
    rfl
  have hact : ∀ t t' : Place,
      move p (System.alive ⟨s.shared, Function.update s.proc p (.live t)⟩) s.shared t false =
        (s.shared, some t') →
      System.step daemon ⟨s.shared, Function.update s.proc p (.live t)⟩ (.act p false) =
        ⟨s.shared, Function.update s.proc p (.live t')⟩ := by
    intro t t' hmove
    have hlive : (⟨s.shared, Function.update s.proc p (.live t)⟩ : System Files Place).proc p =
        .live t := Function.update_self _ _ _
    rw [act_eq hlive]
    simp only [hmove, System.after_some, Function.update_idem]
  have hkill : ∀ t : Place,
      answers (System.alive ⟨s.shared, Function.update s.proc p (.live t)⟩) opid = false :=
    fun t => (answers_update hne _ _).trans hdead
  simp only [finds, List.replicate, run_cons, run_nil, hspawn]
  rw [hact _ .fopen (by rw [move, hname]), hact _ (.scan i) (by rw [move, hname]),
    hact _ (.kill i opid) (by rw [move, hread]), hact _ (.unlink i) (by rw [move, hkill]; rfl)]

theorem run_replaces (hp : s.proc p = .live (.unlink i)) :
    run (System.step daemon) s (replaces p) =
      ⟨s.shared.unlink.create.print s.shared.fresh p,
        Function.update s.proc p (.live (.mainloop s.shared.fresh))⟩ := by
  have hact : ∀ (x x' : Files) (t t' : Place), (∀ alive, move p alive x t false = (x', some t')) →
      System.step daemon ⟨x, Function.update s.proc p (.live t)⟩ (.act p false) =
        ⟨x', Function.update s.proc p (.live t')⟩ := by
    intro x x' t t' hmove
    have hlive : (⟨x, Function.update s.proc p (.live t)⟩ : System Files Place).proc p = .live t :=
      Function.update_self _ _ _
    rw [act_eq hlive]
    simp only [hmove, System.after_some, Function.update_idem]
  have hfirst : System.step daemon s (.act p false) =
      ⟨s.shared.unlink, Function.update s.proc p (.live .recreate)⟩ := act_eq hp false
  simp only [replaces, List.replicate, run_cons, run_nil, hfirst]
  rw [hact _ s.shared.unlink.create _ (.print s.shared.fresh) fun _ => rfl,
    hact _ (s.shared.unlink.create.print s.shared.fresh p) _ (.mainloop s.shared.fresh)
      fun _ => rfl]

/-- **Two daemons** that find the same stale file may both go on, whatever state the others are
in; the file names the second. -/
theorem two_daemons (hname : s.shared.name = some i) (hread : s.shared.inode i = some opid)
    (hdead : answers s.alive opid = false) (hp : s.proc p = .unborn) (hq : s.proc q = .unborn)
    (hpq : p ≠ q) (hop : opid ≠ p) (hoq : opid ≠ q) :
    ∃ events, ¬ (run (System.step daemon) s events).Excludes Place.inside ∧
      (∃ j, (run (System.step daemon) s events).proc p = .live (.mainloop j)) ∧
      (∃ j, (run (System.step daemon) s events).proc q = .live (.mainloop j)) ∧
      (run (System.step daemon) s events).shared.content = some (q : Int) := by
  have hfirst := run_finds hname hread hdead hp hop
  have hsecond := run_finds (s := ⟨s.shared, Function.update s.proc p (.live (.unlink i))⟩) hname
    hread ((answers_update hop _ _).trans hdead)
    ((Function.update_of_ne hpq.symm _ _).trans hq) hoq
  -- both have read the file
  have hthird := run_replaces (p := p) (i := i) (s := ⟨s.shared, Function.update
    (Function.update s.proc p (.live (.unlink i))) q (.live (.unlink i))⟩)
    ((Function.update_of_ne hpq _ _).trans (Function.update_self _ _ _))
  have hlast := run_replaces (p := q) (i := i)
    (s := ⟨s.shared.unlink.create.print s.shared.fresh p, Function.update (Function.update
      (Function.update s.proc p (.live (.unlink i))) q (.live (.unlink i))) p
        (.live (.mainloop s.shared.fresh))⟩)
    ((Function.update_of_ne hpq.symm _ _).trans (Function.update_self _ _ _))
  refine ⟨finds p ++ finds q ++ replaces p ++ replaces q, ?_⟩
  rw [run_append, run_append, run_append, hfirst, hsecond, hthird, hlast]
  have hpmain : Function.update (Function.update (Function.update (Function.update s.proc p
      (.live (.unlink i))) q (.live (.unlink i))) p (.live (.mainloop s.shared.fresh))) q
        (.live (.mainloop (s.shared.fresh + 1))) p = Life.live (.mainloop s.shared.fresh) :=
    (Function.update_of_ne hpq _ _).trans (Function.update_self _ _ _)
  have hqmain : Function.update (Function.update (Function.update (Function.update s.proc p
      (.live (.unlink i))) q (.live (.unlink i))) p (.live (.mainloop s.shared.fresh))) q
        (.live (.mainloop (s.shared.fresh + 1))) q =
          Life.live (.mainloop (s.shared.fresh + 1)) := Function.update_self _ _ _
  refine ⟨fun hexcludes => ?_, ⟨_, hpmain⟩, ⟨_, hqmain⟩, ?_⟩
  · exact hpq (hexcludes ⟨_, hpmain, rfl⟩ ⟨_, hqmain, rfl⟩)
  · exact Function.update_self _ _ _

end Race

/-- Processes 2 and 3 find the file of process 7. -/
theorem two_daemons_leftByDead : ∃ events,
    ¬ (run (System.step daemon) leftByDead events).Excludes Place.inside ∧
      (∃ j, (run (System.step daemon) leftByDead events).proc 2 = .live (.mainloop j)) ∧
      (∃ j, (run (System.step daemon) leftByDead events).proc 3 = .live (.mainloop j)) ∧
      (run (System.step daemon) leftByDead events).shared.content = some (3 : Int) :=
  have hread : leftByDead.shared.inode 0 = some 7 := rfl
  two_daemons rfl hread (by decide) (by decide) (by decide) (by decide) (by decide) (by decide)

/-! ## A daemon that dies early -/

/-- The file has no pid, and nobody is going to write one. -/
structure Blocked (s : System Files Place) (i : Nat) : Prop where
  name : s.shared.name = some i
  empty : s.shared.inode i = none
  places : ∀ p t, s.proc p = .live t →
    t = .create ∨ t = .fopen ∨ t = .scan i ∨ ∃ j, t = .mainloop j

section Blocked

variable {s : System Files Place} {i : Nat}

/-- A step changes no file, and leads to no new daemon. -/
theorem Blocked.move (h : Blocked s i) {p : Pid} {t : Place} (hp : s.proc p = .live t) (a : Bool) :
    (OtherDaemon.move p s.alive s.shared t a).1 = s.shared ∧
      ∀ t', (OtherDaemon.move p s.alive s.shared t a).2 = some t' →
        t' = .fopen ∨ t' = .scan i ∨ ∃ j, t' = .mainloop j ∧ t = .mainloop j := by
  rcases h.places p t hp with rfl | rfl | rfl | ⟨j, rfl⟩
  · rw [OtherDaemon.move, h.name]
    exact ⟨rfl, fun t' ht' => .inl (Option.some.inj ht').symm⟩
  · rw [OtherDaemon.move, h.name]
    exact ⟨rfl, fun t' ht' => .inr (.inl (Option.some.inj ht').symm)⟩
  · rw [OtherDaemon.move, h.empty]
    exact ⟨rfl, nofun⟩
  · exact ⟨rfl, fun t' ht' => .inr (.inr ⟨j, (Option.some.inj ht').symm, rfl⟩)⟩

theorem Blocked.step (h : Blocked s i) (e : Event Bool) :
    Blocked (System.step daemon s e) i ∧
      (System.step daemon s e).inside Place.inside ⊆ s.inside Place.inside := by
  rcases System.step_cases daemon s e with
    heq | ⟨p, -, -, heq⟩ | ⟨p, a, t, -, hp, heq⟩ | ⟨p, t, -, -, heq⟩
  · rw [heq]
    exact ⟨h, subset_rfl⟩
  · rw [heq]
    refine ⟨⟨h.name, h.empty, ?_⟩, ?_⟩
    · intro q u hq
      rcases System.live_update hq with ⟨-, hlife⟩ | ⟨-, hq⟩
      · cases hlife
        exact .inl rfl
      · exact h.places q u hq
    · rintro q ⟨u, hq, hu⟩
      rcases System.live_update hq with ⟨-, hlife⟩ | ⟨-, hq⟩
      · cases hlife
        cases hu
      · exact ⟨u, hq, hu⟩
  · obtain ⟨hsame, hnext⟩ := h.move hp a
    rw [heq]
    refine ⟨⟨?_, ?_, ?_⟩, ?_⟩
    · exact (congrArg Files.name hsame).trans h.name
    · exact (congrArg (fun x => x.inode i) hsame).trans h.empty
    · intro q u hq
      rcases System.live_update hq with ⟨-, hlife⟩ | ⟨-, hq⟩
      · rcases hnext u (System.after_eq_live hlife) with rfl | rfl | ⟨j, rfl, -⟩
        · exact .inr (.inl rfl)
        · exact .inr (.inr (.inl rfl))
        · exact .inr (.inr (.inr ⟨j, rfl⟩))
      · exact h.places q u hq
    · rintro q ⟨u, hq, hu⟩
      rcases System.live_update hq with ⟨rfl, hlife⟩ | ⟨-, hq⟩
      · rcases hnext u (System.after_eq_live hlife) with rfl | rfl | ⟨j, rfl, rfl⟩
        · cases hu
        · cases hu
        · exact ⟨_, hp, rfl⟩
      · exact ⟨u, hq, hu⟩
  · rw [heq]
    refine ⟨⟨h.name, h.empty, ?_⟩, ?_⟩
    · intro q u hq
      rcases System.live_update hq with ⟨-, hlife⟩ | ⟨-, hq⟩
      · cases hlife
      · exact h.places q u hq
    · rintro q ⟨u, hq, hu⟩
      rcases System.live_update hq with ⟨-, hlife⟩ | ⟨-, hq⟩
      · cases hlife
      · exact ⟨u, hq, hu⟩

theorem Blocked.run (h : Blocked s i) (events : List (Event Bool)) :
    (Foundation.run (System.step daemon) s events).inside Place.inside ⊆
      s.inside Place.inside := by
  induction events generalizing s with
  | nil => exact subset_rfl
  | cons e events ih =>
      obtain ⟨hnext, hsub⟩ := h.step e
      exact (ih hnext).trans hsub

end Blocked

/-- No daemon, and no file. -/
def noFile : System Files Place := ⟨⟨none, fun _ => none, 0, nofun⟩, fun _ => .unborn⟩

end AltF.Locks.OtherDaemon
