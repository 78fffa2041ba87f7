/-
  Locks/TempLock.lean --- the lock of the DNS-320's temperature file.

  sysctrl reads the file and dns320-temp.sh writes it, each under a lock directory
  whose owner is recorded in a file inside.  A process that has tried for too long
  looks at the recorded owner and may take the lock over without making it.
-/
import AltF.Foundation.Interference
import AltF.Locks.PidFile

set_option autoImplicit false

namespace AltF.Locks.TempLock

open AltF.Foundation

/-! ## The lock directory -/

/-- `/var/lock/temp-lock` and the file `pid` in it. -/
structure LockDir where
  dir : Bool
  pid : PidFile
  /-- A file is in a directory that is there. -/
  within : dir = false → pid.entry = none
  deriving DecidableEq

namespace LockDir

/-- `mkdir`, which succeeds when there is no directory. -/
def mkdir (x : LockDir) : LockDir := ⟨true, x.pid.unlink, nofun⟩

/-- `creat` of the pid file, with the inode opened; it needs the directory. -/
def creat (x : LockDir) : LockDir × Option Nat :=
  if x.dir then
    (⟨true, x.pid.creat.1, nofun⟩, some x.pid.creat.2)
  else
    (x, none)

/-- The write of a pid to what was opened; an empty file stays empty. -/
def write (x : LockDir) (fd : Option Nat) (p : Pid) : LockDir :=
  match fd with
  | none => x
  | some i => ⟨x.dir, x.pid.write i p, fun h => by simp [PidFile.write, x.within h]⟩

/-- `unlink` of the pid file. -/
def unlink (x : LockDir) : LockDir := ⟨x.dir, x.pid.unlink, fun _ => rfl⟩

/-- `rmdir`, which fails when the pid file is there. -/
def rmdir (x : LockDir) : LockDir :=
  if h : x.pid.entry = none then ⟨false, x.pid, fun _ => h⟩ else x

end LockDir

/-! ## The two programs -/

/-- The programs that use the lock. -/
inductive Prog where
  /-- `read_temp` of sysctrl.c: `dolock`, the read, `clearlock` -/
  | sysctrl
  /-- `write_temp` of dns320-temp.sh -/
  | dns320Temp
  deriving DecidableEq, Repr

/-- Where a process is: the system call or command it runs next. -/
inductive Place where
  /-- outside `read_temp` and `write_temp` -/
  | outside
  /-- `mkdir`, with `i` left of the 100 tries after it -/
  | mkdir (i : Nat)
  /-- `read_int_from_file` of the pid file, in sysctrl -/
  | readPid
  /-- `test -f $lockdir/pid` -/
  | testPid
  /-- `lpid=$(cat $lockdir/pid)` -/
  | catPid
  /-- the `cat` in the operand of `kill -0` -/
  | catOperand
  /-- `kill(u, 0)` or `kill -0`, with the pid read -/
  | kill (read : Option Pid)
  /-- `creat` of the pid file -/
  | creat
  /-- the write to it -/
  | write (fd : Option Nat)
  /-- the read or write of the temperature file -/
  | temp
  /-- `rm -rf` looks into the directory -/
  | listDir
  /-- `unlink` of the pid file, by `clearlock` or `rm -rf` -/
  | unlink
  /-- `rmdir`, by `clearlock` or `rm -rf` -/
  | rmdir
  deriving DecidableEq, Repr

/-- How the two programs look at the owner when they have tried for too long. -/
def Prog.limit : Prog → Place
  | .sysctrl => .readPid
  | .dns320Temp => .testPid

/-- After a `mkdir` that failed: `i-- == 0` ends the tries. -/
def Prog.retry (prog : Prog) : Nat → Place
  | 0 => prog.limit
  | i + 1 => .mkdir i

/-- How they begin to give the lock back. -/
def Prog.release : Prog → Place
  | .sysctrl => .unlink
  | .dns320Temp => .listDir

/-- One step of the process `p`, which runs `prog p`. -/
def move (prog : Pid → Prog) (p : Pid) (alive : Pid → Bool) (x : LockDir) :
    Place → Unit → LockDir × Option Place
  | .outside, _ => (x, some (.mkdir 100))
  | .mkdir i, _ =>
      if x.dir then (x, some ((prog p).retry i)) else (x.mkdir, some .creat)
  | .readPid, _ =>
      match x.pid.content with
      -- No file or nothing in it: "couldn't read pid owner".
      | none => (x, some .creat)
      | some u => if p = u then (x, some .creat) else (x, some (.kill (some u)))
  | .testPid, _ => (x, some (if x.pid.present then .catPid else .creat))
  | .catPid, _ => (x, some (if x.pid.content = some p then .creat else .catOperand))
  | .catOperand, _ => (x, some (.kill x.pid.content))
  | .kill read, _ =>
      -- The owner is alive: exit(1).  Without an operand the command fails.
      if read.any alive then (x, none) else (x, some .creat)
  | .creat, _ => (x.creat.1, some (.write x.creat.2))
  | .write fd, _ => (x.write fd p, some .temp)
  | .temp, _ => (x, some (prog p).release)
  | .listDir, _ => (x, some (if x.pid.present then .unlink else .rmdir))
  | .unlink, _ => (x.unlink, some .rmdir)
  | .rmdir, _ => (x.rmdir, some .outside)

/-- The processes, each running `prog` of its pid, over and over. -/
def programs (prog : Pid → Prog) : Program LockDir Place Unit := ⟨.outside, move prog⟩

/-- Between acquiring the lock and releasing it. -/
def Place.inside : Place → Bool
  | .creat | .write _ | .temp | .listDir | .unlink | .rmdir => true
  | _ => false

/-- Inside, while the pid file does not hold the process: not yet written or
already unlinked. -/
def Place.unrecorded : Place → Bool
  | .creat | .write _ | .rmdir => true
  | _ => false

/-- Looking at the owner after the last try. -/
def Place.timedOut : Place → Bool
  | .readPid | .testPid | .catPid | .catOperand | .kill _ => true
  | _ => false

/-! ## The condition -/

/-- The process `p` takes the lock over by this event. -/
def TakesOver (prog : Pid → Prog) (s : System LockDir Place) (e : Event Unit) (p : Pid) : Prop :=
  ∃ t, e = .act p () ∧ s.proc p = .live t ∧ t.timedOut = true ∧
    (move prog p s.alive s.shared t ()).2 = some .creat

/-- The lock is there and is nobody else's: the pid file holds no other live
process, and no other is inside without being in it. -/
structure Stale (s : System LockDir Place) (p : Pid) : Prop where
  dir : s.shared.dir = true
  owner : ∀ q, s.shared.pid.content = some q → q ≠ p → s.alive q = false
  unrecorded : ∀ q u, q ≠ p → s.proc q = .live u → u.unrecorded = false

/-- A process takes over a stale lock only. -/
def TakesStale (prog : Pid → Prog) (s : System LockDir Place) (e : Event Unit) : Prop :=
  ∀ p, TakesOver prog s e p → Stale s p

/-! ## The invariant -/

/-- What a process relies on at its place. -/
structure At (x : LockDir) (p : Pid) (t : Place) : Prop where
  locked : t.inside = true → x.dir = true
  recorded : t.inside = true → t.unrecorded = false → x.pid.content = some p
  opened : ∀ o, t = .write o → ∃ fd, o = some fd ∧ x.pid.entry = some (fd, none)

/-- No two processes are inside. -/
def Apart (t u : Place) : Prop := ¬(t.inside = true ∧ u.inside = true)

/-- What holds at every place of the two programs. -/
def annotation : Annotation LockDir Place where
  at_ := At
  apart := Apart
  symm := fun h c => h c.symm

theorem annotation_freeEntry (prog : Pid → Prog) : annotation.FreeEntry (programs prog) where
  own := fun _ _ => ⟨nofun, nofun, nofun⟩
  pair := by
    intro u c
    have hout : ¬(Place.outside.inside = true) := nofun
    exact hout c.1

theorem Prog.not_inside_retry (prog : Prog) (i : Nat) : ¬(prog.retry i).inside = true := by
  cases i with
  | zero => cases prog <;> exact nofun
  | succ i => exact nofun

/-- A process outside relies on nothing. -/
theorem At.of_outside {x : LockDir} {p : Pid} {t : Place} (h : ¬t.inside = true) : At x p t where
  locked := fun ht => absurd ht h
  recorded := fun ht => absurd ht h
  opened := by
    intro o ho
    subst ho
    exact absurd rfl h

section Kept

variable {prog : Pid → Prog} {s : System LockDir Place} {p : Pid} {t : Place}

/-- A step from inside may do anything: nobody else is inside. -/
theorem kept_of_inside {r : LockDir × Option Place} (ht : t.inside = true)
    (hown : ∀ t', r.2 = some t' → At r.1 p t') : annotation.Kept s p t r where
  own := hown
  others := fun _ _ _ _ _ happart => At.of_outside fun hu => happart ⟨ht, hu⟩
  pair := fun _ _ _ _ _ _ _ happart c => happart ⟨ht, c.2⟩

/-- A step to a place outside that changes nothing. -/
theorem kept_of_outside {t' : Place} (ht' : ¬t'.inside = true) :
    annotation.Kept s p t (s.shared, some t') where
  own := by
    intro _ heq
    cases heq
    exact At.of_outside ht'
  others := fun _ _ _ _ hat _ => hat
  pair := by
    intro _ q u heq _ _ _ _ c
    cases heq
    exact ht' c.1

/-- `mkdir` of a directory that is not there: who is inside would have it. -/
theorem kept_mkdir (hdir : s.shared.dir = false) :
    annotation.Kept s p t (s.shared.mkdir, some .creat) where
  own := by
    intro _ heq
    cases heq
    exact ⟨fun _ => rfl, nofun, nofun⟩
  others := by
    intro q u _ _ hat _
    refine At.of_outside fun hu => ?_
    rw [hat.locked hu] at hdir
    cases hdir
  pair := by
    intro _ q u _ _ _ hat _ c
    rw [hat.locked c.2] at hdir
    cases hdir

/-- Looking at the owner changes nothing, and leads on, out or into the lock. -/
theorem move_timedOut (ht : t.timedOut = true) (x : LockDir) (alive : Pid → Bool) :
    (move prog p alive x t ()).1 = x ∧
      ∀ t', (move prog p alive x t ()).2 = some t' → t' = .creat ∨ ¬t'.inside = true := by
  cases t with
  | readPid =>
      rw [move]
      split
      · exact ⟨rfl, fun t' h => .inl (Option.some.inj h).symm⟩
      · split
        · exact ⟨rfl, fun t' h => .inl (Option.some.inj h).symm⟩
        · exact ⟨rfl, fun t' h => .inr (by cases h; exact nofun)⟩
  | testPid =>
      refine ⟨rfl, fun t' h => ?_⟩
      rw [move, Option.some.injEq] at h
      split at h
      · exact .inr (by cases h; exact nofun)
      · exact .inl h.symm
  | catPid =>
      refine ⟨rfl, fun t' h => ?_⟩
      rw [move, Option.some.injEq] at h
      split at h
      · exact .inl h.symm
      · exact .inr (by cases h; exact nofun)
  | catOperand => exact ⟨rfl, fun t' h => .inr (by cases h; exact nofun)⟩
  | kill read =>
      rw [move]
      split
      · exact ⟨rfl, nofun⟩
      · exact ⟨rfl, fun t' h => .inl (Option.some.inj h).symm⟩
  | _ => cases ht

/-- Taking over a stale lock: whoever is inside is in the pid file or not yet
there, and the lock would not be stale. -/
theorem kept_timedOut (ht : t.timedOut = true)
    (hstale : (move prog p s.alive s.shared t ()).2 = some .creat → Stale s p) :
    annotation.Kept s p t (move prog p s.alive s.shared t ()) := by
  have hsame : (move prog p s.alive s.shared t ()).1 = s.shared :=
    (move_timedOut ht s.shared s.alive).1
  have hnext : ∀ t', (move prog p s.alive s.shared t ()).2 = some t' →
      t' = .creat ∨ ¬t'.inside = true := (move_timedOut ht s.shared s.alive).2
  refine ⟨?_, ?_, ?_⟩
  · intro t' ht'
    rw [hsame]
    rcases hnext t' ht' with rfl | hout
    · exact ⟨fun _ => (hstale ht').dir, nofun, nofun⟩
    · exact At.of_outside hout
  · intro q u _ _ hat _
    rw [hsame]
    exact hat
  · intro t' q u ht' hne hq hat _ c
    rcases hnext t' ht' with rfl | hout
    · have hst := hstale ht'
      have hcontent := hat.recorded c.2 (hst.unrecorded q u hne hq)
      have hdead := hst.owner q hcontent hne
      rw [System.alive, hq] at hdead
      cases hdead
    · exact hout c.1

end Kept

/-- **Every step under the condition keeps the annotation.** -/
theorem move_kept {prog : Pid → Prog} {s : System LockDir Place} {p : Pid} {t : Place}
    (hlive : s.proc p = .live t) (hat : At s.shared p t)
    (hcond : TakesStale prog s (.act p ())) :
    annotation.Kept s p t (move prog p s.alive s.shared t ()) := by
  have hstale : t.timedOut = true → (move prog p s.alive s.shared t ()).2 = some .creat →
      Stale s p := fun ht hnext => hcond p ⟨t, rfl, hlive, ht, hnext⟩
  cases t with
  | outside => exact kept_of_outside nofun
  | mkdir i =>
      cases hdir : s.shared.dir with
      | true =>
          rw [move, if_pos hdir]
          exact kept_of_outside (Prog.not_inside_retry (prog p) i)
      | false =>
          rw [move, if_neg (by simp [hdir])]
          exact kept_mkdir hdir
  | readPid => exact kept_timedOut rfl (hstale rfl)
  | testPid => exact kept_timedOut rfl (hstale rfl)
  | catPid => exact kept_timedOut rfl (hstale rfl)
  | catOperand => exact kept_timedOut rfl (hstale rfl)
  | kill read => exact kept_timedOut rfl (hstale rfl)
  | creat =>
      refine kept_of_inside rfl ?_
      intro t' ht'
      cases ht'
      rw [move, LockDir.creat, if_pos (hat.locked rfl)]
      refine ⟨fun _ => rfl, nofun, ?_⟩
      intro o ho
      cases ho
      exact ⟨_, rfl, PidFile.creat_entry _⟩
  | write o =>
      refine kept_of_inside rfl ?_
      intro t' ht'
      cases ht'
      obtain ⟨fd, rfl, hentry⟩ := hat.opened o rfl
      exact ⟨fun _ => hat.locked rfl, fun _ _ => PidFile.content_write hentry p, nofun⟩
  | temp =>
      rw [move]
      refine kept_of_inside rfl ?_
      intro t' ht'
      cases ht'
      cases prog p with
      | sysctrl => exact ⟨fun _ => hat.locked rfl, fun _ _ => hat.recorded rfl rfl, nofun⟩
      | dns320Temp => exact ⟨fun _ => hat.locked rfl, fun _ _ => hat.recorded rfl rfl, nofun⟩
  | listDir =>
      rw [move]
      refine kept_of_inside rfl ?_
      intro t' ht'
      cases ht'
      cases s.shared.pid.present with
      | true => exact ⟨fun _ => hat.locked rfl, fun _ _ => hat.recorded rfl rfl, nofun⟩
      | false => exact ⟨fun _ => hat.locked rfl, nofun, nofun⟩
  | unlink =>
      refine kept_of_inside rfl ?_
      intro t' ht'
      cases ht'
      exact ⟨fun _ => hat.locked rfl, nofun, nofun⟩
  | rmdir =>
      refine kept_of_inside rfl ?_
      intro t' ht'
      cases ht'
      exact At.of_outside nofun

/-! ## Runs -/

/-- **The lock excludes as long as only stale locks are taken over.** -/
theorem temp_lock_excludes (prog : Pid → Prog) (s : System LockDir Place)
    (hstart : s.Start (programs prog)) (events : List (Event Unit))
    (hcond : Along (System.step (programs prog)) (TakesStale prog) s events) :
    (run (System.step (programs prog)) s events).Excludes Place.inside := by
  have hholds : annotation.Holds (run (System.step (programs prog)) s events) := by
    refine Annotation.holds_run (annotation_freeEntry prog) ?_ hstart hcond
    intro s p a t hh hc hp
    exact move_kept hp (hh.own hp) hc
  exact hholds.excludes fun h => h

/-! ## A process alone -/

/-- Only `p` is alive, and where it looks at the owner the lock is there. -/
structure Alone (p : Pid) (s : System LockDir Place) : Prop where
  only : ∀ q t, s.proc q = .live t → q = p
  dir : ∀ t, s.proc p = .live t → t.timedOut = true → s.shared.dir = true

/-- What a lonely process takes over is stale. -/
theorem Alone.takesStale {p : Pid} {s : System LockDir Place} (h : Alone p s) (prog : Pid → Prog)
    (e : Event Unit) : TakesStale prog s e := by
  intro p' hover
  obtain ⟨t, -, hlive, htimed, -⟩ := hover
  obtain rfl := h.only p' t hlive
  refine ⟨h.dir t hlive htimed, ?_, ?_⟩
  · intro q _ hne
    cases hq : s.proc q with
    | live u => exact absurd (h.only q u hq) hne
    | unborn => rw [System.alive, hq, Life.isLive_unborn]
    | dead => rw [System.alive, hq, Life.isLive_dead]
  · intro q u hne hq
    exact absurd (h.only q u hq) hne

/-- A step that leads to the owner changes nothing, and comes from there or from
a `mkdir` that found the lock. -/
theorem move_to_timedOut {prog : Pid → Prog} {p : Pid} {alive : Pid → Bool} {x : LockDir}
    {t t' : Place} (hnext : (move prog p alive x t ()).2 = some t') (ht' : t'.timedOut = true) :
    (move prog p alive x t ()).1 = x ∧ (t.timedOut = true ∨ x.dir = true) := by
  by_cases ht : t.timedOut = true
  · exact ⟨(move_timedOut ht x alive).1, .inl ht⟩
  cases t with
  | mkdir i =>
      cases hdir : x.dir with
      | true => exact ⟨by rw [move, if_pos hdir], .inr rfl⟩
      | false =>
          rw [move, if_neg (by simp [hdir])] at hnext
          cases hnext
          cases ht'
  | outside | creat | write | unlink | rmdir =>
      cases hnext
      cases ht'
  | temp =>
      cases hnext
      revert ht'
      cases prog p <;> exact nofun
  | listDir =>
      cases hnext
      revert ht'
      cases x.pid.present <;> exact nofun
  | readPid | testPid | catPid | catOperand | kill => exact absurd rfl ht

/-- A new place of `p`, or its end. -/
theorem Alone.update {p : Pid} {s : System LockDir Place} (h : Alone p s) {x : LockDir}
    {life : Life Place} (hdir : ∀ t, life = .live t → t.timedOut = true → x.dir = true) :
    Alone p ⟨x, Function.update s.proc p life⟩ := by
  constructor
  · intro q t hq
    by_contra hne
    exact hne (h.only q t (by simpa [Function.update_of_ne hne] using hq))
  · intro t ht
    exact hdir t (by simpa using ht)

/-- An event of `p` leaves it alone. -/
theorem Alone.step {p : Pid} {s : System LockDir Place} (h : Alone p s) (prog : Pid → Prog)
    {e : Event Unit} (he : e.pid = p) : Alone p (System.step (programs prog) s e) := by
  rcases System.step_cases (programs prog) s e with
    heq | ⟨p', rfl, -, heq⟩ | ⟨p', a, t, rfl, hp, heq⟩ | ⟨p', t, rfl, -, heq⟩
  · rw [heq]
    exact h
  · obtain rfl : p' = p := he
    rw [heq]
    refine h.update ?_
    intro t ht htimed
    cases ht
    cases htimed
  · obtain rfl : p' = p := he
    rw [heq]
    refine h.update ?_
    intro t' ht' htimed
    obtain ⟨hsame, hfrom⟩ := move_to_timedOut (System.after_eq_live ht') htimed
    have hdir : s.shared.dir = true := hfrom.elim (h.dir t hp) id
    change (move prog p' s.alive s.shared t ()).1.dir = true
    rw [hsame]
    exact hdir
  · obtain rfl : p' = p := he
    rw [heq]
    exact h.update nofun

/-- A run of one process alone meets the condition. -/
theorem along_alone {p : Pid} {s : System LockDir Place} (h : Alone p s) (prog : Pid → Prog)
    {events : List (Event Unit)} (hevents : ∀ e ∈ events, e.pid = p) :
    Along (System.step (programs prog)) (TakesStale prog) s events := by
  induction events generalizing s with
  | nil => trivial
  | cons e rest ih =>
      refine ⟨h.takesStale prog e, ih (h.step prog (hevents e List.mem_cons_self)) ?_⟩
      exact fun e' he' => hevents e' (List.mem_cons_of_mem e he')

/-- The lock left by process 7, which died inside. -/
def leftByDead : System LockDir Place :=
  ⟨⟨true, ⟨some (0, some 7), 1⟩, nofun⟩, fun p => if p = 7 then .dead else .unborn⟩

/-- Process 2 runs into the limit, finds the owner dead and takes the lock over. -/
def oneTakesOver : List (Event Unit) := .spawn 2 :: List.replicate 108 (.act 2 ())

theorem leftByDead_not_live (p : Pid) (t : Place) : leftByDead.proc p ≠ .live t := by
  intro hp
  change (if p = 7 then Life.dead else Life.unborn) = Life.live t at hp
  split at hp <;> cases hp

/-- That run: the lock is taken over, and process 2 is inside. -/
theorem temp_lock_excludes_oneTakesOver :
    (run (System.step (programs fun _ => .dns320Temp)) leftByDead oneTakesOver).Excludes
      Place.inside ∧
    (run (System.step (programs fun _ => .dns320Temp)) leftByDead oneTakesOver).proc 2 =
      .live .temp := by
  have halone : Alone 2 leftByDead :=
    ⟨fun q t hq => absurd hq (leftByDead_not_live q t),
      fun t hq => absurd hq (leftByDead_not_live 2 t)⟩
  have hevents : ∀ e ∈ oneTakesOver, e.pid = 2 := by decide
  refine ⟨?_, by decide +kernel⟩
  exact temp_lock_excludes (fun _ => .dns320Temp) leftByDead
    (fun p t hp => absurd hp (leftByDead_not_live p t)) oneTakesOver
    (along_alone halone _ hevents)

/-! ## Two waiters -/

/-- Process 0 has the lock and dies.  Process 1 and process 2 both run into the
limit, both find the owner dead, and both go on. -/
def twoTakeOver : List (Event Unit) :=
  .spawn 0 :: List.replicate 4 (.act 0 ()) ++ .die 0 ::
    .spawn 1 :: List.replicate 103 (.act 1 ()) ++
    .spawn 2 :: List.replicate 105 (.act 2 ()) ++
    List.replicate 3 (.act 1 ()) ++ List.replicate 3 (.act 2 ())

/-- No lock, and no process yet. -/
def noLock : System LockDir Place := ⟨⟨false, ⟨none, 0⟩, fun _ => rfl⟩, fun _ => .unborn⟩

/-- Process 2 is dns320-temp.sh, the others are sysctrl. -/
def twoPrograms (p : Pid) : Prog := if p = 2 then .dns320Temp else .sysctrl

/-- Both waiters are at the temperature file. -/
theorem temp_lock_not_excluding :
    noLock.Start (programs twoPrograms) ∧
      ¬(run (System.step (programs twoPrograms)) noLock twoTakeOver).Excludes Place.inside := by
  constructor
  · intro p t hp
    cases hp
  · intro hexcl
    have hone : (run (System.step (programs twoPrograms)) noLock twoTakeOver).proc 1 =
        .live .temp := by decide +kernel
    have htwo : (run (System.step (programs twoPrograms)) noLock twoTakeOver).proc 2 =
        .live .temp := by decide +kernel
    have hsame : (1 : Pid) = 2 := hexcl ⟨.temp, hone, rfl⟩ ⟨.temp, htwo, rfl⟩
    cases hsame

end AltF.Locks.TempLock
