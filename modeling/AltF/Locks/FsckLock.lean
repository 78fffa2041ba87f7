/-
  Locks/FsckLock.lean --- one filesystem check at a time.

  hot_aux.sh runs once for each partition that appears.  An instance with an fsck
  command waits for the directory `/tmp/fsck_lock`; it leaves a file that names it
  while it checks, and removes the directory when its filesystem is mounted.  An
  instance without an fsck command does not wait but comes to the same `rmdir`.
-/
import AltF.Foundation.Interference
import AltF.Locks.PidFile

set_option autoImplicit false

namespace AltF.Locks.FsckLock

open AltF.Foundation

/-! ## The script -/

/-- A device name, `$MDEV`, by its place in the order in which `ls` prints them. -/
abbrev Dev := Nat

/-- What an instance was started for. -/
structure Job where
  dev : Dev
  /-- `$fsckcmd` is not `echo`. -/
  hasFsck : Bool
  deriving DecidableEq, Repr

/-- The files the instances share. -/
structure Files where
  /-- `FSCK_LCK`, a directory, is there. -/
  lock : Bool
  /-- `/tmp/wait-$MDEV` -/
  wait : Dev → Bool
  /-- `/tmp/wait-$MDEV.pid` -/
  waitPid : Dev → Option Pid
  /-- `/tmp/check-$MDEV` -/
  check : Dev → Bool
  /-- `/tmp/check-$MDEV.pid` -/
  checkPid : Dev → PidFile

/-- Where an instance is: the command it runs next. -/
inductive Place where
  /-- `test "$fsckcmd" != "echo"` -/
  | testFsckcmd
  /-- `mkdir $FSCK_LCK`, after `cnt` listings that found no check -/
  | mkdir (cnt : Nat)
  /-- `test -f /tmp/wait-$MDEV` -/
  | testWait (cnt : Nat)
  /-- `touch /tmp/wait-$MDEV` -/
  | touchWait (cnt : Nat)
  /-- `echo $$ > /tmp/wait-$MDEV.pid` -/
  | writeWait (cnt : Nat)
  /-- `jbs=$(ls /tmp/check-*.pid)` -/
  | listChecks (cnt : Nat)
  /-- `cat $i`, for the first of the files that are left -/
  | catCheck (jbs : List Dev)
  /-- `kill -0` of what `cat` printed -/
  | killCheck (printed : Option Pid) (jbs : List Dev)
  /-- `rm -f` of the files of a check that is dead -/
  | rmCheck (jbs : List Dev)
  /-- `rm -f /tmp/wait-$MDEV /tmp/wait-$MDEV.pid` -/
  | rmWait
  /-- `grep -q "^/dev/$MDEV" /proc/mounts` -/
  | testMounts
  /-- `rmdir` of an instance whose device is already mounted -/
  | rmdirMounted
  /-- `touch $xf` -/
  | touchCheck
  /-- the open of `echo $$ > $pidf` -/
  | openCheck
  /-- its write -/
  | writeCheck (fd : Nat)
  /-- `$fsckcmd` is running -/
  | fsck
  /-- `rm -f $xf $logf $logf- $pidf` -/
  | rmOwn
  /-- from `mountpoint -q` to the end of `mount`; `checked` if it came here by fsck -/
  | mount (checked : Bool)
  /-- `rmdir $FSCK_LCK` -/
  | rmdir (checked : Bool)
  /-- the rest of the script -/
  | rest
  deriving DecidableEq, Repr

/-- The devices with a check file, as `ls` lists them. -/
def Files.jobs (devs : List Dev) (x : Files) : List Dev :=
  devs.filter fun d => (x.checkPid d).present

/-- The loop over `$jbs`: the next file, or `mkdir` again when none is left. -/
def nextCheck : List Dev → Place
  | [] => .mkdir 0
  | d :: jbs => .catCheck (d :: jbs)

/-- One command of the instance `p`, a `rm` of several files too: of the check
files the instances read only the one with the pid.  The instance was started for
`job p`, and `devs` are the device names there are.  The outside decides, by `a`,
whether the device is found mounted and whether a command that takes its time is
over. -/
def move (devs : List Dev) (job : Pid → Job) (p : Pid) (alive : Pid → Bool) (x : Files) :
    Place → Bool → Files × Option Place
  | .testFsckcmd, _ => (x, some (if (job p).hasFsck then .mkdir 0 else .mount false))
  | .mkdir cnt, _ =>
      if x.lock then (x, some (.testWait cnt)) else ({ x with lock := true }, some .rmWait)
  | .testWait cnt, _ =>
      (x, some (if x.wait (job p).dev then .listChecks cnt else .touchWait cnt))
  | .touchWait cnt, _ =>
      ({ x with wait := Function.update x.wait (job p).dev true }, some (.writeWait cnt))
  | .writeWait cnt, _ =>
      ({ x with waitPid := Function.update x.waitPid (job p).dev (some p) },
        some (.listChecks cnt))
  | .listChecks cnt, _ =>
      match x.jobs devs with
      -- dangling for 5 consecutive checks, take over
      | [] => (x, some (if cnt + 1 = 5 then .rmWait else .mkdir (cnt + 1)))
      | d :: jbs => (x, some (.catCheck (d :: jbs)))
  | .catCheck [], _ => (x, some (.mkdir 0))
  | .catCheck (d :: jbs), _ => (x, some (.killCheck (x.checkPid d).content (d :: jbs)))
  | .killCheck _ [], _ => (x, some (.mkdir 0))
  | .killCheck printed (d :: jbs), _ =>
      if printed.any alive then
        -- "already being fscked": exit 0
        if d = (job p).dev then (x, none) else (x, some (nextCheck jbs))
      else
        (x, some (.rmCheck (d :: jbs)))
  | .rmCheck [], _ => (x, some (.mkdir 0))
  | .rmCheck (d :: jbs), _ =>
      ({ x with
        check := Function.update x.check d false
        checkPid := Function.update x.checkPid d (x.checkPid d).unlink }, some (nextCheck jbs))
  | .rmWait, _ =>
      ({ x with
        wait := Function.update x.wait (job p).dev false
        waitPid := Function.update x.waitPid (job p).dev none }, some .testMounts)
  | .testMounts, a => (x, some (if a then .rmdirMounted else .touchCheck))
  | .rmdirMounted, _ => ({ x with lock := false }, none)
  | .touchCheck, _ =>
      ({ x with check := Function.update x.check (job p).dev true }, some .openCheck)
  | .openCheck, _ =>
      ({ x with
        checkPid := Function.update x.checkPid (job p).dev (x.checkPid (job p).dev).creat.1 },
        some (.writeCheck (x.checkPid (job p).dev).creat.2))
  | .writeCheck fd, _ =>
      ({ x with
        checkPid := Function.update x.checkPid (job p).dev
          ((x.checkPid (job p).dev).write fd p) }, some .fsck)
  | .fsck, a => (x, some (if a then .rmOwn else .fsck))
  | .rmOwn, _ =>
      ({ x with
        check := Function.update x.check (job p).dev false
        checkPid := Function.update x.checkPid (job p).dev
          (x.checkPid (job p).dev).unlink }, some (.mount true))
  | .mount checked, a => (x, some (if a then .rmdir checked else .mount checked))
  | .rmdir _, _ => ({ x with lock := false }, some .rest)
  | .rest, _ => (x, none)

/-- The script, started for the jobs `job`. -/
def script (devs : List Dev) (job : Pid → Job) : Program Files Place Bool :=
  ⟨.testFsckcmd, move devs job⟩

/-- The fsck command is running. -/
def Place.checking : Place → Bool
  | .fsck => true
  | _ => false

/-- The instance has acquired the lock and not yet removed it. -/
def Place.holds : Place → Bool
  | .rmWait | .testMounts | .rmdirMounted | .touchCheck | .openCheck | .writeCheck _ | .fsck
  | .rmOwn | .mount true | .rmdir true => true
  | _ => false

/-! ## The condition -/

/-- No other live instance has acquired the lock and not yet removed it. -/
def Unheld (s : System Files Place) (p : Pid) : Prop :=
  ∀ q u, q ≠ p → s.proc q = .live u → u.holds = false

/-- The instance `p` takes the lock over by this event. -/
def TakesOver (devs : List Dev) (s : System Files Place) (e : Event Bool) (p : Pid) : Prop :=
  ∃ a, e = .act p a ∧ s.proc p = .live (.listChecks 4) ∧ s.shared.jobs devs = []

/-- The instance `p` removes the lock by this event, without having acquired it. -/
def RemovesForeign (s : System Files Place) (e : Event Bool) (p : Pid) : Prop :=
  ∃ a, e = .act p a ∧ s.proc p = .live (.rmdir false)

/-- The lock is taken over only while it is there and nobody's, and an instance
that has no fsck command removes none that is somebody's. -/
structure Orderly (devs : List Dev) (s : System Files Place) (e : Event Bool) : Prop where
  takeover : ∀ p, TakesOver devs s e p → s.shared.lock = true ∧ Unheld s p
  removal : ∀ p, RemovesForeign s e p → Unheld s p

/-! ## The invariant -/

/-- Who holds the lock has the directory, and nobody else holds it. -/
def annotation : Annotation Files Place where
  at_ := fun x _ t => t.holds = true → x.lock = true
  apart := fun t u => ¬(t.holds = true ∧ u.holds = true)
  symm := fun h c => h c.symm

theorem annotation_freeEntry (devs : List Dev) (job : Pid → Job) :
    annotation.FreeEntry (script devs job) where
  own := fun _ _ => nofun
  pair := by
    intro u c
    have hentry : ¬(Place.testFsckcmd.holds = true) := nofun
    exact hentry c.1

section Kept

variable {s : System Files Place} {p : Pid} {t : Place}

/-- A step of the holder may do anything: nobody else holds the lock. -/
theorem kept_of_holds {r : Files × Option Place} (ht : t.holds = true)
    (hown : ∀ t', r.2 = some t' → t'.holds = true → r.1.lock = true) :
    annotation.Kept s p t r where
  own := hown
  others := fun _ _ _ _ _ happart hu => absurd ⟨ht, hu⟩ happart
  pair := fun _ _ _ _ _ _ _ happart c => happart ⟨ht, c.2⟩

/-- A step to a place without the lock that leaves the lock alone. -/
theorem kept_of_free {x' : Files} {t' : Place} (hlock : x'.lock = s.shared.lock)
    (hfree : ¬t'.holds = true) : annotation.Kept s p t (x', some t') where
  own := by
    intro _ heq h
    cases heq
    exact absurd h hfree
  others := by
    intro q u _ _ hat _ hu
    rw [hlock]
    exact hat hu
  pair := by
    intro _ q u heq _ _ _ _ c
    cases heq
    exact hfree c.1

/-- The end of an instance that leaves the files alone. -/
theorem kept_exit : annotation.Kept s p t (s.shared, none) where
  own := nofun
  others := fun _ _ _ _ hat _ => hat
  pair := nofun

/-- A step while nobody else holds the lock. -/
theorem kept_of_unheld {r : Files × Option Place} (hunheld : Unheld s p)
    (hown : ∀ t', r.2 = some t' → t'.holds = true → r.1.lock = true) :
    annotation.Kept s p t r where
  own := hown
  others := by
    intro q u hne hq _ _ hu
    rw [hunheld q u hne hq] at hu
    cases hu
  pair := by
    intro _ q u _ hne hq _ _ c
    have hu := c.2
    rw [hunheld q u hne hq] at hu
    cases hu

/-- Where there is no lock, nobody holds it. -/
theorem unheld_of_free (hholds : annotation.Holds s) (hfree : s.shared.lock = false) :
    Unheld s p := by
  intro q u _ hq
  cases hu : u.holds with
  | false => rfl
  | true =>
      have hlock : s.shared.lock = true := hholds.own hq hu
      rw [hfree] at hlock
      cases hlock

end Kept

theorem not_holds_nextCheck (jbs : List Dev) : ¬(nextCheck jbs).holds = true := by
  cases jbs with
  | nil => exact nofun
  | cons d jbs => exact nofun

/-- **Every step under the condition keeps the annotation.** -/
theorem move_kept {devs : List Dev} {job : Pid → Job} {s : System Files Place} {p : Pid}
    {t : Place} {a : Bool} (hholds : annotation.Holds s) (hlive : s.proc p = .live t)
    (hcond : Orderly devs s (.act p a)) :
    annotation.Kept s p t (move devs job p s.alive s.shared t a) := by
  have hat : t.holds = true → s.shared.lock = true := hholds.own hlive
  cases t with
  | testFsckcmd =>
      rw [move]
      exact kept_of_free rfl (by cases (job p).hasFsck <;> exact nofun)
  | mkdir cnt =>
      cases hlock : s.shared.lock with
      | true =>
          rw [move, if_pos hlock]
          exact kept_of_free rfl nofun
      | false =>
          rw [move, if_neg (by simp [hlock])]
          exact kept_of_unheld (unheld_of_free hholds hlock) fun _ _ _ => rfl
  | testWait cnt =>
      rw [move]
      exact kept_of_free rfl (by cases s.shared.wait (job p).dev <;> exact nofun)
  | touchWait cnt => exact kept_of_free rfl nofun
  | writeWait cnt => exact kept_of_free rfl nofun
  | listChecks cnt =>
      cases hjobs : s.shared.jobs devs with
      | cons d jbs =>
          rw [move, hjobs]
          exact kept_of_free rfl nofun
      | nil =>
          rw [move, hjobs]
          by_cases hcnt : cnt + 1 = 5
          · obtain rfl : cnt = 4 := by omega
            obtain ⟨hlock, hunheld⟩ := hcond.takeover p ⟨a, rfl, hlive, hjobs⟩
            exact kept_of_unheld hunheld fun _ _ _ => hlock
          · rw [if_neg hcnt]
            exact kept_of_free rfl nofun
  | catCheck jbs => cases jbs <;> exact kept_of_free rfl nofun
  | killCheck printed jbs =>
      cases jbs with
      | nil => exact kept_of_free rfl nofun
      | cons d jbs =>
          rw [move]
          split
          · split
            · exact kept_exit
            · exact kept_of_free rfl (not_holds_nextCheck jbs)
          · exact kept_of_free rfl nofun
  | rmCheck jbs =>
      cases jbs with
      | nil => exact kept_of_free rfl nofun
      | cons d jbs => exact kept_of_free rfl (not_holds_nextCheck jbs)
  | rmWait => exact kept_of_holds rfl fun _ _ _ => hat rfl
  | testMounts => exact kept_of_holds rfl fun _ _ _ => hat rfl
  | rmdirMounted => exact kept_of_holds rfl nofun
  | touchCheck => exact kept_of_holds rfl fun _ _ _ => hat rfl
  | openCheck => exact kept_of_holds rfl fun _ _ _ => hat rfl
  | writeCheck fd => exact kept_of_holds rfl fun _ _ _ => hat rfl
  | fsck => exact kept_of_holds rfl fun _ _ _ => hat rfl
  | rmOwn => exact kept_of_holds rfl fun _ _ _ => hat rfl
  | mount checked =>
      cases checked with
      | true => exact kept_of_holds rfl fun _ _ _ => hat rfl
      | false =>
          rw [move]
          exact kept_of_free rfl (by cases a <;> exact nofun)
  | rmdir checked =>
      have hrest : ∀ t', some Place.rest = some t' → ¬t'.holds = true := by
        intro t' ht'
        cases ht'
        exact nofun
      cases checked with
      | true => exact kept_of_holds rfl fun t' ht' h => absurd h (hrest t' ht')
      | false =>
          have hunheld := hcond.removal p ⟨a, rfl, hlive⟩
          exact kept_of_unheld hunheld fun t' ht' h => absurd h (hrest t' ht')
  | rest => exact kept_exit

/-! ## Runs -/

/-- **One fsck at a time**, as long as the lock is taken over and removed in
order. -/
theorem fsck_excludes (devs : List Dev) (job : Pid → Job) (s : System Files Place)
    (hstart : s.Start (script devs job)) (events : List (Event Bool))
    (hcond : Along (System.step (script devs job)) (Orderly devs) s events) :
    (run (System.step (script devs job)) s events).Excludes Place.checking := by
  have hholds : annotation.Holds (run (System.step (script devs job)) s events) := by
    refine Annotation.holds_run (annotation_freeEntry devs job) ?_ hstart hcond
    intro s p a t hh hc hp
    exact move_kept hh hp hc
  refine hholds.excludes ?_
  intro t u happart c
  have hfsck : ∀ {v : Place}, v.checking = true → v.holds = true := by
    intro v hv
    cases v <;> first | rfl | cases hv
  exact happart ⟨hfsck c.1, hfsck c.2⟩

/-- Neither the fifth listing of an instance nor the removal of the lock by one
that has no fsck command. -/
def quiet (s : System Files Place) : Event Bool → Bool
  | .act p _ =>
      match s.proc p with
      | .live (.listChecks 4) | .live (.rmdir false) => false
      | _ => true
  | _ => true

/-- A quiet event needs no care. -/
theorem orderly_of_quiet {devs : List Dev} {s : System Files Place} {e : Event Bool}
    (h : quiet s e = true) : Orderly devs s e := by
  constructor
  · intro p hover
    obtain ⟨a, rfl, hlive, -⟩ := hover
    simp only [quiet, hlive] at h
    cases h
  · intro p hremoves
    obtain ⟨a, rfl, hlive⟩ := hremoves
    simp only [quiet, hlive] at h
    cases h

/-- No file yet, and no instance. -/
def booted : System Files Place :=
  ⟨⟨false, fun _ => false, fun _ => none, fun _ => false, fun _ => ⟨none, 0⟩⟩, fun _ => .unborn⟩

theorem booted_start (devs : List Dev) (job : Pid → Job) : booted.Start (script devs job) := by
  intro p t hp
  cases hp

/-- Three devices; the filesystem of the last has no fsck command. -/
def threeJobs (p : Pid) : Job := ⟨p, p != 3⟩

/-- Instance 1 checks its device, and instance 2 waits. -/
def oneWaits : List (Event Bool) :=
  .spawn 1 :: List.replicate 9 (.act 1 false) ++ .spawn 2 :: List.replicate 20 (.act 2 false)

/-- That run: instance 1 is in its fsck, and instance 2 waits. -/
theorem fsck_excludes_oneWaits :
    (run (System.step (script [1, 2, 3] threeJobs)) booted oneWaits).Excludes Place.checking ∧
      (run (System.step (script [1, 2, 3] threeJobs)) booted oneWaits).proc 1 = .live .fsck := by
  refine ⟨fsck_excludes [1, 2, 3] threeJobs booted (booted_start _ _) oneWaits ?_, by decide⟩
  have hquiet : Along (System.step (script [1, 2, 3] threeJobs)) (fun s e => quiet s e = true)
      booted oneWaits := by decide +kernel
  exact hquiet.mono fun _ _ h => orderly_of_quiet h

/-! ## Two checks at a time -/

/-- Instance 1 is in its fsck when instance 3, which has no fsck command, has
mounted its filesystem and removes the lock; instance 2 makes it again. -/
def lockRemoved : List (Event Bool) :=
  .spawn 1 :: List.replicate 7 (.act 1 false) ++ .spawn 3 :: List.replicate 3 (.act 3 true) ++
    .spawn 2 :: List.replicate 7 (.act 2 false)

/-- Two instances are in their fsck. -/
theorem fsck_not_excluding :
    booted.Start (script [1, 2, 3] threeJobs) ∧
      ¬(run (System.step (script [1, 2, 3] threeJobs)) booted lockRemoved).Excludes
        Place.checking := by
  refine ⟨booted_start _ _, ?_⟩
  intro hexcl
  have hone : (run (System.step (script [1, 2, 3] threeJobs)) booted lockRemoved).proc 1 =
      .live .fsck := by decide
  have htwo : (run (System.step (script [1, 2, 3] threeJobs)) booted lockRemoved).proc 2 =
      .live .fsck := by decide
  have hsame : (1 : Pid) = 2 := hexcl ⟨.fsck, hone, rfl⟩ ⟨.fsck, htwo, rfl⟩
  cases hsame

end AltF.Locks.FsckLock
