/-
  Locks/Backup.lean --- one backup at a time.

  The backup script owns the turn by a pid file, and looks at or changes that file
  only under a second lock, a directory that it holds for a few commands and drops
  while it waits.
-/
import AltF.Foundation.Interference
import AltF.Locks.PidFile

set_option autoImplicit false

namespace AltF.Locks.Backup

open AltF.Foundation

/-! ## The script -/

/-- What `STATEFILE` says of a backup. -/
inductive Progress where
  /-- `Queued` -/
  | queued
  /-- `In progress` -/
  | inProgress
  deriving DecidableEq, Repr

/-- The files the script's processes share. -/
structure Files where
  /-- `LOCKFILE`, a directory, is there. -/
  lockdir : Bool
  /-- `PIDFILE` -/
  pidFile : PidFile
  /-- `STATEFILE`, one for each backup id. -/
  stateFile : Nat → Option Progress

/-- Where a process is: the command it runs next. -/
inductive Place where
  /-- `validate` -/
  | validate
  /-- `mkdir $LOCKFILE` of `lock` in `exclusive` -/
  | lock
  /-- `test -e $PIDFILE` -/
  | testPid
  /-- `cat $PIDFILE` -/
  | catPid
  /-- `kill -0` of what `cat` printed -/
  | kill (printed : Option Pid)
  /-- `echo "Queued"` -/
  | queue
  /-- `unlock` before the `sleep` -/
  | unlockQueued
  /-- the open of `echo $$ > $PIDFILE` -/
  | openPid
  /-- its write -/
  | writePid (fd : Nat)
  /-- `echo "In progress"` -/
  | progress
  /-- `unlock` at the end of `exclusive` -/
  | unlockOwned
  /-- the backup, from the return of `exclusive` to the call of `cleanup` -/
  | backup
  /-- `lock` in `cleanup` -/
  | lockCleanup
  /-- `rm -f $PIDFILE` -/
  | rmPid
  /-- `rm -f ${STATEFILE}$id` -/
  | rmState
  /-- `unlock` in `cleanup` -/
  | unlockCleanup
  /-- `exit` -/
  | exit
  deriving DecidableEq, Repr

/-- One command of the process `p`, the backup of id `backupId p`.  The outside decides,
by `a`, whether `validate` succeeds and whether the backup is over. -/
def move (backupId : Pid → Nat) (p : Pid) (alive : Pid → Bool) (x : Files) :
    Place → Bool → Files × Option Place
  | .validate, a => (x, some (if a then .lock else .exit))
  | .lock, _ =>
      if x.lockdir then (x, some .lock) else ({ x with lockdir := true }, some .testPid)
  | .testPid, _ => (x, some (if x.pidFile.present then .catPid else .openPid))
  | .catPid, _ => (x, some (.kill x.pidFile.content))
  | .kill printed, _ =>
      -- Without an operand `kill` fails.
      (x, some (if printed.any alive then .queue else .openPid))
  | .queue, _ =>
      ({ x with stateFile := Function.update x.stateFile (backupId p) (some .queued) },
        some .unlockQueued)
  | .unlockQueued, _ => ({ x with lockdir := false }, some .lock)
  | .openPid, _ =>
      ({ x with pidFile := x.pidFile.creat.1 }, some (.writePid x.pidFile.creat.2))
  | .writePid fd, _ => ({ x with pidFile := x.pidFile.write fd p }, some .progress)
  | .progress, _ =>
      ({ x with stateFile := Function.update x.stateFile (backupId p) (some .inProgress) },
        some .unlockOwned)
  | .unlockOwned, _ => ({ x with lockdir := false }, some .backup)
  | .backup, a => (x, some (if a then .lockCleanup else .backup))
  | .lockCleanup, _ =>
      if x.lockdir then (x, some .lockCleanup) else ({ x with lockdir := true }, some .rmPid)
  | .rmPid, _ => ({ x with pidFile := x.pidFile.unlink }, some .rmState)
  | .rmState, _ =>
      ({ x with stateFile := Function.update x.stateFile (backupId p) none }, some .unlockCleanup)
  | .unlockCleanup, _ => ({ x with lockdir := false }, some .exit)
  | .exit, _ => (x, none)

/-- The script, started for the backup ids `backupId`. -/
def script (backupId : Pid → Nat) : Program Files Place Bool := ⟨.validate, move backupId⟩

/-! ## Places -/

/-- The process holds `LOCKFILE`. -/
def Place.holds : Place → Bool
  | .validate | .lock | .backup | .lockCleanup | .exit => false
  | _ => true

/-- The process has seen that nobody owns the turn, and takes it. -/
def Place.claims : Place → Bool
  | .openPid | .writePid _ => true
  | _ => false

/-- The process has the turn: its pid is written and not yet removed. -/
def Place.owns : Place → Bool
  | .progress | .unlockOwned | .backup | .lockCleanup | .rmPid => true
  | _ => false

/-- Between the return of `exclusive` and the removal of the pid file. -/
def Place.exclusive : Place → Bool
  | .backup | .lockCleanup | .rmPid => true
  | _ => false

/-- The part of the script where the turn is owned contains the exclusive part. -/
theorem Place.owns_of_exclusive {t : Place} (h : t.exclusive = true) : t.owns = true := by
  cases t <;> first | rfl | cases h

/-! ## The invariant -/

/-- What a process relies on at its place. -/
structure At (x : Files) (p : Pid) (t : Place) : Prop where
  locked : t.holds = true → x.lockdir = true
  owner : t.owns = true → x.pidFile.content = some p
  printed : ∀ c, t = .kill c → c = x.pidFile.content
  opened : ∀ fd, t = .writePid fd → x.pidFile.entry = some (fd, none)

/-- Places two processes never have at one time: both under the lock, or one with
the turn while the other takes it. -/
structure Apart (t u : Place) : Prop where
  lock : ¬(t.holds = true ∧ u.holds = true)
  turn : ¬(t.claims = true ∧ u.owns = true)
  turn' : ¬(t.owns = true ∧ u.claims = true)

/-- What holds at every place of the script. -/
def annotation : Annotation Files Place where
  at_ := At
  apart := Apart
  symm := fun h => ⟨fun c => h.lock c.symm, fun c => h.turn' c.symm, fun c => h.turn c.symm⟩

theorem annotation_freeEntry (backupId : Pid → Nat) : annotation.FreeEntry (script backupId) where
  own := fun _ _ => ⟨nofun, nofun, nofun, nofun⟩
  pair := by
    intro u
    have hlock : ¬(Place.validate.holds = true) := nofun
    have hclaims : ¬(Place.validate.claims = true) := nofun
    have howns : ¬(Place.validate.owns = true) := nofun
    exact ⟨fun c => hlock c.1, fun c => hclaims c.1, fun c => howns c.1⟩

/-! ## What a step keeps -/

/-- The place `t'` is nowhere that `t` is not. -/
structure Within (t' t : Place) : Prop where
  holds : t'.holds = true → t.holds = true
  claims : t'.claims = true → t.claims = true
  owns : t'.owns = true → t.owns = true

theorem Apart.mono {t t' u : Place} (h : Apart t u) (hw : Within t' t) : Apart t' u :=
  ⟨fun c => h.lock ⟨hw.holds c.1, c.2⟩, fun c => h.turn ⟨hw.claims c.1, c.2⟩,
    fun c => h.turn' ⟨hw.owns c.1, c.2⟩⟩

/-- Who claims the turn holds the lock. -/
theorem Place.holds_of_claims {t : Place} (h : t.claims = true) : t.holds = true := by
  cases t <;> first | rfl | cases h

/-- The assertions name only the lock and the pid file. -/
theorem At.congr {x x' : Files} {p : Pid} {t : Place} (hlock : x'.lockdir = x.lockdir)
    (hfile : x'.pidFile = x.pidFile) (h : At x p t) : At x' p t where
  locked := fun ht => by rw [hlock, h.locked ht]
  owner := fun ht => by rw [hfile, h.owner ht]
  printed := fun c ht => by rw [hfile, h.printed c ht]
  opened := fun fd ht => by rw [hfile, h.opened fd ht]

/-- A process without the lock relies on the pid file only if it has the turn. -/
theorem At.of_not_holds {x : Files} {p : Pid} {t : Place} (hfree : ¬t.holds = true)
    (howner : t.owns = true → x.pidFile.content = some p) : At x p t where
  locked := fun ht => absurd ht hfree
  owner := howner
  printed := by
    intro c ht
    subst ht
    exact absurd rfl hfree
  opened := by
    intro fd ht
    subst ht
    exact absurd rfl hfree

section Kept

variable {s : System Files Place} {p : Pid} {t t' : Place} {x' : Files}

/-- A step that leaves the lock and the pid file alone. -/
theorem kept_of_same (hlock : x'.lockdir = s.shared.lockdir)
    (hfile : x'.pidFile = s.shared.pidFile) (hown : At x' p t') (hw : Within t' t) :
    annotation.Kept s p t (x', some t') where
  own := by
    intro _ heq
    cases heq
    exact hown
  others := fun q u _ _ hat _ => At.congr hlock hfile hat
  pair := by
    intro _ q u heq _ _ _ happart
    cases heq
    exact Apart.mono happart hw

/-- A step under the lock: nobody else holds it, so the others rely on the pid
file only where they have the turn. -/
theorem kept_of_holds (hholds : t.holds = true) (hown : At x' p t')
    (howner : ∀ q u, q ≠ p → Apart t u → u.owns = true →
      s.shared.pidFile.content = some q → x'.pidFile.content = some q)
    (hpair : ∀ u, Apart t u → Apart t' u) :
    annotation.Kept s p t (x', some t') where
  own := by
    intro _ heq
    cases heq
    exact hown
  others := by
    intro q u hne _ hat happart
    refine At.of_not_holds (fun hu => happart.lock ⟨hholds, hu⟩) ?_
    intro hu
    exact howner q u hne happart hu (hat.owner hu)
  pair := by
    intro _ q u heq _ _ _ happart
    cases heq
    exact hpair u happart

/-- `mkdir` of a lock that is free: whoever else held it would have made it. -/
theorem kept_mkdir (hfree : s.shared.lockdir = false)
    (hown : At { s.shared with lockdir := true } p t')
    (hclaims : ¬t'.claims = true) (howns : t'.owns = true → t.owns = true) :
    annotation.Kept s p t ({ s.shared with lockdir := true }, some t') where
  own := by
    intro _ heq
    cases heq
    exact hown
  others := fun q u _ _ hat _ =>
    ⟨fun _ => rfl, hat.owner, hat.printed, hat.opened⟩
  pair := by
    intro _ q u heq _ _ hat happart
    cases heq
    refine ⟨?_, fun c => hclaims c.1, fun c => happart.turn' ⟨howns c.1, c.2⟩⟩
    intro c
    have hlocked := hat.locked c.2
    rw [hfree] at hlocked
    cases hlocked

/-- A step under the lock to the place where the turn is taken: the pid file
names no live process. -/
theorem kept_openPid (hholds : t.holds = true) (hown : At s.shared p .openPid)
    (hfree : ∀ q, s.shared.pidFile.content = some q → ¬s.alive q = true) :
    annotation.Kept s p t (s.shared, some .openPid) where
  own := by
    intro _ heq
    cases heq
    exact hown
  others := fun _ _ _ _ hat _ => hat
  pair := by
    intro _ q u heq _ hq hat happart
    cases heq
    refine ⟨fun c => happart.lock ⟨hholds, c.2⟩, ?_, nofun⟩
    intro c
    exact hfree q (hat.owner c.2) (by simp [System.alive, hq])

/-- The end of a process. -/
theorem kept_exit : annotation.Kept s p t (s.shared, none) where
  own := nofun
  others := fun _ _ _ _ hat _ => hat
  pair := nofun

end Kept

theorem Within.refl (t : Place) : Within t t := ⟨fun h => h, fun h => h, fun h => h⟩

/-- **Every step of the script keeps the annotation.** -/
theorem move_kept (backupId : Pid → Nat) {s : System Files Place} {p : Pid} {t : Place}
    (hat : At s.shared p t) (a : Bool) :
    annotation.Kept s p t (move backupId p s.alive s.shared t a) := by
  cases t with
  | validate =>
      refine kept_of_same rfl rfl ?_ ?_
      · cases a <;> exact At.of_not_holds nofun nofun
      · cases a <;> exact ⟨nofun, nofun, nofun⟩
  | lock =>
      cases hdir : s.shared.lockdir with
      | true =>
          rw [move, if_pos hdir]
          exact kept_of_same rfl rfl hat (Within.refl _)
      | false =>
          rw [move, if_neg (by simp [hdir])]
          exact kept_mkdir hdir ⟨fun _ => rfl, nofun, nofun, nofun⟩ nofun nofun
  | testPid =>
      cases hpresent : s.shared.pidFile.present with
      | true =>
          rw [move, if_pos hpresent]
          exact kept_of_same rfl rfl ⟨hat.locked, nofun, nofun, nofun⟩ ⟨fun _ => rfl, nofun, nofun⟩
      | false =>
          rw [move, if_neg (by simp [hpresent])]
          refine kept_openPid rfl ⟨hat.locked, nofun, nofun, nofun⟩ ?_
          intro q hq _
          rw [PidFile.content_of_absent hpresent] at hq
          cases hq
  | catPid =>
      refine kept_of_same rfl rfl ⟨hat.locked, nofun, ?_, nofun⟩ ⟨fun _ => rfl, nofun, nofun⟩
      intro c hc
      cases hc
      rfl
  | kill printed =>
      cases halive : printed.any s.alive with
      | true =>
          rw [move, if_pos halive]
          exact kept_of_same rfl rfl ⟨hat.locked, nofun, nofun, nofun⟩ ⟨fun _ => rfl, nofun, nofun⟩
      | false =>
          rw [move, if_neg (by simp [halive])]
          refine kept_openPid rfl ⟨hat.locked, nofun, nofun, nofun⟩ ?_
          -- The owner would be who the file names, and `kill` found nobody there.
          intro q hq hlive
          rw [hat.printed printed rfl, hq] at halive
          rw [Option.any_some] at halive
          rw [halive] at hlive
          cases hlive
  | queue =>
      exact kept_of_same rfl rfl ⟨hat.locked, nofun, nofun, nofun⟩ ⟨fun _ => rfl, nofun, nofun⟩
  | unlockQueued =>
      refine kept_of_holds rfl (At.of_not_holds nofun nofun) ?_ ?_
      · exact fun q u _ _ _ hq => hq
      · exact fun u happart => Apart.mono happart ⟨nofun, nofun, nofun⟩
  | openPid =>
      refine kept_of_holds rfl ⟨hat.locked, nofun, nofun, ?_⟩ ?_ ?_
      · intro fd hfd
        cases hfd
        exact PidFile.creat_entry _
      · exact fun q u _ happart hu _ => absurd ⟨rfl, hu⟩ happart.turn
      · exact fun u happart => Apart.mono happart ⟨fun _ => rfl, fun _ => rfl, nofun⟩
  | writePid fd =>
      refine kept_of_holds rfl ⟨hat.locked, ?_, nofun, nofun⟩ ?_ ?_
      · exact fun _ => PidFile.content_write (hat.opened fd rfl) p
      · exact fun q u _ happart hu _ => absurd ⟨rfl, hu⟩ happart.turn
      · intro u happart
        refine ⟨fun c => happart.lock ⟨rfl, c.2⟩, nofun, ?_⟩
        exact fun c => happart.lock ⟨rfl, Place.holds_of_claims c.2⟩
  | progress =>
      exact kept_of_same rfl rfl ⟨hat.locked, hat.owner, nofun, nofun⟩
        ⟨fun _ => rfl, nofun, fun _ => rfl⟩
  | unlockOwned =>
      refine kept_of_holds rfl (At.of_not_holds nofun (fun _ => hat.owner rfl)) ?_ ?_
      · exact fun q u _ _ _ hq => hq
      · exact fun u happart => Apart.mono happart ⟨nofun, nofun, fun _ => rfl⟩
  | backup =>
      refine kept_of_same rfl rfl ?_ ?_
      · cases a <;> exact At.of_not_holds nofun (fun _ => hat.owner rfl)
      · cases a <;> exact ⟨nofun, nofun, fun _ => rfl⟩
  | lockCleanup =>
      cases hdir : s.shared.lockdir with
      | true =>
          rw [move, if_pos hdir]
          exact kept_of_same rfl rfl hat (Within.refl _)
      | false =>
          rw [move, if_neg (by simp [hdir])]
          refine kept_mkdir hdir ⟨fun _ => rfl, fun _ => hat.owner rfl, nofun, nofun⟩ nofun ?_
          exact fun _ => rfl
  | rmPid =>
      refine kept_of_holds rfl ⟨hat.locked, nofun, nofun, nofun⟩ ?_ ?_
      · -- The file holds `p`, so no other process has the turn.
        intro q u hne _ _ hq
        rw [hat.owner rfl] at hq
        exact absurd (Option.some.inj hq).symm hne
      · exact fun u happart => Apart.mono happart ⟨fun _ => rfl, nofun, nofun⟩
  | rmState =>
      exact kept_of_same rfl rfl ⟨hat.locked, nofun, nofun, nofun⟩ ⟨fun _ => rfl, nofun, nofun⟩
  | unlockCleanup =>
      refine kept_of_holds rfl (At.of_not_holds nofun nofun) ?_ ?_
      · exact fun q u _ _ _ hq => hq
      · exact fun u happart => Apart.mono happart ⟨nofun, nofun, nofun⟩
  | exit => exact kept_exit

/-! ## Runs -/

/-- The annotation holds after every run. -/
theorem holds_run (backupId : Pid → Nat) {s : System Files Place}
    (hstart : s.Start (script backupId)) (events : List (Event Bool)) :
    annotation.Holds (run (System.step (script backupId)) s events) := by
  refine Annotation.holds_run (C := fun _ _ => True) (annotation_freeEntry backupId) ?_ hstart
    (along_of_forall (fun _ _ => trivial) s events)
  intro s p a t hholds _ hp
  exact move_kept backupId (hholds.own hp) a

/-- **Backups exclude each other.**  Whatever the lock directory and the pid file
are at the start and whenever processes die, at most one live process is between
the return of `exclusive` and the removal of the pid file, and the pid file
names it. -/
theorem backups_exclusive (backupId : Pid → Nat) (s : System Files Place)
    (hstart : s.Start (script backupId)) (events : List (Event Bool)) :
    let s' := run (System.step (script backupId)) s events
    s'.Excludes Place.exclusive ∧
      ∀ p ∈ s'.inside Place.exclusive, s'.shared.pidFile.content = some p := by
  have hholds := holds_run backupId hstart events
  have hnames : ∀ p ∈ (run (System.step (script backupId)) s events).inside Place.exclusive,
      (run (System.step (script backupId)) s events).shared.pidFile.content = some p := by
    intro p hp
    obtain ⟨t, hlive, ht⟩ := hp
    exact (hholds.own hlive).owner (Place.owns_of_exclusive ht)
  refine ⟨?_, hnames⟩
  intro p hp q hq
  have hsame := hnames p hp
  rw [hnames q hq] at hsame
  exact (Option.some.inj hsame).symm

/-- The pid file left by a process that died in its backup. -/
def leftByDead : System Files Place :=
  ⟨⟨false, ⟨some (0, some 7), 1⟩, fun _ => none⟩, fun p => if p = 7 then .dead else .unborn⟩

/-- Process 1 takes over from process 7; process 2 finds it alive and is queued. -/
def oneQueued : List (Event Bool) :=
  .spawn 1 :: .spawn 2 :: List.replicate 9 (.act 1 true) ++ List.replicate 7 (.act 2 true)

/-- That run reaches a backup, with the pid file naming it. -/
theorem backups_exclusive_oneQueued :
    let s' := run (System.step (script fun p => p)) leftByDead oneQueued
    (s'.Excludes Place.exclusive ∧
      ∀ p ∈ s'.inside Place.exclusive, s'.shared.pidFile.content = some p) ∧
    s'.proc 1 = .live .backup ∧ s'.proc 2 = .live .lock := by
  refine ⟨backups_exclusive (fun p => p) leftByDead ?_ oneQueued, by decide, by decide⟩
  intro p t hp
  change (if p = 7 then Life.dead else Life.unborn) = Life.live t at hp
  split at hp <;> cases hp

end AltF.Locks.Backup
