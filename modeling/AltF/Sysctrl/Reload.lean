/-
  Sysctrl/Reload.lean --- `inotify_handler` of sysctrl.c: how the daemon learns that one of its
  files has changed.

  The kernel watches inodes.  A file that is written in place is announced by `IN_MODIFY`, and
  one that another takes the place of, as `sed -i` does, by `IN_IGNORED`, after which there is no
  watch until the handler adds one.  SIGHUP, which has all files read again, is not among the
  steps.
-/
import Mathlib.Data.Fintype.Pi
import Mathlib.Logic.Function.Basic
import AltF.Foundation.Runs

set_option autoImplicit false

namespace AltF.Sysctrl

open AltF.Foundation

/-! ## The kernel -/

/-- misc.conf, bay and sysctrl.conf, in /etc -/
inductive WatchedFile where
  | misc | bay | conf
  deriving DecidableEq, Repr

instance : Fintype WatchedFile := ⟨{.misc, .bay, .conf}, fun f => by cases f <;> decide⟩

/-- An event that is read: `IN_IGNORED`, or `IN_MODIFY`. -/
structure Notice where
  wd : Nat
  ignored : Bool
  deriving DecidableEq, Repr

/-- The files, by inode and content, and what is behind `fd_ev`. -/
structure Kernel (α : Type) where
  file : WatchedFile → Option (Nat × α)
  /-- the watch of an inode -/
  watchOf : Nat → Option Nat
  queue : List Notice
  /-- SIGIO is pending. -/
  sigio : Bool
  nextInode : Nat
  nextWd : Nat

namespace Kernel

variable {α : Type} (k : Kernel α)

/-- An event like the last one is dropped, and there is no signal for it. -/
def notify (n : Notice) : Kernel α :=
  if k.queue.getLast? = some n then k
  else { k with queue := k.queue ++ [n], sigio := true }

def notifyWatch (i : Nat) (ignored : Bool) : Kernel α :=
  match k.watchOf i with
  | none => k
  | some wd => k.notify ⟨wd, ignored⟩

/-- A write to the file. -/
def modify (f : WatchedFile) (c : α) : Kernel α :=
  match k.file f with
  | none => k
  | some (i, _) => ({ k with file := Function.update k.file f (some (i, c)) }).notifyWatch i false

/-- The last name of an inode goes away, and its watch with it. -/
def drop (i : Nat) : Kernel α :=
  { k.notifyWatch i true with watchOf := Function.update k.watchOf i none }

def create (f : WatchedFile) (c : α) : Kernel α :=
  { k with
    file := Function.update k.file f (some (k.nextInode, c))
    nextInode := k.nextInode + 1 }

/-- `rename` of a new file over it. -/
def replace (f : WatchedFile) (c : α) : Kernel α :=
  match k.file f with
  | none => k.create f c
  | some (i, _) => (k.drop i).create f c

def remove (f : WatchedFile) : Kernel α :=
  match k.file f with
  | none => k
  | some (i, _) => { k.drop i with file := Function.update k.file f none }

/-- `inotify_add_watch`: of an inode that is watched it is the same watch. -/
def addWatch (f : WatchedFile) : Kernel α × Option Nat :=
  match k.file f with
  | none => (k, none)
  | some (i, _) =>
      match k.watchOf i with
      | some wd => (k, some wd)
      | none =>
          ({ k with
              watchOf := Function.update k.watchOf i (some k.nextWd)
              nextWd := k.nextWd + 1 }, some k.nextWd)

end Kernel

/-! ## The handler -/

/-- Where the handler is. -/
inductive HandlerPlace where
  | idle
  | read
  /-- the events that are left, and the flags -/
  | scan (batch : List Notice) (flags : WatchedFile → Bool)
  /-- the files that are still to be read -/
  | reload (files : List WatchedFile)
  deriving DecidableEq

/-- The daemon, with what it has read of each file. -/
structure Watcher (α : Type) where
  kernel : Kernel α
  /-- `wd_misc`, `wd_bay` and `wd_conf`, none for -1 -/
  wd : WatchedFile → Option Nat
  loaded : WatchedFile → α
  place : HandlerPlace

/-- The events that `ev_buffer` holds: 2560 bytes, of 16 each. -/
def evBuffer : Nat := 160

/-- The steps of the files and of the handler. -/
inductive WatchStep (α : Type) where
  | modify (f : WatchedFile) (c : α)
  | replace (f : WatchedFile) (c : α)
  | remove (f : WatchedFile)
  /-- SIGIO is delivered. -/
  | deliver
  | handle

namespace Watcher

variable {α : Type} (d : Watcher α)

/-- Whose event it is. -/
def fileOf (n : Notice) : Option WatchedFile :=
  if d.wd .misc = some n.wd then some .misc
  else if d.wd .bay = some n.wd then some .bay
  else if d.wd .conf = some n.wd then some .conf
  else none

/-- `inotify_add_watch` -/
def rewatch (f : WatchedFile) : Watcher α :=
  { d with
    kernel := (d.kernel.addWatch f).1
    wd := Function.update d.wd f (d.kernel.addWatch f).2 }

/-- `read_bay`, `read_misc` or `read_config`; a file that is not there changes nothing. -/
def load (f : WatchedFile) : Watcher α :=
  match d.kernel.file f with
  | none => d
  | some (_, c) => { d with loaded := Function.update d.loaded f c }

/-- The next step of the handler. -/
def handle : Watcher α :=
  match d.place with
  | .idle => d
  | .read =>
      if d.kernel.queue = [] then { d with place := .idle }
      else
        { d with
          kernel := { d.kernel with queue := d.kernel.queue.drop evBuffer }
          place := .scan (d.kernel.queue.take evBuffer) fun _ => false }
  | .scan (n :: batch) flags =>
      match d.fileOf n with
      | none => { d with place := .scan batch flags }
      | some f =>
          { (if n.ignored then d.rewatch f else d) with
            place := .scan batch (Function.update flags f true) }
  | .scan [] flags => { d with place := .reload ([.bay, .misc, .conf].filter flags) }
  | .reload (f :: files) => { d.load f with place := .reload files }
  | .reload [] => { d with place := .idle }

/-- The handler is called; the signal waits while it runs. -/
def deliver : Watcher α :=
  match d.place, d.kernel.sigio with
  | .idle, true => { d with kernel := { d.kernel with sigio := false }, place := .read }
  | _, _ => d

def step : WatchStep α → Watcher α
  | .modify f c => { d with kernel := d.kernel.modify f c }
  | .replace f c => { d with kernel := d.kernel.replace f c }
  | .remove f => { d with kernel := d.kernel.remove f }
  | .deliver => d.deliver
  | .handle => d.handle

/-- The handler is not running, and no signal is pending. -/
def Quiet : Prop := d.kernel.sigio = false ∧ d.place = .idle

instance : Decidable d.Quiet := inferInstanceAs (Decidable (_ ∧ _))

/-- What has been read is in the file, which is watched. -/
def Current (f : WatchedFile) : Prop :=
  ∃ i c wd, d.kernel.file f = some (i, c) ∧ d.loaded f = c ∧ d.wd f = some wd ∧
    d.kernel.watchOf i = some wd

/-- The handler has room for all events, and no file is removed. -/
def Bounded : WatchStep α → Prop
  | .remove _ => False
  | .handle =>
      match d.place with
      | .read => d.kernel.queue.length ≤ evBuffer
      | _ => True
  | _ => True

instance (s : WatchStep α) : Decidable (d.Bounded s) := by
  unfold Bounded
  split
  · exact instDecidableFalse
  · split <;> infer_instance
  · exact instDecidableTrue

end Watcher

/-! ## The invariant -/

def WatchedFile.number : WatchedFile → Nat
  | .misc => 0
  | .bay => 1
  | .conf => 2

theorem WatchedFile.number_lt (f : WatchedFile) : f.number < 3 := by
  cases f <;> decide

theorem WatchedFile.number_injective : Function.Injective WatchedFile.number := by
  intro f g hfg
  cases f <;> cases g <;> first | rfl | cases hfg

/-- The daemon when it has read its files, which have these contents. -/
def Watcher.start {α : Type} (c : WatchedFile → α) : Watcher α where
  kernel :=
    { file := fun f => some (f.number, c f)
      watchOf := fun i => if i < 3 then some i else none
      queue := []
      sigio := false
      nextInode := 3
      nextWd := 3 }
  wd := fun f => some f.number
  loaded := c
  place := .idle

/-- The events that the handler holds. -/
def HandlerPlace.batch : HandlerPlace → List Notice
  | .scan batch _ => batch
  | _ => []

/-- The file is going to be read. -/
def HandlerPlace.Flagged (f : WatchedFile) : HandlerPlace → Prop
  | .scan _ flags => flags f = true
  | .reload files => f ∈ files
  | _ => False

namespace Watcher

variable {α : Type} (d : Watcher α)

/-- The events to come. -/
def notices : List Notice := d.place.batch ++ d.kernel.queue

/-- The file is watched, and what was read is in it, or something is to come. -/
structure Attached (f : WatchedFile) (i : Nat) (c : α) (wd : Nat) : Prop where
  watched : d.kernel.watchOf i = some wd
  kept : ⟨wd, true⟩ ∉ d.notices
  due : d.loaded f = c ∨ (∃ n ∈ d.notices, n.wd = wd) ∨ d.place.Flagged f

/-- The file is not watched, and the handler is going to learn it. -/
structure Detached (i wd : Nat) : Prop where
  unwatched : d.kernel.watchOf i = none
  announced : ⟨wd, true⟩ ∈ d.notices

def Tracked (f : WatchedFile) : Prop :=
  ∃ i c wd, d.kernel.file f = some (i, c) ∧ d.wd f = some wd ∧
    (d.Attached f i c wd ∨ d.Detached i wd)

structure Inv : Prop where
  inodes : ∀ {f g i c c'}, d.kernel.file f = some (i, c) → d.kernel.file g = some (i, c') → f = g
  inode_lt : ∀ {f i c}, d.kernel.file f = some (i, c) → i < d.kernel.nextInode
  watch_lt : ∀ {i wd}, d.kernel.watchOf i = some wd → i < d.kernel.nextInode ∧ wd < d.kernel.nextWd
  wd_lt : ∀ {f wd}, d.wd f = some wd → wd < d.kernel.nextWd
  wds : ∀ {f g wd}, d.wd f = some wd → d.wd g = some wd → f = g
  notice_lt : ∀ {n}, n ∈ d.notices → n.wd < d.kernel.nextWd
  tracked : ∀ f, d.Tracked f
  covered : d.kernel.queue ≠ [] → d.kernel.sigio = true ∨ d.place = .read

end Watcher

namespace Kernel

variable {α : Type} (k : Kernel α) (n : Notice)

@[simp] theorem notify_file : (k.notify n).file = k.file := by
  unfold notify; split <;> rfl

@[simp] theorem notify_watchOf : (k.notify n).watchOf = k.watchOf := by
  unfold notify; split <;> rfl

@[simp] theorem notify_nextInode : (k.notify n).nextInode = k.nextInode := by
  unfold notify; split <;> rfl

@[simp] theorem notify_nextWd : (k.notify n).nextWd = k.nextWd := by
  unfold notify; split <;> rfl

theorem mem_notify {n' : Notice} : n' ∈ (k.notify n).queue ↔ n' ∈ k.queue ∨ n' = n := by
  unfold notify
  split
  · rename_i hlast
    refine ⟨.inl, fun h => h.elim id ?_⟩
    rintro rfl
    exact List.mem_of_getLast? hlast
  · simp only [List.mem_append, List.mem_singleton]

/-- There is a signal for what is added. -/
theorem sigio_notify {P : Prop} (h : k.queue ≠ [] → k.sigio = true ∨ P) :
    (k.notify n).sigio = true ∨ P := by
  unfold notify
  split
  · rename_i hlast
    refine h fun hnil => ?_
    rw [hnil] at hlast
    cases hlast
  · exact .inl rfl

end Kernel

namespace Watcher

variable {α : Type} {d d' : Watcher α} {f : WatchedFile}

theorem Inv.queue_eq_nil (h : d.Inv) (hquiet : d.Quiet) : d.kernel.queue = [] := by
  obtain ⟨hsigio, hidle⟩ := hquiet
  by_contra hne
  rcases h.covered hne with hpending | hread
  · exact Bool.false_ne_true (hsigio.symm.trans hpending)
  · rw [hidle] at hread
    cases hread

/-- **When everything is quiet** nothing is to come. -/
theorem Inv.current (h : d.Inv) (hquiet : d.Quiet) (f : WatchedFile) : d.Current f := by
  have hidle := hquiet.2
  have hnone : d.notices = [] := by
    rw [notices, h.queue_eq_nil hquiet, hidle]
    rfl
  obtain ⟨i, c, wd, hfile, hwd, hattached | hdetached⟩ := h.tracked f
  · refine ⟨i, c, wd, hfile, ?_, hwd, hattached.watched⟩
    rcases hattached.due with hloaded | ⟨n, hn, -⟩ | hflagged
    · exact hloaded
    · rw [hnone] at hn
      cases hn
    · rw [hidle] at hflagged
      exact hflagged.elim
  · have hmem := hdetached.announced
    rw [hnone] at hmem
    cases hmem

/-- A file that a step does not concern. -/
theorem Tracked.of_same (h : d.Tracked f) (hfile : d'.kernel.file f = d.kernel.file f)
    (hwd : d'.wd f = d.wd f) (hloaded : d'.loaded f = d.loaded f)
    (hwatch : ∀ i c, d.kernel.file f = some (i, c) → d'.kernel.watchOf i = d.kernel.watchOf i)
    (hnotices : ∀ n, d.wd f = some n.wd → (n ∈ d'.notices ↔ n ∈ d.notices) ∨
      n ∈ d'.notices ∧ n.ignored = false)
    (hflagged : d.place.Flagged f → d'.place.Flagged f) : d'.Tracked f := by
  obtain ⟨i, c, wd, hf, hw, hcases⟩ := h
  refine ⟨i, c, wd, hfile.trans hf, hwd.trans hw, ?_⟩
  have hignored : ⟨wd, true⟩ ∈ d'.notices ↔ ⟨wd, true⟩ ∈ d.notices := by
    rcases hnotices ⟨wd, true⟩ hw with h | ⟨-, h⟩
    · exact h
    · cases h
  rcases hcases with hattached | hdetached
  · refine .inl ⟨(hwatch i c hf).trans hattached.watched, fun h =>
      hattached.kept (hignored.mp h), ?_⟩
    rcases hattached.due with hc | ⟨n, hn, rfl⟩ | hflag
    · exact .inl (hloaded.trans hc)
    · refine .inr (.inl ⟨n, ?_, rfl⟩)
      rcases hnotices n hw with h | ⟨h, -⟩
      · exact h.mpr hn
      · exact h
    · exact .inr (.inr (hflagged hflag))
  · exact .inr ⟨(hwatch i c hf).trans hdetached.unwatched, hignored.mpr hdetached.announced⟩

theorem update_eq_some {β γ : Type} [DecidableEq β] {m : β → Option γ} {a b : β} {x y : γ}
    (h : Function.update m a (some x) b = some y) : b = a ∧ y = x ∨ b ≠ a ∧ m b = some y := by
  by_cases hba : b = a
  · rw [hba, Function.update_self] at h
    exact .inl ⟨hba, (Option.some.inj h).symm⟩
  · rw [Function.update_of_ne hba] at h
    exact .inr ⟨hba, h⟩

/-- A step that adds no inode and no watch. -/
theorem Inv.of_same (h : d.Inv)
    (hfile : ∀ {f i c}, d'.kernel.file f = some (i, c) → ∃ c, d.kernel.file f = some (i, c))
    (hwatch : d'.kernel.watchOf = d.kernel.watchOf)
    (hinode : d'.kernel.nextInode = d.kernel.nextInode)
    (hnext : d'.kernel.nextWd = d.kernel.nextWd) (hwd : d'.wd = d.wd)
    (hnotice : ∀ n ∈ d'.notices, n ∈ d.notices ∨ n.wd < d.kernel.nextWd)
    (htracked : ∀ f, d'.Tracked f)
    (hcovered : d'.kernel.queue ≠ [] → d'.kernel.sigio = true ∨ d'.place = .read) : d'.Inv where
  inodes hf hg := by
    obtain ⟨_, hf⟩ := hfile hf
    obtain ⟨_, hg⟩ := hfile hg
    exact h.inodes hf hg
  inode_lt hf := by
    obtain ⟨_, hf⟩ := hfile hf
    exact hinode ▸ h.inode_lt hf
  watch_lt hi := by
    rw [hwatch] at hi
    rw [hinode, hnext]
    exact h.watch_lt hi
  wd_lt hf := by
    rw [hwd] at hf
    exact hnext ▸ h.wd_lt hf
  wds hf hg := by
    rw [hwd] at hf hg
    exact h.wds hf hg
  notice_lt hn := by
    rw [hnext]
    exact (hnotice _ hn).elim h.notice_lt id
  tracked := htracked
  covered := hcovered

/-- A step of the handler that concerns no file. -/
theorem Inv.of_place {kernel : Kernel α} (h : d.Inv) (place : HandlerPlace)
    (hd : d' = { d with kernel := kernel, place := place })
    (hfile : kernel.file = d.kernel.file) (hwatch : kernel.watchOf = d.kernel.watchOf)
    (hinode : kernel.nextInode = d.kernel.nextInode) (hnext : kernel.nextWd = d.kernel.nextWd)
    (hnotices : d'.notices = d.notices)
    (hflagged : ∀ f, d.place.Flagged f → place.Flagged f)
    (hcovered : kernel.queue ≠ [] → kernel.sigio = true ∨ place = .read) : d'.Inv := by
  subst hd
  refine h.of_same (fun {f i c} hf => ⟨c, ?_⟩) hwatch hinode hnext rfl
    (fun n hn => .inl (hnotices ▸ hn)) (fun f => ?_) hcovered
  · rw [← hf]
    exact (congrFun hfile f).symm
  · exact (h.tracked f).of_same (congrFun hfile f) rfl rfl (fun i _ _ => congrFun hwatch i)
      (fun n _ => .inl (by rw [hnotices])) (hflagged f)

theorem mem_notices_notify {n n' : Notice} :
    n' ∈ ({ d with kernel := d.kernel.notify n } : Watcher α).notices ↔
      n' ∈ d.notices ∨ n' = n := by
  unfold notices
  rw [List.mem_append, List.mem_append, Kernel.mem_notify, or_assoc]

theorem Inv.modify (h : d.Inv) (f : WatchedFile) (c : α) :
    ({ d with kernel := d.kernel.modify f c } : Watcher α).Inv := by
  obtain ⟨i, c₀, wd, hf, hwd, hcases⟩ := h.tracked f
  have hfile : ∀ {g j c'}, Function.update d.kernel.file f (some (i, c)) g = some (j, c') →
      ∃ c, d.kernel.file g = some (j, c) := by
    intro g j c' hg
    rcases update_eq_some hg with ⟨rfl, hnew⟩ | ⟨-, hg⟩
    · cases hnew
      exact ⟨c₀, hf⟩
    · exact ⟨c', hg⟩
  rcases hcases with hattached | hdetached
  · -- it is watched, and there is an event
    have hkernel : d.kernel.modify f c =
        ({ d.kernel with file := Function.update d.kernel.file f (some (i, c)) }).notify
          ⟨wd, false⟩ := by
      unfold Kernel.modify
      rw [hf]
      simp only [Kernel.notifyWatch, hattached.watched]
    rw [hkernel]
    set k : Kernel α := { d.kernel with file := Function.update d.kernel.file f (some (i, c)) }
      with hk
    have hmem : ∀ n, n ∈ ({ d with kernel := k.notify ⟨wd, false⟩ } : Watcher α).notices ↔
        n ∈ d.notices ∨ n = ⟨wd, false⟩ :=
      fun n => mem_notices_notify (d := { d with kernel := k })
    refine h.of_same (fun hg => hfile ((congrFun (k.notify_file _) _).symm.trans hg))
      (k.notify_watchOf _) (k.notify_nextInode _) (k.notify_nextWd _) rfl (fun n hn => ?_)
      (fun g => ?_) fun _ => Kernel.sigio_notify k _ h.covered
    · rcases (hmem n).mp hn with hold | rfl
      · exact .inl hold
      · exact .inr (h.wd_lt hwd)
    · by_cases hgf : g = f
      · subst hgf
        refine ⟨i, c, wd, by simp [hk], hwd, .inl ⟨by simpa [hk] using hattached.watched, ?_, ?_⟩⟩
        · intro hkept
          rcases (hmem _).mp hkept with hold | hnew
          · exact hattached.kept hold
          · cases hnew
        · exact .inr (.inl ⟨⟨wd, false⟩, (hmem _).mpr (.inr rfl), rfl⟩)
      · refine (h.tracked g).of_same (by simp [hk, hgf]) rfl rfl (fun j _ _ => by simp [hk])
          (fun n _ => ?_) id
        by_cases hn : n = ⟨wd, false⟩
        · exact .inr ⟨(hmem n).mpr (.inr hn), by rw [hn]⟩
        · exact .inl ((hmem n).trans (or_iff_left hn))
  · have hkernel : d.kernel.modify f c =
        { d.kernel with file := Function.update d.kernel.file f (some (i, c)) } := by
      unfold Kernel.modify
      rw [hf]
      simp only [Kernel.notifyWatch, hdetached.unwatched]
    rw [hkernel]
    refine h.of_same hfile rfl rfl rfl rfl (fun n hn => .inl hn) (fun g => ?_) h.covered
    by_cases hgf : g = f
    · subst hgf
      exact ⟨i, c, wd, Function.update_self _ _ _, hwd,
        .inr ⟨hdetached.unwatched, hdetached.announced⟩⟩
    · exact (h.tracked g).of_same (Function.update_of_ne hgf ..) rfl rfl (fun _ _ _ => rfl)
        (fun _ _ => .inl Iff.rfl) id

/-- A file that takes the place of another has no watch, and `IN_IGNORED` announces it. -/
theorem Inv.replace (h : d.Inv) (f : WatchedFile) (c : α) :
    ({ d with kernel := d.kernel.replace f c } : Watcher α).Inv := by
  obtain ⟨i, c₀, wd, hf, hwd, hcases⟩ := h.tracked f
  -- what is dropped is the watch of `i`, if there is one
  obtain ⟨k, hkernel, hkfile, hkwatch, hkinode, hknext, hknotices, hkcovered⟩ :
      ∃ k : Kernel α, d.kernel.replace f c = k.create f c ∧ k.file = d.kernel.file ∧
        k.watchOf = Function.update d.kernel.watchOf i none ∧
        k.nextInode = d.kernel.nextInode ∧ k.nextWd = d.kernel.nextWd ∧
        (∀ n, n ∈ d.place.batch ++ k.queue ↔ n ∈ d.notices ∨ n = ⟨wd, true⟩) ∧
        (k.queue ≠ [] → k.sigio = true ∨ d.place = .read) := by
    refine ⟨d.kernel.drop i, by unfold Kernel.replace; rw [hf], ?_⟩
    rcases hcases with hattached | hdetached
    · have hnotify : d.kernel.notifyWatch i true = d.kernel.notify ⟨wd, true⟩ := by
        unfold Kernel.notifyWatch
        rw [hattached.watched]
      unfold Kernel.drop
      rw [hnotify]
      exact ⟨d.kernel.notify_file _, rfl, d.kernel.notify_nextInode _, d.kernel.notify_nextWd _,
        fun n => mem_notices_notify, fun _ => Kernel.sigio_notify _ _ h.covered⟩
    · have hnotify : d.kernel.notifyWatch i true = d.kernel := by
        unfold Kernel.notifyWatch
        rw [hdetached.unwatched]
      unfold Kernel.drop
      rw [hnotify]
      refine ⟨rfl, rfl, rfl, rfl, fun n => ⟨.inl, ?_⟩, h.covered⟩
      rintro (hn | rfl)
      · exact hn
      · exact hdetached.announced
  rw [hkernel]
  have hother : ∀ {g}, g ≠ f → (k.create f c).file g = d.kernel.file g := by
    intro g hgf
    rw [← hkfile]
    exact Function.update_of_ne hgf _ _
  have hself : (k.create f c).file f = some (d.kernel.nextInode, c) := by
    rw [← hkinode]
    exact Function.update_self _ _ _
  have hwatch : ∀ {j wd'}, k.watchOf j = some wd' → d.kernel.watchOf j = some wd' := by
    intro j wd' hj
    rw [hkwatch] at hj
    by_cases hji : j = i
    · rw [hji, Function.update_self] at hj
      cases hj
    · rwa [Function.update_of_ne hji] at hj
  refine ⟨?_, ?_, ?_, ?_, h.wds, ?_, fun g => ?_, hkcovered⟩
  · intro g₁ g₂ j c₁ c₂ h₁ h₂
    by_cases hg₁ : g₁ = f <;> by_cases hg₂ : g₂ = f
    · rw [hg₁, hg₂]
    · rw [hg₁, hself] at h₁
      cases h₁
      exact absurd (h.inode_lt ((hother hg₂).symm.trans h₂)) (Nat.lt_irrefl _)
    · rw [hg₂, hself] at h₂
      cases h₂
      exact absurd (h.inode_lt ((hother hg₁).symm.trans h₁)) (Nat.lt_irrefl _)
    · exact h.inodes ((hother hg₁).symm.trans h₁) ((hother hg₂).symm.trans h₂)
  · intro g j c' hg
    change j < k.nextInode + 1
    rw [hkinode]
    by_cases hgf : g = f
    · rw [hgf, hself] at hg
      cases hg
      exact Nat.lt_succ_self _
    · exact Nat.lt_succ_of_lt (h.inode_lt ((hother hgf).symm.trans hg))
  · intro j wd' hj
    change j < k.nextInode + 1 ∧ wd' < k.nextWd
    rw [hkinode, hknext]
    obtain ⟨hlt, hwdlt⟩ := h.watch_lt (hwatch hj)
    exact ⟨Nat.lt_succ_of_lt hlt, hwdlt⟩
  · intro g wd' hg
    change wd' < k.nextWd
    rw [hknext]
    exact h.wd_lt hg
  · intro n hn
    change n.wd < k.nextWd
    rw [hknext]
    rcases (hknotices n).mp hn with hold | rfl
    · exact h.notice_lt hold
    · exact h.wd_lt hwd
  · by_cases hgf : g = f
    · subst hgf
      refine ⟨_, c, wd, hself, hwd, .inr ⟨?_, (hknotices _).mpr (.inr rfl)⟩⟩
      by_contra hne
      obtain ⟨wd', hwd'⟩ := Option.ne_none_iff_exists'.mp hne
      exact absurd (h.watch_lt (hwatch hwd')).1 (Nat.lt_irrefl _)
    · refine (h.tracked g).of_same (hother hgf) rfl rfl (fun j c' hj => ?_) (fun n hn => ?_) id
      · have hji : j ≠ i := fun hji => hgf (h.inodes hj (hji ▸ hf))
        exact (congrFun hkwatch j).trans (Function.update_of_ne hji _ _)
      · refine .inl ((hknotices n).trans (or_iff_left ?_))
        rintro rfl
        exact hgf (h.wds hn hwd)

theorem Inv.deliver (h : d.Inv) : d.deliver.Inv := by
  unfold Watcher.deliver
  split
  · rename_i hidle _
    refine h.of_place .read rfl rfl rfl rfl rfl ?_ (fun f hf => ?_) fun _ => .inr rfl
    · unfold notices
      rw [hidle]
      rfl
    · rw [hidle] at hf
      exact hf.elim
  · exact h

theorem fileOf_eq_some {n : Notice} (h : d.fileOf n = some f) : d.wd f = some n.wd := by
  unfold fileOf at h
  split at h
  · rename_i hwd
    cases h
    exact hwd
  · split at h
    · rename_i hwd
      cases h
      exact hwd
    · split at h
      · rename_i hwd
        cases h
        exact hwd
      · cases h

theorem fileOf_eq_none {n : Notice} (h : d.fileOf n = none) (f : WatchedFile) :
    d.wd f ≠ some n.wd := by
  unfold fileOf at h
  split at h
  · cases h
  · rename_i hmisc
    split at h
    · cases h
    · rename_i hbay
      split at h
      · cases h
      · rename_i hconf
        cases f with
        | misc => exact hmisc
        | bay => exact hbay
        | conf => exact hconf

/-- The events are taken over. -/
theorem Inv.handle_read (h : d.Inv) (hplace : d.place = .read)
    (hroom : d.kernel.queue.length ≤ evBuffer) : d.handle.Inv := by
  unfold handle
  rw [hplace]
  simp only
  split
  · rename_i hnil
    refine h.of_place _ rfl rfl rfl rfl rfl ?_ (fun f hf => ?_) fun hne => absurd hnil hne
    · unfold notices
      rw [hplace]
      rfl
    · rw [hplace] at hf
      exact hf.elim
  · refine h.of_place _ rfl rfl rfl rfl rfl ?_ (fun f hf => ?_) fun hne => ?_
    · unfold notices
      rw [hplace]
      exact List.take_append_drop _ _
    · rw [hplace] at hf
      exact hf.elim
    · exact absurd (List.drop_eq_nil_of_le hroom) hne

/-- A file that is read. -/
theorem Inv.handle_load (h : d.Inv) {files : List WatchedFile}
    (hplace : d.place = .reload (f :: files)) : d.handle.Inv := by
  obtain ⟨i, c, wd, hf, hwd, hcases⟩ := h.tracked f
  have hhandle : d.handle =
      { d with loaded := Function.update d.loaded f c, place := .reload files } := by
    unfold handle load
    rw [hplace]
    simp only [hf]
  have hnotices : d.handle.notices = d.notices := by
    unfold notices
    rw [hhandle, hplace]
    rfl
  have hkernel : d.handle.kernel = d.kernel := by rw [hhandle]
  have hwds : d.handle.wd = d.wd := by rw [hhandle]
  refine h.of_same (fun {g j c'} hg => ⟨c', hkernel ▸ hg⟩) (by rw [hkernel]) (by rw [hkernel])
    (by rw [hkernel]) hwds (fun n hn => .inl (hnotices ▸ hn)) (fun g => ?_) fun hne => ?_
  · by_cases hgf : g = f
    · subst hgf
      refine ⟨i, c, wd, hkernel ▸ hf, hwds ▸ hwd, ?_⟩
      rcases hcases with hattached | hdetached
      · refine .inl ⟨hkernel ▸ hattached.watched, hnotices ▸ hattached.kept, .inl ?_⟩
        rw [hhandle]
        exact Function.update_self _ _ _
      · exact .inr ⟨hkernel ▸ hdetached.unwatched, hnotices ▸ hdetached.announced⟩
    · refine (h.tracked g).of_same (by rw [hkernel]) (by rw [hwds]) ?_
        (fun _ _ _ => by rw [hkernel]) (fun _ _ => .inl (by rw [hnotices])) fun hflagged => ?_
      · rw [hhandle]
        exact Function.update_of_ne hgf _ _
      · rw [hplace] at hflagged
        rw [hhandle]
        exact (List.mem_cons.mp hflagged).resolve_left hgf
  · rw [hkernel] at hne ⊢
    rcases h.covered hne with hpending | hread
    · exact .inl hpending
    · rw [hplace] at hread
      cases hread

/-- An event of no file. -/
theorem Inv.handle_skip (h : d.Inv) {n : Notice} {batch : List Notice}
    {flags : WatchedFile → Bool} (hplace : d.place = .scan (n :: batch) flags)
    (hnone : d.fileOf n = none) : d.handle.Inv := by
  have hhandle : d.handle = { d with place := .scan batch flags } := by
    unfold handle
    rw [hplace]
    simp only [hnone]
  have hmem : ∀ n', n' ∈ d.notices ↔ n' = n ∨ n' ∈ d.handle.notices := by
    intro n'
    unfold notices
    rw [hhandle, hplace]
    exact List.mem_cons
  rw [hhandle] at hmem ⊢
  refine h.of_same (fun {g j c'} hg => ⟨c', hg⟩) rfl rfl rfl rfl
    (fun n' hn => .inl ((hmem n').mpr (.inr hn))) (fun g => ?_) fun hne => ?_
  · refine (h.tracked g).of_same rfl rfl rfl (fun _ _ _ => rfl) (fun n' hn => .inl ?_)
      fun hflagged => ?_
    · refine ((hmem n').trans (or_iff_right ?_)).symm
      rintro rfl
      exact fileOf_eq_none hnone g hn
    · rw [hplace] at hflagged
      exact hflagged
  · rcases h.covered hne with hpending | hread
    · exact .inl hpending
    · rw [hplace] at hread
      cases hread

/-- The other files, when an event of `f` is handled. -/
theorem Tracked.of_scan (h : d.Inv) {g : WatchedFile} {n : Notice} {batch : List Notice}
    {flags : WatchedFile → Bool} (hplace : d.place = .scan (n :: batch) flags)
    (hf : d.wd f = some n.wd) (hgf : g ≠ f)
    (hplace' : d'.place = .scan batch (Function.update flags f true))
    (hfile : d'.kernel.file = d.kernel.file) (hqueue : d'.kernel.queue = d.kernel.queue)
    (hwd : d'.wd g = d.wd g) (hloaded : d'.loaded = d.loaded)
    (hwatch : ∀ i c, d.kernel.file g = some (i, c) →
      d'.kernel.watchOf i = d.kernel.watchOf i) : d'.Tracked g := by
  refine (h.tracked g).of_same (congrFun hfile g) hwd (congrFun hloaded g) hwatch
    (fun n' hn => .inl ?_) fun hflagged => ?_
  · have hne : n' ≠ n := by
      rintro rfl
      exact hgf (h.wds hn hf)
    unfold notices
    rw [hplace, hplace', hqueue]
    exact ((List.mem_cons (b := n)).trans (or_iff_right hne)).symm
  · rw [hplace] at hflagged
    rw [hplace']
    exact (Function.update_of_ne hgf _ _).trans hflagged

/-- `IN_MODIFY` -/
theorem Inv.handle_modified (h : d.Inv) {n : Notice} {batch : List Notice}
    {flags : WatchedFile → Bool} (hplace : d.place = .scan (n :: batch) flags)
    (hf : d.fileOf n = some f) (hmodified : n.ignored = false) : d.handle.Inv := by
  have hwdf := fileOf_eq_some hf
  have hhandle : d.handle = { d with place := .scan batch (Function.update flags f true) } := by
    unfold handle
    rw [hplace]
    simp [hf, hmodified]
  have hmem : ∀ n', n' ∈ d.notices ↔ n' = n ∨ n' ∈ d.handle.notices := by
    intro n'
    unfold notices
    rw [hhandle, hplace]
    exact List.mem_cons
  rw [hhandle] at hmem ⊢
  refine h.of_same (fun {g j c'} hg => ⟨c', hg⟩) rfl rfl rfl rfl
    (fun n' hn => .inl ((hmem n').mpr (.inr hn))) (fun g => ?_) fun hne => ?_
  · by_cases hgf : g = f
    · subst hgf
      obtain ⟨i, c, wd, hfile, hwd, hattached | hdetached⟩ := h.tracked g
      · refine ⟨i, c, wd, hfile, hwd, .inl ⟨hattached.watched, fun hkept => ?_, ?_⟩⟩
        · exact hattached.kept ((hmem _).mpr (.inr hkept))
        · exact .inr (.inr (Function.update_self _ _ _))
      · refine ⟨i, c, wd, hfile, hwd, .inr ⟨hdetached.unwatched, ?_⟩⟩
        refine ((hmem _).mp hdetached.announced).resolve_left fun heq => ?_
        rw [← heq] at hmodified
        cases hmodified
    · exact Tracked.of_scan h hplace hwdf hgf rfl rfl rfl rfl rfl fun _ _ _ => rfl
  · rcases h.covered hne with hpending | hread
    · exact .inl hpending
    · rw [hplace] at hread
      cases hread

/-- `IN_IGNORED`: the file that is there now has not been watched before. -/
theorem Inv.handle_rewatched (h : d.Inv) {n : Notice} {batch : List Notice}
    {flags : WatchedFile → Bool} (hplace : d.place = .scan (n :: batch) flags)
    (hf : d.fileOf n = some f) (hignored : n.ignored = true) : d.handle.Inv := by
  have hwdf := fileOf_eq_some hf
  obtain ⟨i, c, wd, hfile, hwd, hcases⟩ := h.tracked f
  have heq : wd = n.wd := Option.some.inj (hwd.symm.trans hwdf)
  have hunwatched : d.kernel.watchOf i = none := by
    rcases hcases with hattached | hdetached
    · refine absurd ?_ hattached.kept
      rw [notices, hplace, heq, ← hignored]
      exact List.mem_cons_self
    · exact hdetached.unwatched
  have hhandle : d.handle =
      { d with
        kernel :=
          { d.kernel with
            watchOf := Function.update d.kernel.watchOf i (some d.kernel.nextWd)
            nextWd := d.kernel.nextWd + 1 }
        wd := Function.update d.wd f (some d.kernel.nextWd)
        place := .scan batch (Function.update flags f true) } := by
    unfold handle rewatch Kernel.addWatch
    rw [hplace]
    simp only [hf, hignored, if_true, hfile, hunwatched]
  have hmem : ∀ {n'}, n' ∈ d.handle.notices → n' ∈ d.notices := by
    intro n' hn
    unfold notices at hn ⊢
    rw [hhandle] at hn
    rw [hplace]
    exact List.mem_cons_of_mem _ hn
  rw [hhandle] at hmem ⊢
  refine ⟨h.inodes, h.inode_lt, fun {j wd'} hj => ?_, fun {g wd'} hg => ?_,
    fun {g₁ g₂ wd'} h₁ h₂ => ?_, fun hn => Nat.lt_succ_of_lt (h.notice_lt (hmem hn)),
    fun g => ?_, fun hne => ?_⟩
  · rcases update_eq_some hj with ⟨rfl, rfl⟩ | ⟨-, hold⟩
    · exact ⟨h.inode_lt hfile, Nat.lt_succ_self _⟩
    · obtain ⟨hlt, hwdlt⟩ := h.watch_lt hold
      exact ⟨hlt, Nat.lt_succ_of_lt hwdlt⟩
  · rcases update_eq_some hg with ⟨-, rfl⟩ | ⟨-, hold⟩
    · exact Nat.lt_succ_self _
    · exact Nat.lt_succ_of_lt (h.wd_lt hold)
  · rcases update_eq_some h₁ with ⟨rfl, rfl⟩ | ⟨-, h₁⟩ <;>
      rcases update_eq_some h₂ with ⟨hg₂, hwd₂⟩ | ⟨-, h₂⟩
    · exact hg₂.symm
    · exact absurd (h.wd_lt h₂) (Nat.lt_irrefl _)
    · rw [hwd₂] at h₁
      exact absurd (h.wd_lt h₁) (Nat.lt_irrefl _)
    · exact h.wds h₁ h₂
  · by_cases hgf : g = f
    · subst hgf
      refine ⟨i, c, d.kernel.nextWd, hfile, Function.update_self _ _ _, .inl
        ⟨Function.update_self _ _ _, fun hkept => ?_, .inr (.inr (Function.update_self _ _ _))⟩⟩
      exact absurd (h.notice_lt (hmem hkept)) (Nat.lt_irrefl _)
    · refine Tracked.of_scan h hplace hwdf hgf rfl rfl rfl (Function.update_of_ne hgf _ _) rfl
        fun j c' hj => Function.update_of_ne (fun hji => hgf ?_) _ _
      exact h.inodes hj (hji ▸ hfile)
  · rcases h.covered hne with hpending | hread
    · exact .inl hpending
    · rw [hplace] at hread
      cases hread

/-- Every step of the handler. -/
theorem Inv.handle (h : d.Inv) (hroom : d.place = .read → d.kernel.queue.length ≤ evBuffer) :
    d.handle.Inv := by
  cases hplace : d.place with
  | idle =>
      have hsame : d.handle = d := by
        unfold Watcher.handle
        rw [hplace]
      rwa [hsame]
  | read => exact h.handle_read hplace (hroom hplace)
  | scan batch flags =>
      cases batch with
      | nil =>
          unfold Watcher.handle
          rw [hplace]
          refine h.of_place (.reload _) rfl rfl rfl rfl rfl ?_ (fun f hf => ?_)
            fun hne => ?_
          · unfold notices
            rw [hplace]
            rfl
          · rw [hplace] at hf
            refine List.mem_filter.mpr ⟨?_, hf⟩
            cases f <;> decide
          · rcases h.covered hne with hpending | hread
            · exact .inl hpending
            · rw [hplace] at hread
              cases hread
      | cons n batch =>
          cases hf : d.fileOf n with
          | none => exact h.handle_skip hplace hf
          | some f =>
              cases hignored : n.ignored with
              | false => exact h.handle_modified hplace hf hignored
              | true => exact h.handle_rewatched hplace hf hignored
  | reload files =>
      cases files with
      | nil =>
          unfold Watcher.handle
          rw [hplace]
          refine h.of_place .idle rfl rfl rfl rfl rfl ?_ (fun f hf => ?_) fun hne => ?_
          · unfold notices
            rw [hplace]
            rfl
          · rw [hplace] at hf
            cases hf
          · rcases h.covered hne with hpending | hread
            · exact .inl hpending
            · rw [hplace] at hread
              cases hread
      | cons f files => exact h.handle_load hplace

/-- **The step lemma.** -/
theorem Inv.step (h : d.Inv) {s : WatchStep α} (hs : d.Bounded s) : (d.step s).Inv := by
  cases s with
  | modify f c => exact h.modify f c
  | replace f c => exact h.replace f c
  | remove f => exact hs.elim
  | deliver => exact h.deliver
  | handle =>
      refine h.handle fun hread => ?_
      unfold Bounded at hs
      rw [hread] at hs
      exact hs

theorem inv_start (c : WatchedFile → α) : (start c).Inv where
  inodes {f g i c₁ c₂} hf hg := WatchedFile.number_injective
    ((Prod.mk.inj (Option.some.inj hf)).1.trans (Prod.mk.inj (Option.some.inj hg)).1.symm)
  inode_lt {f i c'} hf := by
    rw [← (Prod.mk.inj (Option.some.inj hf)).1]
    exact f.number_lt
  watch_lt {i wd} hi := by
    change (if i < 3 then some i else none) = some wd at hi
    split at hi
    · rename_i hlt
      cases hi
      exact ⟨hlt, hlt⟩
    · cases hi
  wd_lt {f wd} hf := by
    rw [← Option.some.inj hf]
    exact f.number_lt
  wds {f g wd} hf hg :=
    WatchedFile.number_injective ((Option.some.inj hf).trans (Option.some.inj hg).symm)
  notice_lt hn := by cases hn
  tracked f := by
    refine ⟨f.number, c f, f.number, rfl, rfl, .inl ⟨if_pos f.number_lt, fun hn => ?_, .inl rfl⟩⟩
    cases hn
  covered hne := absurd rfl hne

/-- bay is replaced; while that is handled misc.conf is written to, which is a signal of its own. -/
def bayAndMisc : List (WatchStep Nat) :=
  [.replace .bay 1, .deliver, .handle, .handle, .modify .misc 2] ++ List.replicate 3 .handle ++
    .deliver :: List.replicate 5 .handle

/-- No event is one of the file, and it is not going to be read. -/
structure Lost (f : WatchedFile) (c : α) (d : Watcher α) : Prop where
  unwatched : d.wd f = none
  unflagged : ¬ d.place.Flagged f
  loaded : d.loaded f = c

theorem Lost.handle {c : α} (h : Lost f c d) : Lost f c d.handle := by
  have hunflagged := h.unflagged
  unfold Watcher.handle
  split
  · exact h
  · split
    · exact ⟨h.unwatched, id, h.loaded⟩
    · exact ⟨h.unwatched, Bool.false_ne_true, h.loaded⟩
  · rename_i n batch flags hplace
    rw [hplace] at hunflagged
    split
    · exact ⟨h.unwatched, hunflagged, h.loaded⟩
    · rename_i g hg
      have hgf : f ≠ g := by
        rintro rfl
        exact Option.some_ne_none _ ((fileOf_eq_some hg).symm.trans h.unwatched)
      have hflags : ¬ (HandlerPlace.scan batch (Function.update flags g true)).Flagged f :=
        fun hflagged => hunflagged ((Function.update_of_ne hgf _ _).symm.trans hflagged)
      split
      · exact ⟨(Function.update_of_ne hgf _ _).trans h.unwatched, hflags, h.loaded⟩
      · exact ⟨h.unwatched, hflags, h.loaded⟩
  · rename_i hplace
    rw [hplace] at hunflagged
    exact ⟨h.unwatched, fun hmem => hunflagged (List.mem_filter.mp hmem).2, h.loaded⟩
  · rename_i g files hplace
    rw [hplace] at hunflagged
    have hfiles : f ≠ g ∧ f ∉ files := not_or.mp fun hmem => hunflagged (List.mem_cons.mpr hmem)
    unfold Watcher.load
    split
    · exact ⟨h.unwatched, hfiles.2, h.loaded⟩
    · exact ⟨h.unwatched, hfiles.2, (Function.update_of_ne hfiles.1 _ _).trans h.loaded⟩
  · exact ⟨h.unwatched, id, h.loaded⟩

theorem Lost.step {c : α} (h : Lost f c d) (s : WatchStep α) : Lost f c (d.step s) := by
  cases s with
  | modify g c' => exact ⟨h.unwatched, h.unflagged, h.loaded⟩
  | replace g c' => exact ⟨h.unwatched, h.unflagged, h.loaded⟩
  | remove g => exact ⟨h.unwatched, h.unflagged, h.loaded⟩
  | deliver =>
      change Lost f c d.deliver
      unfold Watcher.deliver
      split
      · exact ⟨h.unwatched, id, h.loaded⟩
      · exact h
  | handle => exact h.handle

/-- The handler adds a watch where there is no file. -/
theorem lost_of_remove (h : d.Inv) (hquiet : d.Quiet) (f : WatchedFile) :
    Lost f (d.loaded f) (run step d (.remove f :: .deliver :: List.replicate 5 .handle)) := by
  obtain ⟨i, c, wd, hfile, -, hwd, hwatch⟩ := h.current hquiet f
  have hqueue := h.queue_eq_nil hquiet
  have hfileOf : d.fileOf ⟨wd, true⟩ = some f := by
    cases hg : d.fileOf ⟨wd, true⟩ with
    | none => exact absurd hwd (fileOf_eq_none hg f)
    | some g => rw [h.wds (fileOf_eq_some hg) hwd]
  obtain ⟨k, hkernel, hkfile, hkqueue, hksigio⟩ :
      ∃ k : Kernel α, d.kernel.remove f = k ∧ k.file f = none ∧ k.queue = [⟨wd, true⟩] ∧
        k.sigio = true := by
    refine ⟨_, rfl, ?_⟩
    unfold Kernel.remove Kernel.drop Kernel.notifyWatch Kernel.notify
    simp [hfile, hwatch, hqueue]
  have hflags : ([.bay, .misc, .conf] : List WatchedFile).filter
      (Function.update (fun _ => false) f true) = [f] := by
    cases f <;> rfl
  have hread : run step d [.remove f, .deliver] =
      { d with kernel := { k with sigio := false }, place := .read } := by
    simp [run, step, deliver, hkernel, hksigio, hquiet.2]
  have htaken : run step d [.remove f, .deliver, .handle] =
      { d with
        kernel := { k with sigio := false, queue := [] }
        place := .scan [⟨wd, true⟩] fun _ => false } := by
    rw [show [WatchStep.remove f, .deliver, .handle] = [.remove f, .deliver] ++ [.handle] from rfl,
      run_append, hread]
    simp [run, step, handle, hkqueue, evBuffer]
  have hrewatched : run step d [.remove f, .deliver, .handle, .handle] =
      { d with
        kernel := { k with sigio := false, queue := [] }
        wd := Function.update d.wd f none
        place := .scan [] (Function.update (fun _ => false) f true) } := by
    rw [show [WatchStep.remove f, .deliver, .handle, .handle] =
      [.remove f, .deliver, .handle] ++ [.handle] from rfl, run_append, htaken]
    have hsame : fileOf ({ d with
        kernel := { k with sigio := false, queue := [] }
        place := .scan [⟨wd, true⟩] fun _ => false } : Watcher α) ⟨wd, true⟩ = some f := hfileOf
    simp [run, step, handle, hsame, rewatch, Kernel.addWatch, hkfile]
  rw [show WatchStep.remove f :: .deliver :: List.replicate 5 .handle =
    [.remove f, .deliver, .handle, .handle] ++ [.handle, .handle, .handle] from rfl, run_append,
    hrewatched]
  have hdone : run step ({ d with
        kernel := { k with sigio := false, queue := [] }
        wd := Function.update d.wd f none
        place := .scan [] (Function.update (fun _ => false) f true) } : Watcher α)
      [.handle, .handle, .handle] =
      { d with
        kernel := { k with sigio := false, queue := [] }
        wd := Function.update d.wd f none
        place := .idle } := by
    simp [run, step, handle, hflags, load, hkfile]
  rw [hdone]
  exact ⟨Function.update_self _ _ _, id, rfl⟩

end Watcher

end AltF.Sysctrl
