/-
  Foundation/Processes.lean --- any number of processes over one shared state.

  A process is unborn, alive at a place of its program, or dead, and never comes
  back: a pid is used once.  A run is a list of events in any order; each is the
  birth of a process, its next atomic step, or its death.
-/
import Mathlib.Logic.Function.Basic
import AltF.Foundation.Runs

set_option autoImplicit false

namespace AltF.Foundation

/-- A process identifier. -/
abbrev Pid := Nat

/-- The life of a process whose program has the places `τ`. -/
inductive Life (τ : Type) where
  | unborn
  | live (place : τ)
  | dead
  deriving DecidableEq, Repr

/-- What `kill -0` asks of a process. -/
def Life.isLive {τ : Type} : Life τ → Bool
  | .live _ => true
  | _ => false

@[simp] theorem Life.isLive_unborn {τ : Type} : (Life.unborn : Life τ).isLive = false := rfl

@[simp] theorem Life.isLive_live {τ : Type} (t : τ) : (Life.live t).isLive = true := rfl

@[simp] theorem Life.isLive_dead {τ : Type} : (Life.dead : Life τ).isLive = false := rfl

/-- The shared state and every process. -/
structure System (σ τ : Type) where
  shared : σ
  proc : Pid → Life τ

/-- A program: where a new process begins, and its atomic steps.  `α` is what the
outside decides at a step. -/
structure Program (σ τ α : Type) where
  entry : τ
  /-- One step of the process `p`, which sees who is alive; `none` when it exits. -/
  move : Pid → (Pid → Bool) → σ → τ → α → σ × Option τ

/-- What happens next. -/
inductive Event (α : Type) where
  | spawn (p : Pid)
  | act (p : Pid) (a : α)
  | die (p : Pid)
  deriving DecidableEq, Repr

/-- Whose event it is. -/
def Event.pid {α : Type} : Event α → Pid
  | .spawn p | .act p _ | .die p => p

namespace System

section Step

variable {σ τ α : Type}

/-- Who answers `kill -0`. -/
def alive (s : System σ τ) (p : Pid) : Bool := (s.proc p).isLive

/-- A process after its step. -/
def after : Option τ → Life τ
  | some t => .live t
  | none => .dead

@[simp] theorem after_some (t : τ) : after (some t) = .live t := rfl

@[simp] theorem after_none : after (none : Option τ) = .dead := rfl

theorem after_eq_live {r : Option τ} {t : τ} (h : after r = .live t) : r = some t := by
  cases r with
  | none => cases h
  | some _ => rw [Life.live.inj h]

/-- Nobody has passed the entry of the program.  A process that stays there may as
well be a process of any other program. -/
def Start (P : Program σ τ α) (s : System σ τ) : Prop :=
  ∀ p t, s.proc p = .live t → t = P.entry

/-- One event.  An event of a process that cannot have it changes nothing. -/
def step (P : Program σ τ α) (s : System σ τ) : Event α → System σ τ
  | .spawn p =>
      match s.proc p with
      | .unborn => { s with proc := Function.update s.proc p (.live (P.entry)) }
      | _ => s
  | .act p a =>
      match s.proc p with
      | .live t =>
          let r := P.move p s.alive s.shared t a
          ⟨r.1, Function.update s.proc p (after r.2)⟩
      | _ => s
  | .die p =>
      match s.proc p with
      | .live _ => { s with proc := Function.update s.proc p .dead }
      | _ => s

/-- **What an event can do.**  It changes nothing, or it is a birth at the
entry, a step of a live process, or the death of one. -/
theorem step_cases (P : Program σ τ α) (s : System σ τ) (e : Event α) :
    step P s e = s ∨
      (∃ p, e = .spawn p ∧ s.proc p = .unborn ∧
        step P s e = ⟨s.shared, Function.update s.proc p (.live (P.entry))⟩) ∨
      (∃ p a t, e = .act p a ∧ s.proc p = .live t ∧
        step P s e = ⟨(P.move p s.alive s.shared t a).1,
          Function.update s.proc p (after (P.move p s.alive s.shared t a).2)⟩) ∨
      ∃ p t, e = .die p ∧ s.proc p = .live t ∧
        step P s e = ⟨s.shared, Function.update s.proc p .dead⟩ := by
  cases e with
  | spawn p =>
      cases hp : s.proc p with
      | unborn => exact .inr (.inl ⟨p, rfl, hp, by simp only [step, hp]⟩)
      | live t => exact .inl (by simp only [step, hp])
      | dead => exact .inl (by simp only [step, hp])
  | act p a =>
      cases hp : s.proc p with
      | unborn => exact .inl (by simp only [step, hp])
      | live t => exact .inr (.inr (.inl ⟨p, a, t, rfl, hp, by simp only [step, hp]⟩))
      | dead => exact .inl (by simp only [step, hp])
  | die p =>
      cases hp : s.proc p with
      | unborn => exact .inl (by simp only [step, hp])
      | live t => exact .inr (.inr (.inr ⟨p, t, rfl, hp, by simp only [step, hp]⟩))
      | dead => exact .inl (by simp only [step, hp])

/-- Who is alive when one process has a new life: it, or somebody else as before. -/
theorem live_update {s : System σ τ} {p q : Pid} {x : σ} {life : Life τ} {t : τ}
    (h : (⟨x, Function.update s.proc p life⟩ : System σ τ).proc q = .live t) :
    (q = p ∧ life = .live t) ∨ (q ≠ p ∧ s.proc q = .live t) := by
  by_cases hqp : q = p
  · subst hqp
    have hself : Function.update s.proc q life q = life := Function.update_self _ _ _
    exact .inl ⟨rfl, hself.symm.trans h⟩
  · have hother : Function.update s.proc p life q = s.proc q := Function.update_of_ne hqp _ _
    exact .inr ⟨hqp, hother.symm.trans h⟩

end Step

end System

end AltF.Foundation
