/-
  Foundation/Runs.lean --- sequencing: fallible steps, and runs of a state
  machine over a list of inputs.

  A property of every step of a run is `Along`.  `along_of_step` is the one
  induction over runs: an invariant that every step keeps, under a condition the
  run's own steps meet, carries the property of one step to the whole run.
-/
import Mathlib.Data.List.Basic

set_option autoImplicit false

namespace AltF.Foundation

/-! ## Fallible steps -/

/-- A sequence succeeds when its first step does and the rest does from there. -/
theorem bind_eq_ok_iff {ε α β : Type} {x : Except ε α} {f : α → Except ε β} {b : β} :
    (x >>= f) = .ok b ↔ ∃ a, x = .ok a ∧ f a = .ok b := by
  cases x with
  | error e => simp [bind, Except.bind]
  | ok a => simp [bind, Except.bind]

/-! ## Runs -/

section Runs

variable {σ ι : Type} {step : σ → ι → σ}

/-- The state after a list of inputs. -/
def run (step : σ → ι → σ) (s : σ) (inputs : List ι) : σ :=
  inputs.foldl step s

@[simp] theorem run_nil (s : σ) : run step s [] = s := rfl

@[simp] theorem run_cons (s : σ) (i : ι) (rest : List ι) :
    run step s (i :: rest) = run step (step s i) rest := rfl

theorem run_append (s : σ) (pre post : List ι) :
    run step s (pre ++ post) = run step (run step s pre) post :=
  List.foldl_append

/-- Every step of the run satisfies `P`, a property of the state before the step
and its input. -/
def Along (step : σ → ι → σ) (P : σ → ι → Prop) : σ → List ι → Prop
  | _, [] => True
  | s, i :: rest => P s i ∧ Along step P (step s i) rest

instance decidableAlong (step : σ → ι → σ) (P : σ → ι → Prop) [∀ s i, Decidable (P s i)] :
    (s : σ) → (inputs : List ι) → Decidable (Along step P s inputs)
  | _, [] => isTrue trivial
  | s, i :: rest =>
      have := decidableAlong step P (step s i) rest
      inferInstanceAs (Decidable (P s i ∧ Along step P (step s i) rest))

theorem Along.mono {P Q : σ → ι → Prop} {s : σ} {inputs : List ι}
    (h : Along step P s inputs) (himp : ∀ s i, P s i → Q s i) : Along step Q s inputs := by
  induction inputs generalizing s with
  | nil => trivial
  | cons i rest ih => exact ⟨himp s i h.1, ih h.2⟩

theorem Along.and {P Q : σ → ι → Prop} {s : σ} {inputs : List ι} (hP : Along step P s inputs)
    (hQ : Along step Q s inputs) : Along step (fun s i => P s i ∧ Q s i) s inputs := by
  induction inputs generalizing s with
  | nil => trivial
  | cons i rest ih => exact ⟨⟨hP.1, hQ.1⟩, ih hP.2 hQ.2⟩

/-- The steps of a run are its inputs, each met after the inputs in front of it. -/
theorem along_iff {P : σ → ι → Prop} {s : σ} {inputs : List ι} :
    Along step P s inputs ↔
      ∀ pre i post, inputs = pre ++ i :: post → P (run step s pre) i := by
  induction inputs generalizing s with
  | nil => simp [Along]
  | cons i rest ih =>
      constructor
      · rintro ⟨hhere, hrest⟩ pre j post heq
        cases pre with
        | nil =>
            obtain ⟨rfl, -⟩ := List.cons.inj heq
            exact hhere
        | cons p pre =>
            obtain ⟨rfl, htail⟩ := List.cons.inj heq
            exact ih.mp hrest pre j post htail
      · intro h
        refine ⟨h [] i rest rfl, ih.mpr ?_⟩
        intro pre j post heq
        exact h (i :: pre) j post (by rw [heq]; rfl)

/-- **Induction over runs.**  When a step from a state of the invariant, under
the condition `C`, satisfies `G` and keeps the invariant, every run whose steps
all meet `C` satisfies `G` at every step. -/
theorem along_of_step (Inv : σ → Prop) {C G : σ → ι → Prop}
    (hstep : ∀ s i, Inv s → C s i → G s i ∧ Inv (step s i))
    {s : σ} {inputs : List ι} (hinv : Inv s) (hcond : Along step C s inputs) :
    Along step G s inputs := by
  induction inputs generalizing s with
  | nil => trivial
  | cons i rest ih =>
      obtain ⟨hhere, hrest⟩ := hcond
      obtain ⟨hgood, hnext⟩ := hstep s i hinv hhere
      exact ⟨hgood, ih hnext hrest⟩

/-- A property of all steps is one of every run. -/
theorem along_of_forall {P : σ → ι → Prop} (h : ∀ s i, P s i) (s : σ) (inputs : List ι) :
    Along step P s inputs := by
  induction inputs generalizing s with
  | nil => trivial
  | cons i rest ih => exact ⟨h s i, ih (step s i)⟩

/-- An invariant that every step keeps holds after a run. -/
theorem run_of_step (Inv : σ → Prop) (hstep : ∀ s i, Inv s → Inv (step s i))
    {s : σ} (inputs : List ι) (hinv : Inv s) : Inv (run step s inputs) := by
  induction inputs generalizing s with
  | nil => exact hinv
  | cons i rest ih => exact ih (hstep s i hinv)

/-- An invariant that every step under the condition `C` keeps holds after a run
whose steps all meet `C`. -/
theorem run_of_along (Inv : σ → Prop) {C : σ → ι → Prop}
    (hstep : ∀ s i, Inv s → C s i → Inv (step s i))
    {s : σ} {inputs : List ι} (hinv : Inv s) (hcond : Along step C s inputs) :
    Inv (run step s inputs) := by
  induction inputs generalizing s with
  | nil => exact hinv
  | cons i rest ih => exact ih (hstep s i hinv hcond.1) hcond.2

/-- Two properties that an invariant makes equivalent hold along the same runs, if the steps
that have one of them keep the invariant. -/
theorem along_congr_of_kept (Inv : σ → Prop) {P C : σ → ι → Prop}
    (hiff : ∀ s i, Inv s → (P s i ↔ C s i)) (hstep : ∀ s i, Inv s → C s i → Inv (step s i))
    {s : σ} {inputs : List ι} (hinv : Inv s) : Along step P s inputs ↔ Along step C s inputs := by
  induction inputs generalizing s with
  | nil => exact Iff.rfl
  | cons i rest ih =>
      rw [Along, Along, hiff s i hinv]
      exact and_congr_right fun hhere => ih (hstep s i hinv hhere)

theorem along_congr (Inv : σ → Prop) {P Q : σ → ι → Prop}
    (hiff : ∀ s i, Inv s → (P s i ↔ Q s i)) (hstep : ∀ s i, Inv s → Inv (step s i))
    {s : σ} {inputs : List ι} (hinv : Inv s) : Along step P s inputs ↔ Along step Q s inputs :=
  along_congr_of_kept Inv hiff (fun s i hs _ => hstep s i hs) hinv

end Runs

end AltF.Foundation
