/-
  Foundation/Interference.lean --- invariants of many processes, place by place.

  An annotation says what a process may rely on at its place and which places two
  processes never have at one time.  It holds in every state of a run when each
  step establishes it for the process that takes it and does not break it for any
  other.
-/
import Mathlib.Data.Set.Subsingleton
import AltF.Foundation.Processes

set_option autoImplicit false

namespace AltF.Foundation

variable {σ τ α : Type}

/-- What holds at the places of a program. -/
structure Annotation (σ τ : Type) where
  /-- What the process `p` relies on while it is at a place. -/
  at_ : σ → Pid → τ → Prop
  /-- Places that two processes may have at one time. -/
  apart : τ → τ → Prop
  symm : ∀ {t u : τ}, apart t u → apart u t

namespace Annotation

/-- The annotation holds of every live process and of every two of them. -/
structure Holds (A : Annotation σ τ) (s : System σ τ) : Prop where
  own : ∀ {p : Pid} {t : τ}, s.proc p = .live t → A.at_ s.shared p t
  pair : ∀ {p q : Pid} {t u : τ}, p ≠ q → s.proc p = .live t → s.proc q = .live u → A.apart t u

/-- Nothing is asked of a process at the entry. -/
structure FreeEntry (A : Annotation σ τ) (P : Program σ τ α) : Prop where
  own : ∀ (x : σ) (p : Pid), A.at_ x p P.entry
  pair : ∀ u : τ, A.apart P.entry u

/-- What one step of the process `p` at `t` owes the annotation: the assertion at
its new place, the assertions of the others, and that its new place suits them. -/
structure Kept (A : Annotation σ τ) (s : System σ τ) (p : Pid) (t : τ)
    (r : σ × Option τ) : Prop where
  own : ∀ t', r.2 = some t' → A.at_ r.1 p t'
  others : ∀ q u, q ≠ p → s.proc q = .live u → A.at_ s.shared q u → A.apart t u → A.at_ r.1 q u
  pair : ∀ t' q u, r.2 = some t' → q ≠ p → s.proc q = .live u → A.at_ s.shared q u →
    A.apart t u → A.apart t' u

/-- Putting one process at a new place, or ending it. -/
theorem Holds.update {A : Annotation σ τ} {s : System σ τ} (h : A.Holds s) (p : Pid) (x : σ)
    (life : Life τ) (hown : ∀ t, life = .live t → A.at_ x p t)
    (hothers : ∀ q u, q ≠ p → s.proc q = .live u → A.at_ x q u)
    (hpair : ∀ t q u, life = .live t → q ≠ p → s.proc q = .live u → A.apart t u) :
    A.Holds ⟨x, Function.update s.proc p life⟩ := by
  constructor
  · intro q u hq
    by_cases hqp : q = p
    · subst hqp
      exact hown u (by simpa using hq)
    · exact hothers q u hqp (by simpa [Function.update_of_ne hqp] using hq)
  · intro q q' u u' hne hq hq'
    by_cases hqp : q = p
    · subst hqp
      have hother : s.proc q' = .live u' := by
        simpa [Function.update_of_ne hne.symm] using hq'
      exact hpair u q' u' (by simpa using hq) hne.symm hother
    · have hfirst : s.proc q = .live u := by simpa [Function.update_of_ne hqp] using hq
      by_cases hqp' : q' = p
      · subst hqp'
        exact A.symm (hpair u' q u (by simpa using hq') hqp hfirst)
      · exact h.pair hne hfirst (by simpa [Function.update_of_ne hqp'] using hq')

/-- **Every event keeps the annotation** when every step of a process does. -/
theorem holds_step {A : Annotation σ τ} {P : Program σ τ α} (hentry : A.FreeEntry P)
    {s : System σ τ} (e : Event α) (h : A.Holds s)
    (hkept : ∀ p a t, e = .act p a → s.proc p = .live t →
      A.Kept s p t (P.move p s.alive s.shared t a)) :
    A.Holds (System.step P s e) := by
  rcases System.step_cases P s e with
    heq | ⟨p, -, -, heq⟩ | ⟨p, a, t, he, hp, heq⟩ | ⟨p, t, -, -, heq⟩
  · rw [heq]
    exact h
  · rw [heq]
    refine h.update p s.shared _ ?_ (fun q u _ hq => h.own hq) ?_
    · intro t ht
      cases ht
      exact hentry.own s.shared p
    · intro t q u ht _ _
      cases ht
      exact hentry.pair u
  · rw [heq]
    have hk := hkept p a t he hp
    have happart : ∀ q u, q ≠ p → s.proc q = .live u → A.apart t u :=
      fun q u hne hq => h.pair hne.symm hp hq
    refine h.update p _ _ (fun t' ht' => hk.own t' (System.after_eq_live ht')) ?_ ?_
    · intro q u hne hq
      exact hk.others q u hne hq (h.own hq) (happart q u hne hq)
    · intro t' q u ht' hne hq
      exact hk.pair t' q u (System.after_eq_live ht') hne hq (h.own hq) (happart q u hne hq)
  · rw [heq]
    refine h.update p s.shared _ ?_ (fun q u _ hq => h.own hq) ?_
    · intro t ht
      cases ht
    · intro t q u ht _ _
      cases ht

/-- The annotation holds at the start of a program that asks nothing at its entry. -/
theorem holds_start {A : Annotation σ τ} {P : Program σ τ α} (hentry : A.FreeEntry P)
    {s : System σ τ} (hstart : s.Start P) : A.Holds s := by
  constructor
  · intro p t hp
    rw [hstart p t hp]
    exact hentry.own s.shared p
  · intro p q t u _ hp _
    rw [hstart p t hp]
    exact hentry.pair u

/-- **The annotation holds after a run** whose steps all meet a condition under
which each of them keeps it. -/
theorem holds_run {A : Annotation σ τ} {P : Program σ τ α} (hentry : A.FreeEntry P)
    {C : System σ τ → Event α → Prop}
    (hkept : ∀ s p a t, A.Holds s → C s (.act p a) → s.proc p = .live t →
      A.Kept s p t (P.move p s.alive s.shared t a))
    {s : System σ τ} (hstart : s.Start P) {events : List (Event α)}
    (hcond : Along (System.step P) C s events) : A.Holds (run (System.step P) s events) := by
  refine run_of_along A.Holds ?_ (holds_start hentry hstart) hcond
  intro s e hholds hc
  refine holds_step hentry e hholds ?_
  intro p a t he hp
  subst he
  exact hkept s p a t hholds hc hp

end Annotation

/-! ## Exclusion -/

/-- The live processes at the places `I`. -/
def System.inside (s : System σ τ) (I : τ → Bool) : Set Pid :=
  {p | ∃ t, s.proc p = .live t ∧ I t = true}

/-- At most one live process is at the places `I`. -/
def System.Excludes (s : System σ τ) (I : τ → Bool) : Prop :=
  (s.inside I).Subsingleton

/-- Two processes that may never be at `I` together exclude each other there. -/
theorem Annotation.Holds.excludes {A : Annotation σ τ} {s : System σ τ} (h : A.Holds s)
    {I : τ → Bool} (hapart : ∀ {t u}, A.apart t u → ¬(I t = true ∧ I u = true)) :
    s.Excludes I := by
  rintro p ⟨t, hp, hIt⟩ q ⟨u, hq, hIu⟩
  by_contra hne
  exact hapart (h.pair hne hp hq) ⟨hIt, hIu⟩

end AltF.Foundation
