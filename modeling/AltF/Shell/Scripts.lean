/-
  Shell/Scripts.lean --- scripts that may end in the middle: what holds where a part goes
  on, and where the whole script ends.

  A part is an `EStateM`: it goes on with a value, or ends the script.  `Runs P m Q E` has
  a condition for each way; the rules follow the shape of a script (one part after the
  other, a test, a loop over words, `exit`).
-/
import Mathlib.Data.List.Basic

set_option autoImplicit false

namespace AltF.Shell

/-- A part of a script with the state `σ`, which may end the script as `ε` tells. -/
abbrev Script (ε σ α : Type) : Type := EStateM ε σ α

section Runs

variable {ε σ α β : Type}

/-- `exit`, from any depth of functions. -/
def exit (e : ε) : Script ε σ α := throw e

/-- A test with nothing to do otherwise. -/
def onlyIf (c : Prop) [Decidable c] (m : Script ε σ PUnit) : Script ε σ PUnit :=
  if c then m else pure ⟨⟩

/-- From a state of `P`, the part goes on to one of `Q`, or the script ends in one of `E`. -/
def Runs (P : σ → Prop) (m : Script ε σ α) (Q : α → σ → Prop) (E : ε → σ → Prop) : Prop :=
  ∀ s, P s →
    match m s with
    | .ok a s' => Q a s'
    | .error e s' => E e s'

/-- The part keeps `I`, and the script ends in states of `E` only. -/
abbrev Stays (I : σ → Prop) (m : Script ε σ α) (E : ε → σ → Prop) : Prop :=
  Runs I m (fun _ => I) E

variable {P P' I : σ → Prop} {Q Q' : α → σ → Prop} {E : ε → σ → Prop} {m : Script ε σ α}

namespace Runs

theorem weaken (h : Runs P m Q E) (hpre : ∀ s, P' s → P s) (hpost : ∀ a s, Q a s → Q' a s) :
    Runs P' m Q' E := by
  intro s hs
  have hrun := h s (hpre s hs)
  cases hm : m s with
  | ok a s' =>
      rw [hm] at hrun
      exact hpost a s' hrun
  | error e s' =>
      rw [hm] at hrun
      exact hrun

theorem ending {E' : ε → σ → Prop} (h : Runs P m Q E) (hend : ∀ e s, E e s → E' e s) :
    Runs P m Q E' := by
  intro s hs
  have hrun := h s hs
  cases hm : m s with
  | ok a s' =>
      rw [hm] at hrun
      exact hrun
  | error e s' =>
      rw [hm] at hrun
      exact hend e s' hrun

theorem pure {a : α} (h : ∀ s, P s → Q a s) : Runs P (pure a : Script ε σ α) Q E :=
  fun s hs => h s hs

theorem exit {e : ε} (h : ∀ s, P s → E e s) : Runs P (exit e : Script ε σ α) Q E :=
  fun s hs => h s hs

theorem bind {R : β → σ → Prop} {f : α → Script ε σ β} (h : Runs P m Q E)
    (hf : ∀ a, Runs (Q a) (f a) R E) : Runs P (m >>= f) R E := by
  intro s hs
  have hrun := h s hs
  change match EStateM.bind m f s with | .ok b s' => R b s' | .error e s' => E e s'
  unfold EStateM.bind
  cases hm : m s with
  | ok a s' =>
      rw [hm] at hrun
      exact hf a s' hrun
  | error e s' =>
      rw [hm] at hrun
      exact hrun

/-- A part whose value is known. -/
theorem bind_value {R : σ → Prop} {S : β → σ → Prop} {f : α → Script ε σ β} {a : α}
    (h : Runs P m (fun r s => r = a ∧ R s) E) (hf : Runs R (f a) S E) : Runs P (m >>= f) S E :=
  bind h fun _ s ⟨hr, hs⟩ => hr ▸ hf s hs

/-- What is known of no state. -/
theorem assume {p : Prop} (h : p → Runs P m Q E) : Runs (fun s => p ∧ P s) m Q E :=
  fun s hs => h hs.1 s hs.2

theorem ite {c : Prop} [Decidable c] {n : Script ε σ α} (hthen : c → Runs P m Q E)
    (helse : ¬ c → Runs P n Q E) : Runs P (if c then m else n) Q E := by
  split
  · rename_i hc
    exact hthen hc
  · rename_i hc
    exact helse hc

theorem onlyIf {c : Prop} [Decidable c] {n : Script ε σ PUnit} (h : c → Stays I n E) :
    Stays I (onlyIf c n) E :=
  ite h fun _ => pure fun _ hs => hs

/-- `for`: every round keeps the condition. -/
theorem forM {f : β → Script ε σ PUnit} {l : List β} (h : ∀ b ∈ l, Stays I (f b) E) :
    Stays I (l.forM f) E := by
  induction l with
  | nil => exact pure fun _ hs => hs
  | cons b l ih =>
      exact bind (h b List.mem_cons_self) fun _ => ih fun c hc => h c (List.mem_cons_of_mem b hc)

/-- The same with a value that is passed on. -/
theorem foldlM_value {J : β → σ → Prop} {f : β → α → Script ε σ β} {l : List α} {b : β}
    (h : ∀ b, ∀ a ∈ l, Runs (J b) (f b a) J E) : Runs (J b) (l.foldlM f b) J E := by
  induction l generalizing b with
  | nil => exact pure fun _ hs => hs
  | cons a l ih =>
      exact bind (h b a List.mem_cons_self) fun _ =>
        ih fun b c hc => h b c (List.mem_cons_of_mem a hc)

/-- The same where each round computes what a function does. -/
theorem foldlM_eq {γ : Type} {f : β → α → Script ε σ β} {g : γ → α → γ} (enc : γ → β)
    {l : List α} (h : ∀ c, ∀ a ∈ l, Runs I (f (enc c) a) (fun r s => r = enc (g c a) ∧ I s) E)
    (c : γ) :
    Runs I (l.foldlM f (enc c)) (fun r s => r = enc (l.foldl g c) ∧ I s) E := by
  induction l generalizing c with
  | nil => exact pure fun _ hs => ⟨rfl, hs⟩
  | cons a l ih =>
      exact bind_value (h c a List.mem_cons_self) (ih (fun c b hb =>
        h c b (List.mem_cons_of_mem a hb)) (g c a))

theorem foldlM {f : β → α → Script ε σ β} {l : List α} {b : β}
    (h : ∀ b, ∀ a ∈ l, Stays I (f b a) E) : Stays I (l.foldlM f b) E :=
  foldlM_value (J := fun _ => I) h

/-- What does not end the script, and only changes what the condition does not look at. -/
theorem modifyGet {f : σ → α × σ} (h : ∀ s, P s → Q (f s).1 (f s).2) :
    Runs P (modifyGet f : Script ε σ α) Q E :=
  fun s hs => h s hs

end Runs

/-! ## Single runs -/

theorem bind_of_ok {f : α → Script ε σ β} {s s' : σ} {a : α} (h : m s = .ok a s') :
    (m >>= f) s = f a s' := by
  change EStateM.bind m f s = f a s'
  rw [EStateM.bind, h]

theorem bind_of_error {f : α → Script ε σ β} {s s' : σ} {e : ε} (h : m s = .error e s') :
    (m >>= f) s = .error e s' := by
  change EStateM.bind m f s = .error e s'
  rw [EStateM.bind, h]

/-- Parts with the same run have the same run with what follows. -/
theorem bind_of_eq {n : Script ε σ α} (f : α → Script ε σ β) {s s' : σ} (h : m s = n s') :
    (m >>= f) s = (n >>= f) s' := by
  change EStateM.bind m f s = EStateM.bind n f s'
  rw [EStateM.bind, EStateM.bind, h]

theorem onlyIf_of_not {c : Prop} [Decidable c] (h : ¬ c) (n : Script ε σ PUnit) (s : σ) :
    onlyIf c n s = .ok ⟨⟩ s := by
  rw [onlyIf, if_neg h]
  rfl

theorem onlyIf_of {c : Prop} [Decidable c] (h : c) (n : Script ε σ PUnit) (s : σ) :
    onlyIf c n s = n s := by
  rw [onlyIf, if_pos h]

end Runs

end AltF.Shell
