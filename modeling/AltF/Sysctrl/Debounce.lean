/-
  Sysctrl/Debounce.lean --- `button` and `debounce` of sysctrl.c: the button that is
  reported once the key events have settled.

  `debounce` is a state machine over what `button` is given: between two calls it waits for
  a first event, in the loop it counts the reads without one.  One variable holds the
  button, the pressed bit, and the -1 of a read error, which the loop takes for an event.
-/
import AltF.Sysctrl.Buttons

set_option autoImplicit false

namespace AltF.Sysctrl

open AltF.Foundation

/-! ## Events -/

/-- The numbers of `enum Button`. -/
def Button.code : Button → Int32
  | .none_ => 0
  | .front => 1
  | .reset => 2
  | .usb => 3

/-- `struct input_event`. -/
structure InputEvent where
  type : UInt16
  code : UInt16
  value : Int32
  deriving DecidableEq, Repr

/-- `EV_KEY`. -/
def evKey : UInt16 := 1

/-- `FRONT_EV`, `RESET_EV` and `USB_EV`. -/
def frontEv : UInt16 := 0x0074
def resetEv : UInt16 := 0x0198
def usbEv : UInt16 := 0x0085

/-- `PRESSED`, the number of the bit. -/
def pressed : Int32 := 7

/-- The three buttons. -/
inductive Key where
  | front
  | reset
  | usb
  deriving DecidableEq, Repr

def Key.code : Key → UInt16
  | .front => frontEv
  | .reset => resetEv
  | .usb => usbEv

def Key.button : Key → Button
  | .front => .front
  | .reset => .reset
  | .usb => .usb

/-- A button is pressed, or let go. -/
structure KeyEvent where
  key : Key
  press : Bool
  deriving DecidableEq, Repr

def KeyEvent.input (e : KeyEvent) : InputEvent :=
  ⟨evKey, e.key.code, if e.press then 1 else 0⟩

/-- The button that is down after an event. -/
def KeyEvent.button (e : KeyEvent) : Button := if e.press then e.key.button else .none_

/-- What a call of `button` is given. -/
inductive Delivery where
  /-- an event, and the `EV_SYN` that follows it -/
  | key (e : KeyEvent)
  /-- nothing to read -/
  | empty
  /-- the device cannot be opened or read -/
  | error
  deriving DecidableEq, Repr

/-- What `button` makes of an event. -/
def buttonOfEvent (ev : InputEvent) : Int32 :=
  if ev.type = evKey then
    if ev.code = frontEv then Button.front.code ||| (ev.value <<< pressed)
    else if ev.code = resetEv then Button.reset.code ||| (ev.value <<< pressed)
    else if ev.code = usbEv then Button.usb.code ||| (ev.value <<< pressed)
    else Button.none_.code
  else Button.none_.code

/-- `button`. -/
def button : Delivery → Int32
  | .key e => buttonOfEvent e.input
  | .empty => Button.none_.code
  | .error => -1

/-! ## `debounce` -/

/-- The static variable, and the count of the loop; without a count, `debounce` is at its
first call of `button`. -/
structure Debounce where
  bt : Int32
  count : Option Nat
  deriving DecidableEq, Repr

def Debounce.start : Debounce := ⟨Button.none_.code, none⟩

/-- The reads without an event that settle a button. -/
def settleCount : Nat := 50

/-- The end of `debounce`. -/
def settle (bt : Int32) : Int32 :=
  if bt &&& (1 <<< pressed) ≠ 0 then bt &&& ~~~(1 <<< pressed) else Button.none_.code

/-- `debounce`, from one call of `button` to the next; also the value it returns, if it
does. -/
def debounce (s : Debounce) (d : Delivery) : Debounce × Option Int32 :=
  let tbt := button d
  match s.count with
  | none =>
      if tbt = -1 ∨ tbt = 0 then (s, some s.bt)
      else (⟨tbt, some settleCount⟩, none)
  | some count =>
      let bt := if tbt ≠ 0 then tbt else s.bt
      let count := if tbt ≠ 0 then settleCount else count - 1
      if count = 0 then (⟨settle bt, none⟩, some (settle bt))
      else (⟨bt, some count⟩, none)

/-! ## The settled button -/

/-- The program, and the last key event that it was given. -/
structure ButtonRun where
  program : Debounce
  last : Option KeyEvent
  deriving DecidableEq, Repr

def ButtonRun.start : ButtonRun := ⟨.start, none⟩

/-- The last key event, after a delivery. -/
def ButtonRun.lastAfter (s : ButtonRun) : Delivery → Option KeyEvent
  | .key e => some e
  | .empty => s.last
  | .error => s.last

def ButtonRun.step (s : ButtonRun) (d : Delivery) : ButtonRun :=
  ⟨(debounce s.program d).1, s.lastAfter d⟩

/-- The button that is down after the last event. -/
def down : Option KeyEvent → Button
  | none => .none_
  | some e => e.button

/-- What is returned is the button of the last event, and an error changes nothing. -/
structure Reports (s : ButtonRun) (d : Delivery) : Prop where
  returned : ∀ v ∈ (debounce s.program d).2, v = (down (s.lastAfter d)).code
  kept : d = .error → (debounce s.program d).1.bt = s.program.bt

/-- No read fails in the loop. -/
def NoErrorInLoop (s : ButtonRun) (d : Delivery) : Prop := d = .error → s.program.count = none

/-- The variable holds the button that is down, and in the loop the last event. -/
def ButtonRun.Holds (s : ButtonRun) : Prop :=
  match s.program.count with
  | none => s.program.bt = (down s.last).code
  | some count => 0 < count ∧ ∃ e, s.last = some e ∧ s.program.bt = button (.key e)

theorem button_key (e : KeyEvent) :
    button (.key e) ≠ 0 ∧ button (.key e) ≠ -1 ∧ settle (button (.key e)) = e.button.code := by
  obtain ⟨key, press⟩ := e
  cases key <;> cases press <;> decide

section Steps

variable {s : ButtonRun}

/-- Between two calls. -/
theorem debounce_waiting (hcount : s.program.count = none) (d : Delivery) :
    debounce s.program d =
      match d with
      | .key e => (⟨button (.key e), some settleCount⟩, none)
      | .empty => (s.program, some s.program.bt)
      | .error => (s.program, some s.program.bt) := by
  unfold debounce
  rw [hcount]
  cases d with
  | key e => simp only [(button_key e).1, (button_key e).2.1, or_self, if_false]
  | empty => rfl
  | error => rfl

/-- In the loop. -/
theorem debounce_settling {count : Nat} (hcount : s.program.count = some count) (d : Delivery) :
    debounce s.program d =
      match d with
      | .key e => (⟨button (.key e), some settleCount⟩, none)
      | .empty =>
          if count - 1 = 0 then (⟨settle s.program.bt, none⟩, some (settle s.program.bt))
          else (⟨s.program.bt, some (count - 1)⟩, none)
      | .error => (⟨-1, some settleCount⟩, none) := by
  unfold debounce
  rw [hcount]
  cases d with
  | key e => simp only [ne_eq, (button_key e).1, not_false_iff, if_true]; rfl
  | empty => rfl
  | error => rfl

/-- **One delivery**: the variable is right after it, unless a read failed in the loop. -/
theorem reports_iff (h : s.Holds) (d : Delivery) : Reports s d ↔ NoErrorInLoop s d := by
  unfold ButtonRun.Holds at h
  cases hcount : s.program.count with
  | none =>
      rw [hcount] at h
      refine iff_of_true ⟨?_, ?_⟩ fun _ => hcount
      · intro v hv
        rw [debounce_waiting hcount] at hv
        cases d with
        | key e => cases hv
        | empty => exact (Option.mem_some.mp hv).symm.trans h
        | error => exact (Option.mem_some.mp hv).symm.trans h
      · rintro rfl
        rw [debounce_waiting hcount]
  | some count =>
      rw [hcount] at h
      obtain ⟨-, e, hlast, hbt⟩ := h
      constructor
      · rintro hreports rfl
        -- The -1 is no key event.
        have hkept := hreports.kept rfl
        rw [debounce_settling hcount, hbt] at hkept
        exact absurd hkept.symm (button_key e).2.1
      · intro herror
        refine ⟨?_, fun hd => absurd (herror hd) (by rw [hcount]; exact Option.some_ne_none _)⟩
        intro v hv
        rw [debounce_settling hcount] at hv
        cases d with
        | key e => cases hv
        | empty =>
            simp only at hv
            split at hv
            · rw [← Option.mem_some.mp hv, hbt, (button_key e).2.2, ButtonRun.lastAfter, hlast]
              rfl
            · cases hv
        | error => cases hv

theorem holds_step (h : s.Holds) {d : Delivery} (herror : NoErrorInLoop s d) :
    (s.step d).Holds := by
  have hkey : ∀ e, debounce s.program (.key e) = (⟨button (.key e), some settleCount⟩, none) := by
    intro e
    cases hcount : s.program.count with
    | none => rw [debounce_waiting hcount]
    | some count => rw [debounce_settling hcount]
  cases d with
  | key e =>
      unfold ButtonRun.Holds ButtonRun.step
      rw [hkey]
      exact ⟨by decide, e, rfl, rfl⟩
  | empty =>
      unfold ButtonRun.Holds at h ⊢
      unfold ButtonRun.step
      cases hcount : s.program.count with
      | none =>
          rw [hcount] at h
          rw [debounce_waiting hcount]
          simp only [hcount]
          exact h
      | some count =>
          rw [hcount] at h
          obtain ⟨hpos, e, hlast, hbt⟩ := h
          rw [debounce_settling hcount]
          by_cases hend : count - 1 = 0
          · simp only [if_pos hend, hbt, (button_key e).2.2, ButtonRun.lastAfter, hlast]
            rfl
          · simp only [if_neg hend]
            exact ⟨by omega, e, hlast, hbt⟩
  | error =>
      have hcount := herror rfl
      unfold ButtonRun.Holds at h ⊢
      unfold ButtonRun.step
      rw [hcount] at h
      rw [debounce_waiting hcount]
      simp only [hcount]
      exact h

end Steps

/-- **`debounce` reports the settled button** along a run exactly if no read fails in the
loop. -/
theorem debounce_along_iff (ds : List Delivery) :
    Along ButtonRun.step Reports .start ds ↔ Along ButtonRun.step NoErrorInLoop .start ds :=
  along_congr_of_kept ButtonRun.Holds (fun _ d h => reports_iff h d)
    (fun _ _ h herror => holds_step h herror) rfl

/-- An error in the loop: the press is forgotten, and -129 is returned. -/
def failedPress : List Delivery := .key ⟨.front, true⟩ :: .error :: List.replicate 49 .empty

theorem debounce_error_returned :
    ¬ Along ButtonRun.step Reports .start (failedPress ++ [.empty]) ∧
      (debounce (run ButtonRun.step .start failedPress).program .empty).2 = some (-129) := by
  refine ⟨fun h => ?_, by decide +kernel⟩
  have hreturned := (along_iff.mp h failedPress .empty [] rfl).returned (-129) (by decide +kernel)
  exact absurd hreturned (by decide +kernel)

end AltF.Sysctrl
