/-
  Mcu/PowerLed.lean --- `readset_powerled` and `setpowerled_cmd` of
  dns320l-daemon.c: the power LED follows its two files.

  The daemon keeps a shadow of the files and sends a command when a file differs
  from its shadow.  A blinking LED has no brightness: `readset_powerled` forgets
  the brightness after it has sent the blink command, `setpowerled_cmd`, by which
  a client sends it, does not.
-/
import AltF.Foundation.Runs
import AltF.Mcu.Commands
import AltF.SysFiles.Text

set_option autoImplicit false

namespace AltF.Mcu

open AltF.Foundation AltF.SysFiles

/-! ## The LED and its files -/

/-- The triggers that are written to the trigger file. -/
inductive Trigger where
  | none_
  | timer
  | heartbeat
  deriving DecidableEq, Repr

def Trigger.text : Trigger → Text
  | .none_ => ['n', 'o', 'n', 'e']
  | .timer => ['t', 'i', 'm', 'e', 'r']
  | .heartbeat => ['h', 'e', 'a', 'r', 't', 'b', 'e', 'a', 't']

/-- The states of the LED. -/
inductive Led where
  | off
  | on
  | blink
  deriving DecidableEq, Repr

/-- The command that sets a state. -/
def Led.cmd : Led → Cmd
  | .off => pwrLedOffCmd
  | .on => pwrLedOnCmd
  | .blink => pwrLedBlinkCmd

/-- The shadow of the daemon, and the files. -/
structure LedState where
  /-- `curr_led_trigger` -/
  currTrigger : Text
  /-- `curr_led_brightness` -/
  currBrightness : Int32
  /-- `/tmp/sys/power_led/trigger` -/
  triggerFile : Text
  /-- `/tmp/sys/power_led/brightness` -/
  brightnessFile : Text
  deriving DecidableEq, Repr

/-- The size of `led_trigger`. -/
def triggerBuf : Nat := 32

/-- The trigger in the file. -/
def LedState.trigger (s : LedState) : Option Text := readStrFromFile (some s.triggerFile) triggerBuf

/-- The brightness in the file, read into a variable that held `junk`. -/
def LedState.brightness (s : LedState) (junk : Int32) : Option Int32 :=
  readIntFromFile (some s.brightnessFile) junk

/-! ## The program -/

/-- `setpowerled_cmd` with a successful exchange. -/
def setpowerledCmd (mcmd : Cmd) (s : LedState) : LedState :=
  let s :=
    match mcmd.selector with
    | 0 => { s with currTrigger := Trigger.none_.text, currBrightness := 0 }
    | 1 => { s with currTrigger := Trigger.none_.text, currBrightness := 1 }
    | 2 => { s with currTrigger := Trigger.timer.text }
    | _ => s
  { s with
    triggerFile := writeStrToFile s.currTrigger
    brightnessFile := writeIntToFile s.currBrightness }

/-- The first half of `readset_powerled`: the trigger, and the state it sends. -/
def pollTrigger (ledTrigger : Text) (s : LedState) : LedState × Option Led :=
  if s.currTrigger ≠ ledTrigger then
    let s := { s with currTrigger := ledTrigger }
    if ledTrigger = Trigger.heartbeat.text ∨ ledTrigger = Trigger.timer.text then
      ({ setpowerledCmd Led.blink.cmd s with currBrightness := -1 }, some .blink)
    else (s, none)
  else (s, none)

/-- The second half: the brightness, which only the trigger "none" uses. -/
def pollBrightness (ledTrigger : Text) (junk : Int32) (s : LedState) : LedState × Option Led :=
  if ledTrigger = Trigger.none_.text then
    match s.brightness junk with
    | none => (s, none)
    | some ledBrightness =>
        if s.currBrightness ≠ ledBrightness then
          let s := { s with currBrightness := ledBrightness }
          if ledBrightness = 0 then (setpowerledCmd Led.off.cmd s, some .off)
          else if ledBrightness = 1 then (setpowerledCmd Led.on.cmd s, some .on)
          else (s, none)
        else (s, none)
  else (s, none)

/-- `readset_powerled` with all exchanges successful: the state, and the last
command it sent. -/
def readsetPowerled (junk : Int32) (s : LedState) : LedState × Option Led :=
  match s.trigger with
  | none => (s, none)
  | some ledTrigger =>
      let (s, blink) := pollTrigger ledTrigger s
      let (s, led) := pollBrightness ledTrigger junk s
      (s, led.or blink)

/-! ## The files, the clients and the daemon -/

/-- What happens to the LED. -/
inductive LedEvent where
  /-- Somebody writes the trigger file. -/
  | writeTrigger (t : Trigger)
  /-- Somebody writes 0 or 1 to the brightness file. -/
  | writeBrightness (b : Bool)
  /-- A client sends PowerLedOff, PowerLedOn or PowerLedBlink. -/
  | client (led : Led)
  /-- The daemon calls `readset_powerled`; its variable holds `junk`. -/
  | readset (junk : Int32)
  deriving DecidableEq, Repr

structure LedWorld where
  state : LedState
  /-- The last state the MCU acknowledged. -/
  acked : Option Led
  /-- The last command the MCU acknowledged was a client's PowerLedBlink. -/
  clientBlink : Bool
  deriving DecidableEq, Repr

/-- The text of the brightness 0 or 1. -/
def brightnessOf (b : Bool) : Int32 := if b then 1 else 0

/-- The daemon as it starts, on any two files. -/
def LedWorld.start (t : Trigger) (b : Bool) : LedWorld :=
  ⟨⟨[], -1, writeStrToFile t.text, writeIntToFile (brightnessOf b)⟩, none, false⟩

def LedWorld.step (w : LedWorld) : LedEvent → LedWorld
  | .writeTrigger t =>
      { w with state := { w.state with triggerFile := writeStrToFile t.text } }
  | .writeBrightness b =>
      { w with state := { w.state with brightnessFile := writeIntToFile (brightnessOf b) } }
  | .client led =>
      { state := setpowerledCmd led.cmd w.state
        acked := some led
        clientBlink := decide (led = .blink) }
  | .readset junk =>
      { state := (readsetPowerled junk w.state).1
        acked := (readsetPowerled junk w.state).2.or w.acked
        clientBlink := (readsetPowerled junk w.state).2 = none && w.clientBlink }

/-- The acknowledged state is the one the files ask for. -/
structure LedWorld.Agrees (w : LedWorld) : Prop where
  off : w.state.trigger = some Trigger.none_.text → w.state.brightness 0 = some 0 →
    w.acked = some .off
  on : w.state.trigger = some Trigger.none_.text → w.state.brightness 0 = some 1 →
    w.acked = some .on
  blink : w.state.trigger = some Trigger.timer.text ∨
    w.state.trigger = some Trigger.heartbeat.text → w.acked = some .blink

/-- After `readset_powerled` the LED agrees with its files. -/
def LedWorld.Follows (w : LedWorld) (e : LedEvent) : Prop :=
  ∀ junk, e = .readset junk → (w.step e).Agrees

/-- `readset_powerled` finds the trigger none and, as brightness 0 or 1, the one
it remembers, and the last command the MCU acknowledged was a client's
PowerLedBlink. -/
def LedWorld.RemembersUnlit (w : LedWorld) (e : LedEvent) : Prop :=
  ∃ junk, e = .readset junk ∧ w.clientBlink = true ∧
    w.state.trigger = some Trigger.none_.text ∧
    w.state.brightness junk = some w.state.currBrightness ∧
    (w.state.currBrightness = 0 ∨ w.state.currBrightness = 1)

/-! ## The invariant -/

/-- The files hold a trigger and a number, and the shadow tells the acknowledged
state, but for the brightness a client's PowerLedBlink left behind. -/
structure LedWorld.Inv (w : LedWorld) : Prop where
  triggerFile : ∃ t : Trigger, w.state.triggerFile = writeStrToFile t.text
  brightnessFile : ∃ b, w.state.brightnessFile = writeIntToFile b
  timer : w.state.currTrigger = Trigger.timer.text → w.acked = some .blink
  heartbeat : w.state.currTrigger ≠ Trigger.heartbeat.text
  clientBlink : w.clientBlink = true → w.acked = some .blink
  off : w.clientBlink = false → w.state.currBrightness = 0 → w.acked = some .off
  on : w.clientBlink = false → w.state.currBrightness = 1 → w.acked = some .on

theorem LedWorld.inv_start (t : Trigger) (b : Bool) : (LedWorld.start t b).Inv where
  triggerFile := ⟨t, rfl⟩
  brightnessFile := ⟨_, rfl⟩
  timer := fun h => by cases h
  heartbeat := fun h => by cases h
  clientBlink := fun h => by cases h
  off := fun _ h => by cases h
  on := fun _ h => by cases h

/-- A trigger file is read back. -/
theorem trigger_eq {s : LedState} {t : Trigger} (h : s.triggerFile = writeStrToFile t.text) :
    s.trigger = some t.text := by
  rw [LedState.trigger, h]
  exact readStr_writeStr (by cases t <;> decide) (by cases t <;> decide)

theorem brightness_eq {s : LedState} {b : Int32} (h : s.brightnessFile = writeIntToFile b)
    (junk : Int32) : s.brightness junk = some b := by
  rw [LedState.brightness, h]
  exact readInt_writeInt b junk

/-- The commands by what they leave behind. -/
theorem setpowerledCmd_led (led : Led) (s : LedState) :
    setpowerledCmd led.cmd s =
      match led with
      | .off => ⟨Trigger.none_.text, 0, writeStrToFile Trigger.none_.text, writeIntToFile 0⟩
      | .on => ⟨Trigger.none_.text, 1, writeStrToFile Trigger.none_.text, writeIntToFile 1⟩
      | .blink => ⟨Trigger.timer.text, s.currBrightness, writeStrToFile Trigger.timer.text,
          writeIntToFile s.currBrightness⟩ := by
  cases led <;> rfl

section Readset

variable {s : LedState} {t : Trigger} {b : Int32}

theorem Trigger.text_eq_iff (t₁ t₂ : Trigger) : t₁.text = t₂.text ↔ t₁ = t₂ := by
  cases t₁ <;> cases t₂ <;> decide

theorem pollTrigger_eq (t : Trigger) (s : LedState) :
    pollTrigger t.text s =
      if s.currTrigger = t.text then (s, none)
      else if t = .none_ then ({ s with currTrigger := t.text }, none)
      else (⟨Trigger.timer.text, -1, writeStrToFile Trigger.timer.text,
        writeIntToFile s.currBrightness⟩, some .blink) := by
  unfold pollTrigger
  by_cases hcurr : s.currTrigger = t.text
  · simp only [hcurr, ne_eq, not_true_eq_false, if_false, if_true]
  · simp only [ne_eq, hcurr, not_false_eq_true, if_true, if_false, Trigger.text_eq_iff,
      setpowerledCmd_led]
    cases t <;> rfl

theorem pollBrightness_eq (t : Trigger) (junk : Int32)
    (hb : s.brightnessFile = writeIntToFile b) :
    pollBrightness t.text junk s =
      if t = .none_ ∧ s.currBrightness ≠ b then
        if b = 0 then
          (⟨Trigger.none_.text, 0, writeStrToFile Trigger.none_.text, writeIntToFile 0⟩, some .off)
        else if b = 1 then
          (⟨Trigger.none_.text, 1, writeStrToFile Trigger.none_.text, writeIntToFile 1⟩, some .on)
        else ({ s with currBrightness := b }, none)
      else (s, none) := by
  unfold pollBrightness
  simp only [Trigger.text_eq_iff, brightness_eq hb, setpowerledCmd_led]
  by_cases ht : t = .none_
  · simp only [ht, if_true, true_and]
  · simp only [ht, if_false, false_and]

end Readset

/-! ## The steps -/

section Step

variable {w : LedWorld} {t : Trigger} {b : Int32}

/-- **What `readset_powerled` does**, by the files it finds. -/
theorem LedWorld.readset_cases (junk : Int32) (ht : w.state.triggerFile = writeStrToFile t.text)
    (hb : w.state.brightnessFile = writeIntToFile b) :
    (t = .none_ ∧ w.state.currBrightness = b ∧
      w.step (.readset junk) =
        { w with state := { w.state with currTrigger := Trigger.none_.text } }) ∨
    (t = .none_ ∧ w.state.currBrightness ≠ b ∧ b = 0 ∧
      w.step (.readset junk) =
        ⟨⟨Trigger.none_.text, 0, writeStrToFile Trigger.none_.text, writeIntToFile 0⟩,
          some .off, false⟩) ∨
    (t = .none_ ∧ w.state.currBrightness ≠ b ∧ b = 1 ∧
      w.step (.readset junk) =
        ⟨⟨Trigger.none_.text, 1, writeStrToFile Trigger.none_.text, writeIntToFile 1⟩,
          some .on, false⟩) ∨
    (t = .none_ ∧ w.state.currBrightness ≠ b ∧ b ≠ 0 ∧ b ≠ 1 ∧
      w.step (.readset junk) =
        { w with
          state := { w.state with currTrigger := Trigger.none_.text, currBrightness := b } }) ∨
    (t ≠ .none_ ∧ w.state.currTrigger = t.text ∧ w.step (.readset junk) = w) ∨
    (t ≠ .none_ ∧ w.state.currTrigger ≠ t.text ∧
      w.step (.readset junk) =
        ⟨⟨Trigger.timer.text, -1, writeStrToFile Trigger.timer.text,
          writeIntToFile w.state.currBrightness⟩, some .blink, false⟩) := by
  obtain ⟨⟨curr, brightness, triggerFile, brightnessFile⟩, acked, clientBlink⟩ := w
  simp only at ht hb
  subst ht hb
  have htrigger : (⟨curr, brightness, writeStrToFile t.text, writeIntToFile b⟩ :
      LedState).trigger = some t.text := trigger_eq rfl
  by_cases hnone : t = .none_
  · subst hnone
    have hpoll : pollTrigger Trigger.none_.text
        ⟨curr, brightness, writeStrToFile Trigger.none_.text, writeIntToFile b⟩ =
        (⟨Trigger.none_.text, brightness, writeStrToFile Trigger.none_.text, writeIntToFile b⟩,
          none) := by
      rw [pollTrigger_eq]
      by_cases hcurr : curr = Trigger.none_.text
      · simp only [hcurr, if_true]
      · simp only [hcurr, if_false, if_true]
    have hbright := pollBrightness_eq .none_ junk (s := ⟨Trigger.none_.text, brightness,
      writeStrToFile Trigger.none_.text, writeIntToFile b⟩) (b := b) rfl
    by_cases hsame : brightness = b
    · left
      subst hsame
      simp [LedWorld.step, readsetPowerled, htrigger, hpoll, hbright]
    · right
      by_cases h0 : b = 0
      · left
        subst h0
        simp [LedWorld.step, readsetPowerled, htrigger, hpoll, hbright, hsame]
      · by_cases h1 : b = 1
        · right
          left
          subst h1
          simp [LedWorld.step, readsetPowerled, htrigger, hpoll, hbright, hsame]
        · right
          right
          left
          simp [LedWorld.step, readsetPowerled, htrigger, hpoll, hbright, hsame, h0, h1]
  · have hbright : ∀ s : LedState, pollBrightness t.text junk s = (s, none) := by
      intro s
      simp only [pollBrightness, Trigger.text_eq_iff, hnone, if_false]
    by_cases hcurr : curr = t.text
    · subst hcurr
      simp [LedWorld.step, readsetPowerled, htrigger, pollTrigger_eq, hbright, hnone]
    · simp [LedWorld.step, readsetPowerled, htrigger, pollTrigger_eq, hbright, hnone, hcurr]

/-- The invariant behind each of the three commands. -/
theorem LedWorld.inv_off :
    (⟨⟨Trigger.none_.text, 0, writeStrToFile Trigger.none_.text, writeIntToFile 0⟩,
      some .off, false⟩ : LedWorld).Inv where
  triggerFile := ⟨.none_, rfl⟩
  brightnessFile := ⟨0, rfl⟩
  timer := fun h => by cases h
  heartbeat := fun h => by cases h
  clientBlink := fun h => by cases h
  off := fun _ _ => rfl
  on := fun _ h => by cases h

theorem LedWorld.inv_on :
    (⟨⟨Trigger.none_.text, 1, writeStrToFile Trigger.none_.text, writeIntToFile 1⟩,
      some .on, false⟩ : LedWorld).Inv where
  triggerFile := ⟨.none_, rfl⟩
  brightnessFile := ⟨1, rfl⟩
  timer := fun h => by cases h
  heartbeat := fun h => by cases h
  clientBlink := fun h => by cases h
  off := fun _ h => by cases h
  on := fun _ _ => rfl

theorem LedWorld.inv_blink (current written : Int32) {client : Bool}
    (hclient : client = false → current = -1) :
    (⟨⟨Trigger.timer.text, current, writeStrToFile Trigger.timer.text, writeIntToFile written⟩,
      some .blink, client⟩ : LedWorld).Inv where
  triggerFile := ⟨.timer, rfl⟩
  brightnessFile := ⟨written, rfl⟩
  timer := fun _ => rfl
  heartbeat := fun h => by cases h
  clientBlink := fun _ => rfl
  off := fun hc h => by
    rw [hclient hc] at h
    cases h
  on := fun hc h => by
    rw [hclient hc] at h
    cases h

/-- Every event keeps the invariant. -/
theorem LedWorld.Inv.step (h : w.Inv) (e : LedEvent) : (w.step e).Inv := by
  cases e with
  | writeTrigger t => exact { h with triggerFile := ⟨t, rfl⟩ }
  | writeBrightness b => exact { h with brightnessFile := ⟨_, rfl⟩ }
  | client led =>
      cases led with
      | off => exact LedWorld.inv_off
      | on => exact LedWorld.inv_on
      | blink => exact LedWorld.inv_blink _ _ fun hc => by cases hc
  | readset junk =>
      obtain ⟨t, ht⟩ := h.triggerFile
      obtain ⟨b, hb⟩ := h.brightnessFile
      rcases LedWorld.readset_cases junk ht hb with ⟨-, -, heq⟩ | ⟨-, -, -, heq⟩ | ⟨-, -, -, heq⟩ |
          ⟨-, -, h0, h1, heq⟩ | ⟨-, -, heq⟩ | ⟨-, -, heq⟩ <;> rw [heq]
      · exact ⟨h.triggerFile, h.brightnessFile, fun h => (by cases h), fun h => (by cases h),
          h.clientBlink, h.off, h.on⟩
      · exact LedWorld.inv_off
      · exact LedWorld.inv_on
      · exact ⟨h.triggerFile, h.brightnessFile, fun h => (by cases h), fun h => (by cases h),
          h.clientBlink, fun _ h => absurd h h0, fun _ h => absurd h h1⟩
      · exact h
      · exact LedWorld.inv_blink _ _ fun _ => rfl

/-- Agreement, by what the files hold. -/
theorem LedWorld.agrees_iff (ht : w.state.triggerFile = writeStrToFile t.text)
    (hb : w.state.brightnessFile = writeIntToFile b) :
    w.Agrees ↔ (t = .none_ → (b = 0 → w.acked = some .off) ∧ (b = 1 → w.acked = some .on)) ∧
      (t ≠ .none_ → w.acked = some .blink) := by
  have htrigger := trigger_eq ht
  have hbright := brightness_eq hb 0
  constructor
  · intro h
    refine ⟨fun hnone => ⟨fun h0 => ?_, fun h1 => ?_⟩, fun hnone => h.blink ?_⟩
    · exact h.off (by rw [htrigger, hnone]) (by rw [hbright, h0])
    · exact h.on (by rw [htrigger, hnone]) (by rw [hbright, h1])
    · rw [htrigger]
      cases t with
      | none_ => exact absurd rfl hnone
      | timer => exact Or.inl rfl
      | heartbeat => exact Or.inr rfl
  · rintro ⟨hnone, hblink⟩
    refine ⟨fun h h0 => ?_, fun h h1 => ?_, fun h => hblink ?_⟩
    · rw [htrigger, Option.some.injEq, Trigger.text_eq_iff] at h
      rw [hbright] at h0
      exact (hnone h).1 (Option.some.inj h0)
    · rw [htrigger, Option.some.injEq, Trigger.text_eq_iff] at h
      rw [hbright] at h1
      exact (hnone h).2 (Option.some.inj h1)
    · rintro rfl
      rw [htrigger] at h
      rcases h with h | h <;> cases h

/-- One event: the LED agrees with its files after `readset_powerled` unless it
blinks by a client's command while the brightness is the one remembered. -/
theorem LedWorld.follows_iff (h : w.Inv) (e : LedEvent) : w.Follows e ↔ ¬ w.RemembersUnlit e := by
  cases e with
  | writeTrigger t => simp [LedWorld.Follows, LedWorld.RemembersUnlit]
  | writeBrightness b => simp [LedWorld.Follows, LedWorld.RemembersUnlit]
  | client led => simp [LedWorld.Follows, LedWorld.RemembersUnlit]
  | readset junk =>
      obtain ⟨t, ht⟩ := h.triggerFile
      obtain ⟨b, hb⟩ := h.brightnessFile
      have hfollows : w.Follows (.readset junk) ↔ (w.step (.readset junk)).Agrees :=
        ⟨fun hf => hf junk rfl, fun ha junk' heq => by cases heq; exact ha⟩
      have hunlit : w.RemembersUnlit (.readset junk) ↔ w.clientBlink = true ∧ t = .none_ ∧
          w.state.currBrightness = b ∧ (b = 0 ∨ b = 1) := by
        constructor
        · rintro ⟨junk', heq, hclient, htrigger, hbright, hvalue⟩
          rw [trigger_eq ht, Option.some.injEq, Trigger.text_eq_iff] at htrigger
          rw [brightness_eq hb, Option.some.injEq] at hbright
          exact ⟨hclient, htrigger, hbright.symm, hbright ▸ hvalue⟩
        · rintro ⟨hclient, rfl, hbright, hvalue⟩
          refine ⟨junk, rfl, hclient, trigger_eq ht, ?_, hbright ▸ hvalue⟩
          rw [brightness_eq hb, hbright]
      rw [hfollows, hunlit]
      rcases LedWorld.readset_cases junk ht hb with ⟨hnone, hsame, heq⟩ | ⟨-, hne, -, heq⟩ |
          ⟨-, hne, -, heq⟩ | ⟨hnone, -, h0, h1, heq⟩ | ⟨hnone, hcurr, heq⟩ | ⟨hnone, -, heq⟩ <;>
        rw [heq]
      · -- Nothing is sent, so the state acknowledged before has to agree.
        refine (LedWorld.agrees_iff (t := t) (b := b) (by exact ht) (by exact hb)).trans ?_
        simp only [hnone, ne_eq, not_true_eq_false, false_imp_iff, and_true, true_imp_iff, hsame,
          true_and]
        cases hclient : w.clientBlink with
        | true =>
            rw [h.clientBlink hclient]
            constructor
            · rintro ⟨hoff, hon⟩ ⟨-, h0 | h1⟩
              · cases hoff h0
              · cases hon h1
            · exact fun hnot =>
                ⟨fun h0 => absurd ⟨rfl, Or.inl h0⟩ hnot, fun h1 => absurd ⟨rfl, Or.inr h1⟩ hnot⟩
        | false =>
            refine iff_of_true ⟨fun h0 => ?_, fun h1 => ?_⟩ fun hbad => by cases hbad.1
            · exact h.off hclient (hsame.trans h0)
            · exact h.on hclient (hsame.trans h1)
      · refine iff_of_true ?_ fun hbad => hne hbad.2.2.1
        rw [LedWorld.agrees_iff (t := .none_) (b := 0) rfl rfl]
        decide
      · refine iff_of_true ?_ fun hbad => hne hbad.2.2.1
        rw [LedWorld.agrees_iff (t := .none_) (b := 1) rfl rfl]
        decide
      · refine iff_of_true ?_ fun hbad => hbad.2.2.2.elim h0 h1
        refine (LedWorld.agrees_iff (t := t) (b := b) (by exact ht) (by exact hb)).mpr ?_
        exact ⟨fun _ => ⟨fun h => absurd h h0, fun h => absurd h h1⟩, fun h => absurd hnone h⟩
      · refine iff_of_true ?_ fun hbad => hnone hbad.2.1
        rw [LedWorld.agrees_iff ht hb]
        refine ⟨fun h => absurd h hnone, fun _ => h.timer ?_⟩
        cases t with
        | none_ => exact absurd rfl hnone
        | timer => exact hcurr
        | heartbeat => exact absurd hcurr h.heartbeat
      · refine iff_of_true ?_ fun hbad => hnone hbad.2.1
        rw [LedWorld.agrees_iff (t := .timer) rfl rfl]
        exact ⟨fun h => (by cases h), fun _ => rfl⟩

end Step

/-! ## The main result -/

/-- **The LED follows its files**, in every interleaving of external writes, client
commands and calls of `readset_powerled`, exactly when no call finds the trigger
none with the brightness it remembers while the LED blinks by a client's command. -/
theorem led_follows_along_iff (t : Trigger) (b : Bool) (events : List LedEvent) :
    Along LedWorld.step LedWorld.Follows (.start t b) events ↔
      Along LedWorld.step (fun w e => ¬ w.RemembersUnlit e) (.start t b) events :=
  along_congr LedWorld.Inv (fun _ e hinv => LedWorld.follows_iff hinv e)
    (fun _ e hinv => hinv.step e) (LedWorld.inv_start t b)

/-- The LED is on, a client lets it blink, and somebody asks for a steady light
again: the daemon sends nothing, and the LED goes on blinking. -/
theorem led_not_followed :
    let w := run LedWorld.step (LedWorld.start .none_ true)
      [.readset 0, .client .blink, .writeTrigger .none_, .readset 0]
    w.state.trigger = some Trigger.none_.text ∧ w.state.brightness 0 = some 1 ∧
      w.acked = some .blink := by
  decide +kernel

end AltF.Mcu
