/-
  Sysctrl/UserScripts.lean --- `exec_userscript` of sysctrl.c, as far as processes go: a child
  whose `execl` fails does not exit, so that it goes on as a daemon of its own.

  The settings name a script that `checkfile` has found; it may be gone, or not be executable
  after all, when it is called.
-/
import AltF.Sysctrl.Alarms

set_option autoImplicit false

namespace AltF.Sysctrl

open AltF.Foundation AltF.SysFiles

/-! ## Processes -/

/-- The processes that come out of these actions, when one goes in; `fails` are the scripts of
which `execl` fails. -/
def copies (fails : Text → Bool) : List Action → Nat
  | [] => 1
  | .userscript script :: rest =>
      -- After the `fork` both of them do the rest.
      if fails script then copies fails rest + copies fails rest else copies fails rest
  | _ :: rest => copies fails rest

/-- A call of `fanctl` in every daemon.  They read the same. -/
def fanRound (board : Board) (args : Args) (fails : Text → Bool) (ds : List FanState)
    (r : Readings) : List FanState :=
  ds.flatMap fun s =>
    List.replicate (copies fails (fanctl board args s r).2.2) (fanctl board args s r).1

/-- A script that fails. -/
def Action.isFailing (fails : Text → Bool) : Action → Bool
  | .userscript script => fails script
  | _ => false

def failing (fails : Text → Bool) (actions : List Action) : Nat :=
  actions.countP (Action.isFailing fails)

theorem copies_eq (fails : Text → Bool) (actions : List Action) :
    copies fails actions = 2 ^ failing fails actions := by
  induction actions with
  | nil => rfl
  | cons a rest ih =>
      unfold failing at ih ⊢
      rw [List.countP_cons]
      cases a with
      | userscript script =>
          rw [copies, ih, Action.isFailing]
          cases fails script with
          | true => simp [pow_succ, Nat.mul_two]
          | false => simp
      | log => exact ih
      | syserrorlog => exact ih
      | smail => exact ih

/-- The scripts that fail in the calls of a daemon. -/
def failures (board : Board) (args : Args) (fails : Text → Bool) : FanState → List Readings → Nat
  | _, [] => 0
  | s, r :: rest =>
      failing fails (fanctl board args s r).2.2 +
        failures board args fails (fanctl board args s r).1 rest

/-- The daemons stay equal, and each failure doubles them. -/
theorem run_fanRound (board : Board) (args : Args) (fails : Text → Bool) (n : Nat) (s : FanState)
    (readings : List Readings) :
    run (fanRound board args fails) (List.replicate n s) readings =
      List.replicate (n * 2 ^ failures board args fails s readings)
        (run (fun s r => (fanctl board args s r).1) s readings) := by
  induction readings generalizing n s with
  | nil => simp [failures]
  | cons r rest ih =>
      have hround : fanRound board args fails (List.replicate n s) r =
          List.replicate (n * 2 ^ failing fails (fanctl board args s r).2.2)
            (fanctl board args s r).1 := by
        unfold fanRound
        rw [List.flatMap_replicate, copies_eq]
        simp
      rw [run_cons, hround, ih, failures, pow_add, Nat.mul_assoc]
      rfl

/-! ## Excursions -/

instance {α : Type} {on off : α → Prop} [DecidablePred on] [DecidablePred off] (l : List α) :
    Decidable (Since on off l) :=
  decidable_of_iff
    (run (fun flag a => decide (on a) || flag && !decide (off a)) false l = true)
    (run_flag id (fun _ _ => by simp) rfl l)

instance (limit : Rat) (before : List Sample) (c : Sample) : Decidable (Starts limit before c) :=
  inferInstanceAs (Decidable (_ ∧ ¬ Since _ _ _))

/-- The excursions that start in these samples, after others. -/
def excursions (limit : Rat) : List Sample → List Sample → Nat
  | _, [] => 0
  | before, c :: rest =>
      (if Starts limit before c then 1 else 0) + excursions limit (before ++ [c]) rest

section Critical

variable {args : Args} {fails : Text → Bool}

/-- The command for `crit_temp` cannot be executed, and one for `warn_temp` can. -/
structure CritFails (args : Args) (fails : Text → Bool) : Prop where
  warn : ∀ w ∈ args.warnTempCommand, fails w = false
  crit : ∃ script, args.critTempCommand = some script ∧ script ≠ [] ∧ fails script = true

/-- The command of an alarm is the one that fails. -/
theorem failing_fanctl (h : CritFails args fails) (board : Board) (s : FanState) (r : Readings) :
    failing fails (fanctl board args s r).2.2 =
      if Alarms args s ⟨filterTemp args s.temp r, r.fan⟩ then 1 else 0 := by
  have hlog : ∀ s : FanState, failing fails (fanlog args r s).2 = 0 := by
    intro s
    simp only [fanlog]
    split <;> rfl
  have hmail : ∀ critical fan temp limit, failing fails
      (if args.mail then [.smail critical fan temp limit] else []) = 0 := by
    intro critical fan temp limit
    cases args.mail <;> rfl
  have hwarned : ∀ c, failing fails (warned args s c) = 0 := by
    intro c
    rw [warned_eq]
    split
    · have hcommand : failing fails (execUserscript args.warnTempCommand) = 0 := by
        unfold execUserscript
        split
        · rfl
        · rename_i w hw
          split
          · rfl
          · simp [failing, Action.isFailing, h.warn w hw]
      unfold failing at hmail hcommand ⊢
      rw [List.countP_append, List.countP_append, hmail, hcommand]
      rfl
    · rfl
  obtain ⟨script, hcrit, hsome, hfails⟩ := h.crit
  have halarmed : ∀ c, failing fails (alarmed args s c) = if Alarms args s c then 1 else 0 := by
    intro c
    rw [alarmed_eq]
    split
    · have hcommand : failing fails (execUserscript args.critTempCommand) = 1 := by
        rw [hcrit, execUserscript, if_neg hsome]
        simp [failing, Action.isFailing, hfails]
      unfold failing at hmail hcommand ⊢
      rw [List.countP_append, hmail, hcommand]
    · rfl
  rw [(fanctl_sample args board s r).1]
  have happend : ∀ xs ys, failing fails (xs ++ ys) = failing fails xs + failing fails ys :=
    fun xs ys => List.countP_append
  rw [happend, happend, hlog, hwarned, halarmed, Nat.zero_add]

/-- It fails at the start of every excursion. -/
theorem failures_eq (h : CritFails args fails) (board : Board) {s : FanState}
    {before : List Sample} (hlatch : s.crit = true ↔ Underway args.critTemp before)
    (readings : List Readings) :
    failures board args fails s readings =
      excursions args.critTemp before (samples args board s readings) := by
  induction readings generalizing s before with
  | nil => rfl
  | cons r rest ih =>
      rw [failures, samples, excursions, failing_fanctl h]
      have hstarts : Alarms args s ⟨filterTemp args s.temp r, r.fan⟩ ↔
          Starts args.critTemp before ⟨filterTemp args s.temp r, r.fan⟩ := by
        unfold Alarms Starts
        rw [← hlatch, Bool.not_eq_true]
      congr 1
      · exact if_congr hstarts rfl rfl
      · have hnext : Underway args.critTemp (before ++ [⟨filterTemp args s.temp r, r.fan⟩]) ↔ _ :=
          since_concat
        refine ih ?_
        rw [(fanctl_sample args board s r).2.2, afterSample_crit, hlatch, hnext]
        exact Iff.rfl

end Critical

end AltF.Sysctrl
