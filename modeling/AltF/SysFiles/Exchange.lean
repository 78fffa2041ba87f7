/-
  SysFiles/Exchange.lean --- dns320l-daemon writes a value while sysctrl reads it.

  Each system call is atomic, and the two programs take turns in any order.  The
  writer publishes in two calls: `open` with `O_TRUNC` empties the file, `write`
  fills it.  A reader that comes between the two finds nothing and returns the 0
  its variable was initialised with.
-/
import AltF.Foundation.Runs
import AltF.SysFiles.Text

set_option autoImplicit false

namespace AltF.SysFiles

open AltF.Foundation

/-! ## The two programs -/

/-- The system call a program makes next. -/
inductive Call where
  | open_
  /-- `write` of the writer, `read` of the reader -/
  | transfer
  | close
  | done
  deriving DecidableEq, Repr

/-- Whose turn it is. -/
inductive Who where
  /-- `write_str_to_file` of dns320l-daemon -/
  | writer
  /-- `read_int_from_file` of sysctrl's `read_temp` or `read_fan` -/
  | reader
  deriving DecidableEq, Repr

/-- The file, and where each program is. -/
structure World where
  file : Text
  writer : Call
  reader : Call
  /-- What the reader's `read` returned. -/
  got : Text
  deriving DecidableEq, Repr

/-- One system call.  The lock of `read_temp` is a directory that the writer
never looks at, so its calls are no part of this. -/
def step (str : Text) (w : World) : Who → World
  | .writer =>
      match w.writer with
      | .open_ => { w with file := [], writer := .transfer }
      | .transfer =>
          -- The descriptor is new, so the text goes to the front of the file.
          { w with
            file := writeStrToFile str ++ w.file.drop (writeStrToFile str).length
            writer := .close }
      | .close => { w with writer := .done }
      | .done => w
  | .reader =>
      match w.reader with
      | .open_ => { w with reader := .transfer }
      | .transfer => { w with got := w.file.take intBuf, reader := .close }
      | .close => { w with reader := .done }
      | .done => w

/-- Both programs before their first call, the file holding `v`. -/
def start (v : Int32) : World :=
  ⟨writeIntToFile v, .open_, .open_, []⟩

/-- What `read_fan` and `read_temp` return: `u`, initialised with 0. -/
def readValue (w : World) : Int32 :=
  ((strOfRead w.got).map fun buf => sscanfInt buf 0).getD 0

/-! ## What an interleaving does -/

/-- How many calls of the writer come before the reader's call number `n`,
counted from 0. -/
def writerCallsBefore : Nat → List Who → Nat
  | _, [] => 0
  | n, .writer :: rest => writerCallsBefore n rest + 1
  | 0, .reader :: _ => 0
  | n + 1, .reader :: rest => writerCallsBefore n rest

/-- The reader's `read`, its call number 1, falls between the writer's `open` and
its `write`. -/
def ReadsEmptied (turns : List Who) : Prop := writerCallsBefore 1 turns = 1

instance (turns : List Who) : Decidable (ReadsEmptied turns) :=
  inferInstanceAs (Decidable (_ = _))

/-- The file after `n` calls of the writer. -/
def fileAfter (v₀ v₁ : Int32) : Nat → Text
  | 0 => writeIntToFile v₀
  | 1 => []
  | _ => writeIntToFile v₁

/-- The next call of a program that has made `n`. -/
def callAfter : Nat → Call
  | 0 => .open_
  | 1 => .transfer
  | 2 => .close
  | _ => .done

variable {v₀ v₁ : Int32}

/-- One call of the writer. -/
theorem step_writer (n : Nat) (w : World) (hfile : w.file = fileAfter v₀ v₁ n)
    (hwriter : w.writer = callAfter n) :
    step (sprintfInt v₁) w .writer =
      { w with file := fileAfter v₀ v₁ (n + 1), writer := callAfter (n + 1) } := by
  obtain ⟨file, writer, reader, got⟩ := w
  simp only at hfile hwriter
  subst hfile hwriter
  match n with
  | 0 => rfl
  | 1 => simp [step, callAfter, fileAfter, writeIntToFile]
  | 2 => rfl
  | n + 3 => rfl

/-- The reader's last two calls do not look at the file. -/
theorem run_closing (turns : List Who) (w : World) (h : w.reader = .close ∨ w.reader = .done) :
    (run (step (sprintfInt v₁)) w turns).got = w.got := by
  induction turns generalizing w with
  | nil => rfl
  | cons who rest ih =>
      rw [run_cons]
      obtain ⟨file, writer, reader, got⟩ := w
      cases who with
      | writer => cases writer <;> exact ih _ h
      | reader =>
          rcases h with h | h <;> simp only at h <;> subst h
          · exact ih _ (Or.inr rfl)
          · exact ih _ (Or.inr rfl)

/-- **What the reader gets.**  From a state in which the writer has made `n` calls
and the reader `r`, a reader that finishes got the front of the file as the
writer's calls before its `read` had left it. -/
theorem run_got (v₀ : Int32) (turns : List Who) (n r : Nat) (hr : r ≤ 1) (w : World)
    (hfile : w.file = fileAfter v₀ v₁ n) (hwriter : w.writer = callAfter n)
    (hreader : w.reader = callAfter r)
    (hdone : (run (step (sprintfInt v₁)) w turns).reader = .done) :
    (run (step (sprintfInt v₁)) w turns).got =
      (fileAfter v₀ v₁ (n + writerCallsBefore (1 - r) turns)).take intBuf := by
  induction turns generalizing n r w with
  | nil =>
      rw [run_nil, hreader] at hdone
      have hcases : r = 0 ∨ r = 1 := by omega
      rcases hcases with rfl | rfl <;> cases hdone
  | cons who rest ih =>
      rw [run_cons] at hdone ⊢
      cases who with
      | writer =>
          rw [step_writer n w hfile hwriter] at hdone ⊢
          have hgot := ih (n + 1) r hr
            { w with file := fileAfter v₀ v₁ (n + 1), writer := callAfter (n + 1) }
            rfl rfl hreader hdone
          rw [hgot, writerCallsBefore]
          congr 2
          omega
      | reader =>
          have hcases : r = 0 ∨ r = 1 := by omega
          rcases hcases with rfl | rfl
          · have hstep : step (sprintfInt v₁) w .reader = { w with reader := .transfer } := by
              simp only [step, hreader, callAfter]
            rw [hstep] at hdone ⊢
            exact ih n 1 (Nat.le_refl 1) _ hfile hwriter rfl hdone
          · have hstep : step (sprintfInt v₁) w .reader =
                { w with got := w.file.take intBuf, reader := .close } := by
              simp only [step, hreader, callAfter]
            rw [hstep, run_closing rest _ (Or.inl rfl), hfile]
            rfl

/-- A complete value is read as itself. -/
theorem readValue_written {v : Int32} {w : World} (h : w.got = (writeIntToFile v).take intBuf) :
    readValue w = v := by
  have hread := readInt_writeInt v 0
  rw [readIntFromFile, readStrFromFile, ← h] at hread
  rw [readValue, hread, Option.getD_some]

/-- The value returned, by the place of the reader's `read`. -/
theorem readValue_run (turns : List Who)
    (hdone : (run (step (sprintfInt v₁)) (start v₀) turns).reader = .done) :
    readValue (run (step (sprintfInt v₁)) (start v₀) turns) =
      if writerCallsBefore 1 turns = 0 then v₀
      else if ReadsEmptied turns then 0
      else v₁ := by
  have hgot := run_got v₀ turns 0 0 (by decide) (start v₀) rfl rfl rfl hdone
  rw [Nat.zero_add, Nat.sub_zero] at hgot
  have hcases : writerCallsBefore 1 turns = 0 ∨ writerCallsBefore 1 turns = 1 ∨
      ∃ n, writerCallsBefore 1 turns = n + 2 := by
    rcases hn : writerCallsBefore 1 turns with _ | _ | n
    · exact Or.inl rfl
    · exact Or.inr (Or.inl rfl)
    · exact Or.inr (Or.inr ⟨n, rfl⟩)
  rcases hcases with hn | hn | ⟨n, hn⟩
  · rw [if_pos hn]
    rw [hn] at hgot
    exact readValue_written hgot
  · have hempty : ReadsEmptied turns := hn
    rw [if_neg (by omega), if_pos hempty]
    rw [hn, fileAfter, List.take_nil] at hgot
    rw [readValue, hgot]
    rfl
  · have hnot : ¬ ReadsEmptied turns := by
      rw [ReadsEmptied]
      omega
    rw [if_neg (by omega), if_neg hnot]
    rw [hn] at hgot
    exact readValue_written hgot

/-! ## The main result -/

/-- **Torn values.**  In every interleaving the value returned is the one before
or the one after the write exactly when the `read` does not fall between the
writer's `open` and its `write`, or one of the two values is the 0 that an
unreadable file is taken for. -/
theorem readValue_untorn_iff (v₀ v₁ : Int32) (turns : List Who)
    (hdone : (run (step (sprintfInt v₁)) (start v₀) turns).reader = .done) :
    (readValue (run (step (sprintfInt v₁)) (start v₀) turns) = v₀ ∨
      readValue (run (step (sprintfInt v₁)) (start v₀) turns) = v₁) ↔
      ¬ ReadsEmptied turns ∨ v₀ = 0 ∨ v₁ = 0 := by
  rw [readValue_run turns hdone]
  by_cases hbefore : writerCallsBefore 1 turns = 0
  · rw [if_pos hbefore]
    have hnot : ¬ ReadsEmptied turns := by
      rw [ReadsEmptied]
      omega
    exact iff_of_true (Or.inl rfl) (Or.inl hnot)
  · rw [if_neg hbefore]
    by_cases hempty : ReadsEmptied turns
    · rw [if_pos hempty]
      simp only [hempty, not_true_eq_false, false_or, eq_comm]
    · rw [if_neg hempty]
      exact iff_of_true (Or.inr rfl) (Or.inl hempty)

/-- The reader opens the file first and reads it after the write. -/
theorem readValue_untorn :
    let w := run (step (sprintfInt 42000)) (start 41000)
      [.reader, .writer, .writer, .reader, .writer, .reader]
    readValue w = 41000 ∨ readValue w = 42000 :=
  (readValue_untorn_iff 41000 42000 _ (by decide +kernel)).mpr (by decide +kernel)

/-- The temperature rises from 41000 to 42000, and sysctrl reads 0. -/
theorem readValue_torn :
    let w := run (step (sprintfInt 42000)) (start 41000)
      [.writer, .reader, .reader, .writer, .writer, .reader]
    w.reader = .done ∧ ¬ (readValue w = 41000 ∨ readValue w = 42000) := by
  decide +kernel

end AltF.SysFiles
