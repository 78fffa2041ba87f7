/-
  Cgi/DiskReports.lean --- what the background scripts of diskmaint_proc.cgi tell of the
  programs that do the work.

  Success is told behind the test of a status.  In two scripts that status is not the one of
  the program: of `resize2fs` and `btrfs`, and of `dd`.
-/
import AltF.Cgi.DiskMaint

set_option autoImplicit false

namespace AltF.Cgi.DiskMaint

open AltF.Foundation AltF.Shell AltF.SysFiles

/-! ## Reports -/

/-- The program that does the work of an operation. -/
def Operation.work : Operation → Work
  | .check => .fsck
  | .fix => .fsck
  | .format => .mkfs
  | .shrink => .resize
  | .enlarge => .resize
  | .wipe => .dd

/-- The program whose success an effect tells of. -/
def Effect.tells (op : Operation) : Effect → Option Work
  | .success k _ => some k
  | .hotAdd _ => some op.work
  | _ => none

/-- The programs so far have succeeded, `k` among them. -/
structure Succeeded (k : Work) (trace : List Effect) : Prop where
  done : ∃ status, .worked k status ∈ trace
  ok : ∀ k' status, .worked k' status ∈ trace → k'.Ok status

/-- Success is told of programs that have succeeded, and the failure of one is in the
system error log, with the name of the device. -/
structure Reported (op : Operation) (part : Device) (trace : List Effect) : Prop where
  good : ∀ before e after k, trace = before ++ e :: after → e.tells op = some k →
    Succeeded k before
  bad : ∀ k status, .worked k status ∈ trace → ¬ k.Ok status →
    ∃ line, .errorLine line ∈ trace ∧ part.1 <:+: line

/-- What has been done when the rest of a script ends. -/
def traceFrom {α : Type} (trace : List Effect) (job : Job α) : List Effect :=
  match job trace with
  | .ok _ trace' => trace'
  | .error _ trace' => trace'

/-- What a script has done when it ends. -/
abbrev traceOf (job : Job PUnit) : List Effect := traceFrom [] job

section Trace

variable {α : Type} (trace : List Effect)

theorem traceFrom_work (run : Programs) (k : Work) (cmd : Text) (f : Disks.Outcome → Job α) :
    traceFrom trace (work run k cmd >>= f) =
      traceFrom (trace ++ [.worked k (run cmd).status]) (f (run cmd)) := rfl

theorem traceFrom_emit_bind (e : Effect) (f : PUnit → Job α) :
    traceFrom trace (emit e >>= f) = traceFrom (trace ++ [e]) (f ⟨⟩) := rfl

theorem traceFrom_emit (e : Effect) : traceFrom trace (emit e) = trace ++ [e] := rfl

theorem traceFrom_exit (n : Nat) : traceFrom trace (exit n : Job α) = trace := rfl

theorem traceFrom_report (emsg : Text) :
    traceFrom trace (report emsg) = trace ++ [.failure emsg] ++
      [.errorLine ("<li><pre>".toList ++ emsg ++ "</pre></li>".toList)] := rfl

theorem traceFrom_onlyIf_not {c : Prop} [Decidable c] (h : ¬ c) (m : Job PUnit)
    (f : PUnit → Job α) : traceFrom trace (onlyIf c m >>= f) = traceFrom trace (f ⟨⟩) := by
  rw [traceFrom, bind_of_ok (onlyIf_of_not h m trace)]
  rfl

/-- A test that reports and ends the script. -/
theorem traceFrom_onlyIf_report {c : Prop} [Decidable c] (h : c) (emsg : Text) (n : Nat)
    (f : PUnit → Job α) :
    traceFrom trace (onlyIf c (do report emsg; exit n) >>= f) =
      traceFrom trace (report emsg) := by
  rw [onlyIf, if_pos h]
  rfl

end Trace

/-- Only success is told. -/
def Sound (op : Operation) (trace : List Effect) : Prop :=
  ∀ before e after k, trace = before ++ e :: after → e.tells op = some k → Succeeded k before

section Reports

variable {op : Operation} {part : Device} {trace : List Effect} {e : Effect} {k : Work}

theorem sound_nil : Sound op [] := by
  intro before e after k h
  simp at h

/-- A step more tells of what has succeeded in front of it. -/
theorem sound_append (h : Sound op trace)
    (he : ∀ k, e.tells op = some k → Succeeded k trace) : Sound op (trace ++ [e]) := by
  intro before e' after k heq htells
  rcases List.eq_nil_or_concat after with rfl | ⟨after', last, rfl⟩
  · obtain ⟨rfl, hlast⟩ := List.append_inj' heq rfl
    obtain rfl : e = e' := by simpa using hlast
    exact he k htells
  · rw [List.concat_eq_append, ← List.cons_append, ← List.append_assoc] at heq
    obtain ⟨hfront, -⟩ := List.append_inj' heq rfl
    exact h before e' after' k hfront htells

theorem Succeeded.append (h : Succeeded k trace)
    (he : ∀ k' status, e = .worked k' status → k'.Ok status) : Succeeded k (trace ++ [e]) where
  done := h.done.imp fun _ hmem => List.mem_append_left _ hmem
  ok := fun k' status hmem => by
    rcases List.mem_append.mp hmem with hold | hnew
    · exact h.ok k' status hold
    · exact he k' status (List.mem_singleton.mp hnew).symm

/-- The work is done, and nothing but success was told. -/
structure Done (op : Operation) (trace : List Effect) : Prop where
  sound : Sound op trace
  succeeded : Succeeded op.work trace

/-- Any step that is no work keeps that, if what it tells of has succeeded. -/
theorem Done.append (h : Done op trace) (hwork : ∀ k status, e ≠ .worked k status)
    (he : ∀ k, e.tells op = some k → k = op.work) : Done op (trace ++ [e]) where
  sound := sound_append h.sound fun k hk => by
    rw [he k hk]
    exact h.succeeded
  succeeded := h.succeeded.append fun k status heq => absurd heq (hwork k status)

theorem Done.reported (h : Done op trace) : Reported op part trace where
  good := h.sound
  bad := fun k status hmem hbad => absurd (h.succeeded.ok k status hmem) hbad

/-- The last line of a report is for the log of errors. -/
theorem reported_of_report {report : Text} (hline : part.1 <:+: report) (hsound : Sound op trace) :
    Reported op part (trace ++ [.failure report] ++
      [.errorLine ("<li><pre>".toList ++ report ++ "</pre></li>".toList)]) where
  good := sound_append (sound_append hsound fun _ h => by cases h) fun _ h => by cases h
  bad := fun _ _ _ _ => by
    refine ⟨_, List.mem_append_right _ List.mem_cons_self, ?_⟩
    exact hline.trans ⟨"<li><pre>".toList, "</pre></li>".toList, rfl⟩

end Reports

/-! ## The scripts -/

section Scripts

variable (run : Programs) (part : Device) (made : Made)

/-- From a script that has done its work, a part that does no more of it. -/
abbrev StaysDone (op : Operation) (m : Job PUnit) : Prop :=
  Stays (Done op) m fun _ => Done op

theorem staysDone_emit {op : Operation} {e : Effect} (hwork : ∀ k status, e ≠ .worked k status)
    (he : ∀ k, e.tells op = some k → k = op.work) : StaysDone op (emit e) :=
  fun _ h => h.append hwork he

theorem staysDone_tool (op : Operation) (cmd : Text) {f : Disks.Outcome → Job PUnit}
    (h : ∀ r, StaysDone op (f r)) : StaysDone op (tool run cmd >>= f) :=
  Runs.bind (Q := fun _ => Done op)
    (fun _ hdone => hdone.append (fun _ _ => by simp) fun _ h => by cases h) h

theorem staysDone_pure (op : Operation) : StaysDone op (pure ⟨⟩) :=
  Runs.pure fun _ h => h

/-- What format does behind mkfs. -/
theorem staysDone_formatted (id : Text) : StaysDone .format (formatted run part made id) := by
  unfold formatted changeId
  refine Runs.bind (Runs.onlyIf fun _ => staysDone_tool run _ _ fun _ => staysDone_pure _)
    fun _ => ?_
  refine Runs.bind (staysDone_emit (fun _ _ => by simp) fun k hk => by cases hk; rfl) fun _ => ?_
  refine Runs.bind (Runs.onlyIf fun _ => staysDone_tool run _ _ fun _ => staysDone_pure _)
    fun _ => ?_
  refine Runs.bind (Runs.onlyIf fun _ => ?_) fun _ => ?_
  · refine staysDone_tool run _ _ fun gpt => staysDone_tool run _ _ fun ge =>
      Runs.onlyIf fun _ => staysDone_tool run _ _ fun r => ?_
    refine Runs.bind (Runs.onlyIf fun _ => staysDone_tool run _ _ fun _ => staysDone_pure _)
      fun _ => staysDone_tool run _ _ fun _ => staysDone_pure _
  refine Runs.bind (Runs.onlyIf fun _ => staysDone_tool run _ _ fun _ => staysDone_pure _)
    fun _ => ?_
  exact staysDone_emit (fun _ _ => by simp) fun k hk => by cases hk; rfl

/-- The first program of a script has ended. -/
theorem sound_worked (op : Operation) (k : Work) (status : Nat) : Sound op [.worked k status] :=
  sound_append sound_nil fun _ h => by cases h

theorem succeeded_worked {k : Work} {status : Nat} (hok : k.Ok status) :
    Succeeded k [.worked k status] where
  done := ⟨status, List.mem_cons_self⟩
  ok := fun k' status' hmem => by
    obtain ⟨rfl, rfl⟩ := Effect.worked.inj (List.mem_singleton.mp hmem)
    exact hok

theorem done_worked {op : Operation} {status : Nat} (hok : op.work.Ok status) :
    Done op [.worked op.work status] where
  sound := sound_worked op _ status
  succeeded := succeeded_worked hok

theorem check_reported (op : Operation) (hop : op.work = .fsck) (opts : Text) :
    Reported op part (traceOf (checkScript run part opts)) := by
  rw [traceOf, checkScript, traceFrom_work, List.nil_append]
  by_cases hok : (run (fsckCmd part opts)).status = 0 ∨ (run (fsckCmd part opts)).status = 1
  · have hdone : Done op [.worked op.work (run (fsckCmd part opts)).status] :=
      done_worked (by rw [hop]; exact hok)
    rw [if_pos hok, traceFrom_emit_bind, traceFrom_exit, ← hop]
    exact (hdone.append (fun _ _ => by simp) fun k hk => by cases hk; rfl).reported
  · rw [if_neg hok, traceFrom_report]
    refine reported_of_report ?_ (sound_worked op _ _)
    simp only [List.append_assoc]
    exact ⟨_, _, List.append_assoc _ _ _⟩

theorem format_reported (opts id : Text) :
    Reported .format part (traceOf (formatScript run part made opts id)) := by
  rw [traceOf, formatScript, traceFrom_work, List.nil_append]
  by_cases hok : (run (mkfsCmd part made opts)).status = 0
  · have hdone : Done .format [.worked .mkfs (run (mkfsCmd part made opts)).status] :=
      done_worked hok
    rw [traceFrom_onlyIf_not _ (not_not_intro hok), traceFrom]
    have hrun := staysDone_formatted run part made id _ hdone
    split at hrun
    · rename_i heq
      rw [heq]
      exact hrun.reported
    · rename_i heq
      rw [heq]
      exact hrun.reported
  · rw [traceFrom_onlyIf_report _ hok, traceFrom_report]
    refine reported_of_report ?_ (sound_worked _ _ _)
    simp only [List.append_assoc]
    exact ⟨_, _, List.append_assoc _ _ _⟩

/-- What resize does when the check has succeeded: the program's status is not tested. -/
theorem traceOf_resize {dir : Direction}
    (hok : (run (fsckCmd part "-fp".toList)).status = 0 ∨
      (run (fsckCmd part "-fp".toList)).status = 1) :
    traceOf (resizeScript run part made dir) =
      [.worked .fsck (run (fsckCmd part "-fp".toList)).status] ++
        [.success .fsck ("Checking ".toList ++ part.path ++ " OK".toList)] ++
        [.worked .resize (run (resizeCmd part made dir)).status] ++
        [.success .resize (dir.name ++ "ing ".toList ++ part.path ++ " succeeded".toList)] ++
        [.hotAdd part.1] := by
  rw [traceOf, resizeScript, traceFrom_work, traceFrom_onlyIf_not _ (not_not_intro hok),
    traceFrom_emit_bind, traceFrom_work,
    traceFrom_onlyIf_not _ (show ¬ statusWhenMade ≠ 0 from not_not_intro rfl),
    traceFrom_emit_bind, traceFrom_emit]
  rfl

theorem resize_reported_iff {op : Operation} (hop : op.work = .resize) (dir : Direction) :
    Reported op part (traceOf (resizeScript run part made dir)) ↔
      (Work.fsck.Ok (run (fsckCmd part "-fp".toList)).status →
        (run (resizeCmd part made dir)).status = 0) := by
  by_cases hok : (run (fsckCmd part "-fp".toList)).status = 0 ∨
      (run (fsckCmd part "-fp".toList)).status = 1
  · rw [traceOf_resize run part made hok]
    constructor
    · intro h
      have hsucceeded := h.good _ _ [.hotAdd part.1] .resize (List.append_assoc _ _ _) rfl
      exact fun _ => hsucceeded.ok .resize _ (List.mem_append_right _ List.mem_cons_self)
    · intro hresize
      have hstatus := hresize hok
      let checked : Effect := .success .fsck ("Checking ".toList ++ part.path ++ " OK".toList)
      let resized : Effect := .worked .resize (run (resizeCmd part made dir)).status
      let told : Effect :=
        .success .resize (dir.name ++ "ing ".toList ++ part.path ++ " succeeded".toList)
      have hfsck : Succeeded .fsck [.worked .fsck (run (fsckCmd part "-fp".toList)).status] :=
        succeeded_worked hok
      have hsound := sound_append (e := checked) (sound_worked op .fsck _) fun k hk => by
        obtain rfl := Option.some.inj hk
        exact hfsck
      have hall := (hfsck.append (e := checked) fun _ _ h => nomatch h).append (e := resized)
        fun k status h => by
          obtain ⟨rfl, rfl⟩ := Effect.worked.inj h
          exact hstatus
      have hdone : Done op ([.worked .fsck (run (fsckCmd part "-fp".toList)).status] ++
          [checked] ++ [resized]) :=
        { sound := sound_append hsound fun _ h => nomatch h
          succeeded :=
            { done := ⟨_, by rw [hop]; exact List.mem_append_right _ List.mem_cons_self⟩
              ok := hall.ok } }
      have htold := hdone.append (e := told) (fun _ _ h => nomatch h) fun k hk => by
        obtain rfl := Option.some.inj hk
        exact hop.symm
      exact (htold.append (e := .hotAdd part.1) (fun _ _ h => nomatch h)
        fun k hk => (Option.some.inj hk).symm).reported
  · refine iff_of_true ?_ fun h => absurd h hok
    rw [traceOf, resizeScript, traceFrom_work, List.nil_append, traceFrom_onlyIf_report _ hok,
      traceFrom_report]
    refine reported_of_report ?_ (sound_worked _ _ _)
    simp only [List.append_assoc]
    exact ⟨_, _, List.append_assoc _ _ _⟩

theorem wipe_reported_iff :
    Reported .wipe part (traceOf (wipeScript run part made)) ↔
      (run (ddCmd part made)).status = 0 := by
  have hrun : traceOf (wipeScript run part made) =
      [.worked .dd (run (ddCmd part made)).status] ++
        [.success .dd ("Wiped ".toList ++ part.path ++ " OK".toList)] := rfl
  rw [hrun]
  constructor
  · intro h
    exact (h.good [_] _ [] .dd rfl rfl).ok .dd _ List.mem_cons_self
  · intro hok
    have hdone : Done .wipe [.worked .dd (run (ddCmd part made)).status] := done_worked hok
    exact (hdone.append (fun _ _ => by simp) fun k hk => by cases hk; rfl).reported

/-- The program whose status the script does not see succeeds: `resize2fs` or `btrfs` behind
a good check, or `dd`. -/
def UnseenSucceeds : Operation → Prop
  | .shrink => Work.fsck.Ok (run (fsckCmd part "-fp".toList)).status →
      (run (resizeCmd part made .shrink)).status = 0
  | .enlarge => Work.fsck.Ok (run (fsckCmd part "-fp".toList)).status →
      (run (resizeCmd part made .enlarg)).status = 0
  | .wipe => (run (ddCmd part made)).status = 0
  | _ => True

/-- **Reports of disk operations**: a script that the page starts tells of success only
behind programs that succeeded, and reports the failure of one with the device's name,
exactly if the program whose status it does not see succeeds. -/
theorem script_reported_iff (op : Operation) {job : Job PUnit}
    (hstart : script run part made op = some job) :
    Reported op part (traceOf job) ↔ UnseenSucceeds run part made op := by
  cases op with
  | check =>
      obtain ⟨opts, -, rfl⟩ := Option.map_eq_some_iff.mp hstart
      exact iff_of_true (check_reported run part .check rfl opts) trivial
  | fix =>
      obtain ⟨opts, -, rfl⟩ := Option.map_eq_some_iff.mp hstart
      exact iff_of_true (check_reported run part .fix rfl opts) trivial
  | format =>
      obtain ⟨o, -, rfl⟩ := Option.map_eq_some_iff.mp hstart
      exact iff_of_true (format_reported run part made o.1 o.2) trivial
  | shrink =>
      obtain rfl := Option.some.inj hstart
      exact resize_reported_iff run part made rfl .shrink
  | enlarge =>
      obtain rfl := Option.some.inj hstart
      exact resize_reported_iff run part made rfl .enlarg
  | wipe =>
      obtain rfl := Option.some.inj hstart
      exact wipe_reported_iff run part made

end Scripts

/-- Programs that all end with the status. -/
def allEnd (status : Nat) : Programs := fun _ => ⟨status, []⟩

/-- `/dev/sda1` -/
def sda1 : Device := ⟨"sda1".toList, by decide⟩

def ext4Made : Made where
  type := "ext4".toList
  raid := none
  label := []
  tuneMounts := "50".toList
  tuneDays := "180".toList
  used := []
  mp := []
  nblk := "10".toList

theorem format_failure_reported :
    Reported .format sda1
      (traceOf (formatScript (allEnd 1) sda1 ext4Made "-v -m 0 ".toList "83".toList)) := by
  have hopts : formatOpts ext4Made = some ("-v -m 0 ".toList, "83".toList) := by decide +kernel
  exact (script_reported_iff (allEnd 1) sda1 ext4Made .format
    (by rw [script, hopts]; rfl)).mpr trivial

/-- With status 1 fsck has corrected the filesystem, but resize2fs and dd have failed: shrink
and wipe tell of success, and shrink mounts the filesystem. -/
theorem shrink_wipe_not_reported :
    (∃ job, script (allEnd 1) sda1 ext4Made .shrink = some job ∧
      .worked .resize 1 ∈ traceOf job ∧
      .success .resize "shrinking /dev/sda1 succeeded".toList ∈ traceOf job ∧
      .hotAdd "sda1".toList ∈ traceOf job ∧ ¬ Reported .shrink sda1 (traceOf job)) ∧
    (∃ job, script (allEnd 1) sda1 ext4Made .wipe = some job ∧
      .worked .dd 1 ∈ traceOf job ∧ .success .dd "Wiped /dev/sda1 OK".toList ∈ traceOf job ∧
      ¬ Reported .wipe sda1 (traceOf job)) := by
  refine ⟨⟨_, rfl, by decide +kernel, by decide +kernel, by decide +kernel, fun h => ?_⟩,
    _, rfl, by decide +kernel, by decide +kernel, fun h => ?_⟩
  · exact absurd ((resize_reported_iff _ _ _ rfl _).mp h (.inr rfl)) (by decide)
  · exact absurd ((wipe_reported_iff _ _ _).mp h) (by decide)

end AltF.Cgi.DiskMaint
