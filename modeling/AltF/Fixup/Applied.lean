/-
  Fixup/Applied.lean --- fixup: what applied fixes require is applied, over every sequence
  of operations, exactly when no operation meets one of two gaps.

  `recurse` goes on without a requirement it cannot apply, and `depends` asks for the first
  of the fixes that `grep` finds only.
-/
import AltF.Fixup.Fixes

set_option autoImplicit false

namespace AltF.Fixup

open AltF.Foundation AltF.Shell AltF.SysFiles

namespace Fixes

variable (dir : Fixes)

/-- What is applied has what it requires. -/
def Closed (σ : State) : Prop := ClosedUnder dir.Requires (applied σ)

/-- What an operation that finds `σ` applied owes the fixes. -/
structure Lawful (σ : State) (op : Operation) : Prop where
  closed : dir.Closed (dir.step σ op)
  /-- the rollback of a fix that an applied one requires is refused -/
  refused : ∀ arg f g, op = .rollback arg → dir.include_ arg = some f → σ g = true →
    dir.Requires g f.id → dir.rollback arg σ = (σ, false)

/-- A fix has another one of the current version applied first. -/
def Leads (f g : Fix) : Prop := g ∈ dir.files ∧ g.version = dir.version ∧ g.id ∈ f.require

/-- An operation meets no gap. -/
structure Careful (σ : State) (op : Operation) : Prop where
  /-- what is to be applied requires only fixes that are there in the current version, or
  applied -/
  apply : ∀ arg f g, op = .apply arg → dir.include_ arg = some f →
    Relation.ReflTransGen dir.Leads f g → ∀ e ∈ g.require,
      σ e = true ∨ e.1 = dir.version ∧ ∃ h ∈ dir.files, h.id = e
  /-- of the fixes that `grep` finds for a fix which an applied one requires, the first has
  the number of an applied one -/
  rollback : ∀ arg f g, op = .rollback arg → dir.include_ arg = some f → σ g = true →
    dir.Requires g f.id → ∃ d, (dir.dependants f).head? = some d ∧
      (∃ h ∈ dir.files, h.id = (dir.version, d.number)) ∧ σ (dir.version, d.number) = true

variable {dir}

theorem applied_update (σ : State) (e : Id) :
    applied (Function.update σ e true) = insert e (applied σ) := by
  ext t
  simp only [applied, Set.mem_ofPred_eq, Set.mem_insert_iff, Function.update_apply]
  split <;> simp_all

theorem applied_update_false (σ : State) (e : Id) :
    applied (Function.update σ e false) = applied σ \ {e} := by
  ext t
  simp only [applied, Set.mem_ofPred_eq, Set.mem_sdiff, Set.mem_singleton_iff,
    Function.update_apply]
  split <;> simp_all

/-! ## What an operation can do -/

/-- `apply` finds no fix, or one that is applied, or comes to its requirements. -/
theorem apply_cases {n : Nat} {arg : Text} {σ σ' : State}
    (h : dir.apply (n + 1) arg σ = some σ') :
    (dir.include_ arg = none ∧ σ' = σ) ∨ ∃ f, dir.include_ arg = some f ∧
      (f.id ∈ applied σ ∧ σ' = σ ∨ f.id ∉ applied σ ∧
        ∃ σ₁, dir.recurse (dir.apply n) f.require σ = some σ₁ ∧
          applied σ' = insert f.id (applied σ₁)) := by
  rw [apply] at h
  split at h
  · rename_i hnone
    exact Or.inl ⟨hnone, (Option.some.inj h).symm⟩
  · rename_i f hsome
    refine Or.inr ⟨f, hsome, ?_⟩
    split at h
    · rename_i hdone
      exact Or.inl ⟨hdone, (Option.some.inj h).symm⟩
    · rename_i hnew
      obtain ⟨σ₁, hrec, rfl⟩ := Option.map_eq_some_iff.mp h
      exact Or.inr ⟨hnew, σ₁, hrec, applied_update σ₁ f.id⟩

theorem recurse_keeps {applyOne : Text → State → Option State} {es : List Id} {P : State → Prop}
    (h : ∀ e ∈ es, ∀ σ σ', P σ → applyOne (idText e) σ = some σ' → P σ') {σ σ' : State}
    (hσ : P σ) (hrec : dir.recurse applyOne es σ = some σ') : P σ' := by
  induction es generalizing σ with
  | nil =>
      obtain rfl := Option.some.inj hrec
      exact hσ
  | cons e es ih =>
      have hrest : ∀ {τ : State}, P τ → dir.recurse applyOne es τ = some σ' → P σ' :=
        ih fun d hd => h d (List.mem_cons_of_mem e hd)
      rw [recurse] at hrec
      split at hrec
      · split at hrec
        · exact absurd hrec (Option.some_ne_none _).symm
        · rename_i hone
          exact hrest (h e List.mem_cons_self σ _ hσ hone) hrec
      · exact hrest hσ hrec

theorem recurse_ne_none {applyOne : Text → State → Option State} {es : List Id}
    (h : ∀ e ∈ es, ∀ σ, applyOne (idText e) σ ≠ none) (σ : State) :
    dir.recurse applyOne es σ ≠ none := by
  induction es generalizing σ with
  | nil => exact Option.some_ne_none _
  | cons e es ih =>
      have hrest := ih fun d hd => h d (List.mem_cons_of_mem e hd)
      rw [recurse]
      split
      · split
        · rename_i hnone
          exact absurd hnone (h e List.mem_cons_self σ)
        · exact hrest _
      · exact hrest σ

theorem apply_grows {n : Nat} {arg : Text} {σ σ' : State} (h : dir.apply n arg σ = some σ') :
    applied σ ⊆ applied σ' := by
  induction n generalizing arg σ σ' with
  | zero => exact absurd h (Option.some_ne_none _).symm
  | succ n ih =>
      obtain ⟨-, rfl⟩ | ⟨f, -, ⟨-, rfl⟩ | ⟨-, σ₁, hrec, hinsert⟩⟩ := apply_cases h
      · exact Set.Subset.rfl
      · exact Set.Subset.rfl
      · rw [hinsert]
        have hsub : applied σ ⊆ applied σ₁ :=
          recurse_keeps (P := fun τ => applied σ ⊆ applied τ)
            (fun e _ τ τ' hτ hone => hτ.trans (ih hone)) Set.Subset.rfl hrec
        exact hsub.trans (Set.subset_insert f.id _)

theorem apply_done {n : Nat} {arg : Text} {σ σ' : State} {f : Fix}
    (h : dir.apply n arg σ = some σ') (hf : dir.include_ arg = some f) : f.id ∈ applied σ' := by
  cases n with
  | zero => exact absurd h (Option.some_ne_none _).symm
  | succ n =>
      obtain ⟨hnone, -⟩ | ⟨g, hg, hrest⟩ := apply_cases h
      · exact absurd (hnone.symm.trans hf) (Option.some_ne_none f).symm
      · obtain rfl := Option.some.inj (hf.symm.trans hg)
        obtain ⟨hdone, rfl⟩ | ⟨-, σ₁, -, hinsert⟩ := hrest
        · exact hdone
        · rw [hinsert]
          exact Set.mem_insert f.id _

/-- What is newly applied is there, in the current version. -/
theorem apply_new {n : Nat} {arg : Text} {σ σ' : State} (h : dir.apply n arg σ = some σ') :
    ∀ e ∈ applied σ', e ∈ applied σ ∨ e.1 = dir.version ∧ ∃ f ∈ dir.files, f.id = e := by
  induction n generalizing arg σ σ' with
  | zero => exact absurd h (Option.some_ne_none _).symm
  | succ n ih =>
      obtain ⟨-, rfl⟩ | ⟨f, hf, ⟨-, rfl⟩ | ⟨-, σ₁, hrec, hinsert⟩⟩ := apply_cases h
      · exact fun e he => Or.inl he
      · exact fun e he => Or.inl he
      · have hloop := recurse_keeps (P := fun τ => ∀ e ∈ applied τ, e ∈ applied σ ∨
            e.1 = dir.version ∧ ∃ f ∈ dir.files, f.id = e)
          (fun e _ τ τ' hτ hone d hd => (ih hone d hd).elim (hτ d) Or.inr)
          (fun e he => Or.inl he) hrec
        intro e he
        rw [hinsert] at he
        rcases Set.mem_insert_iff.mp he with rfl | he
        · obtain ⟨hmem, hversion⟩ := include_some hf
          exact Or.inr ⟨hversion, f, hmem, rfl⟩
        · exact hloop e he

/-- After `recurse`, a requirement that is there in the current version is applied. -/
theorem recurse_done {n : Nat} {es : List Id}
    (hes : ∀ e ∈ es, isVersion e.1 = true ∧ isNumber e.2 = true) {σ σ' : State}
    (h : dir.recurse (dir.apply n) es σ = some σ') :
    ∀ e ∈ es, e.1 = dir.version → (∃ f ∈ dir.files, f.id = e) → e ∈ applied σ' := by
  induction es generalizing σ with
  | nil => exact fun e he => absurd he List.not_mem_nil
  | cons d es ih =>
      have hrest := fun e he => hes e (List.mem_cons_of_mem d he)
      have hgrows : ∀ {τ : State}, dir.recurse (dir.apply n) es τ = some σ' →
          applied τ ⊆ applied σ' := fun hτ =>
        recurse_keeps (P := fun υ => applied _ ⊆ applied υ)
          (fun e _ υ υ' hυ hone => hυ.trans (apply_grows hone)) Set.Subset.rfl hτ
      rw [recurse] at h
      rintro e he hversion ⟨f, hf, hid⟩
      rcases List.mem_cons.mp he with rfl | he
      · have hnamed := hes e List.mem_cons_self
        rw [if_pos (by rw [filter_fits hnamed hf hid]; rfl)] at h
        split at h
        · exact absurd h (Option.some_ne_none _).symm
        · rename_i hone
          have hdone := apply_done hone (include_idText hnamed hversion hf hid)
          exact hgrows h (hid ▸ hdone)
      · split at h
        · split at h
          · exact absurd h (Option.some_ne_none _).symm
          · exact ih hrest h e he hversion ⟨f, hf, hid⟩
        · exact ih hrest h e he hversion ⟨f, hf, hid⟩

/-! ## Every operation returns -/

theorem requires_of_mem {f : Fix} (hf : f ∈ dir.files) {e : Id} (he : e ∈ f.require) :
    dir.Requires f.id e :=
  ⟨f, hf, rfl, he⟩

theorem mem_require_of_requires {f : Fix} (hf : f ∈ dir.files) {e : Id}
    (h : dir.Requires f.id e) : e ∈ f.require := by
  obtain ⟨g, hg, hid, he⟩ := h
  exact eq_of_id_eq hg hf hid ▸ he

/-- A chain of requirements ends: fuel that exceeds the rank of a fix is enough to apply it. -/
theorem apply_ne_none {rank : Id → Nat} (hrank : ∀ a b, dir.Requires a b → rank b < rank a)
    {n : Nat} {arg : Text} (hn : ∀ f, dir.include_ arg = some f → rank f.id < n) (hpos : 0 < n)
    (σ : State) : dir.apply n arg σ ≠ none := by
  induction n generalizing arg σ with
  | zero => exact absurd hpos (Nat.lt_irrefl 0)
  | succ n ih =>
      rw [apply]
      split
      · exact Option.some_ne_none _
      · rename_i f hf
        split
        · exact Option.some_ne_none _
        · rw [Ne, Option.map_eq_none_iff]
          refine recurse_ne_none (fun e he τ => ?_) σ
          have hmem := (include_some hf).1
          have hlt := hrank f.id e (requires_of_mem hmem he)
          have hle := hn f hf
          refine ih (fun g hg => ?_) (by omega) τ
          have hid : g.id = e := id_of_include (named_of_mem_require hmem he) hg
          rw [hid]
          omega

theorem apply_eq (arg : { a : Text // isArgument a = true }) (σ : State) :
    dir.apply dir.fuel arg σ = some (dir.step σ (.apply arg)) := by
  have hlist : ∀ a b, dir.Requires a b → b ∈ dir.files.flatMap Fix.require := by
    rintro a b ⟨f, hf, -, hb⟩
    exact List.mem_flatMap.mpr ⟨f, hf, hb⟩
  obtain ⟨rank, hrank, hle⟩ := dir.acyclic.exists_rank hlist
  have hsome : dir.apply dir.fuel arg σ ≠ none :=
    apply_ne_none hrank (fun f _ => Nat.lt_succ_of_le (hle f.id)) (Nat.succ_pos _) σ
  obtain ⟨σ', hout⟩ := Option.ne_none_iff_exists'.mp hsome
  rw [step, hout]
  rfl

/-! ## Applying -/

/-- What is applied has its requirements, where they are there in the current version. -/
theorem apply_closed {n : Nat} {arg : Text} {σ σ' : State} (hσ : dir.Closed σ)
    (hthere : ∀ f g, dir.include_ arg = some f → Relation.ReflTransGen dir.Leads f g →
      ∀ e ∈ g.require, e ∈ applied σ ∨ e.1 = dir.version ∧ ∃ h ∈ dir.files, h.id = e)
    (h : dir.apply n arg σ = some σ') : dir.Closed σ' := by
  induction n generalizing arg σ σ' with
  | zero => exact absurd h (Option.some_ne_none _).symm
  | succ n ih =>
      obtain ⟨-, rfl⟩ | ⟨f, hf, ⟨-, rfl⟩ | ⟨-, σ₁, hrec, hinsert⟩⟩ := apply_cases h
      · exact hσ
      · exact hσ
      · have hmem := (include_some hf).1
        have hnamed := fun e he => named_of_mem_require (e := e) hmem he
        have hloop := recurse_keeps
          (P := fun τ => dir.Closed τ ∧ applied σ ⊆ applied τ)
          (fun e he τ τ' hτ hone => ⟨ih hτ.1 ?_ hone, hτ.2.trans (apply_grows hone)⟩)
          ⟨hσ, Set.Subset.rfl⟩ hrec
        · rw [Closed, hinsert]
          refine hloop.1.insert fun e he => ?_
          have he' := mem_require_of_requires hmem he
          obtain hold | ⟨hversion, hexists⟩ := hthere f f hf Relation.ReflTransGen.refl e he'
          · exact hloop.2 hold
          · exact recurse_done hnamed hrec e he' hversion hexists
        · -- a requirement leads to a fix that `f` leads to
          intro g k hg hreach d hd
          have hid := id_of_include (hnamed e he) hg
          obtain ⟨hgmem, hgversion⟩ := include_some hg
          have hlead : dir.Leads f g := ⟨hgmem, hgversion, hid ▸ he⟩
          exact (hthere f k hf (hreach.head hlead) d hd).imp_left fun hold => hτ.2 hold

/-- Of a fix that is applied in a closed state, all that it leads to is applied. -/
theorem leads_applied {σ : State} (hσ : dir.Closed σ) {f g : Fix} (hf : f ∈ dir.files)
    (hdone : f.id ∈ applied σ) (h : Relation.ReflTransGen dir.Leads f g) :
    g ∈ dir.files ∧ g.id ∈ applied σ := by
  induction h with
  | refl => exact ⟨hf, hdone⟩
  | tail _ hlead ih => exact ⟨hlead.1, hσ ih.2 (requires_of_mem ih.1 hlead.2.2)⟩

/-! ## Rolling back -/

/-- `rollback` finds no fix, or one that is not applied, or refuses, or takes it away. -/
theorem rollback_cases {arg : Text} {f : Fix} (hf : dir.include_ arg = some f) (σ : State) :
    (f.id ∉ applied σ ∧ dir.rollback arg σ = (σ, true)) ∨ f.id ∈ applied σ ∧
      (dir.depends f σ = true ∧ dir.rollback arg σ = (σ, false) ∨
        dir.depends f σ = false ∧
          dir.rollback arg σ = (Function.update σ f.id false, true)) := by
  have hdef : dir.rollback arg σ = if σ f.id = false then (σ, true)
      else if dir.depends f σ then (σ, false) else (Function.update σ f.id false, true) := by
    rw [rollback, hf]
  rw [hdef]
  split
  · rename_i hnot
    exact Or.inl ⟨fun hmem => absurd (hnot.symm.trans hmem) Bool.false_ne_true, rfl⟩
  · rename_i hdone
    refine Or.inr ⟨eq_true_of_ne_false hdone, ?_⟩
    split
    · rename_i hdep
      exact Or.inl ⟨hdep, rfl⟩
    · rename_i hdep
      exact Or.inr ⟨Bool.not_eq_true _ ▸ hdep, rfl⟩

/-! ## Operations -/

/-- An operation on a closed state is lawful where it meets no gap, and only there. -/
theorem lawful_iff_careful {σ : State} (hσ : dir.Closed σ) (op : Operation) :
    dir.Lawful σ op ↔ dir.Careful σ op := by
  cases op with
  | apply arg =>
      have hout : dir.apply dir.fuel arg σ = some (dir.step σ (.apply arg)) := apply_eq arg σ
      constructor
      · intro hlawful
        refine ⟨?_, fun arg' f g h => nomatch h⟩
        intro arg' f g h hf hreach e he
        obtain rfl := Operation.apply.inj h
        -- all that `f` leads to is applied afterwards, and so is what that requires
        obtain ⟨hg, hgdone⟩ := leads_applied hlawful.closed (include_some hf).1
          (apply_done hout hf) hreach
        have hedone := hlawful.closed hgdone (requires_of_mem hg he)
        exact apply_new hout e hedone
      · intro hcareful
        refine ⟨apply_closed hσ (fun f g => hcareful.apply arg f g rfl) hout, ?_⟩
        exact fun arg' f g h => nomatch h
  | rollback arg =>
      constructor
      · intro hlawful
        refine ⟨fun arg' f g h => (nomatch h), ?_⟩
        intro arg' f g h hf hg hreq
        obtain rfl := Operation.rollback.inj h
        have hrefused := hlawful.refused arg f g rfl hf hg hreq
        obtain ⟨-, hout⟩ | ⟨-, ⟨hdep, -⟩ | ⟨-, hout⟩⟩ := rollback_cases hf σ
        · exact absurd (congrArg Prod.snd (hout.symm.trans hrefused)).symm Bool.false_ne_true
        · exact (depends_iff σ).mp hdep
        · exact absurd (congrArg Prod.snd (hout.symm.trans hrefused)).symm Bool.false_ne_true
      · intro hcareful
        have hrefused : ∀ f g, dir.include_ arg = some f → σ g = true → dir.Requires g f.id →
            dir.rollback arg σ = (σ, false) := by
          intro f g hf hg hreq
          have hdep := (depends_iff σ).mpr (hcareful.rollback arg f g rfl hf hg hreq)
          obtain ⟨hnot, -⟩ | ⟨-, ⟨-, hout⟩ | ⟨hno, -⟩⟩ := rollback_cases hf σ
          · exact absurd (hσ hg hreq) hnot
          · exact hout
          · exact absurd (hno.symm.trans hdep) Bool.false_ne_true
        refine ⟨?_, fun arg' f g h hf hg hreq => ?_⟩
        · rw [step]
          cases hf : dir.include_ arg with
          | none =>
              rw [rollback, hf]
              exact hσ
          | some f =>
              obtain ⟨-, hout⟩ | ⟨-, ⟨-, hout⟩ | ⟨-, hout⟩⟩ := rollback_cases hf σ
              · rw [hout]
                exact hσ
              · rw [hout]
                exact hσ
              · rw [hout, Closed, applied_update_false]
                refine hσ.erase fun g hg _ hreq => ?_
                have hkept := hrefused f g hf hg hreq
                exact absurd (congrArg Prod.snd (hout.symm.trans hkept)).symm Bool.false_ne_true
        · obtain rfl := Operation.rollback.inj h
          exact hrefused f g hf hg hreq

/-- **Applied fixes.**  Along a run from a closed state, applied fixes have what they require
and keep it exactly when no operation meets a gap. -/
theorem lawful_along_iff {σ : State} (hσ : dir.Closed σ) (ops : List Operation) :
    Along dir.step dir.Lawful σ ops ↔ Along dir.step dir.Careful σ ops := by
  constructor
  · refine along_of_step dir.Closed (fun σ op hσ h => ?_) hσ
    exact ⟨(lawful_iff_careful hσ op).mp h, h.closed⟩
  · refine along_of_step dir.Closed (fun σ op hσ h => ?_) hσ
    have hlawful := (lawful_iff_careful hσ op).mpr h
    exact ⟨hlawful, hlawful.closed⟩

end Fixes

/-! ## Two fixes that require the same one -/

/-- A fix of version `0.1RC4`. -/
def rc4Fix (number description : String) (require : List Id) : Fix :=
  ⟨"0.1RC4".toList, number.toList, description.toList, require⟩

/-- `05` and `07` require `04`. -/
def rc4Fixes : Fixes where
  version := "0.1RC4".toList
  files :=
    [rc4Fix "04" "web" [], rc4Fix "05" "mail" [("0.1RC4".toList, "04".toList)],
      rc4Fix "07" "disk" [("0.1RC4".toList, "04".toList)]]
  named := by decide
  nodup := by decide
  acyclic := by
    have hrank : ∀ f ∈ [rc4Fix "04" "web" [],
        rc4Fix "05" "mail" [("0.1RC4".toList, "04".toList)],
        rc4Fix "07" "disk" [("0.1RC4".toList, "04".toList)]], ∀ e ∈ f.require,
          (if e.2 = "04".toList then 0 else 1) < if f.id.2 = "04".toList then 0 else 1 := by
      decide
    refine acyclic_of_rank (fun e => if e.2 = "04".toList then 0 else 1) ?_
    rintro a b ⟨f, hf, rfl, hb⟩
    exact hrank f hf b hb

theorem idle_closed (dir : Fixes) : dir.Closed fun _ => false :=
  fun _ he => absurd he Bool.false_ne_true

theorem lawful_along_iff_rc4 :
    Along rc4Fixes.step rc4Fixes.Lawful (fun _ => false)
        [.apply ⟨"05".toList, by decide⟩, .rollback ⟨"04".toList, by decide⟩] ↔
      Along rc4Fixes.step rc4Fixes.Careful (fun _ => false)
        [.apply ⟨"05".toList, by decide⟩, .rollback ⟨"04".toList, by decide⟩] :=
  Fixes.lawful_along_iff (idle_closed rc4Fixes) _

/-- With `07` applied and not `05`, `04` is taken away. -/
theorem required_fix_rolled_back :
    ¬ Along rc4Fixes.step rc4Fixes.Lawful (fun _ => false)
      [.apply ⟨"0.1RC4-07".toList, by decide⟩, .rollback ⟨"04".toList, by decide⟩] := by
  have hruns : ∀ σ, σ = run rc4Fixes.step (fun _ => false)
      [.apply ⟨"0.1RC4-07".toList, by decide⟩, .rollback ⟨"04".toList, by decide⟩] →
      σ ("0.1RC4".toList, "07".toList) = true ∧ σ ("0.1RC4".toList, "04".toList) = false := by
    rintro σ rfl
    decide
  intro h
  obtain ⟨h07, h04⟩ := hruns _ rfl
  have hreq : rc4Fixes.Requires ("0.1RC4".toList, "07".toList) ("0.1RC4".toList, "04".toList) :=
    ⟨rc4Fix "07" "disk" [("0.1RC4".toList, "04".toList)], by decide, by decide, by decide⟩
  exact absurd (h04.symm.trans (h.2.1.closed h07 hreq)) Bool.false_ne_true

end AltF.Fixup
