/-
  Services/Exclusion.lean --- init.d/common: services that exclude each other do not run
  together, over every sequence of requests.

  `excludedby` looks once, before the requirements are started.  Those are all required by
  the service, directly or indirectly, so none of them is one that it excludes; and each
  of them has looked for itself.
-/
import AltF.Services.Scripts

set_option autoImplicit false

namespace AltF.Services

open AltF.Foundation AltF.Shell AltF.SysFiles

namespace Scripts

/-- Two services exclude each other. -/
def Excludes (sc : Scripts) (s t : Text) : Prop :=
  s ≠ t ∧ s ∈ sc.names ∧ t ∈ sc.names ∧ t ∈ sc.excluded s

end Scripts

/-- Scripts with a symmetric `EXCLUDEDBY`, and no service that requires, directly or
indirectly, one that it excludes. -/
structure ExclusiveScripts extends Scripts where
  symmetric : ∀ s t, toScripts.Excludes s t → toScripts.Excludes t s
  compatible : ∀ s t, Relation.TransGen toScripts.Requires s t → ¬ toScripts.Excludes s t

namespace ExclusiveScripts

open Scripts

variable (sc : ExclusiveScripts)

/-- What `excludedby` lets pass. -/
theorem not_excludes_of_any {s t : Text} {σ : State} (hproper : sc.Proper σ)
    (h : (sc.excluded s).any (sc.status σ) = false) (ht : t ∈ running σ) :
    ¬ sc.Excludes s t := by
  intro hexcl
  have hstatus := List.any_eq_false.mp h t hexcl.2.2.2
  exact hstatus (hproper.status ht)

/-- `start` keeps the services apart. -/
theorem start_apart {starts : Text → Bool} {n : Nat} {s : Text} {σ σ' : State} {b : Bool}
    (hproper : sc.Proper σ) (hσ : Apart sc.Excludes (running σ))
    (h : sc.start starts n s σ = some (σ', b)) : Apart sc.Excludes (running σ') := by
  induction n generalizing s σ σ' b with
  | zero => exact absurd h (Option.some_ne_none _).symm
  | succ n ih =>
      obtain ⟨rfl, -⟩ | ⟨havailable, hany, hrest⟩ := start_cases h
      · exact hσ
      · have hname := mem_names_of_available havailable
        -- what has been added so far is required by `s`
        have hloop : ∀ {τ : State} {c : Bool},
            sc.requireLoop (sc.start starts n) (sc.daemon s) (sc.require s) σ = some (τ, c) →
            sc.Proper τ ∧ Apart sc.Excludes (running τ) ∧
              ∀ t ∈ running τ, t ∈ running σ ∨ Relation.TransGen sc.Requires s t := by
          refine requireLoop_keeps (P := fun τ => sc.Proper τ ∧ Apart sc.Excludes (running τ) ∧
              ∀ t ∈ running τ, t ∈ running σ ∨ Relation.TransGen sc.Requires s t)
            (fun i hi τ τ' c hτ hone => ⟨hτ.1.start hone, ih hτ.1 hτ.2.1 hone, fun t ht => ?_⟩)
            ⟨hproper, hσ, fun t ht => Or.inl ht⟩
          obtain hold | ⟨-, hreach⟩ := start_new hone t ht
          · exact hτ.2.2 t hold
          · exact Or.inr (Relation.TransGen.head' ⟨hname, hi⟩ hreach)
        obtain ⟨hfail, -⟩ | ⟨σ₁, hdone, hlaunch⟩ := hrest
        · exact (hloop hfail).2.1
        · obtain ⟨-, hapart, hnew⟩ := hloop hdone
          obtain ⟨hrun, -⟩ | ⟨rfl, -⟩ := launch_cases hlaunch
          · rw [hrun]
            refine hapart.insert sc.symmetric (fun hself => hself.1 rfl) fun t ht => ?_
            obtain hold | hreach := hnew t ht
            · exact sc.not_excludes_of_any hproper hany hold
            · exact sc.compatible s t hreach
          · exact hapart

/-- What runs is available and apart. -/
def Inv (σ : State) : Prop := sc.Proper σ ∧ Apart sc.Excludes (running σ)

theorem inv_step {σ : State} (hinv : sc.Inv σ) (r : Request) : sc.Inv (sc.step σ r) := by
  obtain ⟨b, hout⟩ := sc.handle_eq σ r
  cases r with
  | start s starts => exact ⟨hinv.1.start hout, sc.start_apart hinv.1 hinv.2 hout⟩
  | stop s => exact ⟨hinv.1.stop hout, hinv.2.mono (stop_shrinks hout)⟩

/-- **Exclusion.**  After any requests, from nothing running on, no two services run that
exclude each other. -/
theorem excluded_apart (rs : List Request) :
    Apart sc.Excludes (running (run sc.step (fun _ => false) rs)) := by
  have hidle : ∀ s, s ∉ running fun _ => false := fun s => Bool.false_ne_true
  have hrun : sc.Inv (run sc.step (fun _ => false) rs) := by
    apply run_of_step sc.Inv fun σ r hinv => sc.inv_step hinv r
    exact ⟨fun s hs => absurd hs (hidle s), fun s hs => absurd hs (hidle s)⟩
  exact hrun.2

end ExclusiveScripts

/-- The music servers, which exclude each other; one of them requires `avahi_daemon`. -/
def daapdScripts : ExclusiveScripts where
  names := ["avahi_daemon".toList, "forked_daapd".toList, "mt_daapd".toList]
  require s := if s = "forked_daapd".toList then ["avahi_daemon".toList] else []
  excluded s :=
    if s = "forked_daapd".toList then ["mt_daapd".toList]
    else if s = "mt_daapd".toList then ["forked_daapd".toList] else []
  daemon s := s
  blocked _ := false
  acyclic := by
    refine acyclic_of_rank (fun s => if s = "forked_daapd".toList then 1 else 0) fun s i h => ?_
    obtain ⟨-, hi⟩ := h
    split at hi
    · rename_i hs
      rw [if_pos hs, List.mem_singleton.mp hi]
      decide
    · cases hi
  symmetric := by
    rintro s t ⟨hne, hs, ht, hmem⟩
    refine ⟨hne.symm, ht, hs, ?_⟩
    dsimp only at hmem ⊢
    split at hmem
    · rename_i hforked
      rw [hforked, List.mem_singleton.mp hmem]
      decide
    · split at hmem
      · rename_i hmt
        rw [hmt, List.mem_singleton.mp hmem]
        decide
      · cases hmem
  compatible := by
    intro s t hreach hexcl
    -- the last requirement of a chain is one of `avahi_daemon`, which nothing excludes
    have ht : t = "avahi_daemon".toList := by
      obtain ⟨u, -, hreq⟩ := Relation.TransGen.tail'_iff.mp hreach
      obtain ⟨-, hi⟩ := hreq
      dsimp only at hi
      split at hi
      · exact List.mem_singleton.mp hi
      · cases hi
    have hmem := hexcl.2.2.2
    rw [ht] at hmem
    dsimp only at hmem
    split at hmem
    · exact absurd hmem (by decide)
    · split at hmem
      · exact absurd hmem (by decide)
      · cases hmem

/-- The server that comes second is not started. -/
example :
    run daapdScripts.step (fun _ => false)
        [.start "mt_daapd".toList fun _ => true, .start "forked_daapd".toList fun _ => true]
        "forked_daapd".toList = false := by
  decide

end AltF.Services
