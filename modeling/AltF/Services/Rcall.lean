/-
  Services/Rcall.lean --- `rcall stop` and `rcall restart`: all init scripts, from the last
  to the first.

  A stop that a dependant refuses is made up for when the last dependant is stopped, for
  that stops what it requires.  In the same way a service is stopped that `rcall stop`
  means to leave alone.
-/
import AltF.Services.Requirements

set_option autoImplicit false

namespace AltF.Services

open AltF.Foundation AltF.Shell AltF.SysFiles

namespace Scripts

variable (sc : Scripts)

/-- The services of the web interface, which `rcall stop` passes over. -/
def webServices : List Text := ["inetd".toList, "stunnel".toList, "http".toList]

/-- A service is stopped if it runs. -/
def stopRunning (σ : State) (s : Text) : State :=
  if sc.status σ s then sc.step σ (.stop s) else σ

/-- `rcall stop` -/
def rcallStop (σ : State) : State :=
  sc.names.reverse.foldl (fun σ s =>
    if webServices.contains s then σ else sc.stopRunning σ s) σ

/-- The first loop of `rcall restart`, with `$lst`. -/
def restartStop (σ : State) : State × List Text :=
  sc.names.reverse.foldl (fun x s =>
    if sc.status x.1 s then (sc.step x.1 (.stop s), s :: x.2) else x) (σ, [])

/-- `rcall restart`; every daemon starts. -/
def rcallRestart (σ : State) : State :=
  let x := sc.restartStop σ
  x.2.foldl (fun σ s => sc.step σ (.start s fun _ => true)) x.1

/-- The running services of the web interface. -/
def runningWeb (σ : State) : Set Text := {s | s ∈ running σ ∧ s ∈ webServices}

end Scripts

/-- Scripts whose daemons are not called like another service. -/
structure OwnScripts extends DistinctScripts where
  own : ∀ s ∈ toScripts.allNames, ∀ t ∈ toScripts.allNames, toScripts.daemon s = t → t = s

/-- Services run, with what they require, and none that the script of another excludes. -/
structure OwnScripts.Consistent (sc : OwnScripts) (σ : State) : Prop where
  inv : sc.Inv σ
  apart : ∀ s ∈ Scripts.running σ, ∀ t ∈ sc.excluded s, t ∉ Scripts.running σ

namespace OwnScripts

open Scripts

variable (sc : OwnScripts)

/-- No service has a dependant with the name of its daemon, -/
theorem daemon_notMem_dependants (s : Text) (hs : s ∈ sc.allNames) :
    sc.daemon s ∉ sc.dependants s := by
  intro hmem
  have hreq := (sc.mem_dependants_iff hs).mp hmem
  have hself := sc.own s hs (sc.daemon s) (List.mem_append_left _ hreq.1) rfl
  rw [hself] at hreq
  exact sc.acyclic s (Relation.TransGen.single hreq)

/-- and none requires one with that name. -/
theorem not_requires_daemon (s : Text) : ¬ sc.Requires s (sc.daemon s) := by
  intro hreq
  have hself := sc.own s (List.mem_append_left _ hreq.1) (sc.daemon s) hreq.mem_allNames rfl
  rw [hself] at hreq
  exact sc.acyclic s (Relation.TransGen.single hreq)

/-! ## One stop -/

/-- A stop changes nothing, or comes to what an available service requires. -/
theorem stop_acts {n : Nat} {s : Text} {σ σ' : State} {b : Bool}
    (h : sc.stop (n + 1) s σ = some (σ', b)) :
    σ' = σ ∨ s ∈ sc.names ∧
      sc.stopLoop (sc.stop n) (sc.require s) (Function.update σ s false) = some σ' := by
  by_cases havailable : sc.available s = true
  · obtain ⟨-, rfl, -⟩ | ⟨-, rfl⟩ | ⟨-, hloop⟩ := stop_cases h
    · exact Or.inl rfl
    · exact Or.inl rfl
    · exact Or.inr ⟨mem_names_of_available havailable, hloop⟩
  · rw [stop, if_pos (Bool.not_eq_true _ ▸ havailable)] at h
    obtain ⟨rfl, -⟩ := Prod.mk.inj (Option.some.inj h)
    exact Or.inl rfl

theorem exists_of_requiredby {σ : State} {name : Text} {deps : List Text} {b : Bool}
    (hname : name ∉ deps) (h : sc.requiredby σ name deps = some b) :
    ∃ d ∈ deps, sc.status σ d = true := by
  induction deps with
  | nil => exact absurd h (Option.some_ne_none _).symm
  | cons dep deps ih =>
      rw [List.mem_cons, not_or] at hname
      rw [requiredby, if_neg (Ne.symm hname.1)] at h
      split at h
      · rename_i hstatus
        exact ⟨dep, List.mem_cons_self, hstatus⟩
      · obtain ⟨d, hd, hstatus⟩ := ih hname.2 h
        exact ⟨d, List.mem_cons_of_mem dep hd, hstatus⟩

/-- A service that is told to stop goes on only if a dependant runs. -/
theorem exists_dependant {n : Nat} {s : Text} {σ σ' : State} {b : Bool} (hσ : sc.Proper σ)
    (hs : s ∈ sc.allNames) (h : sc.stop n s σ = some (σ', b)) (hrun : s ∈ running σ') :
    ∃ d ∈ running σ', sc.Requires d s := by
  cases n with
  | zero => exact absurd h (Option.some_ne_none _).symm
  | succ n =>
      obtain ⟨hstopped, rfl, -⟩ | ⟨hby, rfl⟩ | ⟨-, hloop⟩ := stop_cases h
      · exact absurd (hσ s hrun) (by rw [hstopped]; exact Bool.false_ne_true)
      · obtain ⟨d, hd, hstatus⟩ :=
          sc.exists_of_requiredby (sc.daemon_notMem_dependants s hs) hby
        exact ⟨d, running_of_status hstatus, (sc.mem_dependants_iff hs).mp hd⟩
      · have hgone : running σ' ⊆ running (Function.update σ s false) :=
          stopLoop_keeps (P := fun τ => running τ ⊆ running (Function.update σ s false))
            (fun i _ τ τ' c hτ hone => (stop_shrinks hone).trans hτ) Set.Subset.rfl hloop
        have hself := hgone hrun
        rw [running_update_false] at hself
        exact absurd rfl hself.2

/-- `stoprequired` leaves none of its services on top. -/
theorem stopLoop_tops {n : Nat} {is : List Text} {T : Set Text}
    (hone : ∀ i ∈ is, ∀ σ σ' b, sc.Proper σ → sc.stop n i σ = some (σ', b) →
      Tops sc.Requires (running σ') ⊆ Tops sc.Requires (running σ))
    (hnames : ∀ i ∈ is, i ∈ sc.allNames) {σ σ' : State} (hσ : sc.Proper σ)
    (htops : Tops sc.Requires (running σ) ⊆ T ∪ {i | i ∈ is})
    (h : sc.stopLoop (sc.stop n) is σ = some σ') : Tops sc.Requires (running σ') ⊆ T := by
  induction is generalizing σ with
  | nil =>
      obtain rfl := Option.some.inj h
      exact fun t ht => (htops ht).resolve_right List.not_mem_nil
  | cons i is ih =>
      have hrest : ∀ {τ : State}, sc.Proper τ →
          Tops sc.Requires (running τ) ⊆ T ∪ {j | j ∈ i :: is} →
          i ∉ Tops sc.Requires (running τ) → sc.stopLoop (sc.stop n) is τ = some σ' →
          Tops sc.Requires (running σ') ⊆ T := by
        intro τ hτ hsub hi hloop
        refine ih (fun j hj => hone j (List.mem_cons_of_mem i hj))
          (fun j hj => hnames j (List.mem_cons_of_mem i hj)) hτ (fun t ht => ?_) hloop
        refine (hsub ht).imp_right fun hmem => ?_
        rcases List.mem_cons.mp hmem with rfl | hmem
        · exact absurd ht hi
        · exact hmem
      rw [stopLoop] at h
      split at h
      · split at h
        · exact absurd h (Option.some_ne_none _).symm
        · rename_i hstop
          refine hrest (hσ.stop hstop) ((hone i List.mem_cons_self σ _ _ hσ hstop).trans htops)
            (fun htop => ?_) h
          obtain ⟨d, hd, hreq⟩ := sc.exists_dependant hσ (hnames i List.mem_cons_self) hstop htop.1
          exact htop.2 d hd hreq
      · rename_i hstatus
        exact hrest hσ htops (fun htop => hstatus (hσ.status htop.1)) h

/-- A stop brings no service to the top. -/
theorem stop_tops {n : Nat} {s : Text} {σ σ' : State} {b : Bool} (hσ : sc.Proper σ)
    (h : sc.stop n s σ = some (σ', b)) :
    Tops sc.Requires (running σ') ⊆ Tops sc.Requires (running σ) := by
  induction n generalizing s σ σ' b with
  | zero => exact absurd h (Option.some_ne_none _).symm
  | succ n ih =>
      obtain rfl | ⟨hname, hloop⟩ := sc.stop_acts h
      · exact Set.Subset.rfl
      · refine sc.stopLoop_tops (fun i _ σ σ' b => ih) (fun i hi => ?_) (fun t ht => ?_) ?_ hloop
        · exact Scripts.Requires.mem_allNames ⟨hname, hi⟩
        · rw [running_update_false] at ht
          exact hσ t ht.1
        · rw [running_update_false]
          exact tops_erase_subset.trans (Set.union_subset_union_right _ fun i hi => hi.2)

/-- A service on top of all stays, unless it is told to stop itself. -/
theorem stop_keeps_top {R : Set Text} (hR : ClosedUnder sc.Requires R) {u : Text}
    (hu : u ∈ Tops sc.Requires R) {n : Nat} {s : Text} {σ σ' : State} {b : Bool} (hs : s ∈ R)
    (hne : s ≠ u) (hrun : u ∈ running σ) (h : sc.stop n s σ = some (σ', b)) :
    u ∈ running σ' := by
  induction n generalizing s σ σ' b with
  | zero => exact absurd h (Option.some_ne_none _).symm
  | succ n ih =>
      obtain rfl | ⟨hname, hloop⟩ := sc.stop_acts h
      · exact hrun
      · refine stopLoop_keeps (P := fun τ => u ∈ running τ) (fun i hi τ τ' c hτ hone => ?_) ?_ hloop
        · have hreq : sc.Requires s i := ⟨hname, hi⟩
          refine ih (hR hs hreq) (fun heq => ?_) hτ hone
          exact hu.2 s hs (heq ▸ hreq)
        · rw [running_update_false]
          exact ⟨hrun, Ne.symm hne⟩

/-! ## The loops that stop -/

theorem inv_stop {σ : State} (hσ : sc.Inv σ) (s : Text) :
    sc.Inv (sc.step σ (.stop s)) := by
  obtain ⟨b, hout⟩ := sc.handle_eq σ (.stop s)
  have hdep : ∀ d t, sc.Requires d t → d ∈ sc.dependants t := fun d t h =>
    (sc.mem_dependants_iff h.mem_allNames).mpr h
  exact ⟨hσ.1.stop hout, stop_closed hdep hσ.1 hσ.2 hout⟩

/-- **A stop** of a service takes it from the tops, and no other. -/
theorem tops_stop {σ : State} (hσ : sc.Inv σ) {s : Text} (hs : s ∈ running σ) :
    Tops sc.Requires (running (sc.step σ (.stop s))) = Tops sc.Requires (running σ) \ {s} := by
  obtain ⟨b, hout⟩ := sc.handle_eq σ (.stop s)
  have hname : s ∈ sc.allNames :=
    List.mem_append_left _ (mem_names_of_available (hσ.1 s hs))
  refine Set.Subset.antisymm (fun u hu => ⟨sc.stop_tops hσ.1 hout hu, ?_⟩) fun u hu => ?_
  · rintro rfl
    obtain ⟨d, hd, hreq⟩ := sc.exists_dependant hσ.1 hname hout hu.1
    exact hu.2 d hd hreq
  · have hrun := sc.stop_keeps_top hσ.2 hu.1 hs (Ne.symm hu.2) hu.1.1 hout
    exact mem_tops_of_subset (stop_shrinks hout) hrun hu.1

theorem inv_stopRunning {σ : State} (hσ : sc.Inv σ) (s : Text) :
    sc.Inv (sc.stopRunning σ s) := by
  rw [stopRunning]
  split
  · exact sc.inv_stop hσ s
  · exact hσ

theorem tops_stopRunning {σ : State} (hσ : sc.Inv σ) (s : Text) :
    Tops sc.Requires (running (sc.stopRunning σ s)) = Tops sc.Requires (running σ) \ {s} := by
  rw [stopRunning]
  split
  · rename_i hstatus
    exact sc.tops_stop hσ (running_of_status hstatus)
  · rename_i hstopped
    refine (Set.sdiff_singleton_eq_self fun htop => hstopped ?_).symm
    exact hσ.1.status htop.1

/-- A loop over services takes them from the tops. -/
theorem tops_stopAll {σ : State} (hσ : sc.Inv σ) (l : List Text) :
    sc.Inv (l.foldl sc.stopRunning σ) ∧
      Tops sc.Requires (running (l.foldl sc.stopRunning σ)) =
        Tops sc.Requires (running σ) \ {s | s ∈ l} := by
  induction l generalizing σ with
  | nil => exact ⟨hσ, by simp⟩
  | cons s l ih =>
      obtain ⟨hinv, htops⟩ := ih (sc.inv_stopRunning hσ s)
      refine ⟨hinv, htops.trans ?_⟩
      rw [sc.tops_stopRunning hσ s]
      ext u
      simp only [Set.mem_sdiff, Set.mem_singleton_iff, Set.mem_ofPred_eq, List.mem_cons, not_or]
      tauto

/-- What the services need that are still on top. -/
theorem running_stopAll {σ : State} (hσ : sc.Inv σ) (l : List Text) :
    running (l.foldl sc.stopRunning σ) =
      Below sc.Requires (Tops sc.Requires (running σ) \ {s | s ∈ l}) := by
  obtain ⟨hinv, htops⟩ := sc.tops_stopAll hσ l
  rw [← htops]
  exact hinv.2.eq_below_tops sc.acyclic Scripts.mem_required

/-! ## `rcall stop` -/

/-- The services of the web interface that run and are required by none that runs. -/
def topWeb (σ : State) : Set Text := {s ∈ runningWeb σ | s ∈ Tops sc.Requires (running σ)}

theorem rcallStop_eq (σ : State) :
    sc.rcallStop σ = (sc.names.reverse.filter (· ∉ webServices)).foldl sc.stopRunning σ := by
  rw [rcallStop, List.foldl_filter]
  congr 1
  funext τ s
  by_cases hs : s ∈ webServices
  · simp [hs]
  · simp [hs]

/-- What `rcall stop` leaves. -/
theorem running_rcallStop {σ : State} (hσ : sc.Inv σ) :
    running (sc.rcallStop σ) = Below sc.Requires (sc.topWeb σ) := by
  rw [sc.rcallStop_eq, sc.running_stopAll hσ]
  congr 1
  ext u
  simp only [topWeb, runningWeb, Set.mem_sdiff, Set.mem_ofPred_eq, List.mem_filter,
    List.mem_reverse, decide_eq_true_eq, not_and_not_right]
  constructor
  · rintro ⟨htop, hweb⟩
    exact ⟨⟨htop.1, hweb (mem_names_of_available (hσ.1 u htop.1))⟩, htop⟩
  · rintro ⟨⟨-, hweb⟩, htop⟩
    exact ⟨htop, fun _ => hweb⟩

/-! ## `rcall restart` -/

/-- The first loop of `rcall restart`, over any services. -/
theorem restartStop_loop {σ : State} (hσ : sc.Inv σ) (l lst : List Text) :
    let x := l.foldl (fun x s =>
      if sc.status x.1 s then (sc.step x.1 (.stop s), s :: x.2) else x) (σ, lst)
    x.1 = l.foldl sc.stopRunning σ ∧ (∀ s ∈ x.2, s ∈ lst ∨ s ∈ running σ) ∧
      ∀ s, s ∈ lst ∨ (s ∈ Tops sc.Requires (running σ) ∧ s ∈ l) → s ∈ x.2 := by
  induction l generalizing σ lst with
  | nil =>
      refine ⟨rfl, fun s hs => Or.inl hs, fun s hs => ?_⟩
      exact hs.resolve_right fun h => absurd h.2 List.not_mem_nil
  | cons t l ih =>
      have hinv := sc.inv_stopRunning hσ t
      have htops := sc.tops_stopRunning hσ t
      dsimp only [List.foldl_cons]
      by_cases hstatus : sc.status σ t = true
      · rw [if_pos hstatus]
        rw [stopRunning, if_pos hstatus] at hinv htops ⊢
        obtain ⟨hstate, hold, hnew⟩ := ih hinv (t :: lst)
        refine ⟨hstate, fun s hs => ?_, fun s hs => hnew s ?_⟩
        · obtain hs | hs := hold s hs
          · rcases List.mem_cons.mp hs with rfl | hs
            · exact Or.inr (running_of_status hstatus)
            · exact Or.inl hs
          · obtain ⟨b, hout⟩ := sc.handle_eq σ (.stop t)
            exact Or.inr (stop_shrinks hout hs)
        · by_cases hst : s = t
          · exact Or.inl (hst ▸ List.mem_cons_self)
          · refine hs.imp (List.mem_cons_of_mem t) fun htop => ⟨?_, ?_⟩
            · rw [htops]
              exact ⟨htop.1, hst⟩
            · exact (List.mem_cons.mp htop.2).resolve_left hst
      · rw [if_neg hstatus]
        rw [stopRunning, if_neg hstatus] at hinv ⊢
        obtain ⟨hstate, hold, hnew⟩ := ih hinv lst
        refine ⟨hstate, hold, fun s hs => hnew s (hs.imp_right fun htop => ⟨htop.1, ?_⟩)⟩
        refine (List.mem_cons.mp htop.2).resolve_left ?_
        rintro rfl
        exact hstatus (hσ.1.status htop.1.1)

/-- The first loop of `rcall restart` stops everything, and `$lst` has the tops. -/
theorem restartStop_spec {σ : State} (hσ : sc.Inv σ) :
    running (sc.restartStop σ).1 = ∅ ∧ (∀ s ∈ (sc.restartStop σ).2, s ∈ running σ) ∧
      ∀ s ∈ Tops sc.Requires (running σ), s ∈ (sc.restartStop σ).2 := by
  obtain ⟨hstate, hold, hnew⟩ := sc.restartStop_loop hσ sc.names.reverse []
  refine ⟨?_, fun s hs => (hold s hs).resolve_left List.not_mem_nil, fun s hs => ?_⟩
  · have hnone : Tops sc.Requires (running σ) \ {s | s ∈ sc.names.reverse} = ∅ := by
      refine Set.sdiff_eq_empty.mpr fun s hs => List.mem_reverse.mpr ?_
      exact mem_names_of_available (hσ.1 s hs.1)
    rw [restartStop, hstate, sc.running_stopAll hσ, hnone]
    exact Set.eq_empty_of_forall_notMem fun s ⟨b, hb, _⟩ => hb
  · refine hnew s (Or.inr ⟨hs, List.mem_reverse.mpr ?_⟩)
    exact mem_names_of_available (hσ.1 s hs.1)

theorem requireLoop_succeeds {starts : Text → Bool} {n : Nat} {name : Text} {is : List Text}
    {P : State → Prop}
    (hone : ∀ i ∈ is, ∀ σ σ' b, P σ → sc.start starts n i σ = some (σ', b) → b = true ∧ P σ')
    {σ σ' : State} {b : Bool} (hσ : P σ)
    (h : sc.requireLoop (sc.start starts n) name is σ = some (σ', b)) : b = true := by
  induction is generalizing σ with
  | nil => exact (Prod.mk.inj (Option.some.inj h)).2.symm
  | cons i is ih =>
      have hrest := fun j hj => hone j (List.mem_cons_of_mem i hj)
      rw [requireLoop] at h
      split at h
      · exact ih hrest hσ h
      · split at h
        · exact absurd h (Option.some_ne_none _).symm
        · rename_i hstart
          exact ih hrest (hone i List.mem_cons_self σ _ _ hσ hstart).2 h
        · rename_i hstart
          exact absurd (hone i List.mem_cons_self σ _ _ hσ hstart).1 Bool.false_ne_true

/-- What is started for a service of a closed set is of that set. -/
theorem start_among {R : Set Text} (hR : ClosedUnder sc.Requires R) {starts : Text → Bool}
    {n : Nat} {s : Text} {τ τ' : State} {b : Bool} (hs : s ∈ R) (hτ : running τ ⊆ R)
    (h : sc.start starts n s τ = some (τ', b)) : running τ' ⊆ R := by
  intro t ht
  obtain hold | ⟨-, hreach⟩ := start_new h t ht
  · exact hτ hold
  · exact hR.reflTransGen hs hreach

/-- Where no service runs but those of a consistent set, each of these starts. -/
theorem start_succeeds {σ : State} (hσ : sc.Consistent σ) {n : Nat} {s : Text}
    {τ τ' : State} {b : Bool} (hs : s ∈ running σ) (hτ : running τ ⊆ running σ)
    (h : sc.start (fun _ => true) n s τ = some (τ', b)) : b = true := by
  induction n generalizing s τ τ' b with
  | zero => exact absurd h (Option.some_ne_none _).symm
  | succ n ih =>
      have hexcluded : (sc.excluded s).any (sc.status τ) = false := by
        refine List.any_eq_false.mpr fun t ht hstatus => ?_
        exact hσ.apart s hs t ht (hτ (running_of_status hstatus))
      have hname := mem_names_of_available (hσ.inv.1 s hs)
      have hloop : ∀ {υ : State} {c : Bool},
          sc.requireLoop (sc.start (fun _ => true) n) (sc.daemon s) (sc.require s) τ =
            some (υ, c) → c = true := by
        refine sc.requireLoop_succeeds (P := fun υ => running υ ⊆ running σ)
          (fun i hi υ υ' c hυ hone => ?_) hτ
        have hi : i ∈ running σ := hσ.inv.2 hs ⟨hname, hi⟩
        exact ⟨ih hi hυ hone, sc.start_among hσ.inv.2 hi hυ hone⟩
      rw [start, if_neg (by rw [hσ.inv.1 s hs, hexcluded]; simp)] at h
      split at h
      · exact absurd h (Option.some_ne_none _).symm
      · rename_i hfail
        exact absurd (hloop hfail) Bool.false_ne_true
      · rw [launch, Bool.or_true, if_pos rfl] at h
        exact (Prod.mk.inj (Option.some.inj h)).2.symm

/-- The second loop of `rcall restart` starts the services of the list. -/
theorem startAll_spec {σ τ : State} (hσ : sc.Consistent σ) {lst : List Text}
    (hlst : ∀ s ∈ lst, s ∈ running σ) (hτ : running τ ⊆ running σ)
    (hclosed : ClosedUnder sc.Requires (running τ)) :
    let τ' := lst.foldl (fun τ s => sc.step τ (.start s fun _ => true)) τ
    running τ ⊆ running τ' ∧ running τ' ⊆ running σ ∧ ClosedUnder sc.Requires (running τ') ∧
      ∀ s ∈ lst, s ∈ running τ' := by
  induction lst generalizing τ with
  | nil => exact ⟨Set.Subset.rfl, hτ, hclosed, fun s hs => absurd hs List.not_mem_nil⟩
  | cons s lst ih =>
      have hs := hlst s List.mem_cons_self
      obtain ⟨b, hout⟩ := sc.handle_eq τ (.start s fun _ => true)
      obtain rfl : b = true := sc.start_succeeds hσ hs hτ hout
      have hclosed' : ClosedUnder sc.Requires (running (sc.step τ (.start s fun _ => true))) :=
        start_closed hclosed (fun t _ hreq => absurd hreq (sc.not_requires_daemon t)) hout
      obtain ⟨hgrown, hamong, hend, hall⟩ := ih (fun t ht => hlst t (List.mem_cons_of_mem s ht))
        (sc.start_among hσ.inv.2 hs hτ hout) hclosed'
      refine ⟨(start_grows hout).trans hgrown, hamong, hend, fun t ht => ?_⟩
      rcases List.mem_cons.mp ht with rfl | ht
      · exact hgrown (start_true hout)
      · exact hall t ht

/-- `rcall restart` leaves running what ran. -/
theorem running_rcallRestart {σ : State} (hσ : sc.Consistent σ) :
    running (sc.rcallRestart σ) = running σ := by
  obtain ⟨hidle, hold, htops⟩ := sc.restartStop_spec hσ.inv
  have hempty : ClosedUnder sc.Requires (running (sc.restartStop σ).1) :=
    hidle ▸ closedUnder_empty
  obtain ⟨-, hamong, hclosed, hall⟩ :=
    sc.startAll_spec hσ hold (hidle ▸ Set.empty_subset _) hempty
  refine Set.Subset.antisymm hamong ?_
  calc running σ = Below sc.Requires (Tops sc.Requires (running σ)) :=
        hσ.inv.2.eq_below_tops sc.acyclic Scripts.mem_required
    _ ⊆ running (sc.rcallRestart σ) :=
        below_subset hclosed fun s hs => hall s (htops s hs)

/-! ## Both -/

/-- `rcall restart` leaves what ran, and `rcall stop` what the web interface needs. -/
def RcallRespects (σ : State) : Prop :=
  running (sc.rcallRestart σ) = running σ ∧
    running (sc.rcallStop σ) = Below sc.Requires (runningWeb σ)

/-- **The dependency graph** is respected exactly when every running service of the web
interface is, or is required by, one of them that no running service requires. -/
theorem rcall_respects_iff {σ : State} (hσ : sc.Consistent σ) :
    sc.RcallRespects σ ↔ runningWeb σ ⊆ Below sc.Requires (sc.topWeb σ) := by
  rw [RcallRespects, sc.running_rcallStop hσ.inv, and_iff_right (sc.running_rcallRestart hσ)]
  constructor
  · intro h
    rw [h]
    exact fun s hs => ⟨s, hs, Relation.ReflTransGen.refl⟩
  · intro h
    refine Set.Subset.antisymm (below_mono fun s hs => hs.1) ?_
    rintro s ⟨w, hw, hws⟩
    obtain ⟨u, hu, huw⟩ := h hw
    exact ⟨u, hu, huw.trans hws⟩

end OwnScripts

/-! ## A service that requires http -/

/-- The names are such names, and not part of each other. -/
theorem blog_names :
    (∀ s ∈ ["http".toList, "blog".toList, "http".toList], s ≠ [] ∧ s.all isNameChar = true) ∧
      ∀ s ∈ ["http".toList, "blog".toList, "http".toList],
        ∀ t ∈ ["http".toList, "blog".toList, "http".toList], s <:+: t → s = t := by
  decide

/-- `blog` requires `http`, whose daemon is httpd. -/
def blogScripts : OwnScripts where
  names := ["http".toList, "blog".toList]
  require s := if s = "blog".toList then ["http".toList] else []
  excluded _ := []
  daemon s := if s = "http".toList then "httpd".toList else s
  blocked _ := false
  acyclic := by
    refine acyclic_of_rank (fun s => if s = "blog".toList then 1 else 0) fun s i h => ?_
    obtain ⟨-, hi⟩ := h
    split at hi
    · rename_i hs
      rw [if_pos hs, List.mem_singleton.mp hi]
      decide
    · cases hi
  named := blog_names.1
  distinct := blog_names.2
  own := by
    intro s _ t ht hdaemon
    split at hdaemon
    · rw [← hdaemon] at ht
      exact absurd ht (by decide)
    · exact hdaemon.symm

/-- Both run, -/
def blogRuns : State := fun s => s = "http".toList ∨ s = "blog".toList

/-- or `http` alone. -/
def httpRuns : State := fun s => s = "http".toList

theorem blogScripts_requires {s i : Text} (h : blogScripts.Requires s i) :
    s = "blog".toList ∧ i = "http".toList := by
  obtain ⟨-, hi⟩ := h
  change i ∈ (if s = "blog".toList then ["http".toList] else []) at hi
  split at hi
  · rename_i hs
    exact ⟨hs, List.mem_singleton.mp hi⟩
  · cases hi

/-- Any of these services run consistently if `http` does. -/
theorem blogScripts_consistent {σ : State} (hhttp : σ "http".toList = true)
    (hσ : ∀ s ∈ Scripts.running σ, blogScripts.available s = true) : blogScripts.Consistent σ where
  inv := by
    refine ⟨hσ, fun s _ i hreq => ?_⟩
    rw [(blogScripts_requires hreq).2]
    exact hhttp
  apart _ _ _ ht := absurd ht List.not_mem_nil

theorem httpRuns_consistent : blogScripts.Consistent httpRuns := by
  refine blogScripts_consistent (by decide) fun s hs => ?_
  rw [of_decide_eq_true hs]
  decide

theorem blogRuns_consistent : blogScripts.Consistent blogRuns := by
  refine blogScripts_consistent (by decide) fun s hs => ?_
  rcases of_decide_eq_true hs with rfl | rfl <;> decide

/-- Where nothing requires it, `http` is left running. -/
theorem rcall_respects_http : blogScripts.RcallRespects httpRuns := by
  refine (blogScripts.rcall_respects_iff httpRuns_consistent).mpr fun s hs => ?_
  refine ⟨s, ⟨hs, hs.1, fun d hd hreq => ?_⟩, Relation.ReflTransGen.refl⟩
  have hblog := (blogScripts_requires hreq).1
  rw [of_decide_eq_true hd] at hblog
  exact absurd hblog (by decide)

/-- With `blog`, which is stopped, goes `http`. -/
theorem rcall_stops_http :
    blogScripts.Consistent blogRuns ∧ ¬ blogScripts.RcallRespects blogRuns := by
  refine ⟨blogRuns_consistent, fun h => ?_⟩
  have hgone : blogScripts.rcallStop blogRuns "http".toList = false := by decide
  have hweb : "http".toList ∈ Below blogScripts.Requires (Scripts.runningWeb blogRuns) :=
    ⟨"http".toList, ⟨(by decide : blogRuns "http".toList = true), by decide⟩,
      Relation.ReflTransGen.refl⟩
  rw [← h.2] at hweb
  exact absurd (hgone.symm.trans hweb) Bool.false_ne_true

end AltF.Services
