/-
  Services/Requirements.lean --- init.d/common: the services that run have what they
  require, over every sequence of requests.

  `require` and `requiredby` compare the daemon's name, their first argument, with names
  of services.  A service that requires one with its daemon's name starts without it.
-/
import AltF.Services.Scripts

set_option autoImplicit false

namespace AltF.Services

open AltF.Foundation AltF.Shell AltF.SysFiles

/-- A character of a service's name, which stands for itself in a pattern of `grep`. -/
def isNameChar (c : Char) : Bool := c.isAlphanum || c == '_' || c == '-'

namespace Scripts

variable (sc : Scripts)

/-- The names of services that the scripts have or use. -/
def allNames : List Text := sc.names ++ sc.names.flatMap sc.require

/-- What a request that finds `σ` running owes the services. -/
structure Lawful (σ : State) (r : Request) : Prop where
  /-- what runs has what it requires -/
  closed : ClosedUnder sc.Requires (running (sc.step σ r))
  /-- a service that a running one requires is not stopped -/
  refused : ∀ s d, r = .stop s → d ∈ running σ → sc.Requires d s →
    sc.handle σ r = some (σ, false)
  /-- a service does not start without one it requires -/
  stopped : ∀ s starts i, r = .start s starts → sc.Requires s i →
    i ∉ running (sc.step σ r) →
      s ∉ running (sc.step σ r) ∧ sc.handle σ r = some (sc.step σ r, false)

/-- The names of daemons do not get in the way of a request. -/
structure Careful (σ : State) (r : Request) : Prop where
  /-- a service that may be started and requires one with its daemon's name has that running -/
  start : ∀ s starts t, r = .start s starts → Relation.ReflTransGen sc.Requires s t →
    sc.Requires t (sc.daemon t) → sc.daemon t ∈ running σ
  /-- a service that is needed is not required by one with its daemon's name -/
  stop : ∀ s d, r = .stop s → d ∈ running σ → sc.Requires d s → ¬ sc.Requires (sc.daemon s) s

end Scripts

/-- Scripts whose services have names of which none is part of another. -/
structure DistinctScripts extends Scripts where
  named : ∀ s ∈ toScripts.allNames, s ≠ [] ∧ s.all isNameChar = true
  distinct : ∀ s ∈ toScripts.allNames, ∀ t ∈ toScripts.allNames, s <:+: t → s = t

namespace Scripts

variable {sc : Scripts}

theorem Requires.mem_allNames {s i : Text} (h : sc.Requires s i) : i ∈ sc.allNames :=
  List.mem_append_right _ (mem_required s i h)

theorem space_notMem {s : Text} (h : s.all isNameChar = true) : ' ' ∉ s :=
  fun hmem => absurd (List.all_eq_true.mp h ' ' hmem) Bool.false_ne_true

/-! ## Starting -/

/-- `start` keeps the requirements, where no script skips one. -/
theorem start_closed {starts : Text → Bool} {n : Nat} {s : Text} {σ σ' : State} {b : Bool}
    (hσ : ClosedUnder sc.Requires (running σ))
    (hown : ∀ t, Relation.ReflTransGen sc.Requires s t → sc.Requires t (sc.daemon t) →
      sc.daemon t ∈ running σ)
    (h : sc.start starts n s σ = some (σ', b)) : ClosedUnder sc.Requires (running σ') := by
  induction n generalizing s σ σ' b with
  | zero => exact absurd h (Option.some_ne_none _).symm
  | succ n ih =>
      obtain ⟨rfl, -⟩ | ⟨havailable, -, hrest⟩ := start_cases h
      · exact hσ
      · have hname := mem_names_of_available havailable
        have hloop : ∀ {τ : State} {c : Bool},
            sc.requireLoop (sc.start starts n) (sc.daemon s) (sc.require s) σ = some (τ, c) →
            ClosedUnder sc.Requires (running τ) ∧ running σ ⊆ running τ := by
          refine requireLoop_keeps
            (P := fun τ => ClosedUnder sc.Requires (running τ) ∧ running σ ⊆ running τ)
            (fun i hi τ τ' c hτ hone => ⟨ih hτ.1 ?_ hone, hτ.2.trans (start_grows hone)⟩)
            ⟨hσ, Set.Subset.rfl⟩
          exact fun t ht hreq => hτ.2 (hown t (ht.head ⟨hname, hi⟩) hreq)
        obtain ⟨hfail, -⟩ | ⟨σ₁, hdone, hlaunch⟩ := hrest
        · exact (hloop hfail).1
        · obtain ⟨hclosed, hgrown⟩ := hloop hdone
          obtain ⟨hrun, -⟩ | ⟨rfl, -⟩ := launch_cases hlaunch
          · rw [hrun]
            refine hclosed.insert fun i hi => ?_
            by_cases hname : i = sc.daemon s
            · subst hname
              exact hgrown (hown s Relation.ReflTransGen.refl hi)
            · exact requireLoop_true hdone i hi.2 hname
          · exact hclosed

/-- A service that has been started has all it requires. -/
theorem start_true_requires {starts : Text → Bool} {n : Nat} {s i : Text} {σ σ' : State}
    (hown : sc.Requires s (sc.daemon s) → sc.daemon s ∈ running σ) (hi : sc.Requires s i)
    (h : sc.start starts n s σ = some (σ', true)) : i ∈ running σ' := by
  by_cases hname : i = sc.daemon s
  · subst hname
    exact start_grows h (hown hi)
  · cases n with
    | zero => exact absurd h (Option.some_ne_none _).symm
    | succ n =>
        obtain ⟨-, hb⟩ | ⟨-, -, ⟨-, hb⟩ | ⟨σ₁, hdone, hlaunch⟩⟩ := start_cases h
        · exact absurd hb.symm Bool.false_ne_true
        · exact absurd hb.symm Bool.false_ne_true
        · have hrun := requireLoop_true hdone i hi.2 hname
          obtain ⟨hinsert, -⟩ | ⟨rfl, -⟩ := launch_cases hlaunch
          · rw [hinsert]
            exact Set.mem_insert_of_mem s hrun
          · exact hrun

/-! ## Stopping -/

theorem requiredby_none {σ : State} {name : Text} {deps : List Text}
    (h : sc.requiredby σ name deps = none) : ∀ d ∈ deps, sc.status σ d = false := by
  induction deps with
  | nil => exact fun d hd => absurd hd List.not_mem_nil
  | cons dep deps ih =>
      rw [requiredby] at h
      split at h
      · exact absurd h (Option.some_ne_none _)
      · split at h
        · exact absurd h (Option.some_ne_none _)
        · rename_i hstatus
          intro d hd
          rcases List.mem_cons.mp hd with rfl | hd
          · exact Bool.not_eq_true _ ▸ hstatus
          · exact ih h d hd

/-- A running dependant is found, where no dependant has the name that is looked for. -/
theorem requiredby_running {σ : State} {name : Text} {deps : List Text} (hname : name ∉ deps)
    {d : Text} (hd : d ∈ deps) (hstatus : sc.status σ d = true) :
    sc.requiredby σ name deps = some false := by
  induction deps with
  | nil => exact absurd hd List.not_mem_nil
  | cons dep deps ih =>
      rw [List.mem_cons, not_or] at hname
      rw [requiredby, if_neg (Ne.symm hname.1)]
      split
      · rfl
      · rename_i hstopped
        rcases List.mem_cons.mp hd with rfl | hd
        · exact absurd hstatus hstopped
        · exact ih hname.2 hd

/-- A service is stopped only when nothing that runs requires it, and what it requires only
where the same holds. -/
theorem stop_closed (hdep : ∀ d s, sc.Requires d s → d ∈ sc.dependants s) {n : Nat} {s : Text}
    {σ σ' : State} {b : Bool} (hproper : sc.Proper σ)
    (hσ : ClosedUnder sc.Requires (running σ)) (h : sc.stop n s σ = some (σ', b)) :
    ClosedUnder sc.Requires (running σ') := by
  induction n generalizing s σ σ' b with
  | zero => exact absurd h (Option.some_ne_none _).symm
  | succ n ih =>
      obtain ⟨-, rfl, -⟩ | ⟨-, rfl⟩ | ⟨hnone, hloop⟩ := stop_cases h
      · exact hσ
      · exact hσ
      · have hstart : ClosedUnder sc.Requires (running (Function.update σ s false)) ∧
            sc.Proper (Function.update σ s false) := by
          rw [Proper, running_update_false]
          refine ⟨hσ.erase fun d hd _ hreq => ?_, fun t ht => hproper t ht.1⟩
          have hstopped := requiredby_none hnone d (hdep d s hreq)
          exact absurd (hproper.status hd) (by rw [hstopped]; exact Bool.false_ne_true)
        exact (stopLoop_keeps
          (P := fun τ => ClosedUnder sc.Requires (running τ) ∧ sc.Proper τ)
          (fun i _ τ τ' c hτ hone => ⟨ih hτ.2 hτ.1 hone, hτ.2.stop hone⟩) hstart hloop).1

end Scripts

namespace DistinctScripts

open Scripts

variable (sc : DistinctScripts)

/-- The dependants of a service are the scripts that require it. -/
theorem mem_dependants_iff {d s : Text} (hs : s ∈ sc.allNames) :
    d ∈ sc.dependants s ↔ sc.Requires d s := by
  obtain ⟨hne, hchars⟩ := sc.named s hs
  rw [Scripts.dependants, List.mem_filter, decide_eq_true_iff,
    infix_join_iff hne (Scripts.space_notMem hchars), Scripts.Requires]
  refine and_congr_right fun hd => ⟨?_, fun hmem => ⟨s, hmem, List.infix_rfl⟩⟩
  rintro ⟨t, ht, hinfix⟩
  have hreq : sc.Requires d t := ⟨hd, ht⟩
  rw [sc.distinct s hs t hreq.mem_allNames hinfix]
  exact ht

/-- A stop of a service that a running one requires is refused. -/
theorem stop_refused {n : Nat} {s d : Text} {σ : State} (hproper : sc.Proper σ)
    (hd : d ∈ running σ) (hreq : sc.Requires d s)
    (hname : ¬ sc.Requires (sc.daemon s) s) : sc.stop (n + 1) s σ = some (σ, false) := by
  have hs := hreq.mem_allNames
  rw [Scripts.stop]
  split
  · rfl
  · have hnotMem : sc.daemon s ∉ sc.dependants s := fun hmem =>
      hname ((sc.mem_dependants_iff hs).mp hmem)
    have hmem : d ∈ sc.dependants s := (sc.mem_dependants_iff hs).mpr hreq
    rw [Scripts.requiredby_running hnotMem hmem (hproper.status hd)]

/-! ## Requests -/

/-- What runs is available and has what it requires. -/
def Inv (σ : State) : Prop := sc.Proper σ ∧ ClosedUnder sc.Requires (running σ)

/-- A careful request keeps what the services promise. -/
theorem lawful_of_careful {σ : State} {r : Scripts.Request} (hinv : sc.Inv σ)
    (hcareful : sc.Careful σ r) : sc.Lawful σ r ∧ sc.Inv (sc.step σ r) := by
  obtain ⟨b, hout⟩ := sc.handle_eq σ r
  cases r with
  | start s starts =>
      have hown := hcareful.start s starts
      have hclosed := Scripts.start_closed hinv.2 (fun t ht => hown t rfl ht) hout
      refine ⟨⟨hclosed, fun s' d h => (nomatch h), ?_⟩, hinv.1.start hout, hclosed⟩
      intro s' starts' i h hi hstopped
      obtain ⟨rfl, rfl⟩ := Scripts.Request.start.inj h
      refine ⟨fun hs => hstopped (hclosed hs hi), ?_⟩
      cases b with
      | false => exact hout
      | true =>
          have hrun := Scripts.start_true_requires (hown s rfl Relation.ReflTransGen.refl) hi hout
          exact absurd hrun hstopped
  | stop s =>
      have hdep : ∀ d t, sc.Requires d t → d ∈ sc.dependants t := fun d t h =>
        (sc.mem_dependants_iff h.mem_allNames).mpr h
      have hclosed := Scripts.stop_closed hdep hinv.1 hinv.2 hout
      refine ⟨⟨hclosed, ?_, fun s' starts i h => nomatch h⟩, hinv.1.stop hout, hclosed⟩
      intro s' d h hd hreq
      obtain rfl := Scripts.Request.stop.inj h
      exact sc.stop_refused hinv.1 hd hreq (hcareful.stop s d rfl hd hreq)

/-- **Requirements.**  Along every run of careful requests, from nothing running on, what
runs has what it requires, what is needed is not stopped, and a service whose requirements
do not run does not start. -/
theorem lawful_along (rs : List Scripts.Request)
    (hcareful : Along sc.step sc.Careful (fun _ => false) rs) :
    Along sc.step sc.Lawful (fun _ => false) rs := by
  have hidle : running (fun _ => false) = ∅ :=
    Set.eq_empty_of_forall_notMem fun s hs => absurd hs Bool.false_ne_true
  refine along_of_step sc.Inv (fun σ r hinv h => sc.lawful_of_careful hinv h) ?_ hcareful
  refine ⟨fun s hs => absurd hs Bool.false_ne_true, ?_⟩
  rw [hidle]
  exact closedUnder_empty

end DistinctScripts

/-! ## The services avahi_daemon and dbus -/

/-- The names are such names, and not part of each other. -/
theorem avahi_names :
    (∀ s ∈ ["dbus".toList, "avahi_daemon".toList, "dbus".toList],
      s ≠ [] ∧ s.all isNameChar = true) ∧
      ∀ s ∈ ["dbus".toList, "avahi_daemon".toList, "dbus".toList],
        ∀ t ∈ ["dbus".toList, "avahi_daemon".toList, "dbus".toList], s <:+: t → s = t := by
  decide

/-- `avahi_daemon`, with the daemon `name`, requires `dbus`. -/
def avahiScripts (name : Text) : DistinctScripts where
  names := ["dbus".toList, "avahi_daemon".toList]
  require s := if s = "avahi_daemon".toList then ["dbus".toList] else []
  excluded _ := []
  daemon s := if s = "avahi_daemon".toList then name else "dbus-daemon".toList
  blocked _ := false
  acyclic := by
    refine acyclic_of_rank (fun s => if s = "avahi_daemon".toList then 1 else 0) fun s i h => ?_
    obtain ⟨-, hi⟩ := h
    split at hi
    · rename_i hs
      rw [if_pos hs, List.mem_singleton.mp hi]
      decide
    · cases hi
  named := avahi_names.1
  distinct := avahi_names.2

/-- The one requirement of these scripts. -/
theorem avahiScripts_requires {name s i : Text} (h : (avahiScripts name).Requires s i) :
    s = "avahi_daemon".toList ∧ i = "dbus".toList := by
  obtain ⟨-, hi⟩ := h
  change i ∈ (if s = "avahi_daemon".toList then ["dbus".toList] else []) at hi
  split at hi
  · rename_i hs
    exact ⟨hs, List.mem_singleton.mp hi⟩
  · cases hi

theorem lawful_along_avahi :
    Along (avahiScripts "avahi-daemon".toList).step (avahiScripts "avahi-daemon".toList).Lawful
      (fun _ => false)
      [.start "avahi_daemon".toList fun _ => true, .stop "dbus".toList,
        .stop "avahi_daemon".toList] := by
  refine DistinctScripts.lawful_along _ _ (along_of_forall (fun σ r => ⟨?_, ?_⟩) _ _)
  · intro s starts t _ _ hreq
    obtain ⟨rfl, hname⟩ := avahiScripts_requires hreq
    exact absurd hname (by decide)
  · intro s d _ _ hd hreq
    obtain ⟨-, rfl⟩ := avahiScripts_requires hd
    exact absurd (avahiScripts_requires hreq).1 (by decide)

/-- A daemon with the name `dbus` lets avahi_daemon start without the service. -/
theorem avahi_starts_alone :
    ¬ Along (avahiScripts "dbus".toList).step (avahiScripts "dbus".toList).Lawful
      (fun _ => false) [.start "avahi_daemon".toList fun _ => true] := by
  have hruns : ((avahiScripts "dbus".toList).step (fun _ => false)
      (.start "avahi_daemon".toList fun _ => true)) "avahi_daemon".toList = true ∧
      ((avahiScripts "dbus".toList).step (fun _ => false)
        (.start "avahi_daemon".toList fun _ => true)) "dbus".toList = false := by
    decide
  intro h
  have hreq : (avahiScripts "dbus".toList).Requires "avahi_daemon".toList "dbus".toList :=
    ⟨by decide, by decide⟩
  have hdbus := h.1.closed hruns.1 hreq
  exact absurd (hruns.2.symm.trans hdbus) Bool.false_ne_true

end AltF.Services
