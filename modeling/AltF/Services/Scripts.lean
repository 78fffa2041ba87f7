/-
  Services/Scripts.lean --- init.d/common: `start` and `stop` with `require`,
  `requiredby`, `stoprequired` and `excludedby`, over any set of init scripts.

  A script `S??name` starts one daemon of its own, `NAME`, which need not be called like
  the service.  Which daemons start when they are told to is part of a request.
  Recursion has fuel, and there is enough of it where requirements are acyclic.
-/
import AltF.Foundation.Dependencies
import AltF.Foundation.Runs
import AltF.Shell.Words

set_option autoImplicit false

namespace AltF.Services

open AltF.Foundation AltF.Shell AltF.SysFiles

/-! ## The scripts -/

/-- Which services run. -/
abbrev State : Type := Text → Bool

/-- A set of init scripts. -/
structure Scripts where
  /-- the services with a script, in the order of their files -/
  names : List Text
  /-- `REQUIRE` -/
  require : Text → List Text
  /-- `EXCLUDEDBY` -/
  excluded : Text → List Text
  /-- `NAME` -/
  daemon : Text → Text
  /-- the script needs the Alt-F folder, and there is none -/
  blocked : Text → Bool
  acyclic : Acyclic fun s i => s ∈ names ∧ i ∈ require s

namespace Scripts

variable (sc : Scripts)

/-- A script requires a service. -/
def Requires (s i : Text) : Prop := s ∈ sc.names ∧ i ∈ sc.require s

/-- The script does something. -/
def available (s : Text) : Bool := sc.names.contains s && !sc.blocked s

/-- `rc$s status` -/
def status (σ : State) (s : Text) : Bool := sc.available s && σ s

/-- `require`, with `startOne` for `rc$i start`: `false` when it exits. -/
def requireLoop (startOne : Text → State → Option (State × Bool)) (name : Text) :
    List Text → State → Option (State × Bool)
  | [], σ => some (σ, true)
  | i :: is, σ =>
      if name = i ∨ sc.status σ i = true then requireLoop startOne name is σ
      else
        match startOne i σ with
        | none => none
        | some (σ₁, true) => requireLoop startOne name is σ₁
        | some (σ₁, false) => some (σ₁, false)

/-- The daemon of `s` is started, and runs if it starts; one that runs is left alone. -/
def launch (starts : Text → Bool) (s : Text) (σ : State) : State × Bool :=
  if σ s || starts s then (Function.update σ s true, true) else (σ, false)

/-- `rc$s start` -/
def start (starts : Text → Bool) : Nat → Text → State → Option (State × Bool)
  | 0, _, _ => none
  | n + 1, s, σ =>
      if sc.available s = false ∨ (sc.excluded s).any (sc.status σ) = true then some (σ, false)
      else
        match sc.requireLoop (start starts n) (sc.daemon s) (sc.require s) σ with
        | none => none
        | some (σ₁, false) => some (σ₁, false)
        | some (σ₁, true) => some (launch starts s σ₁)

/-- The services that `grep` finds for `s`. -/
def dependants (s : Text) : List Text :=
  sc.names.filter fun d => decide (s <:+: join (sc.require d))

/-- `requiredby`: the status with which it exits, if it does. -/
def requiredby (σ : State) (name : Text) : List Text → Option Bool
  | [] => none
  | dep :: deps =>
      if dep = name then some true
      else if sc.status σ dep then some false else requiredby σ name deps

/-- `stoprequired`, with `stopOne` for `rc$i stop`. -/
def stopLoop (stopOne : Text → State → Option (State × Bool)) :
    List Text → State → Option State
  | [], σ => some σ
  | i :: is, σ =>
      if sc.status σ i then
        match stopOne i σ with
        | none => none
        | some (σ₁, _) => stopLoop stopOne is σ₁
      else stopLoop stopOne is σ

/-- `rc$s stop` -/
def stop : Nat → Text → State → Option (State × Bool)
  | 0, _, _ => none
  | n + 1, s, σ =>
      if sc.available s = false then some (σ, false)
      else
        match sc.requiredby σ (sc.daemon s) (sc.dependants s) with
        | some st => some (σ, st)
        | none =>
            (sc.stopLoop (stop n) (sc.require s) (Function.update σ s false)).map fun σ₁ =>
              (σ₁, true)

/-- More than any chain of requirements is long. -/
def fuel : Nat := (sc.names.flatMap sc.require).length + 1

/-- What is asked of the scripts. -/
inductive Request where
  /-- `rc$s start`, and which daemons start then -/
  | start (s : Text) (starts : Text → Bool)
  /-- `rc$s stop` -/
  | stop (s : Text)

/-- What runs after a request, and its exit status. -/
def handle (σ : State) : Request → Option (State × Bool)
  | .start s starts => sc.start starts sc.fuel s σ
  | .stop s => sc.stop sc.fuel s σ

/-- What runs after a request. -/
def step (σ : State) (r : Request) : State := ((sc.handle σ r).map Prod.fst).getD σ

/-- The services that run. -/
def running (σ : State) : Set Text := {s | σ s = true}

/-- Only services with a script run, and none without its folder. -/
def Proper (σ : State) : Prop := ∀ s ∈ running σ, sc.available s = true

variable {sc}

theorem mem_names_of_available {s : Text} (h : sc.available s = true) : s ∈ sc.names := by
  rw [available, Bool.and_eq_true] at h
  exact List.contains_iff_mem.mp h.1

theorem running_of_status {σ : State} {s : Text} (h : sc.status σ s = true) : s ∈ running σ :=
  (Bool.and_eq_true _ _ ▸ h : sc.available s = true ∧ σ s = true).2

theorem Proper.status {σ : State} (h : sc.Proper σ) {s : Text} (hs : s ∈ running σ) :
    sc.status σ s = true := by
  rw [Scripts.status, Bool.and_eq_true]
  exact ⟨h s hs, hs⟩

theorem running_update (σ : State) (s : Text) :
    running (Function.update σ s true) = insert s (running σ) := by
  ext t
  simp only [running, Set.mem_ofPred_eq, Set.mem_insert_iff, Function.update_apply]
  split <;> simp_all

theorem running_update_false (σ : State) (s : Text) :
    running (Function.update σ s false) = running σ \ {s} := by
  ext t
  simp only [running, Set.mem_ofPred_eq, Set.mem_sdiff, Set.mem_singleton_iff,
    Function.update_apply]
  split <;> simp_all

/-! ## What a request can do -/

theorem launch_cases {starts : Text → Bool} {s : Text} {σ σ' : State} {b : Bool}
    (h : launch starts s σ = (σ', b)) :
    (running σ' = insert s (running σ) ∧ b = true) ∨ (σ' = σ ∧ b = false) := by
  unfold launch at h
  split at h
  · obtain ⟨rfl, rfl⟩ := Prod.mk.inj h
    exact Or.inl ⟨running_update σ s, rfl⟩
  · obtain ⟨rfl, rfl⟩ := Prod.mk.inj h
    exact Or.inr ⟨rfl, rfl⟩

/-- `start` gives up at once, or with a requirement, or comes to the daemon. -/
theorem start_cases {starts : Text → Bool} {n : Nat} {s : Text} {σ σ' : State} {b : Bool}
    (h : sc.start starts (n + 1) s σ = some (σ', b)) :
    (σ' = σ ∧ b = false) ∨
      sc.available s = true ∧ (sc.excluded s).any (sc.status σ) = false ∧
        (sc.requireLoop (sc.start starts n) (sc.daemon s) (sc.require s) σ = some (σ', false) ∧
            b = false ∨
          ∃ σ₁, sc.requireLoop (sc.start starts n) (sc.daemon s) (sc.require s) σ =
              some (σ₁, true) ∧ launch starts s σ₁ = (σ', b)) := by
  rw [start] at h
  split at h
  · obtain ⟨rfl, rfl⟩ := Prod.mk.inj (Option.some.inj h)
    exact Or.inl ⟨rfl, rfl⟩
  · rename_i hgo
    rw [not_or, Bool.not_eq_false, Bool.not_eq_true] at hgo
    refine Or.inr ⟨hgo.1, hgo.2, ?_⟩
    split at h
    · exact absurd h (Option.some_ne_none _).symm
    · rename_i hloop
      obtain ⟨rfl, rfl⟩ := Prod.mk.inj (Option.some.inj h)
      exact Or.inl ⟨hloop, rfl⟩
    · rename_i hloop
      exact Or.inr ⟨_, hloop, Option.some.inj h⟩

/-- `stop` gives up at once, or for a dependant, or comes to the requirements. -/
theorem stop_cases {n : Nat} {s : Text} {σ σ' : State} {b : Bool}
    (h : sc.stop (n + 1) s σ = some (σ', b)) :
    (sc.available s = false ∧ σ' = σ ∧ b = false) ∨
      (sc.requiredby σ (sc.daemon s) (sc.dependants s) = some b ∧ σ' = σ) ∨
        (sc.requiredby σ (sc.daemon s) (sc.dependants s) = none ∧
          sc.stopLoop (sc.stop n) (sc.require s) (Function.update σ s false) = some σ') := by
  rw [stop] at h
  split at h
  · rename_i havailable
    obtain ⟨rfl, rfl⟩ := Prod.mk.inj (Option.some.inj h)
    exact Or.inl ⟨havailable, rfl, rfl⟩
  · split at h
    · rename_i hby
      obtain ⟨rfl, rfl⟩ := Prod.mk.inj (Option.some.inj h)
      exact Or.inr (Or.inl ⟨hby, rfl⟩)
    · rename_i hby
      obtain ⟨τ, hτ, heq⟩ := Option.map_eq_some_iff.mp h
      obtain ⟨rfl, -⟩ := Prod.mk.inj heq
      exact Or.inr (Or.inr ⟨hby, hτ⟩)

/-! ## Every request returns -/

theorem requireLoop_ne_none {startOne : Text → State → Option (State × Bool)} {is : List Text}
    (h : ∀ i ∈ is, ∀ σ, startOne i σ ≠ none) (name : Text) (σ : State) :
    sc.requireLoop startOne name is σ ≠ none := by
  induction is generalizing σ with
  | nil => exact Option.some_ne_none _
  | cons i is ih =>
      have hrest := ih fun j hj => h j (List.mem_cons_of_mem i hj)
      rw [requireLoop]
      split
      · exact hrest σ
      · split
        · rename_i hnone
          exact absurd hnone (h i List.mem_cons_self σ)
        · exact hrest _
        · exact Option.some_ne_none _

theorem stopLoop_ne_none {stopOne : Text → State → Option (State × Bool)} {is : List Text}
    (h : ∀ i ∈ is, ∀ σ, stopOne i σ ≠ none) (σ : State) : sc.stopLoop stopOne is σ ≠ none := by
  induction is generalizing σ with
  | nil => exact Option.some_ne_none _
  | cons i is ih =>
      have hrest := ih fun j hj => h j (List.mem_cons_of_mem i hj)
      rw [stopLoop]
      split
      · split
        · rename_i hnone
          exact absurd hnone (h i List.mem_cons_self σ)
        · exact hrest _
      · exact hrest σ

section Fuel

variable {rank : Text → Nat} (hrank : ∀ s i, sc.Requires s i → rank i < rank s)
include hrank

theorem start_ne_none (starts : Text → Bool) {n : Nat} {s : Text} (hn : rank s < n) (σ : State) :
    sc.start starts n s σ ≠ none := by
  induction n generalizing s σ with
  | zero => exact absurd hn (Nat.not_lt_zero _)
  | succ n ih =>
      rw [start]
      split
      · exact Option.some_ne_none _
      · rename_i hgo
        rw [not_or, Bool.not_eq_false] at hgo
        have hloop : ∀ i ∈ sc.require s, ∀ τ, sc.start starts n i τ ≠ none := by
          intro i hi τ
          refine ih ?_ τ
          have hlt := hrank s i ⟨mem_names_of_available hgo.1, hi⟩
          omega
        split
        · rename_i hnone
          exact absurd hnone (requireLoop_ne_none hloop _ σ)
        · exact Option.some_ne_none _
        · exact Option.some_ne_none _

theorem stop_ne_none {n : Nat} {s : Text} (hn : rank s < n) (σ : State) :
    sc.stop n s σ ≠ none := by
  induction n generalizing s σ with
  | zero => exact absurd hn (Nat.not_lt_zero _)
  | succ n ih =>
      rw [stop]
      split
      · exact Option.some_ne_none _
      · rename_i havailable
        rw [Bool.not_eq_false] at havailable
        have hloop : ∀ i ∈ sc.require s, ∀ τ, sc.stop n i τ ≠ none := by
          intro i hi τ
          refine ih ?_ τ
          have hlt := hrank s i ⟨mem_names_of_available havailable, hi⟩
          omega
        split
        · exact Option.some_ne_none _
        · rw [Ne, Option.map_eq_none_iff]
          exact stopLoop_ne_none hloop _

end Fuel

theorem mem_required (s i : Text) (h : sc.Requires s i) : i ∈ sc.names.flatMap sc.require :=
  List.mem_flatMap.mpr ⟨s, h.1, h.2⟩

/-- A request is answered: chains of requirements end. -/
theorem handle_eq (σ : State) (r : Request) : ∃ b, sc.handle σ r = some (sc.step σ r, b) := by
  obtain ⟨rank, hrank, hle⟩ := sc.acyclic.exists_rank mem_required
  have hfuel : ∀ s, rank s < sc.fuel := fun s => Nat.lt_succ_of_le (hle s)
  have hsome : sc.handle σ r ≠ none := by
    cases r with
    | start s starts => exact start_ne_none hrank starts (hfuel s) σ
    | stop s => exact stop_ne_none hrank (hfuel s) σ
  obtain ⟨⟨σ', b⟩, hout⟩ := Option.ne_none_iff_exists'.mp hsome
  exact ⟨b, by rw [step, hout]; rfl⟩

/-! ## Starting adds services, stopping takes them away -/

theorem requireLoop_keeps {startOne : Text → State → Option (State × Bool)} {name : Text}
    {is : List Text} {P : State → Prop}
    (h : ∀ i ∈ is, ∀ σ σ' b, P σ → startOne i σ = some (σ', b) → P σ')
    {σ σ' : State} {b : Bool} (hσ : P σ)
    (hloop : sc.requireLoop startOne name is σ = some (σ', b)) : P σ' := by
  induction is generalizing σ with
  | nil =>
      obtain ⟨rfl, -⟩ := Prod.mk.inj (Option.some.inj hloop)
      exact hσ
  | cons i is ih =>
      have hrest : ∀ {τ : State}, P τ → sc.requireLoop startOne name is τ = some (σ', b) → P σ' :=
        ih fun j hj => h j (List.mem_cons_of_mem i hj)
      rw [requireLoop] at hloop
      split at hloop
      · exact hrest hσ hloop
      · split at hloop
        · exact absurd hloop (Option.some_ne_none _).symm
        · rename_i hone
          exact hrest (h i List.mem_cons_self σ _ _ hσ hone) hloop
        · rename_i hone
          obtain ⟨rfl, -⟩ := Prod.mk.inj (Option.some.inj hloop)
          exact h i List.mem_cons_self σ _ _ hσ hone

theorem stopLoop_keeps {stopOne : Text → State → Option (State × Bool)} {is : List Text}
    {P : State → Prop} (h : ∀ i ∈ is, ∀ σ σ' b, P σ → stopOne i σ = some (σ', b) → P σ')
    {σ σ' : State} (hσ : P σ) (hloop : sc.stopLoop stopOne is σ = some σ') : P σ' := by
  induction is generalizing σ with
  | nil =>
      obtain rfl := Option.some.inj hloop
      exact hσ
  | cons i is ih =>
      have hrest : ∀ {τ : State}, P τ → sc.stopLoop stopOne is τ = some σ' → P σ' :=
        ih fun j hj => h j (List.mem_cons_of_mem i hj)
      rw [stopLoop] at hloop
      split at hloop
      · split at hloop
        · exact absurd hloop (Option.some_ne_none _).symm
        · rename_i hone
          exact hrest (h i List.mem_cons_self σ _ _ hσ hone) hloop
      · exact hrest hσ hloop

theorem start_grows {starts : Text → Bool} {n : Nat} {s : Text} {σ σ' : State} {b : Bool}
    (h : sc.start starts n s σ = some (σ', b)) : running σ ⊆ running σ' := by
  induction n generalizing s σ σ' b with
  | zero => exact absurd h (Option.some_ne_none _).symm
  | succ n ih =>
      have hloop : ∀ {τ : State} {c : Bool},
          sc.requireLoop (sc.start starts n) (sc.daemon s) (sc.require s) σ = some (τ, c) →
          running σ ⊆ running τ :=
        requireLoop_keeps (P := fun τ => running σ ⊆ running τ)
          (fun i _ τ τ' c hτ hone => hτ.trans (ih hone)) Set.Subset.rfl
      obtain ⟨rfl, -⟩ | ⟨-, -, ⟨hfail, -⟩ | ⟨σ₁, hdone, hlaunch⟩⟩ := start_cases h
      · exact Set.Subset.rfl
      · exact hloop hfail
      · obtain ⟨hrun, -⟩ | ⟨rfl, -⟩ := launch_cases hlaunch
        · rw [hrun]
          exact (hloop hdone).trans (Set.subset_insert s _)
        · exact hloop hdone

/-- What a start adds is available, and required by the service if it is not itself. -/
theorem start_new {starts : Text → Bool} {n : Nat} {s : Text} {σ σ' : State} {b : Bool}
    (h : sc.start starts n s σ = some (σ', b)) :
    ∀ t ∈ running σ', t ∈ running σ ∨
      sc.available t = true ∧ Relation.ReflTransGen sc.Requires s t := by
  induction n generalizing s σ σ' b with
  | zero => exact absurd h (Option.some_ne_none _).symm
  | succ n ih =>
      obtain ⟨rfl, -⟩ | ⟨havailable, -, hrest⟩ := start_cases h
      · exact fun t ht => Or.inl ht
      · have hloop : ∀ {τ : State} {c : Bool},
            sc.requireLoop (sc.start starts n) (sc.daemon s) (sc.require s) σ = some (τ, c) →
            ∀ t ∈ running τ, t ∈ running σ ∨
              sc.available t = true ∧ Relation.ReflTransGen sc.Requires s t := by
          refine requireLoop_keeps (P := fun τ => ∀ t ∈ running τ, t ∈ running σ ∨
            sc.available t = true ∧ Relation.ReflTransGen sc.Requires s t)
            (fun i hi τ τ' c hτ hone t ht => ?_) fun t ht => Or.inl ht
          obtain hold | ⟨htavail, hreach⟩ := ih hone t ht
          · exact hτ t hold
          · exact Or.inr ⟨htavail, hreach.head ⟨mem_names_of_available havailable, hi⟩⟩
        obtain ⟨hfail, -⟩ | ⟨σ₁, hdone, hlaunch⟩ := hrest
        · exact hloop hfail
        · obtain ⟨hrun, -⟩ | ⟨rfl, -⟩ := launch_cases hlaunch
          · intro t ht
            rw [hrun] at ht
            obtain rfl | ht := Set.mem_insert_iff.mp ht
            · exact Or.inr ⟨havailable, Relation.ReflTransGen.refl⟩
            · exact hloop hdone t ht
          · exact hloop hdone

theorem stop_shrinks {n : Nat} {s : Text} {σ σ' : State} {b : Bool}
    (h : sc.stop n s σ = some (σ', b)) : running σ' ⊆ running σ := by
  induction n generalizing s σ σ' b with
  | zero => exact absurd h (Option.some_ne_none _).symm
  | succ n ih =>
      obtain ⟨-, rfl, -⟩ | ⟨-, rfl⟩ | ⟨-, hloop⟩ := stop_cases h
      · exact Set.Subset.rfl
      · exact Set.Subset.rfl
      · refine stopLoop_keeps (P := fun τ => running τ ⊆ running σ)
          (fun i _ τ τ' c hτ hone => (ih hone).trans hτ) ?_ hloop
        rw [running_update_false]
        exact Set.sdiff_subset

theorem Proper.start {starts : Text → Bool} {n : Nat} {s : Text} {σ σ' : State} {b : Bool}
    (hσ : sc.Proper σ) (h : sc.start starts n s σ = some (σ', b)) : sc.Proper σ' := by
  intro t ht
  obtain hold | ⟨havailable, -⟩ := start_new h t ht
  · exact hσ t hold
  · exact havailable

theorem Proper.stop {n : Nat} {s : Text} {σ σ' : State} {b : Bool} (hσ : sc.Proper σ)
    (h : sc.stop n s σ = some (σ', b)) : sc.Proper σ' :=
  fun t ht => hσ t (stop_shrinks h ht)

/-- A started service runs. -/
theorem start_true {starts : Text → Bool} {n : Nat} {s : Text} {σ σ' : State}
    (h : sc.start starts n s σ = some (σ', true)) : s ∈ running σ' := by
  cases n with
  | zero => exact absurd h (Option.some_ne_none _).symm
  | succ n =>
      obtain ⟨-, hb⟩ | ⟨-, -, ⟨-, hb⟩ | ⟨σ₁, -, hlaunch⟩⟩ := start_cases h
      · exact absurd hb.symm Bool.false_ne_true
      · exact absurd hb.symm Bool.false_ne_true
      · obtain ⟨hrun, -⟩ | ⟨-, hb⟩ := launch_cases hlaunch
        · rw [hrun]
          exact Set.mem_insert s _
        · exact absurd hb.symm Bool.false_ne_true

/-- After `require` has passed, what the script requires runs, but for its own name. -/
theorem requireLoop_true {starts : Text → Bool} {n : Nat} {name : Text} {is : List Text}
    {σ σ' : State} (h : sc.requireLoop (sc.start starts n) name is σ = some (σ', true)) :
    ∀ i ∈ is, i ≠ name → i ∈ running σ' := by
  induction is generalizing σ with
  | nil => exact fun i hi => absurd hi List.not_mem_nil
  | cons j is ih =>
      have hgrows : ∀ {τ : State}, sc.requireLoop (sc.start starts n) name is τ =
          some (σ', true) → running τ ⊆ running σ' := fun hτ =>
        requireLoop_keeps (P := fun υ => running _ ⊆ running υ)
          (fun i _ υ υ' c hυ hone => hυ.trans (start_grows hone)) Set.Subset.rfl hτ
      rw [requireLoop] at h
      intro i hi hne
      split at h
      · rename_i hskip
        rcases List.mem_cons.mp hi with rfl | hi
        · exact hgrows h (running_of_status (hskip.resolve_left hne.symm))
        · exact ih h i hi hne
      · split at h
        · exact absurd h (Option.some_ne_none _).symm
        · rename_i hone
          rcases List.mem_cons.mp hi with rfl | hi
          · exact hgrows h (start_true hone)
          · exact ih h i hi hne
        · exact absurd (Prod.mk.inj (Option.some.inj h)).2 Bool.false_ne_true

end Scripts

end AltF.Services
