/-
  Mcu/Clients.lean --- the clients of dns320l-daemon and the table that it polls.

  A round is a `poll` and a pass over the table.  The system is what `poll`, `accept`,
  `recv` and `send` return, and which descriptors are open; what the daemon opens and
  closes in between (files) is not there when it polls.

  A client that quits has its descriptor closed, and keeps its entry until `poll` says that
  the descriptor is not open.  In that same round the number may be given to a new client.
-/
import AltF.Foundation.Runs
import AltF.Foundation.Slots

set_option autoImplicit false

namespace AltF.Mcu.Clients

open AltF.Foundation

/-! ## The table -/

/-- `MAXFDS` -/
abbrev maxFds : Nat := 10

/-- The bits of `revents`. -/
structure Events where
  pollin : Bool
  hup : Bool
  err : Bool
  nval : Bool
  deriving DecidableEq, Repr

/-- `revents == 0` -/
def Events.none : Events := ⟨false, false, false, false⟩

/-- What `poll` says of a descriptor that is not open. -/
def Events.closed : Events := ⟨false, false, false, true⟩

/-- Whose a descriptor is. -/
inductive Owner where
  | listener
  /-- the connection that was accepted as the `n`-th -/
  | client (n : Nat)
  deriving DecidableEq, Repr

/-- Where the daemon is. -/
inductive Place where
  /-- it calls `poll` -/
  | polling
  /-- the head of the loop over the table: `i` and `nev` -/
  | serving (i nev : Nat)
  | exited
  /-- an entry behind the table is written -/
  | overrun
  deriving DecidableEq, Repr

/-- The daemon, and what the system knows of its descriptors. -/
structure Server where
  /-- `fds[i].fd`; -1 is `none` -/
  fd : Fin maxFds → Option Nat
  revents : Fin maxFds → Events
  nfds : Int
  place : Place
  /-- the open descriptors -/
  owner : Nat → Option Owner
  /-- how many connections were accepted -/
  accepted : Nat
  /-- for whom an entry was made -/
  holder : Fin maxFds → Owner
  /-- whose descriptor stood in an entry when `poll` returned -/
  polled : Fin maxFds → Option Owner

/-- What the calls of one turn of the loop return. -/
structure Answer where
  /-- `accept`; -1 is `none` -/
  accept : Option Nat
  recv : Int
  /-- `HandleCommand` -/
  handled : Int
  send : Int
  deriving DecidableEq, Repr

/-- What `poll` returns. -/
inductive Polled where
  | timeout
  | interrupted
  | failed
  | ready (revents : Fin maxFds → Events)

inductive Input where
  | poll (polled : Polled)
  | turn (answer : Answer)

namespace Server

/-! ## The daemon -/

/-- `poll_setup` -/
def pollSetup (ls : Nat) : Server where
  fd := Function.update (fun _ => none) 0 (some ls)
  revents := fun _ => .none
  nfds := 1
  place := .polling
  owner := Function.update (fun _ => none) ls (some .listener)
  accepted := 0
  holder := fun _ => .listener
  polled := fun _ => none

/-- `cleanup`, of whosever descriptor that is. -/
def close (s : Server) (d : Nat) : Server := { s with owner := Function.update s.owner d none }

/-- `fds[i].fd = -1; nfds--` -/
def drop (s : Server) (i : Fin maxFds) : Server :=
  { s with fd := Function.update s.fd i none, nfds := s.nfds - 1 }

/-- The loop that looks for a free entry, from 1 on. -/
def freeSlot (s : Server) : Option (Fin maxFds) :=
  (List.finRange maxFds).find? fun j => j ≠ 0 ∧ s.fd j = none

/-- `fds[j].fd = d; fds[j].revents = 0; nfds++`, for a new connection. -/
def enter (s : Server) (j : Fin maxFds) (d : Nat) : Server :=
  { s with
    fd := Function.update s.fd j (some d)
    revents := Function.update s.revents j .none
    nfds := s.nfds + 1
    owner := Function.update s.owner d (some (.client s.accepted))
    accepted := s.accepted + 1
    holder := Function.update s.holder j (.client s.accepted) }

/-- Someone called. -/
def acceptClient (s : Server) (answer : Answer) : Server :=
  if s.nfds = maxFds then s
  else
    match s.freeSlot with
    | none => { s with place := .overrun }
    | some j =>
        match answer.accept with
        | none => s
        | some d => s.enter j d

/-- There is client data to read. -/
def readClient (s : Server) (i : Fin maxFds) (d : Nat) (answer : Answer) : Server :=
  if answer.recv ≤ 0 then (s.close d).drop i
  else
    let s := if answer.send < 0 ∨ answer.handled = -1 then s.close d else s
    if answer.handled = -2 then { s with place := .exited } else s

/-- The body of the loop, for an entry with an event. -/
def serve (s : Server) (i : Fin maxFds) (d : Nat) (answer : Answer) : Server :=
  let ev := s.revents i
  if ev.pollin = true ∧ i = 0 then s.acceptClient answer
  else if ev.pollin = true then s.readClient i d answer
  else if ev.hup = true ∨ ev.err = true ∨ ev.nval = true then
    (if ev.hup = true ∨ ev.err = true then s.close d else s).drop i
  else s

/-- The entries from the `k`-th on that have an event. -/
def pending (s : Server) (k : Nat) : Finset (Fin maxFds) :=
  Finset.univ.filter fun i => k ≤ i.val ∧ s.fd i ≠ none ∧ s.revents i ≠ .none

/-- `poll` has returned. -/
def wake (s : Server) : Polled → Server
  | .timeout => { s with revents := fun _ => .none }
  | .interrupted => s
  | .failed => { s with place := .exited }
  | .ready revents =>
      { s with
        revents := revents
        polled := fun i => (s.fd i).bind s.owner
        place := .serving 0 (Finset.univ.filter fun i => revents i ≠ .none).card }

/-- A turn of the loop over the table, or its end. -/
def turn (s : Server) (i nev : Nat) (answer : Answer) : Server :=
  if h : i < maxFds ∧ nev ≠ 0 then
    match s.fd ⟨i, h.1⟩ with
    | none => { s with place := .serving (i + 1) nev }
    | some d =>
        if s.revents ⟨i, h.1⟩ = .none then { s with place := .serving (i + 1) nev }
        else { s with place := .serving (i + 1) (nev - 1) }.serve ⟨i, h.1⟩ d answer
  else { s with place := .polling }

/-- `poll_wait`, again and again. -/
def step (s : Server) (x : Input) : Server :=
  match s.place, x with
  | .polling, .poll polled => s.wake polled
  | .serving i nev, .turn answer => s.turn i nev answer
  | _, _ => s

/-! ## The system -/

/-- The events are consistent with the state of an entry's descriptor. -/
def fits (owner : Nat → Option Owner) (fd : Option Nat) (ev : Events) : Bool :=
  match fd with
  | none => ev = .none
  | some d =>
      match owner d with
      | none => ev = .closed
      | some _ => ev.nval = false

/-- What the system may return: `accept` a descriptor that is not open, of which the lowest
is one. -/
def Consistent (s : Server) : Input → Prop
  | .poll (.ready revents) => ∀ i, fits s.owner (s.fd i) (revents i) = true
  | .turn answer => ∀ d ∈ answer.accept, s.owner d = none
  | _ => True

/-! ## What is asked of the daemon -/

/-- The table is in order when the daemon polls, and has room for a client that it accepts. -/
structure Sound (s : Server) : Prop where
  count : s.place = .polling → s.nfds = (taken s.fd).card ∧ s.nfds ≤ maxFds
  room : ∀ nev, s.place = .serving 0 nev → s.fd 0 ≠ none → s.nfds ≠ maxFds → s.freeSlot ≠ none
  inside : s.place ≠ .overrun
  client : s.place = .polling → ∀ d c, s.owner d = some (.client c) → ∃! i, s.fd i = some d

/-- The event of the entry at which the daemon is was one of an owner. -/
def EventOf (s : Server) (o : Owner) : Prop :=
  ∃ i nev, s.place = .serving i.val nev ∧ s.polled i = some o

/-- Whose descriptor is closed, or whose entry is dropped, had the event. -/
structure OwnEvents (s s' : Server) : Prop where
  closed : ∀ d o, s.owner d = some o → s'.owner d ≠ some o → s.EventOf o
  dropped : ∀ i d, s.fd i = some d → s.owner d = some (s.holder i) → s'.fd i ≠ some d →
    s.EventOf (s.holder i)

/-! ## The table and its entries -/

/-- The entry is that of the connection that has its descriptor. -/
def Live (s : Server) (i : Fin maxFds) (d : Nat) : Prop := s.owner d = some (s.holder i)

/-- What holds of the table at all times. -/
structure Table (s : Server) : Prop where
  count : s.nfds = (taken s.fd).card
  found : ∀ d o, s.owner d = some o → ∃ i, s.fd i = some d ∧ s.holder i = o
  apart : ∀ i j, s.fd i ≠ none → s.fd j ≠ none → s.holder i = s.holder j → i = j
  ids : ∀ i c, s.fd i ≠ none → s.holder i = .client c → c < s.accepted

/-- When the daemon polls, an entry that is not live has a descriptor that is not open. -/
structure Resting (s : Server) : Prop extends Table s where
  stale : ∀ i d, s.fd i = some d → ¬ s.Live i d → s.owner d = none

/-- At the `k`-th entry: `poll` has said so of an entry that is still to come, or the
descriptor was closed in this round. -/
structure Serving (s : Server) (k : Nat) : Prop extends Table s where
  stale : ∀ i d, s.fd i = some d → ¬ s.Live i d →
    k ≤ i.val ∧ s.revents i = .closed ∨ s.owner d = none ∧ 0 < k
  event : ∀ i d, k ≤ i.val → s.fd i = some d → s.revents i ≠ .none →
    s.revents i = .closed ∧ ¬ s.Live i d ∨
      s.Live i d ∧ s.polled i = some (s.holder i) ∧ (s.revents i).nval = false

section Fields

variable (s : Server)

@[simp] theorem close_owner_self (d : Nat) : (s.close d).owner d = none := Function.update_self ..

@[simp] theorem drop_fd_self (i : Fin maxFds) : (s.drop i).fd i = none := Function.update_self ..

variable {s}

theorem close_owner_of_ne {d e : Nat} (h : e ≠ d) : (s.close d).owner e = s.owner e :=
  Function.update_of_ne h ..

theorem drop_fd_of_ne {i j : Fin maxFds} (h : j ≠ i) : (s.drop i).fd j = s.fd j :=
  Function.update_of_ne h ..

theorem drop_fd_ne_none {i j : Fin maxFds} (h : (s.drop i).fd j ≠ none) :
    j ≠ i ∧ s.fd j ≠ none := by
  have hji : j ≠ i := by
    rintro rfl
    exact h (s.drop_fd_self j)
  exact ⟨hji, drop_fd_of_ne hji ▸ h⟩

theorem live_close {i : Fin maxFds} {d e : Nat} (h : (s.close d).Live i e) :
    e ≠ d ∧ s.Live i e := by
  have hed : e ≠ d := by
    rintro rfl
    rw [Live, close_owner_self] at h
    cases h
  exact ⟨hed, (close_owner_of_ne hed).symm.trans h⟩

theorem enter_of_ne {i j : Fin maxFds} (h : i ≠ j) (d : Nat) :
    (s.enter j d).fd i = s.fd i ∧ (s.enter j d).revents i = s.revents i ∧
      (s.enter j d).holder i = s.holder i :=
  ⟨Function.update_of_ne h .., Function.update_of_ne h .., Function.update_of_ne h ..⟩

theorem enter_self (j : Fin maxFds) (d : Nat) :
    (s.enter j d).fd j = some d ∧ (s.enter j d).revents j = .none ∧
      (s.enter j d).holder j = .client s.accepted :=
  ⟨Function.update_self .., Function.update_self .., Function.update_self ..⟩

theorem enter_owner_self (j : Fin maxFds) (d : Nat) :
    (s.enter j d).owner d = some (.client s.accepted) := Function.update_self ..

theorem enter_owner_of_ne {d e : Nat} (h : e ≠ d) (j : Fin maxFds) :
    (s.enter j d).owner e = s.owner e := Function.update_of_ne h ..

end Fields

section Operations

variable {s : Server} {k : Nat}

/-- Closing is an affair of the system. -/
theorem Table.close (h : s.Table) (d : Nat) : (s.close d).Table where
  count := h.count
  found e o ho := by
    have hed : e ≠ d := by
      rintro rfl
      rw [close_owner_self] at ho
      cases ho
    rw [close_owner_of_ne hed] at ho
    exact h.found e o ho
  apart := h.apart
  ids := h.ids

/-- An entry that is not live may be dropped. -/
theorem Table.drop (h : s.Table) {i : Fin maxFds} {d : Nat} (hd : s.fd i = some d)
    (hstale : ¬ s.Live i d) : (s.drop i).Table where
  count := by
    have htaken : s.fd i ≠ none := by
      rw [hd]
      exact Option.some_ne_none d
    have hcard := card_taken_free htaken
    have hcount := h.count
    simp only [Server.drop]
    omega
  found e o ho := by
    obtain ⟨j, hj, hholder⟩ := h.found e o ho
    have hji : j ≠ i := by
      rintro rfl
      obtain rfl : d = e := Option.some.inj (hd.symm.trans hj)
      exact hstale (ho.trans (congrArg some hholder.symm))
    exact ⟨j, (drop_fd_of_ne hji).trans hj, hholder⟩
  apart j l hj hl := h.apart j l (drop_fd_ne_none hj).2 (drop_fd_ne_none hl).2
  ids j c hj := h.ids j c (drop_fd_ne_none hj).2

/-- Two live entries with one descriptor are one. -/
theorem Table.live_unique (h : s.Table) {i j : Fin maxFds} {d : Nat} (hi : s.fd i = some d)
    (hj : s.fd j = some d) (hlive : s.Live i d) (hlive' : s.Live j d) : i = j :=
  h.apart i j (by rw [hi]; exact Option.some_ne_none d) (by rw [hj]; exact Option.some_ne_none d)
    (Option.some.inj (hlive.symm.trans hlive'))

/-- The next entry. -/
theorem Serving.succ (h : s.Serving k)
    (hdone : ∀ i d, i.val = k → s.fd i = some d → s.revents i ≠ .closed) : s.Serving (k + 1) where
  toTable := h.toTable
  stale i d hd hstale := by
    rcases h.stale i d hd hstale with ⟨hle, hclosed⟩ | ⟨hnone, -⟩
    · have hne : i.val ≠ k := fun hik => hdone i d hik hd hclosed
      exact .inl ⟨by omega, hclosed⟩
    · exact .inr ⟨hnone, Nat.succ_pos k⟩
  event i d hle hd hev := h.event i d (by omega) hd hev

/-- The descriptor of a live entry in front may be closed. -/
theorem Serving.close (h : s.Serving k) (hk : 0 < k) {i : Fin maxFds} {d : Nat} (hik : i.val < k)
    (hd : s.fd i = some d) (hlive : s.Live i d) : (s.close d).Serving k where
  toTable := h.toTable.close d
  stale j e he hstale := by
    by_cases hed : e = d
    · exact .inr ⟨hed ▸ s.close_owner_self d, hk⟩
    · have hstale' : ¬ s.Live j e := fun hlive => hstale ((close_owner_of_ne hed).trans hlive)
      rw [close_owner_of_ne hed]
      exact h.stale j e he hstale'
  event j e hle he hev := by
    refine (h.event j e hle he hev).imp (fun hclosed => ?_) fun hopen => ?_
    · exact ⟨hclosed.1, fun hlive => hclosed.2 (live_close hlive).2⟩
    · have hed : e ≠ d := by
        rintro rfl
        have := h.live_unique hd he hlive hopen.1
        omega
      exact ⟨(close_owner_of_ne hed).trans hopen.1, hopen.2⟩

/-- An entry that is not live may be dropped. -/
theorem Serving.drop (h : s.Serving k) {i : Fin maxFds} {d : Nat} (hd : s.fd i = some d)
    (hstale : ¬ s.Live i d) : (s.drop i).Serving k where
  toTable := h.toTable.drop hd hstale
  stale j e he := by
    obtain ⟨hji, -⟩ := drop_fd_ne_none (by rw [he]; exact Option.some_ne_none e)
    exact h.stale j e (drop_fd_of_ne hji ▸ he)
  event j e hle he := by
    obtain ⟨hji, -⟩ := drop_fd_ne_none (by rw [he]; exact Option.some_ne_none e)
    exact h.event j e hle (drop_fd_of_ne hji ▸ he)

/-- A new connection holds none of the entries. -/
theorem Table.holder_ne (h : s.Table) {i : Fin maxFds} (hi : s.fd i ≠ none) :
    s.holder i ≠ .client s.accepted := fun hholder =>
  Nat.lt_irrefl _ (h.ids i _ hi hholder)

theorem Table.enter (h : s.Table) {j : Fin maxFds} {d : Nat} (hfree : s.fd j = none)
    (hclosed : s.owner d = none) : (s.enter j d).Table where
  count := by
    have hcard := card_taken_put hfree d
    have hcount := h.count
    simp only [Server.enter]
    omega
  found e o ho := by
    by_cases hed : e = d
    · subst hed
      rw [enter_owner_self] at ho
      exact ⟨j, (enter_self j e).1, (enter_self j e).2.2.trans (Option.some.inj ho)⟩
    · rw [enter_owner_of_ne hed] at ho
      obtain ⟨i, hi, hholder⟩ := h.found e o ho
      have hij : i ≠ j := by
        rintro rfl
        rw [hfree] at hi
        cases hi
      exact ⟨i, (enter_of_ne hij d).1.trans hi, (enter_of_ne hij d).2.2.trans hholder⟩
  apart i l hi hl hholder := by
    by_cases hij : i = j
    · by_cases hlj : l = j
      · rw [hij, hlj]
      · rw [(enter_of_ne hlj d).1] at hl
        rw [hij, (enter_self j d).2.2, (enter_of_ne hlj d).2.2] at hholder
        exact absurd hholder.symm (h.holder_ne hl)
    · rw [(enter_of_ne hij d).1] at hi
      by_cases hlj : l = j
      · rw [hlj, (enter_self j d).2.2, (enter_of_ne hij d).2.2] at hholder
        exact absurd hholder (h.holder_ne hi)
      · rw [(enter_of_ne hlj d).1] at hl
        rw [(enter_of_ne hij d).2.2, (enter_of_ne hlj d).2.2] at hholder
        exact h.apart i l hi hl hholder
  ids i c hi hholder := by
    by_cases hij : i = j
    · rw [hij, (enter_self j d).2.2] at hholder
      obtain rfl := Owner.client.inj hholder
      exact Nat.lt_succ_self _
    · rw [(enter_of_ne hij d).1] at hi
      rw [(enter_of_ne hij d).2.2] at hholder
      exact Nat.lt_succ_of_lt (h.ids i c hi hholder)

/-- A new client may have the number of a descriptor whose entry is still to be dropped. -/
theorem Serving.enter (h : s.Serving 0) {j : Fin maxFds} {d : Nat} (hfree : s.fd j = none)
    (hclosed : s.owner d = none) : (s.enter j d).Serving 0 where
  toTable := h.toTable.enter hfree hclosed
  stale i e he hstale := by
    by_cases hij : i = j
    · subst hij
      obtain rfl := Option.some.inj ((enter_self i d).1.symm.trans he)
      refine absurd ?_ hstale
      rw [Live, enter_owner_self, (enter_self i d).2.2]
    · obtain ⟨hfd, hrevents, hholder⟩ := enter_of_ne (s := s) hij d
      rw [hfd] at he
      have hstale' : ¬ s.Live i e := by
        intro hlive
        have hed : e ≠ d := by
          rintro rfl
          rw [Live, hclosed] at hlive
          cases hlive
        exact hstale (by rw [Live, enter_owner_of_ne hed, hholder]; exact hlive)
      obtain hcome | ⟨-, hlt⟩ := h.stale i e he hstale'
      · exact .inl ⟨hcome.1, hrevents.trans hcome.2⟩
      · exact absurd hlt (Nat.lt_irrefl 0)
  event i e hle he hev := by
    have hij : i ≠ j := by
      rintro rfl
      exact hev (enter_self i d).2.1
    obtain ⟨hfd, hrevents, hholder⟩ := enter_of_ne (s := s) hij d
    rw [hfd] at he
    rw [hrevents] at hev ⊢
    refine (h.event i e hle he hev).imp (fun hcome => ⟨hcome.1, fun hlive => ?_⟩) fun hopen => ?_
    · rw [Live, hholder] at hlive
      by_cases hed : e = d
      · rw [hed, enter_owner_self] at hlive
        exact h.holder_ne (by rw [he]; exact Option.some_ne_none e) (Option.some.inj hlive).symm
      · rw [enter_owner_of_ne hed] at hlive
        exact hcome.2 hlive
    · have hed : e ≠ d := by
        rintro rfl
        have hlive := hopen.1
        rw [Live, hclosed] at hlive
        cases hlive
      refine ⟨?_, ?_, hopen.2.2⟩
      · rw [Live, enter_owner_of_ne hed, hholder]
        exact hopen.1
      · rw [hholder]
        exact hopen.2.1

end Operations

/-! ## The invariant -/

/-- The invariant, by where the daemon is. -/
def Inv (s : Server) : Prop :=
  match s.place with
  | .polling => s.Resting
  | .serving k nev => s.Serving k ∧ nev = (s.pending k).card
  | .exited => True
  | .overrun => False

section Invariant

variable {s : Server} {k : Nat}

theorem Serving.inv {nev : Nat} (h : s.Serving k) (hplace : s.place = .serving k nev)
    (hnev : nev = (s.pending k).card) : s.Inv := by
  rw [Inv, hplace]
  exact ⟨h, hnev⟩

/-- Where the daemon is does not matter for the table. -/
theorem Serving.moved (h : s.Serving k) (place : Place) :
    ({ s with place := place } : Server).Serving k where
  count := h.count
  found := h.found
  apart := h.apart
  ids := h.ids
  stale := h.stale
  event := h.event

/-- A table that is not full has a free entry behind the first. -/
theorem Table.freeSlot_ne_none (h : s.Table) (hfirst : s.fd 0 ≠ none) (hnfds : s.nfds ≠ maxFds) :
    s.freeSlot ≠ none := by
  have hlt : (taken s.fd).card < maxFds := by
    have hle := card_taken_le s.fd
    have hcount := h.count
    omega
  obtain ⟨j, hj⟩ := exists_free hlt
  rw [freeSlot, ne_eq, List.find?_eq_none]
  intro hall
  refine hall j (List.mem_finRange j) (decide_eq_true ⟨?_, hj⟩)
  rintro rfl
  exact hfirst hj

theorem Inv.sound (h : s.Inv) : s.Sound := by
  rw [Inv] at h
  cases hplace : s.place with
  | polling =>
      rw [hplace] at h
      have hle := card_taken_le s.fd
      have hcount := h.count
      refine ⟨fun _ => ⟨hcount, by omega⟩, fun nev hserving => by simp [hplace] at hserving,
        by simp [hplace], fun _ d c howner => ?_⟩
      obtain ⟨i, hi, hholder⟩ := h.found d _ howner
      refine ⟨i, hi, fun j hj => ?_⟩
      by_cases hlive : s.Live j d
      · exact h.live_unique hj hi hlive (howner.trans (congrArg some hholder.symm))
      · rw [h.stale j d hj hlive] at howner
        cases howner
  | serving k nev =>
      rw [hplace] at h
      exact ⟨fun hpolling => by simp [hplace] at hpolling,
        fun _ _ hfirst hnfds => h.1.freeSlot_ne_none hfirst hnfds, by simp [hplace],
        fun hpolling => by simp [hplace] at hpolling⟩
  | exited =>
      exact ⟨fun hpolling => by simp [hplace] at hpolling,
        fun nev hserving => by simp [hplace] at hserving, by simp [hplace],
        fun hpolling => by simp [hplace] at hpolling⟩
  | overrun =>
      rw [hplace] at h
      exact h.elim

/-! ## A round -/

/-- `poll` reports what is consistent with the descriptors. -/
theorem Resting.wake (h : s.Resting) {revents : Fin maxFds → Events}
    (hfits : ∀ i, fits s.owner (s.fd i) (revents i) = true) : (s.wake (.ready revents)).Inv := by
  have hopen : ∀ i d, s.fd i = some d → s.owner d = none ∧ revents i = .closed ∨
      s.Live i d ∧ (revents i).nval = false := by
    intro i d hd
    have hfit := hfits i
    rw [hd] at hfit
    by_cases hlive : s.Live i d
    · rw [Live] at hlive
      simp only [fits, hlive, decide_eq_true_eq] at hfit
      exact .inr ⟨hlive, hfit⟩
    · have hnone := h.stale i d hd hlive
      simp only [fits, hnone, decide_eq_true_eq] at hfit
      exact .inl ⟨hnone, hfit⟩
  have hserving : (s.wake (.ready revents)).Serving 0 :=
    { count := h.count
      found := h.found
      apart := h.apart
      ids := h.ids
      stale := fun i d hd hstale => by
        obtain ⟨-, hclosed⟩ | ⟨hlive, -⟩ := hopen i d hd
        · exact .inl ⟨Nat.zero_le _, hclosed⟩
        · exact absurd hlive hstale
      event := fun i d _ hd _ => by
        obtain ⟨hnone, hclosed⟩ | ⟨hlive, hnval⟩ := hopen i d hd
        · refine .inl ⟨hclosed, fun hlive => ?_⟩
          rw [Live] at hlive
          cases hnone.symm.trans hlive
        · have hpolled : (s.fd i).bind s.owner = some (s.holder i) := by
            rw [show s.fd i = some d from hd]
            exact hlive
          exact .inr ⟨hlive, hpolled, hnval⟩ }
  refine hserving.inv rfl (congrArg Finset.card (Finset.filter_congr fun i _ => ?_))
  refine ⟨fun hev => ⟨Nat.zero_le _, fun hfree => hev ?_, hev⟩, fun hev => hev.2.2⟩
  have hfit := hfits i
  rw [show s.fd i = none from hfree] at hfit
  exact of_decide_eq_true hfit

/-- The entries with an event, behind one of them. -/
theorem card_pending_succ {i : Fin maxFds} (hi : i.val = k) (hfd : s.fd i ≠ none)
    (hev : s.revents i ≠ .none) : (s.pending (k + 1)).card + 1 = (s.pending k).card := by
  have hmem : i ∈ s.pending k :=
    Finset.mem_filter.mpr ⟨Finset.mem_univ i, Nat.le_of_eq hi.symm, hfd, hev⟩
  have herase : s.pending (k + 1) = (s.pending k).erase i := by
    ext j
    simp only [pending, Finset.mem_erase, Finset.mem_filter, Finset.mem_univ, true_and]
    have hval : j ≠ i ↔ j.val ≠ k := not_congr (by rw [← hi]; exact Fin.ext_iff)
    rw [hval]
    constructor
    · rintro ⟨hle, hj⟩
      exact ⟨by omega, by omega, hj⟩
    · rintro ⟨hne, hle, hj⟩
      exact ⟨by omega, hj⟩
  rw [herase, Finset.card_erase_add_one hmem]

/-- Behind an entry without one. -/
theorem pending_succ {i : Fin maxFds} (hi : i.val = k)
    (hnone : s.fd i = none ∨ s.revents i = .none) : s.pending (k + 1) = s.pending k := by
  ext j
  simp only [pending, Finset.mem_filter, Finset.mem_univ, true_and]
  constructor
  · rintro ⟨hle, hj⟩
    exact ⟨by omega, hj⟩
  · rintro ⟨hle, hfd, hev⟩
    have hne : j.val ≠ k := by
      intro hjk
      obtain rfl : j = i := Fin.ext (hjk.trans hi.symm)
      exact hnone.elim hfd hev
    exact ⟨by omega, hfd, hev⟩

/-- Changes in front of them leave them. -/
theorem pending_drop {i : Fin maxFds} (hi : i.val < k) : (s.drop i).pending k = s.pending k := by
  refine Finset.filter_congr fun j _ => and_congr_right fun hle => ?_
  have hji : j ≠ i := by
    rintro rfl
    omega
  rw [drop_fd_of_ne hji]
  exact Iff.rfl

/-- A new entry has no event. -/
theorem pending_enter {j : Fin maxFds} (hfree : s.fd j = none) (d : Nat) :
    (s.enter j d).pending k = s.pending k := by
  refine Finset.filter_congr fun i _ => and_congr_right fun _ => ?_
  by_cases hij : i = j
  · rw [hij, (enter_self j d).2.1, hfree]
    simp
  · rw [(enter_of_ne hij d).1, (enter_of_ne hij d).2.1]

/-! ## A turn -/

/-- What a turn at an entry may close and drop. -/
structure OnlyFor (s s' : Server) (i : Fin maxFds) : Prop where
  closed : ∀ d o, s.owner d = some o → s'.owner d ≠ some o → s.polled i = some o
  dropped : ∀ j d, s.fd j = some d → s.Live j d → s'.fd j ≠ some d →
    s.polled i = some (s.holder j)

theorem OnlyFor.refl (s : Server) (i : Fin maxFds) : OnlyFor s s i where
  closed _ _ ho hne := absurd ho hne
  dropped _ _ hd _ hne := absurd hd hne

/-- The daemon at an entry with an event, with the next one ahead. -/
structure At (s : Server) (i : Fin maxFds) (d : Nat) : Prop where
  serving : s.Serving i.val
  fd : s.fd i = some d
  event : s.revents i ≠ .none
  next : ∃ nev, s.place = .serving (i.val + 1) nev ∧ nev + 1 = (s.pending i.val).card

section Turn

variable {i : Fin maxFds} {d : Nat}

theorem At.next_eq (h : s.At i d) :
    s.place = .serving (i.val + 1) (s.pending (i.val + 1)).card := by
  obtain ⟨nev, hplace, hnev⟩ := h.next
  have hcard := card_pending_succ rfl (by rw [h.fd]; exact Option.some_ne_none d) h.event
  rw [hplace]
  congr 1
  omega

/-- An event that is not of a closed descriptor is one of the entry's own connection. -/
theorem At.live (h : s.At i d) (hopen : s.revents i ≠ .closed) :
    s.Live i d ∧ s.polled i = some (s.holder i) ∧ (s.revents i).nval = false :=
  (h.serving.event i d (Nat.le_refl _) h.fd h.event).resolve_left fun hclosed => hopen hclosed.1

theorem At.succ (h : s.At i d) (hopen : s.revents i ≠ .closed) : s.Serving (i.val + 1) :=
  h.serving.succ fun j _ hj _ => (Fin.ext hj : j = i) ▸ hopen

/-- The entry is left as it is. -/
theorem At.keep (h : s.At i d) (hopen : s.revents i ≠ .closed) : s.Inv ∧ OnlyFor s s i :=
  ⟨(h.succ hopen).inv h.next_eq rfl, .refl s i⟩

theorem onlyFor_close (hlive : s.Live i d) (hpolled : s.polled i = some (s.holder i)) :
    OnlyFor s (s.close d) i where
  closed e o ho hne := by
    have hed : e = d := by
      by_contra hed
      exact hne ((close_owner_of_ne hed).trans ho)
    rw [hpolled, ← hlive, ← hed, ho]
  dropped _ _ hd _ hne := absurd hd hne

/-- The descriptor is closed, and the entry stays. -/
theorem At.close (h : s.At i d) (hopen : s.revents i ≠ .closed) :
    (s.close d).Inv ∧ OnlyFor s (s.close d) i := by
  obtain ⟨hlive, hpolled, -⟩ := h.live hopen
  refine ⟨?_, onlyFor_close hlive hpolled⟩
  exact ((h.succ hopen).close (Nat.succ_pos _) (Nat.lt_succ_self _) h.fd hlive).inv h.next_eq rfl

/-- The descriptor is closed, and the entry dropped. -/
theorem At.closeDrop (h : s.At i d) (hopen : s.revents i ≠ .closed) :
    ((s.close d).drop i).Inv ∧ OnlyFor s ((s.close d).drop i) i := by
  obtain ⟨hlive, hpolled, -⟩ := h.live hopen
  have hclose := (h.succ hopen).close (Nat.succ_pos _) (Nat.lt_succ_self _) h.fd hlive
  have hdrop : ((s.close d).drop i).Serving (i.val + 1) :=
    hclose.drop h.fd fun hlive => (live_close hlive).1 rfl
  refine ⟨hdrop.inv h.next_eq (congrArg Finset.card (pending_drop (Nat.lt_succ_self _))).symm,
    (onlyFor_close hlive hpolled).closed, fun j e he _ hne => ?_⟩
  by_cases hji : j = i
  · rw [hji]
    exact hpolled
  · exact absurd ((drop_fd_of_ne (s := s.close d) hji).trans he) hne

/-- An entry whose descriptor was not open is dropped. -/
theorem At.drop (h : s.At i d) (hclosed : s.revents i = .closed) :
    (s.drop i).Inv ∧ OnlyFor s (s.drop i) i := by
  have hstale : ¬ s.Live i d := by
    intro hlive
    obtain hcome | hopen := h.serving.event i d (Nat.le_refl _) h.fd h.event
    · exact hcome.2 hlive
    · rw [hclosed] at hopen
      exact absurd hopen.2.2 (by decide)
  have hdrop : (s.drop i).Serving (i.val + 1) := by
    refine (h.serving.drop h.fd hstale).succ fun j e hj he => ?_
    obtain rfl : j = i := Fin.ext hj
    rw [drop_fd_self] at he
    cases he
  refine ⟨hdrop.inv h.next_eq (congrArg Finset.card (pending_drop (Nat.lt_succ_self _))).symm,
    fun e o ho hne => absurd ho hne, fun j e he hlive hne => ?_⟩
  have hji : j ≠ i := by
    rintro rfl
    obtain rfl := Option.some.inj (h.fd.symm.trans he)
    exact hstale hlive
  exact absurd ((drop_fd_of_ne hji).trans he) hne

/-- Someone called, and may be given an entry. -/
theorem At.acceptClient (h : s.At i d) (hi : i = 0) (hopen : s.revents i ≠ .closed)
    {answer : Answer} (haccept : ∀ d ∈ answer.accept, s.owner d = none) :
    (s.acceptClient answer).Inv ∧ OnlyFor s (s.acceptClient answer) i := by
  unfold Server.acceptClient
  split
  · exact h.keep hopen
  · rename_i hnfds
    have hfirst : s.fd 0 ≠ none := by
      rw [← hi, h.fd]
      exact Option.some_ne_none d
    cases hslot : s.freeSlot with
    | none => exact absurd hslot (h.serving.freeSlot_ne_none hfirst hnfds)
    | some j =>
        cases hnew : answer.accept with
        | none => exact h.keep hopen
        | some e =>
            have hnone := haccept e hnew
            have hfree : s.fd j = none := by
              have hfound := List.find?_some hslot
              exact (of_decide_eq_true hfound).2
            have hij : i ≠ j := by
              rintro rfl
              rw [h.fd] at hfree
              cases hfree
            have hzero : i.val = 0 := congrArg Fin.val hi
            have hserving : (s.enter j e).Serving i.val := by
              have hserving := h.serving
              rw [hzero] at hserving ⊢
              exact hserving.enter hfree hnone
            have hsucc : (s.enter j e).Serving (i.val + 1) := by
              refine hserving.succ fun l f hl _ => ?_
              obtain rfl : l = i := Fin.ext hl
              rw [(enter_of_ne hij e).2.1]
              exact hopen
            refine ⟨hsucc.inv h.next_eq (congrArg Finset.card (pending_enter hfree e)).symm,
              fun f o ho hne => ?_, fun l f hl _ hne => ?_⟩
            · have hfe : f ≠ e := by
                rintro rfl
                rw [hnone] at ho
                cases ho
              exact absurd ((enter_owner_of_ne hfe j).trans ho) hne
            · have hlj : l ≠ j := by
                rintro rfl
                rw [hfree] at hl
                cases hl
              exact absurd ((enter_of_ne hlj e).1.trans hl) hne

/-- There is client data to read. -/
theorem At.readClient (h : s.At i d) (hopen : s.revents i ≠ .closed) (answer : Answer) :
    (s.readClient i d answer).Inv ∧ OnlyFor s (s.readClient i d answer) i := by
  unfold Server.readClient
  split
  · exact h.closeDrop hopen
  · have hsent : ∀ s' : Server, s'.Inv ∧ OnlyFor s s' i →
        (if answer.handled = -2 then { s' with place := .exited } else s').Inv ∧
          OnlyFor s (if answer.handled = -2 then { s' with place := .exited } else s') i := by
      rintro s' ⟨hinv, hclosed, hdropped⟩
      split
      · exact ⟨trivial, hclosed, hdropped⟩
      · exact ⟨hinv, hclosed, hdropped⟩
    refine hsent _ ?_
    split
    · exact h.close hopen
    · exact h.keep hopen

/-- **A turn** closes and drops for the connection whose event it is. -/
theorem At.serve (h : s.At i d) {answer : Answer}
    (haccept : ∀ d ∈ answer.accept, s.owner d = none) :
    (s.serve i d answer).Inv ∧ OnlyFor s (s.serve i d answer) i := by
  have hclosed : s.revents i = .closed → (s.revents i).pollin = false ∧ (s.revents i).hup = false ∧
      (s.revents i).err = false := by
    intro hev
    rw [hev]
    decide
  unfold Server.serve
  simp only
  split
  · rename_i hcall
    refine h.acceptClient hcall.2 (fun hev => ?_) haccept
    rw [(hclosed hev).1] at hcall
    exact absurd hcall.1 (by decide)
  · split
    · rename_i hread
      refine h.readClient (fun hev => ?_) answer
      rw [(hclosed hev).1] at hread
      exact absurd hread (by decide)
    · rename_i hquiet
      by_cases hev : s.revents i = .closed
      · have hhang : ¬ ((s.revents i).hup = true ∨ (s.revents i).err = true) := by
          rw [(hclosed hev).2.1, (hclosed hev).2.2]
          decide
        have hnval : (s.revents i).nval = true := by rw [hev]; rfl
        rw [if_pos (.inr (.inr hnval)), if_neg hhang]
        exact h.drop hev
      · have hhang : (s.revents i).hup = true ∨ (s.revents i).err = true := by
          have hnval := (h.live hev).2.2
          by_contra hnone
          obtain ⟨hhup, herr⟩ := not_or.mp hnone
          refine h.event ?_
          rcases hfields : s.revents i with ⟨pollin, hup, err, nval⟩
          rw [hfields] at hquiet hnval hhup herr
          simp only [Bool.not_eq_true] at hquiet hnval hhup herr
          rw [hquiet, hnval, hhup, herr]
          rfl
        rw [if_pos (hhang.imp_right .inl), if_pos hhang]
        exact h.closeDrop hev

end Turn

/-- The end of the loop. -/
theorem Serving.rest (h : s.Serving k) {nev : Nat} (hnev : nev = (s.pending k).card)
    (hend : ¬ (k < maxFds ∧ nev ≠ 0)) : ({ s with place := .polling } : Server).Resting where
  count := h.count
  found := h.found
  apart := h.apart
  ids := h.ids
  stale i d hd hstale := by
    obtain ⟨hle, hclosed⟩ | ⟨hnone, -⟩ := h.stale i d hd hstale
    · have hmem : i ∈ s.pending k := by
        refine Finset.mem_filter.mpr ⟨Finset.mem_univ i, hle, ?_, ?_⟩
        · rw [show s.fd i = some d from hd]
          exact Option.some_ne_none d
        · rw [hclosed]
          decide
      refine absurd ⟨Nat.lt_of_le_of_lt hle i.isLt, ?_⟩ hend
      rw [hnev]
      exact Finset.card_ne_zero_of_mem hmem
    · exact hnone

theorem Serving.turn (h : s.Serving k) {nev : Nat} (hplace : s.place = .serving k nev)
    (hnev : nev = (s.pending k).card) {answer : Answer}
    (haccept : ∀ d ∈ answer.accept, s.owner d = none) :
    (s.turn k nev answer).Inv ∧ OwnEvents s (s.turn k nev answer) := by
  have hsame : ∀ place, OwnEvents s { s with place := place } := fun _ =>
    ⟨fun _ _ ho hne => absurd ho hne, fun _ _ hd _ hne => absurd hd hne⟩
  unfold Server.turn
  split
  · rename_i hmore
    have hskip : s.fd ⟨k, hmore.1⟩ = none ∨ s.revents ⟨k, hmore.1⟩ = .none →
        ({ s with place := .serving (k + 1) nev } : Server).Inv := by
      intro hnone
      have hsucc : s.Serving (k + 1) := by
        refine h.succ fun i d hi hd hclosed => ?_
        obtain rfl : i = ⟨k, hmore.1⟩ := Fin.ext hi
        rw [hd, hclosed] at hnone
        exact hnone.elim (Option.some_ne_none d) (by decide)
      refine (hsucc.moved _).inv rfl (hnev.trans (congrArg Finset.card ?_))
      exact (pending_succ (i := ⟨k, hmore.1⟩) rfl hnone).symm
    cases hd : s.fd ⟨k, hmore.1⟩ with
    | none => exact ⟨hskip (.inl hd), hsame _⟩
    | some d =>
        simp only
        split
        · rename_i hnone
          exact ⟨hskip (.inr hnone), hsame _⟩
        · rename_i hev
          have hat : ({ s with place := .serving (k + 1) (nev - 1) } : Server).At
              ⟨k, hmore.1⟩ d :=
            { serving := h.moved _
              fd := hd
              event := hev
              next := ⟨nev - 1, rfl, (Nat.succ_pred hmore.2).trans hnev⟩ }
          obtain ⟨hinv, hclosed, hdropped⟩ := hat.serve haccept
          exact ⟨hinv, fun e o ho hne => ⟨⟨k, hmore.1⟩, nev, hplace, hclosed e o ho hne⟩,
            fun j e he hlive hne => ⟨⟨k, hmore.1⟩, nev, hplace, hdropped j e he hlive hne⟩⟩
  · rename_i hend
    refine ⟨?_, hsame _⟩
    exact h.rest hnev hend

/-- **A step** keeps the invariant, and closes and drops for the connection whose event it
is. -/
theorem Inv.step (h : s.Inv) {x : Input} (hx : s.Consistent x) :
    (s.step x).Inv ∧ OwnEvents s (s.step x) := by
  have hidle : OwnEvents s s :=
    ⟨fun _ _ ho hne => absurd ho hne, fun _ _ hd _ hne => absurd hd hne⟩
  have hinv := h
  rw [Inv] at h
  unfold Server.step
  cases hplace : s.place with
  | polling =>
      rw [hplace] at h
      cases x with
      | poll polled =>
          have hsame : OwnEvents s (s.wake polled) := by
            cases polled <;>
              exact ⟨fun _ _ ho hne => absurd ho hne, fun _ _ hd _ hne => absurd hd hne⟩
          refine ⟨?_, hsame⟩
          cases polled with
          | timeout =>
              rw [Inv, show (s.wake .timeout).place = .polling from hplace]
              exact { count := h.count, found := h.found, apart := h.apart, ids := h.ids,
                      stale := h.stale }
          | interrupted => exact hinv
          | failed => trivial
          | ready revents => exact h.wake hx
      | turn answer => exact ⟨hinv, hidle⟩
  | serving k nev =>
      rw [hplace] at h
      cases x with
      | poll polled => exact ⟨hinv, hidle⟩
      | turn answer => exact h.1.turn hplace h.2 hx
  | exited => exact ⟨hinv, hidle⟩
  | overrun => exact ⟨hinv, hidle⟩

end Invariant

/-! ## Runs -/

theorem pollSetup_inv (ls : Nat) : (pollSetup ls).Inv := by
  have hfirst : ∀ i d, (pollSetup ls).fd i = some d → i = 0 ∧ d = ls := by
    intro i d hd
    by_cases hi : i = 0
    · rw [hi] at hd
      exact ⟨hi, (Option.some.inj hd).symm⟩
    · have hnone : (pollSetup ls).fd i = none := by simp [pollSetup, hi]
      rw [hnone] at hd
      cases hd
  have htaken : ∀ i, (pollSetup ls).fd i ≠ none → i = 0 := fun i hi => by
    obtain ⟨d, hd⟩ := Option.ne_none_iff_exists'.mp hi
    exact (hfirst i d hd).1
  have hlistener : (pollSetup ls).owner ls = some .listener := by simp [pollSetup]
  have hopen : ∀ d o, (pollSetup ls).owner d = some o → d = ls ∧ o = .listener := by
    intro d o ho
    by_cases hd : d = ls
    · rw [hd, hlistener] at ho
      exact ⟨hd, (Option.some.inj ho).symm⟩
    · have hnone : (pollSetup ls).owner d = none := by simp [pollSetup, hd]
      rw [hnone] at ho
      cases ho
  have hresting : (pollSetup ls).Resting :=
    { count := by
        have hcard := @card_taken_put maxFds Nat (fun _ => none) 0 rfl ls
        have hnone : taken (fun _ : Fin maxFds => (none : Option Nat)) = ∅ :=
          Finset.filter_eq_empty_iff.mpr fun _ _ => Bool.false_ne_true
        rw [hnone, Finset.card_empty] at hcard
        exact (congrArg Nat.cast hcard).symm
      found := fun d o ho => ⟨0, by rw [(hopen d o ho).1]; rfl, (hopen d o ho).2.symm⟩
      apart := fun i j hi hj _ => (htaken i hi).trans (htaken j hj).symm
      ids := fun i c _ hholder => by cases hholder
      stale := fun i d hd hstale => by
        obtain ⟨rfl, rfl⟩ := hfirst i d hd
        exact absurd hlistener hstale }
  exact hresting

/-- **The table of clients** is in order at every poll, and at every step a connection is
closed or dropped for an event of its own only. -/
theorem clientTable (ls : Nat) {inputs : List Input}
    (h : Along step Consistent (pollSetup ls) inputs) :
    Along step (fun s x => s.Sound ∧ OwnEvents s (s.step x)) (pollSetup ls) inputs ∧
      (run step (pollSetup ls) inputs).Sound :=
  ⟨along_of_step Inv (fun _ _ hinv hx => ⟨⟨hinv.sound, (hinv.step hx).2⟩, (hinv.step hx).1⟩)
      (pollSetup_inv ls) h,
    (run_of_along Inv (fun _ _ hinv hx => (hinv.step hx).1) (pollSetup_inv ls) h).sound⟩

/-- A client calls, quits, and the next has the number of its descriptor while its entry is
still there. -/
def reuse : List Input :=
  let calls : Events := ⟨true, false, false, false⟩
  let at0 : Fin maxFds → Events := fun i => if i = 0 then calls else .none
  let at1 : Fin maxFds → Events := fun i => if i = 1 then calls else .none
  let both : Fin maxFds → Events := fun i =>
    if i = 0 then calls else if i = 1 then .closed else .none
  let answer : Answer := ⟨none, 5, -1, 3⟩
  [.poll (.ready at0), .turn { answer with accept := some 5 }, .turn answer,
    .poll (.ready at1), .turn answer, .turn answer, .turn answer,
    .poll (.ready both), .turn { answer with accept := some 5 }, .turn answer, .turn answer]

instance (s : Server) (x : Input) : Decidable (s.Consistent x) :=
  match x with
  | .poll (.ready _) => inferInstanceAs (Decidable (∀ _, _ = true))
  | .poll .timeout => isTrue trivial
  | .poll .interrupted => isTrue trivial
  | .poll .failed => isTrue trivial
  | .turn answer => inferInstanceAs (Decidable (∀ d ∈ answer.accept, s.owner d = none))

theorem clientTable_reuse :
    Along step (fun s x => s.Sound ∧ OwnEvents s (s.step x)) (pollSetup 4) reuse ∧
      (run step (pollSetup 4) reuse).Sound :=
  clientTable 4 (by decide +kernel)

end Server

end AltF.Mcu.Clients
