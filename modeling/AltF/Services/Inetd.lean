/-
  Services/Inetd.lean --- S41inetd: the services that inetd offers, which `enable` and `disable`
  turn on and off in inetd.conf by a `#` in front of their lines.

  What follows the name and a blank on a line is the service's, and stays; the blank becomes
  a tab.
-/
import AltF.Foundation.Decimal
import AltF.Foundation.Runs
import AltF.Services.Requirements
import AltF.SysFiles.Lines

set_option autoImplicit false

namespace AltF.Services.Inetd

open AltF.Foundation AltF.SysFiles

/-! ## The script -/

/-- What follows `^$w[[:space:]]` on a line. -/
def behind (w l : Text) : Option Text :=
  match l.drop w.length with
  | c :: t => if w.isPrefixOf l && isSpace c then some t else none
  | [] => none

/-- `s/^$w[[:space:]]/$v\t/`, of a line -/
def substHead (w v l : Text) : Text := (behind w l).elim l fun t => v ++ '\t' :: t

/-- `sed -i`, with a command that leaves an empty line empty. -/
def sedLines (f : Text → Text) (t : TextFile) : TextFile := ⟨t.full.map f, f t.rest⟩

/-- `grep -q "^$w[[:space:]]"` -/
def grepHead (w : Text) (t : TextFile) : Bool := t.lines.any fun l => (behind w l).isSome

/-- A service, as it is given to the script: its name stands for itself in a pattern. -/
structure Service where
  name : Text
  named : name ≠ [] ∧ name.all isNameChar = true

namespace Service

variable (i : Service)

def commented : Text := '#' :: i.name

/-- `check` -/
def check (conf : TextFile) : Bool :=
  conf.lines.any fun l => (behind i.commented l).isSome || (behind i.name l).isSome

/-- A round of `enable`. -/
def enable (conf : TextFile) : TextFile :=
  if i.check conf = false then conf
  else if grepHead i.commented conf then sedLines (substHead i.commented i.name) conf
  else conf

/-- A round of `disable`. -/
def disable (conf : TextFile) : TextFile :=
  if i.check conf = false then conf
  else if grepHead i.name conf then sedLines (substHead i.name i.commented) conf
  else conf

end Service

inductive Request where
  | enable (services : List Service)
  | disable (services : List Service)

def step (conf : TextFile) : Request → TextFile
  | .enable services => services.foldl (fun conf i => i.enable conf) conf
  | .disable services => services.foldl (fun conf i => i.disable conf) conf

/-! ## What the lines say -/

/-- A service of inetd.conf. -/
structure Entry where
  enabled : Bool
  name : Text
  rest : Text
  deriving DecidableEq, Repr

/-- A name and a blank, at the beginning of a text. -/
def entryOf (enabled : Bool) (t : Text) : Option Entry :=
  match t.dropWhile isNameChar with
  | c :: rest =>
      if t.takeWhile isNameChar ≠ [] ∧ isSpace c = true then
        some ⟨enabled, t.takeWhile isNameChar, rest⟩
      else none
  | [] => none

/-- The service of a line. -/
def entry : Text → Option Entry
  | '#' :: t => entryOf false t
  | t => entryOf true t

def Request.names : Request → List Text
  | .enable services => services.map Service.name
  | .disable services => services.map Service.name

def Request.turnsOn : Request → Bool
  | .enable _ => true
  | .disable _ => false

/-- What the last request that names a service wants of it. -/
def wanted (rs : List Request) (e : Entry) : Bool :=
  ((rs.reverse.find? fun r => r.names.contains e.name).map Request.turnsOn).getD e.enabled

/-! ## A line -/

theorem behind_eq_some {w l t : Text} :
    behind w l = some t ↔ ∃ c, isSpace c = true ∧ l = w ++ c :: t := by
  unfold behind
  constructor
  · intro h
    split at h
    · rename_i c u hdrop
      split at h
      · rename_i hboth
        rw [Bool.and_eq_true, List.isPrefixOf_iff_prefix] at hboth
        obtain ⟨⟨v, rfl⟩, hspace⟩ := hboth
        rw [List.drop_left] at hdrop
        exact ⟨c, hspace, by rw [hdrop, Option.some.inj h]⟩
      · exact nomatch h
    · exact nomatch h
  · rintro ⟨c, hspace, rfl⟩
    have hpre : w.isPrefixOf (w ++ c :: t) = true :=
      List.isPrefixOf_iff_prefix.mpr (List.prefix_append _ _)
    rw [List.drop_left]
    simp only [hpre, hspace, Bool.and_self, if_pos]

theorem not_isNameChar_of_isSpace {c : Char} (hc : isSpace c = true) : isNameChar c = false := by
  simp only [isSpace, Bool.or_eq_true, beq_iff_eq] at hc
  rcases hc with ((((rfl | rfl) | rfl) | rfl) | rfl) | rfl <;> decide

/-- The line of a service, up to the blank. -/
def headOf (enabled : Bool) (name : Text) : Text := if enabled then name else '#' :: name

theorem entryOf_eq_some {enabled : Bool} {t : Text} {e : Entry} :
    entryOf enabled t = some e ↔
      e.enabled = enabled ∧ (e.name ≠ [] ∧ e.name.all isNameChar = true) ∧
        ∃ c, isSpace c = true ∧ t = e.name ++ c :: e.rest := by
  constructor
  · intro h
    unfold entryOf at h
    split at h
    · rename_i c rest hdrop
      split at h
      · rename_i hboth
        obtain rfl := Option.some.inj h
        have hsplit : t.takeWhile isNameChar ++ c :: rest = t := by
          rw [← hdrop, List.takeWhile_append_dropWhile]
        exact ⟨rfl, ⟨hboth.1, List.all_takeWhile⟩, c, hboth.2, hsplit.symm⟩
      · exact nomatch h
    · exact nomatch h
  · rintro ⟨rfl, hname, c, hc, rfl⟩
    have hblank : ¬ isNameChar c = true := by
      rw [not_isNameChar_of_isSpace hc]
      exact Bool.false_ne_true
    have hchars := List.all_eq_true.mp hname.2
    unfold entryOf
    rw [List.dropWhile_append_of_pos hchars, List.dropWhile_cons_of_neg hblank,
      List.takeWhile_append_of_pos hchars, List.takeWhile_cons_of_neg hblank, List.append_nil]
    exact if_pos ⟨hname.1, hc⟩

theorem entry_of_ne {c : Char} (hc : c ≠ '#') (t : Text) :
    entry (c :: t) = entryOf true (c :: t) := by
  unfold entry
  split
  · rename_i heq
    exact absurd (List.cons.inj heq).1 hc
  · rfl

theorem entry_eq_some {l : Text} {e : Entry} :
    entry l = some e ↔ (e.name ≠ [] ∧ e.name.all isNameChar = true) ∧
      ∃ c, isSpace c = true ∧ l = headOf e.enabled e.name ++ c :: e.rest := by
  constructor
  · intro h
    unfold entry at h
    split at h
    · obtain ⟨henabled, hname, c, hc, rfl⟩ := entryOf_eq_some.mp h
      exact ⟨hname, c, hc, by rw [headOf, henabled]; rfl⟩
    · obtain ⟨henabled, hname, c, hc, rfl⟩ := entryOf_eq_some.mp h
      exact ⟨hname, c, hc, by rw [headOf, henabled]; rfl⟩
  · rintro ⟨hname, c, hc, rfl⟩
    unfold headOf
    cases henabled : e.enabled with
    | false => exact entryOf_eq_some.mpr ⟨henabled, hname, c, hc, rfl⟩
    | true =>
        obtain ⟨d, u, hdu⟩ := List.exists_cons_of_ne_nil hname.1
        have hne : d ≠ '#' := by
          rintro rfl
          have hd := hname.2
          rw [hdu, List.all_cons] at hd
          exact Bool.false_ne_true hd
        have hentry : entryOf true (e.name ++ c :: e.rest) = some e :=
          entryOf_eq_some.mpr ⟨henabled, hname, c, hc, rfl⟩
        rw [if_pos rfl, hdu, List.cons_append, entry_of_ne hne, ← List.cons_append, ← hdu, hentry]

/-! ## A service -/

namespace Service

variable (i : Service)

theorem behind_headOf {enabled : Bool} {l t : Text} :
    behind (headOf enabled i.name) l = some t ↔ entry l = some ⟨enabled, i.name, t⟩ := by
  rw [behind_eq_some, entry_eq_some]
  exact ⟨fun h => ⟨i.named, h⟩, And.right⟩

/-- What is done with a line. -/
def turn (on : Bool) (l : Text) : Text := substHead (headOf (!on) i.name) (headOf on i.name) l

theorem entry_turn (on : Bool) (l : Text) :
    entry (i.turn on l) =
      (entry l).map fun e => { e with enabled := if e.name = i.name then on else e.enabled } := by
  unfold turn substHead
  cases hbehind : behind (headOf (!on) i.name) l with
  | some t =>
      have hturned : entry (headOf on i.name ++ '\t' :: t) = some ⟨on, i.name, t⟩ :=
        entry_eq_some.mpr ⟨i.named, '\t', rfl, rfl⟩
      rw [i.behind_headOf.mp hbehind, Option.elim_some, hturned, Option.map_some, if_pos rfl]
  | none =>
      rw [Option.elim_none]
      cases hentry : entry l with
      | none => rfl
      | some e =>
          have henabled : e.name = i.name → e.enabled = on := by
            intro hname
            by_contra hne
            have hnot : e.enabled = !on := by
              revert hne
              cases e.enabled <;> cases on <;> simp
            have hfound : behind (headOf (!on) i.name) l = some e.rest := by
              rw [behind_headOf, hentry, ← hnot, ← hname]
            rw [hbehind] at hfound
            exact nomatch hfound
          rw [Option.map_some]
          split
          · rename_i hname
            rw [← henabled hname]
          · rfl

theorem turn_of_ne {on : Bool} {l : Text} (h : ∀ e ∈ entry l, e.name ≠ i.name) :
    i.turn on l = l := by
  unfold turn substHead
  cases hbehind : behind (headOf (!on) i.name) l with
  | some t => exact absurd rfl (h _ (i.behind_headOf.mp hbehind))
  | none => rfl

theorem turn_eq_nil_iff (on : Bool) (l : Text) : i.turn on l = [] ↔ l = [] := by
  unfold turn substHead
  cases hbehind : behind (headOf (!on) i.name) l with
  | some t =>
      obtain ⟨c, -, rfl⟩ := behind_eq_some.mp hbehind
      simp
  | none => rfl

/-! ## The file -/

theorem lines_sedLines {f : Text → Text} (hf : ∀ l, f l = [] ↔ l = []) (t : TextFile) :
    (sedLines f t).lines = t.lines.map f := by
  unfold sedLines TextFile.lines
  by_cases hrest : t.rest = []
  · rw [if_pos ((hf _).mpr hrest), if_pos hrest]
  · rw [if_neg fun h => hrest ((hf _).mp h), if_neg hrest, List.map_append, List.map_singleton]

/-- A file without a line for the service is left as it is. -/
theorem map_turn_of_grep (on : Bool) {conf : TextFile}
    (h : ¬ grepHead (headOf (!on) i.name) conf = true) :
    conf.lines.map (i.turn on) = conf.lines := by
  have hsame : ∀ l ∈ conf.lines, i.turn on l = id l := by
    intro l hl
    unfold turn substHead
    cases hbehind : behind (headOf (!on) i.name) l with
    | some t => exact absurd (List.any_eq_true.mpr ⟨l, hl, by rw [hbehind]; rfl⟩) h
    | none => rfl
  rw [List.map_congr_left hsame, List.map_id]

/-- Without `check` there is nothing to be found. -/
theorem not_grep_of_check {conf : TextFile} (h : i.check conf = false) (on : Bool) :
    ¬ grepHead (headOf on i.name) conf = true := by
  intro hgrep
  obtain ⟨l, hl, hbehind⟩ := List.any_eq_true.mp hgrep
  have hneither := List.any_eq_false.mp h l hl
  rw [Bool.or_eq_true, not_or] at hneither
  cases on with
  | true => exact hneither.2 hbehind
  | false => exact hneither.1 hbehind

theorem lines_enable (conf : TextFile) : (i.enable conf).lines = conf.lines.map (i.turn true) := by
  unfold enable
  split
  · rename_i hcheck
    exact (i.map_turn_of_grep true (i.not_grep_of_check hcheck false)).symm
  · split
    · exact lines_sedLines (i.turn_eq_nil_iff true) conf
    · rename_i hgrep
      exact (i.map_turn_of_grep true hgrep).symm

theorem lines_disable (conf : TextFile) :
    (i.disable conf).lines = conf.lines.map (i.turn false) := by
  unfold disable
  split
  · rename_i hcheck
    exact (i.map_turn_of_grep false (i.not_grep_of_check hcheck true)).symm
  · split
    · exact lines_sedLines (i.turn_eq_nil_iff false) conf
    · rename_i hgrep
      exact (i.map_turn_of_grep false hgrep).symm

end Service

/-! ## Requests -/

/-- What the rounds of a request do with a line. -/
def turnAll (on : Bool) (services : List Service) (l : Text) : Text :=
  services.foldl (fun l i => i.turn on l) l

theorem lines_foldl {on : Bool} {round : Service → TextFile → TextFile}
    (hround : ∀ i conf, (round i conf).lines = conf.lines.map (i.turn on)) (services : List Service)
    (conf : TextFile) :
    (services.foldl (fun conf i => round i conf) conf).lines =
      conf.lines.map (turnAll on services) := by
  induction services generalizing conf with
  | nil => exact (List.map_id _).symm
  | cons i services ih =>
      rw [List.foldl_cons, ih, hround, List.map_map]
      rfl

theorem entry_turnAll (on : Bool) (services : List Service) (l : Text) :
    entry (turnAll on services l) = (entry l).map fun e =>
      { e with enabled := if e.name ∈ services.map Service.name then on else e.enabled } := by
  induction services generalizing l with
  | nil => simp [turnAll]
  | cons i services ih =>
      have hcons : turnAll on (i :: services) l = turnAll on services (i.turn on l) := rfl
      rw [hcons, ih, i.entry_turn, Option.map_map]
      refine congrArg (fun f => (entry l).map f) (funext fun e => ?_)
      by_cases hi : e.name = i.name
      · simp only [Function.comp_apply, List.map_cons, List.mem_cons, hi, true_or, if_true,
          ite_self]
      · simp only [Function.comp_apply, List.map_cons, List.mem_cons, hi, false_or, if_false]

theorem turnAll_of_notMem {on : Bool} {services : List Service} {l : Text}
    (h : ∀ e ∈ entry l, e.name ∉ services.map Service.name) : turnAll on services l = l := by
  induction services with
  | nil => rfl
  | cons i services ih =>
      have hi : ∀ e ∈ entry l, e.name ≠ i.name := fun e he heq =>
        h e he (heq ▸ List.mem_cons_self)
      have hcons : turnAll on (i :: services) l = turnAll on services (i.turn on l) := rfl
      rw [hcons, i.turn_of_ne hi]
      exact ih fun e he hmem => h e he (List.mem_cons_of_mem _ hmem)

def Request.turn : Request → Text → Text
  | .enable services => turnAll true services
  | .disable services => turnAll false services

theorem lines_step (conf : TextFile) (r : Request) :
    (step conf r).lines = conf.lines.map r.turn := by
  cases r with
  | enable services => exact lines_foldl Service.lines_enable services conf
  | disable services => exact lines_foldl Service.lines_disable services conf

theorem entry_request (r : Request) (l : Text) :
    entry (r.turn l) = (entry l).map fun e =>
      { e with enabled := if e.name ∈ r.names then r.turnsOn else e.enabled } := by
  cases r with
  | enable services => exact entry_turnAll true services l
  | disable services => exact entry_turnAll false services l

theorem request_of_notMem {r : Request} {l : Text} (h : ∀ e ∈ entry l, e.name ∉ r.names) :
    r.turn l = l := by
  cases r with
  | enable services => exact turnAll_of_notMem h
  | disable services => exact turnAll_of_notMem h

/-! ## Runs -/

theorem wanted_cons (r : Request) (rs : List Request) (e : Entry) :
    wanted (r :: rs) e =
      wanted rs { e with enabled := if e.name ∈ r.names then r.turnsOn else e.enabled } := by
  unfold wanted
  rw [List.reverse_cons, List.find?_append]
  cases rs.reverse.find? fun r => r.names.contains e.name with
  | some r' => rfl
  | none =>
      rw [Option.none_or, List.find?_singleton]
      by_cases hmem : e.name ∈ r.names <;> simp [hmem]

/-- The lines, each with what becomes of it. -/
theorem lines_run (conf : TextFile) (rs : List Request) :
    ∃ after : Text → Text, (run step conf rs).lines = conf.lines.map after ∧
      ∀ l, entry (after l) = (entry l).map (fun e => { e with enabled := wanted rs e }) ∧
        ((∀ e ∈ entry l, ∀ r ∈ rs, e.name ∉ r.names) → after l = l) := by
  induction rs generalizing conf with
  | nil =>
      refine ⟨id, (List.map_id _).symm, fun l => ⟨?_, fun _ => rfl⟩⟩
      exact (Option.map_id' (x := entry l)).symm
  | cons r rs ih =>
      obtain ⟨after, hlines, hafter⟩ := ih (step conf r)
      refine ⟨after ∘ r.turn, ?_, fun l => ⟨?_, fun hunnamed => ?_⟩⟩
      · rw [run_cons, hlines, lines_step, List.map_map]
      · rw [Function.comp_apply, (hafter _).1, entry_request, Option.map_map]
        refine congrArg (fun f => (entry l).map f) (funext fun e => ?_)
        rw [wanted_cons]
        rfl
      · have hsame := request_of_notMem fun e he => hunnamed e he r List.mem_cons_self
        rw [Function.comp_apply, hsame]
        exact (hafter l).2 fun e he r' hr' => hunnamed e he r' (List.mem_cons_of_mem r hr')

/-- **The services over runs.**  After all requests a service is on if the last request that names
it was to enable it, and where none does it is as it was; its line says the same otherwise, and the
lines of what no request names are not touched. -/
theorem services_run (conf : TextFile) (rs : List Request) :
    List.Forall₂
      (fun l l' => entry l' = (entry l).map (fun e => { e with enabled := wanted rs e }) ∧
        ((∀ e ∈ entry l, ∀ r ∈ rs, e.name ∉ r.names) → l' = l))
      conf.lines (run step conf rs).lines := by
  obtain ⟨after, hlines, hafter⟩ := lines_run conf rs
  rw [hlines, List.forall₂_map_right_iff, List.forall₂_same]
  exact fun l _ => hafter l

end AltF.Services.Inetd
