/-
  Hotplug/Partition.lean --- hot.sh, the filesystems: the evaluations of
  `add_partition`, of what blkid prints and of variables named after a UUID.

  blkid prints one line, with double quotes and backslashes of a value escaped.  The
  branch for members of a RAID, which ends before blkid, is not here.
-/
import AltF.Hotplug.Bay
import AltF.Shell.Quoted

set_option autoImplicit false

namespace AltF.Hotplug

open AltF.Shell AltF.SysFiles

/-! ## blkid and sed -/

/-- How blkid prints a character. -/
def escapeChar (c : Char) : Text := if c = '"' ∨ c = '\\' then ['\\', c] else [c]

/-- How blkid prints a value. -/
def escape (t : Text) : Text := t.flatMap escapeChar

/-- `NAME="value"` -/
def tagText (x : Text × Text) : Text := x.1 ++ '=' :: '"' :: escape x.2 ++ ['"']

/-- A partition, as `add_partition` finds it. -/
structure Partition where
  /-- `$PWD/$MDEV` -/
  dev : Text
  /-- The tags that blkid finds. -/
  tags : List (Text × Text)
  /-- a swap partition on a USB disk, with swap there switched off -/
  noSwap : Bool
  names : ∀ x ∈ tags, isName x.1 = true

/-- What blkid prints behind the device. -/
def Partition.tagsText (p : Partition) : Text := join (p.tags.map tagText)

/-- `blkid -c /dev/null $PWD/$MDEV` -/
def Partition.blkid (p : Partition) : List Text :=
  if p.tags = [] then [] else [p.dev ++ ':' :: ' ' :: p.tagsText]

/-- What stands behind the last `: ` of a line. -/
def behindColon : Text → Option Text
  | [] => none
  | c :: t =>
      match behindColon t with
      | some r => some r
      | none => if c = ':' ∧ t.head? = some ' ' then some t.tail else none

/-- `sed 's|^.*: ||'` -/
def sedColon (l : Text) : Text := (behindColon l).getD l

/-- `tr '-' '_'` -/
def underscore (c : Char) : Char := if c = '-' then '_' else c

/-- The evaluations of `add_partition`. -/
def addPartition (sh : Process) (p : Partition) : Option Env := do
  let env ← sh.evalOutput sh.env (p.blkid.flatMap fun l => sedColon l ++ ['\n'])
  let env ← evalIndirect sh.glob underscore env "mopts".toList
    ("mopts_".toList ++ env "UUID".toList)
  if env "TYPE".toList = "swap".toList ∧ p.noSwap = false then
    evalIndirect sh.glob underscore env "swap_pri".toList
      ("swapp_".toList ++ env "UUID".toList)
  else some env

/-! ## The last colon -/

theorem behindColon_eq_none {t : Text} (ht : ¬ [':', ' '] <:+: t) : behindColon t = none := by
  induction t with
  | nil => rfl
  | cons c t ih =>
      have hrest : ¬ [':', ' '] <:+: t := fun h => ht (List.infix_cons h)
      have hhere : ¬ (c = ':' ∧ t.head? = some ' ') := by
        rintro ⟨rfl, hspace⟩
        obtain ⟨u, rfl⟩ : ∃ u, t = ' ' :: u := by
          cases t with
          | nil => cases hspace
          | cons d u => exact ⟨u, by simpa using hspace⟩
        exact ht ⟨[], u, rfl⟩
      rw [behindColon, ih hrest]
      exact if_neg hhere

theorem behindColon_append (t : Text) {u r : Text} (hu : behindColon u = some r) :
    behindColon (t ++ u) = some r := by
  induction t with
  | nil => exact hu
  | cons c t ih => rw [List.cons_append, behindColon, ih]

/-- Without another `: `, what stands behind the device. -/
theorem sedColon_line (dev : Text) {t : Text} (ht : ¬ [':', ' '] <:+: t) :
    sedColon (dev ++ ':' :: ' ' :: t) = t := by
  have hspace : behindColon (' ' :: t) = none := by
    rw [behindColon, behindColon_eq_none ht]
    rfl
  have hcolon : behindColon (':' :: ' ' :: t) = some t := by
    rw [behindColon, hspace]
    rfl
  rw [sedColon, behindColon_append dev hcolon]
  rfl

/-! ## Escaped text -/

theorem squeeze_escape (t : Text) : squeeze (escape t) = escape (squeeze t) := by
  have hhead : ∀ s : Text, (escape s).head? = some ' ' ↔ s.head? = some ' ' := by
    intro s
    cases s with
    | nil => exact Iff.rfl
    | cons d s =>
        rw [escape, List.flatMap_cons, escapeChar]
        split
        · rename_i hd
          have hne : d ≠ ' ' := by
            rintro rfl
            exact absurd hd (by decide)
          simp [hne]
        · rfl
  induction t with
  | nil => rfl
  | cons c t ih =>
      have hcons : escape (c :: t) = escapeChar c ++ escape t := List.flatMap_cons
      by_cases hc : isBlank c = true
      · have hplain : escapeChar c = [c] := by
          refine if_neg ?_
          rintro (rfl | rfl) <;> cases hc
        rw [hcons, hplain, List.singleton_append, squeeze, squeeze, if_pos hc, if_pos hc, ih]
        by_cases hspace : (squeeze t).head? = some ' '
        · rw [if_pos ((hhead _).mpr hspace), if_pos hspace]
        · rw [if_neg fun h => hspace ((hhead _).mp h), if_neg hspace]
          rfl
      · have hc' : isBlank c = false := by simpa using hc
        have hblank : ∀ d ∈ escapeChar c, isBlank d = false := by
          intro d hd
          rw [escapeChar] at hd
          split at hd
          · rcases List.mem_cons.mp hd with rfl | hd
            · rfl
            · rw [List.mem_singleton.mp hd, hc']
          · rw [List.mem_singleton.mp hd, hc']
        rw [hcons, squeeze_append_of_not_blank hblank, ih, squeeze_cons_of_not_blank hc']
        rfl

/-! ## Reading a value -/

section Inside

variable {n : Text} (env : Env)

/-- **An escaped text** without substitutions is read as a value. -/
theorem read_escape {m : Mode} (hm : Inside n m) {t : Text} (ht : noSubst t = true)
    (hsubst : ∀ w, m = .dollar n w true → t.head? ≠ some '(' ∧ t.head? ≠ some '{') :
    ∃ v, read nothing (env, m) (escape t ++ ['"']) = (env, .value n v false) := by
  induction t generalizing m with
  | nil =>
      obtain ⟨v, hstep⟩ := step_inside_quote env hm
      exact ⟨v, hstep⟩
  | cons c t ih =>
      obtain ⟨htick, hdollar, hrest⟩ := (noSubst_cons c t).mp ht
      have hcons : escape (c :: t) ++ ['"'] = escapeChar c ++ (escape t ++ ['"']) := by
        rw [escape, List.flatMap_cons, List.append_assoc, escape]
      rw [hcons, escapeChar]
      by_cases hescape : c = '"' ∨ c = '\\'
      · obtain ⟨v, hback⟩ := step_inside_back env hm
        have hstep : step nothing (env, .backslash n v true) c =
            (env, .value n (v ++ [c]) true) := by
          rcases hescape with rfl | rfl <;> rfl
        rw [if_pos hescape, List.cons_append, List.cons_append, List.nil_append, read_cons, hback,
          read_cons, hstep]
        exact ih (.value _) hrest fun w h => absurd h (value_ne_dollar _ w)
      · obtain ⟨hquote, hback⟩ := not_or.mp hescape
        obtain ⟨m', hstep, hm', hnext⟩ := step_inside env hm hquote hback htick fun w hw =>
          ⟨fun h => (hsubst w hw).1 (congrArg some h), fun h => (hsubst w hw).2 (congrArg some h)⟩
        rw [if_neg hescape, List.singleton_append, read_cons, hstep]
        exact ih hm' hrest fun w hw => hdollar (hnext w hw)

end Inside

/-! ## Reading the tags -/

/-- A tag that is read as an assignment, and as the value it has if it is a UUID. -/
structure TagOk (x : Text × Text) : Prop where
  name : isName x.1 = true
  subst : noSubst x.2 = true
  uuid : x.1 = "UUID".toList → x.2.all isSimple = true

theorem TagOk.squeeze {x : Text × Text} (h : TagOk x) : TagOk (x.1, AltF.Shell.squeeze x.2) where
  name := h.name
  subst := noSubst_squeeze h.subst
  uuid := fun hname => by
    have hsolid := all_solidChar (h.uuid hname)
    rw [squeeze_of_not_blank fun c hc =>
      ((solidChar_iff c).mp (List.all_eq_true.mp hsolid c hc)).1]
    exact h.uuid hname

theorem escape_of_plain {t : Text} (ht : t.all isPlain = true) : escape t = t := by
  induction t with
  | nil => rfl
  | cons c t ih =>
      rw [List.all_cons, Bool.and_eq_true] at ht
      have hescape : ¬(c = '"' ∨ c = '\\') :=
        not_or.mpr ⟨ne_of_isPlain ht.1 rfl, ne_of_isPlain ht.1 rfl⟩
      have hrest := ih ht.2
      rw [escape] at hrest ⊢
      rw [List.flatMap_cons, escapeChar, if_neg hescape, hrest, List.singleton_append]

/-- One tag. -/
theorem read_tag {m : Mode} (hm : m = .start ∨ m = .next) (env : Env) {x : Text × Text}
    (hx : TagOk x) :
    ∃ v, read nothing (env, m) (tagText x) = (env, .value x.1 v false) ∧
      (x.1 = "UUID".toList → v.all isSimple = true) := by
  have hsplit : tagText x = (x.1 ++ ['=']) ++ ('"' :: (escape x.2 ++ ['"'])) := by simp [tagText]
  have hopen : step nothing (env, .value x.1 [] false) '"' = (env, .value x.1 [] true) := rfl
  rw [hsplit, read_append, read_assign nothing hm env hx.name, read_cons, hopen]
  by_cases huuid : x.1 = "UUID".toList
  · have hplain := all_isPlain (hx.uuid huuid)
    obtain ⟨hintact, hunquote⟩ := intact_of_plain hplain
    rw [escape_of_plain hplain, read_intact nothing env x.1 [] hintact, hunquote, List.nil_append]
    exact ⟨x.2, rfl, fun _ => hx.uuid huuid⟩
  · obtain ⟨v, hread⟩ := read_escape env (.value (n := x.1) []) hx.subst
      fun w h => absurd h (value_ne_dollar [] w)
    exact ⟨v, hread, fun h => absurd h huuid⟩

/-- **The tags** are assignments. -/
theorem read_tags {xs : List (Text × Text)} (hxs : ∀ x ∈ xs, TagOk x) {m : Mode}
    (hm : m = .start ∨ m = .next) {env : Env} (henv : (env "UUID".toList).all isSimple = true) :
    ∃ env₂, finish (read nothing (env, m) (join (xs.map tagText))) = some env₂ ∧
      (env₂ "UUID".toList).all isSimple = true := by
  induction xs generalizing m env with
  | nil => rcases hm with rfl | rfl <;> exact ⟨env, rfl, henv⟩
  | cons x xs ih =>
      obtain ⟨v, hread, hvalue⟩ := read_tag hm env (hxs x List.mem_cons_self)
      have hnext : (Function.update env x.1 v "UUID".toList).all isSimple = true := by
        by_cases huuid : x.1 = "UUID".toList
        · rw [huuid, Function.update_self]
          exact hvalue huuid
        · rw [Function.update_of_ne (Ne.symm huuid)]
          exact henv
      cases xs with
      | nil =>
          refine ⟨Function.update env x.1 v, ?_, hnext⟩
          rw [List.map_singleton, join_singleton, hread]
          rfl
      | cons y ys =>
          have hspace : step nothing (env, .value x.1 v false) ' ' =
              (Function.update env x.1 v, .next) := rfl
          rw [List.map_cons, join_cons _ (by simp), read_append, hread, read_cons, hspace]
          exact ih (fun z hz => hxs z (List.mem_cons_of_mem x hz)) (.inr rfl) hnext

/-! ## Splitting the tags -/

theorem startsSolid_tags {xs : List (Text × Text)} (hxs : ∀ x ∈ xs, isName x.1 = true) :
    StartsSolid (join (xs.map tagText)) := by
  cases xs with
  | nil => exact nofun
  | cons x xs =>
      have hname := hxs x List.mem_cons_self
      have htag : StartsSolid (tagText x) ∧ tagText x ≠ [] := by
        unfold tagText
        cases hx : x.1 with
        | nil =>
            rw [hx] at hname
            cases hname
        | cons c n =>
            rw [hx, isName, Bool.and_eq_true] at hname
            refine ⟨fun d hd => ?_, by simp⟩
            obtain rfl : c = d := by simpa using hd
            exact not_blank_of_isNameStart hname.1
      cases xs with
      | nil =>
          rw [List.map_singleton, join_singleton]
          exact htag.1
      | cons y ys =>
          intro d hd
          rw [List.map_cons, join_cons _ (by simp), List.head?_append_of_ne_nil _ htag.2] at hd
          exact htag.1 d hd

theorem join_tags_concat (x : Text × Text) (xs : List (Text × Text)) :
    ∃ t, join ((x :: xs).map tagText) = t ++ ['"'] := by
  induction xs generalizing x with
  | nil => exact ⟨x.1 ++ '=' :: '"' :: escape x.2, by rw [List.map_singleton, join_singleton]; rfl⟩
  | cons y ys ih =>
      obtain ⟨t, ht⟩ := ih y
      refine ⟨tagText x ++ ' ' :: t, ?_⟩
      rw [List.map_cons, join_cons _ (by simp), ht, List.append_assoc, List.cons_append]

theorem endsSolid_tags (xs : List (Text × Text)) : EndsSolid (join (xs.map tagText)) := by
  cases xs with
  | nil => exact nofun
  | cons x xs =>
      obtain ⟨t, ht⟩ := join_tags_concat x xs
      intro c hc
      rw [ht, List.getLast?_concat] at hc
      obtain rfl : '"' = c := by simpa using hc
      rfl

theorem squeeze_tag {x : Text × Text} (hx : isName x.1 = true) (u : Text) :
    squeeze (x.1 ++ '=' :: '"' :: escape x.2 ++ '"' :: u) =
      x.1 ++ '=' :: '"' :: escape (squeeze x.2) ++ '"' :: squeeze u := by
  rw [squeeze_append_cons _ u rfl, squeeze_append_of_not_blank (not_blank_of_isName hx),
    squeeze_cons_of_not_blank rfl, squeeze_cons_of_not_blank rfl, squeeze_escape]

/-- Runs of blanks in the values become spaces. -/
theorem squeeze_tags {xs : List (Text × Text)} (hxs : ∀ x ∈ xs, isName x.1 = true) :
    squeeze (join (xs.map tagText)) =
      join ((xs.map fun x => (x.1, squeeze x.2)).map tagText) := by
  induction xs with
  | nil => rfl
  | cons x xs ih =>
      have hx := hxs x List.mem_cons_self
      have hrest := fun y hy => hxs y (List.mem_cons_of_mem x hy)
      cases xs with
      | nil =>
          rw [List.map_singleton, join_singleton, List.map_singleton, List.map_singleton,
            join_singleton]
          exact squeeze_tag hx []
      | cons y ys =>
          have hsplit : ∀ (z : Text × Text) (u : Text),
              tagText z ++ ' ' :: u = z.1 ++ '=' :: '"' :: escape z.2 ++ '"' :: ' ' :: u := by
            intro z u
            simp [tagText]
          have hjoin : ∀ z (zs : List (Text × Text)), zs ≠ [] →
              join ((z :: zs).map tagText) = tagText z ++ ' ' :: join (zs.map tagText) := by
            intro z zs hzs
            rw [List.map_cons, join_cons _ (by simpa using hzs)]
          have hmap : (x :: y :: ys).map (fun z => (z.1, squeeze z.2)) =
              (x.1, squeeze x.2) :: (y :: ys).map fun z => (z.1, squeeze z.2) := List.map_cons
          rw [hjoin x _ (List.cons_ne_nil y ys), hsplit, squeeze_tag hx,
            squeeze_space (startsSolid_tags hrest), ih hrest, hmap,
            hjoin _ ((y :: ys).map fun z => (z.1, squeeze z.2)) (by simp), hsplit]

/-! ## The evaluations -/

/-- **A partition whose tags are harmless.** -/
structure Partition.Clean (sh : Process) (p : Partition) : Prop where
  colon : ¬ [':', ' '] <:+: p.tagsText
  subst : ∀ x ∈ p.tags, noSubst x.2 = true
  uuid : ∀ x ∈ p.tags, x.1 = "UUID".toList → x.2.all isSimple = true
  glob : ∀ w ∈ words p.tagsText, sh.glob w = [w]

/-- What is evaluated of blkid's line. -/
theorem evalOutput_blkid {sh : Process} {p : Partition} (h : p.Clean sh) :
    ∃ env, sh.evalOutput sh.env (p.blkid.flatMap fun l => sedColon l ++ ['\n']) = some env ∧
      (env "UUID".toList).all isSimple = true := by
  have hout : commandSubst (p.blkid.flatMap fun l => sedColon l ++ ['\n']) = p.tagsText := by
    unfold Partition.blkid
    by_cases htags : p.tags = []
    · rw [if_pos htags, Partition.tagsText, htags]
      rfl
    · rw [if_neg htags, List.flatMap_singleton, sedColon_line p.dev h.colon,
        commandSubst_append_newline]
      exact commandSubst_of_endsSolid (endsSolid_tags p.tags)
  have hok : ∀ x ∈ p.tags.map fun x => (x.1, squeeze x.2), TagOk x := by
    intro x hx
    obtain ⟨y, hy, rfl⟩ := List.mem_map.mp hx
    exact (TagOk.mk (p.names y hy) (h.subst y hy) (h.uuid y hy)).squeeze
  unfold Process.evalOutput evalWords evalText
  rw [hout, expand_of_kept h.glob, Partition.tagsText,
    join_words (startsSolid_tags p.names) (endsSolid_tags p.tags), squeeze_tags p.names]
  refine read_tags hok (.inl rfl) ?_
  rw [sh.unset "UUID".toList (by simp)]
  rfl

theorem isSimple_underscore {c : Char} (hc : isSimple c = true) :
    isSimple (underscore c) = true := by
  unfold underscore
  split
  · rfl
  · exact hc

/-- A variable named after a simple UUID. -/
theorem evalIndirect_uuid (sh : Process) {env : Env}
    (henv : (env "UUID".toList).all isSimple = true) {n : Text} (hn : isName n = true)
    (hsolid : n.all solidChar = true) {c : Char} {y : Text} (hy : (c :: y).all isSimple = true)
    (hc : isNameStart (underscore c) = true) :
    ∃ w, evalIndirect sh.glob underscore env n (c :: (y ++ env "UUID".toList)) =
      some (Function.update env n w) := by
  have hsimple : (c :: (y ++ env "UUID".toList)).all isSimple = true := by
    rw [← List.cons_append, List.all_append, hy, henv]
    rfl
  refine evalIndirect_of_simple sh.globs env hn hsolid hc (by decide) (all_solidChar hsimple) ?_
  rw [List.all_map, List.all_eq_true]
  exact fun d hd => isSimple_underscore (List.all_eq_true.mp hsimple d hd)

/-- **`add_partition`** evaluates nothing but assignments. -/
theorem addPartition_of_clean {sh : Process} {p : Partition} (h : p.Clean sh) :
    ∃ env, addPartition sh p = some env := by
  obtain ⟨env₁, htags, huuid₁⟩ := evalOutput_blkid h
  obtain ⟨w, hmopts⟩ := evalIndirect_uuid sh huuid₁ (n := "mopts".toList) (by decide) (by decide)
    (c := 'm') (y := "opts_".toList) (by decide) (by decide)
  have hmopts' : evalIndirect sh.glob underscore env₁ "mopts".toList
      ("mopts_".toList ++ env₁ "UUID".toList) = some (Function.update env₁ "mopts".toList w) :=
    hmopts
  have huuid₂ : (Function.update env₁ "mopts".toList w "UUID".toList).all isSimple = true := by
    rw [Function.update_of_ne (by decide)]
    exact huuid₁
  obtain ⟨w', hswap⟩ := evalIndirect_uuid sh huuid₂ (n := "swap_pri".toList) (by decide)
    (by decide) (c := 's') (y := "wapp_".toList) (by decide) (by decide)
  have hswap' : evalIndirect sh.glob underscore (Function.update env₁ "mopts".toList w)
      "swap_pri".toList ("swapp_".toList ++
        Function.update env₁ "mopts".toList w "UUID".toList) = some _ := hswap
  unfold addPartition
  simp only [htags, hmopts', Option.bind_eq_bind, Option.bind_some]
  split
  · exact ⟨_, hswap'⟩
  · exact ⟨_, rfl⟩

end AltF.Hotplug
