/-
  Cgi/ArgsSent.lean --- which POST bodies reach the variables of a cgi script as they
  were sent.

  `read_args` evaluates value=key behind key=value, so a value that is the key of
  another field overwrites that field.
-/
import AltF.Cgi.Args

set_option autoImplicit false

namespace AltF.Cgi

open AltF.Shell AltF.SysFiles

/-! ## Bodies -/

/-- Names of variables of `read_args`, and of variables the shell computes. -/
def scriptNames : List Text := readArgsNames ++ computedNames

/-- A list of key=value pairs. -/
structure PostBody where
  pairs : List (Text × Text)
  distinct : (pairs.map Prod.fst).Nodup
  names : ∀ x ∈ pairs, isName x.1 = true ∧ x.1 ∉ scriptNames
  /-- `&` separates the pairs -/
  values : ∀ x ∈ pairs, '&' ∉ x.2

/-- key=value -/
def pairText (x : Text × Text) : Text := x.1 ++ '=' :: x.2

/-- The text of pairs. -/
def bodyText (xs : List (Text × Text)) : Text := ['&'].intercalate (xs.map pairText)

/-- Every variable has the value of its pair, whatever the variables were. -/
def Machine.Arrives (m : Machine) (b : PostBody) : Prop :=
  ∀ env, ∃ env₁, m.readArgs env (bodyText b.pairs) = some env₁ ∧ ∀ x ∈ b.pairs, env₁ x.1 = x.2

/-- A character that arrives: not one that ends the line, is a quote, a pattern, `=`, a
tab or a NUL. -/
def isSent (c : Char) : Bool := !"\n\r\t\x00'\"*?[=".toList.contains c

/-- When a body arrives on every machine. -/
structure PostBody.Sendable (b : PostBody) : Prop where
  /-- awk takes the key -/
  keys : ∀ x ∈ b.pairs, isAwkName x.1 = true
  chars : ∀ x ∈ b.pairs, x.2.all isSent = true
  /-- no two blanks in a row -/
  blanks : ∀ x ∈ b.pairs, squeeze x.2 = x.2
  /-- no blank at the end -/
  ending : ∀ x ∈ b.pairs.getLast?, x.2.getLast? ≠ some ' '
  /-- the last pair with the key of another for its value has that pair's value for
  its key -/
  others : ∀ x ∈ b.pairs, ∀ y ∈ b.pairs.reverse.find? (fun y => y.2 = x.1), y.1 = x.2

/-! ## Taking the body apart -/

theorem splitOn_bodyText {xs : List (Text × Text)} (hne : xs ≠ [])
    (hxs : ∀ x ∈ xs, '&' ∉ pairText x) : (bodyText xs).splitOn '&' = xs.map pairText := by
  refine List.splitOn_intercalate '&' (fun l hl => ?_) (by simpa using hne)
  obtain ⟨x, hx, rfl⟩ := List.mem_map.mp hl
  exact hxs x hx

theorem dollar_pairText {x : Text × Text} (hkey : '=' ∉ x.1) (hvalue : '=' ∉ x.2) :
    dollar1 (pairText x) = x.1 ∧ dollar2 (pairText x) = x.2 := by
  have hsplit : (pairText x).splitOn '=' = [x.1, x.2] := by
    rw [pairText, List.splitOn_append_cons_self_of_not_mem hkey, List.splitOn_eq_singleton hvalue]
  rw [dollar1, dollar2, hsplit]
  exact ⟨rfl, rfl⟩

/-- Names have none of the separators. -/
theorem separators_notMem {n : Text} (hn : isName n = true) : '&' ∉ n ∧ '=' ∉ n := by
  constructor
  all_goals
    intro hc
    exact absurd (List.all_eq_true.mp (all_isNameChar hn) _ hc) (by decide)

section Records

variable {xs : List (Text × Text)}

/-- Pairs that awk tells apart. -/
structure Separate (xs : List (Text × Text)) : Prop where
  keys : ∀ x ∈ xs, isName x.1 = true
  values : ∀ x ∈ xs, '&' ∉ x.2 ∧ '=' ∉ x.2

theorem Separate.tail {x : Text × Text} (h : Separate (x :: xs)) : Separate xs where
  keys := fun y hy => h.keys y (List.mem_cons_of_mem x hy)
  values := fun y hy => h.values y (List.mem_cons_of_mem x hy)

theorem Separate.dollar (h : Separate xs) {x : Text × Text} (hx : x ∈ xs) :
    dollar1 (pairText x) = x.1 ∧ dollar2 (pairText x) = x.2 :=
  dollar_pairText (separators_notMem (h.keys x hx)).2 (h.values x hx).2

theorem Separate.splitOn (h : Separate xs) (hne : xs ≠ []) :
    (bodyText xs).splitOn '&' = xs.map pairText := by
  refine splitOn_bodyText hne fun x hx hmem => ?_
  rcases List.mem_append.mp hmem with hmem | hmem
  · exact (separators_notMem (h.keys x hx)).1 hmem
  · exact (List.mem_cons.mp hmem).elim (by decide) (h.values x hx).1

theorem Separate.keyValues (h : Separate xs) :
    AltF.Cgi.keyValues (bodyText xs) = xs.filter fun x => isAwkName x.1 := by
  by_cases hne : xs = []
  · rw [hne]
    rfl
  · rw [AltF.Cgi.keyValues, h.splitOn hne, List.filterMap_map, ← List.filterMap_eq_filter]
    refine List.filterMap_congr fun x hx => ?_
    simp only [Function.comp_apply, h.dollar hx, Option.guard]

theorem Separate.valueKeys (h : Separate xs) :
    AltF.Cgi.valueKeys (bodyText xs) =
      (xs.filter fun x => isAwkName x.2).map fun x => (x.2, x.1) := by
  by_cases hne : xs = []
  · rw [hne]
    rfl
  · rw [AltF.Cgi.valueKeys, h.splitOn hne, List.filterMap_map, ← List.filterMap_eq_filter,
      List.map_filterMap]
    refine List.filterMap_congr fun x hx => ?_
    simp only [Function.comp_apply, h.dollar hx, Option.guard]
    split <;> rfl

end Records

/-! ## What echo makes of the body -/

section Body

variable {xs : List (Text × Text)}

theorem bodyText_cons (x : Text × Text) (hxs : xs ≠ []) :
    bodyText (x :: xs) = pairText x ++ '&' :: bodyText xs := by
  cases xs with
  | nil => exact absurd rfl hxs
  | cons y ys => simp [bodyText, List.intercalate]

theorem bodyText_singleton (x : Text × Text) : bodyText [x] = pairText x := by
  simp [bodyText, List.intercalate]

theorem equal_mem_bodyText (hne : xs ≠ []) : '=' ∈ bodyText xs := by
  cases xs with
  | nil => exact absurd rfl hne
  | cons x xs =>
      by_cases hxs : xs = []
      · rw [hxs, bodyText_singleton, pairText]
        exact List.mem_append_right _ List.mem_cons_self
      · rw [bodyText_cons x hxs, pairText, List.append_assoc]
        exact List.mem_append_right _ List.mem_cons_self

/-- The last value stands at the end. -/
theorem bodyText_concat (xs : List (Text × Text)) (k v : Text) :
    bodyText (xs ++ [(k, v)]) = bodyText (xs ++ [(k, [])]) ++ v := by
  induction xs with
  | nil => simp [bodyText_singleton, pairText]
  | cons x xs ih =>
      rw [List.cons_append, List.cons_append, bodyText_cons x (by simp), bodyText_cons x (by simp),
        ih, List.append_assoc, List.cons_append]

theorem endsSolid_bodyText (xs : List (Text × Text)) (k : Text) :
    EndsSolid (bodyText (xs ++ [(k, [])])) ∧ bodyText (xs ++ [(k, [])]) ≠ [] := by
  induction xs with
  | nil =>
      rw [List.nil_append, bodyText_singleton, pairText]
      refine ⟨EndsSolid.append k (fun c hc => ?_) (List.cons_ne_nil _ _), by simp⟩
      obtain rfl : '=' = c := Option.some.inj hc
      rfl
  | cons x xs ih =>
      rw [List.cons_append, bodyText_cons x (by simp)]
      refine ⟨EndsSolid.append _ ?_ (List.cons_ne_nil _ _), by simp⟩
      exact EndsSolid.append ['&'] ih.1 ih.2

/-- A body begins with a name. -/
theorem head_bodyText (hkeys : ∀ x ∈ xs, isName x.1 = true) :
    ∀ c ∈ (bodyText xs).head?, isNameStart c = true := by
  cases xs with
  | nil => nofun
  | cons x xs =>
      have hx := hkeys x List.mem_cons_self
      obtain ⟨u, hu⟩ : ∃ u, bodyText (x :: xs) = x.1 ++ u := by
        by_cases hxs : xs = []
        · exact ⟨'=' :: x.2, by rw [hxs, bodyText_singleton, pairText]⟩
        · exact ⟨_, by rw [bodyText_cons x hxs, pairText, List.append_assoc]⟩
      rw [hu]
      cases hname : x.1 with
      | nil =>
          rw [hname] at hx
          cases hx
      | cons d n =>
          rw [hname, isName, Bool.and_eq_true] at hx
          intro c hc
          obtain rfl : d = c := Option.some.inj hc
          exact hx.1

theorem startsSolid_bodyText (hkeys : ∀ x ∈ xs, isName x.1 = true) :
    StartsSolid (bodyText xs) := fun c hc => not_blank_of_isNameStart (head_bodyText hkeys c hc)

theorem squeeze_pairText {x : Text × Text} (hx : isName x.1 = true) (u : Text)
    (hu : ∀ c ∈ u.head?, isBlank c = false) :
    squeeze (pairText x ++ u) = pairText (x.1, squeeze x.2) ++ squeeze u := by
  have hsplit : pairText x ++ u = x.1 ++ '=' :: (x.2 ++ u) := by simp [pairText]
  rw [hsplit, squeeze_append_of_not_blank (not_blank_of_isName hx), squeeze_cons_of_not_blank rfl]
  cases u with
  | nil => simp [pairText, squeeze]
  | cons c u =>
      rw [squeeze_append_cons _ _ (hu c rfl), squeeze_cons_of_not_blank (hu c rfl)]
      simp [pairText]

theorem squeeze_bodyText (hkeys : ∀ x ∈ xs, isName x.1 = true) :
    squeeze (bodyText xs) = bodyText (squeezeAll xs) := by
  induction xs with
  | nil => rfl
  | cons x xs ih =>
      have hx := hkeys x List.mem_cons_self
      by_cases hxs : xs = []
      · have h := squeeze_pairText hx [] nofun
        rw [List.append_nil, squeeze, List.append_nil] at h
        rw [hxs, bodyText_singleton, h, squeezeAll, List.map_singleton, bodyText_singleton]
      · have hamp : ∀ c ∈ ('&' :: bodyText xs).head?, isBlank c = false := by
          intro c hc
          obtain rfl : '&' = c := Option.some.inj hc
          rfl
        have hrest := ih fun y hy => hkeys y (List.mem_cons_of_mem x hy)
        have hsqueezed : squeezeAll xs ≠ [] := by simpa [squeezeAll] using hxs
        rw [bodyText_cons x hxs, squeeze_pairText hx _ hamp, squeeze_cons_of_not_blank rfl, hrest,
          ← bodyText_cons _ hsqueezed]
        rfl

theorem rdropWhile_append {t : Text} (ht : EndsSolid t) (u : Text) :
    (t ++ u).rdropWhile isBlank = t ++ u.rdropWhile isBlank := by
  induction u using List.reverseRecOn with
  | nil =>
      rw [List.append_nil, List.rdropWhile_nil, List.append_nil, List.rdropWhile_eq_self_iff]
      intro hne
      rw [ht _ (List.getLast?_eq_getLast_of_ne_nil hne)]
      nofun
  | append_singleton u c ih =>
      rw [← List.append_assoc]
      by_cases hc : isBlank c = true
      · rw [List.rdropWhile_concat_pos _ _ _ hc, List.rdropWhile_concat_pos _ _ _ hc, ih]
      · rw [List.rdropWhile_concat_neg _ _ _ hc, List.rdropWhile_concat_neg _ _ _ hc,
          List.append_assoc]

theorem dropWhile_of_startsSolid {t : Text} (ht : StartsSolid t) : t.dropWhile isBlank = t := by
  cases t with
  | nil => rfl
  | cons c t => exact List.dropWhile_cons_of_neg (by rw [ht c rfl]; nofun)

/-- `read` takes a line without NULs as it is, but for the blanks at its ends. -/
theorem readLine_eq_trim {t : Text} (hline : '\n' ∉ t) (hnul : '\x00' ∉ t) :
    readLine t = trim t := by
  have htake : t.takeWhile (· ≠ '\n') = t := by
    rw [List.takeWhile_eq_self_iff]
    intro c hc
    simpa using fun h : c = '\n' => hline (h ▸ hc)
  have hfilter : t.filter (· ≠ '\x00') = t := by
    rw [List.filter_eq_self]
    intro c hc
    simpa using fun h : c = '\x00' => hnul (h ▸ hc)
  rw [readLine, htake, hfilter]

/-- `read` drops the blanks behind the last value. -/
theorem readLine_bodyText {k v : Text} (hkeys : ∀ x ∈ xs ++ [(k, v)], isName x.1 = true)
    (hline : '\n' ∉ bodyText (xs ++ [(k, v)])) (hnul : '\x00' ∉ bodyText (xs ++ [(k, v)])) :
    readLine (bodyText (xs ++ [(k, v)])) = bodyText (xs ++ [(k, v.rdropWhile isBlank)]) := by
  rw [readLine_eq_trim hline hnul, trim, dropWhile_of_startsSolid (startsSolid_bodyText hkeys),
    bodyText_concat, rdropWhile_append (endsSolid_bodyText xs k).1, ← bodyText_concat]

/-- Text without patterns is squeezed. -/
theorem Machine.echoArgs_eq (m : Machine) {t : Text} (hwild : ∀ c ∈ t, isWild c = false)
    (hdash : ∀ c ∈ t.head?, c ≠ '-') (hstart : StartsSolid t) (hend : EndsSolid t) :
    m.echoArgs t = squeeze t := by
  have hkept : ∀ w ∈ words t, m.glob w = [w] := fun w hw =>
    m.globs fun c hc => hwild c (mem_of_mem_words hw hc)
  have hoption : ∀ w ∈ (words t).head?, isEchoOption w = false := by
    cases t with
    | nil => nofun
    | cons c t =>
        have hc : ∀ d ∈ [c], isBlank d = false := by simpa using hstart c rfl
        obtain ⟨r, ws, hwords⟩ := words_append_of_not_blank (List.cons_ne_nil c []) hc t
        have hhead : c ≠ '-' := hdash c rfl
        rw [List.singleton_append] at hwords
        rw [hwords]
        intro w hw
        obtain rfl : [c] ++ r = w := Option.some.inj hw
        unfold isEchoOption
        split
        · exact absurd (by simp_all) hhead
        · rfl
  rw [echoArgs, expand_of_kept hkept, m.echons hoption, join_words hstart hend]

end Body

/-! ## The variables that are set -/

/-- A character that is no quote and that splits nothing. -/
def isKept (c : Char) : Bool := !"\n\t\x00'\"*?[=&".toList.contains c

theorem ne_of_isKept {c d : Char} (hc : isKept c = true) (hd : isKept d = false) : c ≠ d := by
  rintro rfl
  rw [hc] at hd
  cases hd

theorem isWild_of_isKept {c : Char} (hc : isKept c = true) : isWild c = false := by
  have hstar := ne_of_isKept hc (d := '*') rfl
  have hquery := ne_of_isKept hc (d := '?') rfl
  have hbracket := ne_of_isKept hc (d := '[') rfl
  simp [isWild, hstar, hquery, hbracket]

theorem isKept_of_isName {n : Text} (hn : isName n = true) {c : Char} (hc : c ∈ n) :
    isKept c = true := by
  cases hkept : isKept c with
  | true => rfl
  | false =>
      have hmem : c ∈ "\n\t\x00'\"*?[=&".toList := by
        rwa [isKept, Bool.not_eq_false', List.contains_iff_mem] at hkept
      have hall : "\n\t\x00'\"*?[=&".toList.all (!isNameChar ·) = true := rfl
      have hstop := List.all_eq_true.mp hall c hmem
      rw [List.all_eq_true.mp (all_isNameChar hn) c hc] at hstop
      cases hstop

/-- Pairs with names for keys and values of kept characters. -/
structure Kept (xs : List (Text × Text)) : Prop where
  keys : ∀ x ∈ xs, isName x.1 = true
  values : ∀ x ∈ xs, ∀ c ∈ x.2, isKept c = true

section Sets

variable {xs : List (Text × Text)}

theorem Kept.separate (h : Kept xs) : Separate xs where
  keys := h.keys
  values := fun x hx => ⟨fun hc => absurd (h.values x hx _ hc) (by decide),
    fun hc => absurd (h.values x hx _ hc) (by decide)⟩

/-- Characters of the body. -/
theorem mem_bodyText {c : Char} (hc : c ∈ bodyText xs) :
    c = '&' ∨ c = '=' ∨ ∃ x ∈ xs, c ∈ x.1 ∨ c ∈ x.2 := by
  induction xs with
  | nil => cases hc
  | cons x xs ih =>
      have hpair : c ∈ pairText x → c = '&' ∨ c = '=' ∨ ∃ y ∈ x :: xs, c ∈ y.1 ∨ c ∈ y.2 := by
        intro hmem
        rcases List.mem_append.mp hmem with hmem | hmem
        · exact .inr (.inr ⟨x, List.mem_cons_self, .inl hmem⟩)
        · rcases List.mem_cons.mp hmem with rfl | hmem
          · exact .inr (.inl rfl)
          · exact .inr (.inr ⟨x, List.mem_cons_self, .inr hmem⟩)
      by_cases hxs : xs = []
      · rw [hxs, bodyText_singleton] at hc
        exact hpair hc
      · rw [bodyText_cons x hxs, List.mem_append, List.mem_cons] at hc
        rcases hc with hc | rfl | hc
        · exact hpair hc
        · exact .inl rfl
        · rcases ih hc with h | h | ⟨y, hy, h⟩
          · exact .inl h
          · exact .inr (.inl h)
          · exact .inr (.inr ⟨y, List.mem_cons_of_mem x hy, h⟩)

/-- A character that is not kept is one of the separators. -/
theorem Kept.mem_bodyText (h : Kept xs) {c : Char} (hc : c ∈ bodyText xs) :
    c = '&' ∨ c = '=' ∨ isKept c = true := by
  rcases AltF.Cgi.mem_bodyText hc with hc | hc | ⟨x, hx, hc | hc⟩
  · exact .inl hc
  · exact .inr (.inl hc)
  · exact .inr (.inr (isKept_of_isName (h.keys x hx) hc))
  · exact .inr (.inr (h.values x hx c hc))

theorem Kept.notMem (h : Kept xs) {c : Char} (hc : isKept c = false) (hamp : c ≠ '&')
    (hequal : c ≠ '=') : c ∉ bodyText xs := fun hmem => by
  rcases h.mem_bodyText hmem with h | h | h
  · exact hamp h
  · exact hequal h
  · rw [hc] at h
    cases h

theorem Kept.not_wild (h : Kept xs) : ∀ c ∈ bodyText xs, isWild c = false := by
  intro c hc
  rcases h.mem_bodyText hc with rfl | rfl | hc
  · rfl
  · rfl
  · exact isWild_of_isKept hc

/-- `tr '\r' '\n'` on the values. -/
def crAll (xs : List (Text × Text)) : List (Text × Text) :=
  xs.map fun x => (x.1, x.2.map crToNewline)

theorem map_crToNewline_of_isName {n : Text} (hn : isName n = true) : n.map crToNewline = n := by
  have hkept : ∀ c ∈ n, crToNewline c = c := by
    intro c hc
    refine if_neg fun h => ?_
    have hname := List.all_eq_true.mp (all_isNameChar hn) c hc
    rw [h] at hname
    cases hname
  rw [List.map_congr_left hkept, List.map_id']

theorem map_bodyText (hkeys : ∀ x ∈ xs, isName x.1 = true) :
    (bodyText xs).map crToNewline = bodyText (crAll xs) := by
  have hpair : ∀ x, isName x.1 = true →
      (pairText x).map crToNewline = pairText (x.1, x.2.map crToNewline) := by
    intro x hx
    rw [pairText, List.map_append, List.map_cons, map_crToNewline_of_isName hx]
    rfl
  induction xs with
  | nil => rfl
  | cons x xs ih =>
      have hx := hkeys x List.mem_cons_self
      by_cases hxs : xs = []
      · rw [hxs, bodyText_singleton, hpair x hx, ← bodyText_singleton]
        rfl
      · have hrest := ih fun y hy => hkeys y (List.mem_cons_of_mem x hy)
        have hcr : crAll xs ≠ [] := by simpa [crAll] using hxs
        rw [bodyText_cons x hxs, List.map_append, List.map_cons, hpair x hx, hrest]
        exact (bodyText_cons _ hcr).symm

theorem squeezeAll_swap (hkeys : ∀ x ∈ xs, isName x.1 = true) (p : Text × Text → Bool) :
    squeezeAll ((xs.filter p).map fun x => (x.2, x.1)) = (xs.filter p).map fun x => (x.2, x.1) := by
  rw [squeezeAll, List.map_map]
  refine List.map_congr_left fun x hx => ?_
  rw [Function.comp_apply, squeeze_of_not_blank
    (not_blank_of_isName (hkeys x (List.mem_filter.mp hx).1))]

/-- The second evaluation swaps the pairs whose value is a name. -/
theorem Kept.secondSet (h : Kept xs) : Machine.secondSet (bodyText xs) =
    (xs.filter fun x => isAwkName x.2).map fun x => (x.2, x.1) := by
  rw [Machine.secondSet, sedQuotes_of_not_mem (h.notMem rfl (by decide) (by decide))
    (h.notMem rfl (by decide) (by decide)), h.separate.valueKeys, squeezeAll_swap h.keys]

/-- `tr` adds newlines only. -/
theorem mem_of_mem_map_cr {t : Text} {c : Char} (hc : c ∈ t.map crToNewline) :
    c = '\n' ∨ c ∈ t := by
  obtain ⟨d, hd, rfl⟩ := List.mem_map.mp hc
  unfold crToNewline
  split
  · exact .inl rfl
  · exact .inr hd

/-- The first one sets the pairs with a legal key. -/
theorem Kept.firstSet (h : Kept xs) : Machine.firstSet (bodyText xs) =
    squeezeAll ((crAll xs).filter fun x => isAwkName x.1) := by
  have hnotMem : ∀ {c : Char}, isKept c = false → c ≠ '\n' → c ≠ '&' → c ≠ '=' →
      c ∉ (bodyText xs).map crToNewline := fun hc hline hamp hequal hmem =>
    (mem_of_mem_map_cr hmem).elim hline (h.notMem hc hamp hequal)
  have hcr : Separate (crAll xs) := by
    constructor
    · intro y hy
      obtain ⟨x, hx, rfl⟩ := List.mem_map.mp hy
      exact h.keys x hx
    · intro y hy
      obtain ⟨x, hx, rfl⟩ := List.mem_map.mp hy
      have hvalue : ∀ c ∈ x.2.map crToNewline, c = '\n' ∨ isKept c = true := fun c hc =>
        (mem_of_mem_map_cr hc).imp_right (h.values x hx c)
      exact ⟨fun hc => absurd (hvalue _ hc) (by decide), fun hc => absurd (hvalue _ hc) (by decide)⟩
  rw [Machine.firstSet, sedQuotes_of_not_mem
    (hnotMem rfl (by decide) (by decide) (by decide))
    (hnotMem rfl (by decide) (by decide) (by decide)), map_bodyText h.keys, hcr.keyValues]

end Sets

/-! ## What read_args echoes -/

/-- The pairs without the blanks at the end of the body. -/
def trimLast (xs : List (Text × Text)) : List (Text × Text) :=
  xs.dropLast ++ (xs.getLast?.map fun x => (x.1, x.2.rdropWhile isBlank)).toList

theorem Kept.trimLast {xs : List (Text × Text)} (h : Kept xs) : Kept (AltF.Cgi.trimLast xs) := by
  have hmem : ∀ y ∈ AltF.Cgi.trimLast xs, ∃ x ∈ xs, y.1 = x.1 ∧ ∀ c ∈ y.2, c ∈ x.2 := by
    intro y hy
    rcases List.mem_append.mp hy with hy | hy
    · exact ⟨y, List.mem_of_mem_dropLast hy, rfl, fun c hc => hc⟩
    · cases hlast : xs.getLast? with
      | none =>
          rw [hlast] at hy
          cases hy
      | some x =>
          rw [hlast] at hy
          obtain rfl : y = (x.1, x.2.rdropWhile isBlank) := by simpa using hy
          exact ⟨x, List.mem_of_getLast? hlast, rfl, (List.rdropWhile_prefix _ x.2).subset⟩
  constructor
  · intro y hy
    obtain ⟨x, hx, hkey, -⟩ := hmem y hy
    rw [hkey]
    exact h.keys x hx
  · intro y hy c hc
    obtain ⟨x, hx, -, hvalue⟩ := hmem y hy
    exact h.values x hx c (hvalue c hc)

theorem Kept.squeezeAll {xs : List (Text × Text)} (h : Kept xs) :
    Kept (AltF.Cgi.squeezeAll xs) := by
  constructor
  · intro y hy
    obtain ⟨x, hx, rfl⟩ := List.mem_map.mp hy
    exact h.keys x hx
  · intro y hy c hc
    obtain ⟨x, hx, rfl⟩ := List.mem_map.mp hy
    rcases mem_squeeze hc with rfl | hblank
    · rfl
    · refine h.values x hx c (mem_of_mem_squeeze hc ?_)
      rintro rfl
      cases hblank

theorem endsSolid_rdropWhile (t : Text) : EndsSolid (t.rdropWhile isBlank) := by
  intro c hc
  have hne : t.rdropWhile isBlank ≠ [] := by
    intro h
    rw [h] at hc
    cases hc
  have hlast := List.rdropWhile_last_not isBlank t hne
  rw [List.getLast?_eq_getLast_of_ne_nil hne] at hc
  obtain rfl := Option.some.inj hc
  simpa using hlast

theorem Kept.readLine {xs : List (Text × Text)} (h : Kept xs) :
    AltF.Cgi.readLine (bodyText xs) = bodyText (AltF.Cgi.trimLast xs) ∧
      EndsSolid (bodyText (AltF.Cgi.trimLast xs)) := by
  rcases List.eq_nil_or_concat xs with rfl | ⟨ys, ⟨k, v⟩, rfl⟩
  · exact ⟨rfl, nofun⟩
  · have htrim : AltF.Cgi.trimLast (ys ++ [(k, v)]) = ys ++ [(k, v.rdropWhile isBlank)] := by
      simp [AltF.Cgi.trimLast]
    rw [List.concat_eq_append] at h ⊢
    rw [htrim]
    refine ⟨readLine_bodyText h.keys (h.notMem rfl (by decide) (by decide))
      (h.notMem rfl (by decide) (by decide)), ?_⟩
    rw [bodyText_concat]
    by_cases hempty : v.rdropWhile isBlank = []
    · rw [hempty, List.append_nil]
      exact (endsSolid_bodyText ys k).1
    · exact (endsSolid_rdropWhile v).append _ hempty

/-- What is echoed, and split again by awk. -/
theorem Kept.echoArgs {xs : List (Text × Text)} (h : Kept xs) (m : Machine) :
    m.echoArgs (AltF.Cgi.readLine (bodyText xs)) =
      bodyText (AltF.Cgi.squeezeAll (AltF.Cgi.trimLast xs)) := by
  have hkeys := h.trimLast.keys
  have hdash : ∀ c ∈ (bodyText (AltF.Cgi.trimLast xs)).head?, c ≠ '-' := by
    intro c hc
    rintro rfl
    have hstart := head_bodyText hkeys '-' hc
    cases hstart
  rw [h.readLine.1, m.echoArgs_eq h.trimLast.not_wild hdash (startsSolid_bodyText hkeys)
    h.readLine.2, squeeze_bodyText hkeys]

/-! ## Sendable bodies arrive -/

/-- The pairs that awk gets. -/
def echoed (xs : List (Text × Text)) : List (Text × Text) := squeezeAll (trimLast xs)

/-- What the evaluations set. -/
def firstPairs (xs : List (Text × Text)) : List (Text × Text) :=
  squeezeAll ((crAll (echoed xs)).filter fun x => isAwkName x.1)

def secondPairs (xs : List (Text × Text)) : List (Text × Text) :=
  ((echoed xs).filter fun x => isAwkName x.2).map fun x => (x.2, x.1)

theorem Machine.readArgs_of_kept (m : Machine) {xs : List (Text × Text)} (h : Kept xs) (env : Env) :
    m.readArgs env (bodyText xs) =
      if readArgsNames.any fun n =>
        assignAll (startEnv env (bodyText xs)) (firstPairs xs) n ≠ startEnv env (bodyText xs) n
      then none
      else some (assignAll (assignAll (startEnv env (bodyText xs)) (firstPairs xs))
        (secondPairs xs)) := by
  have hsent : Kept (echoed xs) := h.trimLast.squeezeAll
  have hecho : m.echoArgs (readLine (bodyText xs)) = bodyText (echoed xs) := h.echoArgs m
  rw [readArgs, hecho, m.evalBoth_eq (m.keeps_of_not_wild hsent.not_wild), hsent.firstSet,
    hsent.secondSet]
  rfl

namespace PostBody

variable {b : PostBody}

/-- The last value of a name, of the pairs turned around. -/
theorem find_swap (xs : List (Text × Text)) {n : Text} (hn : isAwkName n = true) :
    (((xs.filter fun x => isAwkName x.2).map fun x => (x.2, x.1)).reverse.find?
      fun x => x.1 = n).map Prod.snd = (xs.reverse.find? fun x => x.2 = n).map Prod.fst := by
  rw [← List.map_reverse, ← List.filter_reverse, List.find?_map, List.find?_filter, Option.map_map]
  have hiff : ∀ x : Text × Text, (isAwkName x.2 && decide (x.2 = n)) = decide (x.2 = n) := by
    intro x
    by_cases hx : x.2 = n
    · simp [hx, hn]
    · simp [hx]
  simp only [Function.comp_apply, Bool.decide_and, Bool.decide_eq_true, decide_eq_true_eq, hiff]
  rfl

theorem Sendable.kept (h : b.Sendable) : Kept b.pairs where
  keys := fun x hx => (b.names x hx).1
  values := fun x hx c hc => by
    have hsent := List.all_eq_true.mp (h.chars x hx) c hc
    have hamp : c ≠ '&' := fun heq => b.values x hx (heq ▸ hc)
    simp only [isSent, isKept] at hsent ⊢
    simp_all

theorem squeezeAll_of_squeezed {xs : List (Text × Text)} (h : ∀ x ∈ xs, squeeze x.2 = x.2) :
    squeezeAll xs = xs := by
  have hsame : ∀ x ∈ xs, (x.1, squeeze x.2) = x := fun x hx => by rw [h x hx]
  rw [squeezeAll, List.map_congr_left hsame, List.map_id']

theorem trimLast_of_ending {xs : List (Text × Text)} (hkept : Kept xs)
    (h : ∀ x ∈ xs.getLast?, x.2.getLast? ≠ some ' ') : trimLast xs = xs := by
  rcases List.eq_nil_or_concat xs with rfl | ⟨ys, ⟨k, v⟩, rfl⟩
  · rfl
  · rw [List.concat_eq_append] at h hkept ⊢
    have hv : v.rdropWhile isBlank = v := by
      rw [List.rdropWhile_eq_self_iff]
      intro hne hblank
      have hkeptChar := hkept.values (k, v) (by simp) _ (List.getLast_mem hne)
      have hcases : (v.getLast hne = ' ' ∨ v.getLast hne = '\t') ∨ v.getLast hne = '\n' := by
        simpa [isBlank] using hblank
      rcases hcases with (hspace | htab) | hline
      · refine h (k, v) (by simp) ?_
        rw [List.getLast?_eq_getLast_of_ne_nil hne, hspace]
      · exact ne_of_isKept hkeptChar rfl htab
      · exact ne_of_isKept hkeptChar rfl hline
    simp [trimLast, hv]

theorem crAll_of_not_mem {xs : List (Text × Text)} (h : ∀ x ∈ xs, '\r' ∉ x.2) : crAll xs = xs := by
  have hsame : ∀ x ∈ xs, (x.1, x.2.map crToNewline) = x := by
    intro x hx
    have hchar : ∀ c ∈ x.2, crToNewline c = c := fun c hc =>
      if_neg fun hcr : c = '\r' => h x hx (hcr ▸ hc)
    rw [List.map_congr_left hchar, List.map_id']
  rw [crAll, List.map_congr_left hsame, List.map_id']

/-- Pairs that are echoed as they are. -/
theorem echoed_of_squeezed {xs : List (Text × Text)} (hkept : Kept xs)
    (hblanks : ∀ x ∈ xs, squeeze x.2 = x.2)
    (hending : ∀ x ∈ xs.getLast?, x.2.getLast? ≠ some ' ') : echoed xs = xs := by
  rw [echoed, trimLast_of_ending hkept hending, squeezeAll_of_squeezed hblanks]

/-- The first evaluation sets every pair. -/
theorem firstPairs_of_echoed {xs : List (Text × Text)} (hechoed : echoed xs = xs)
    (hkeys : ∀ x ∈ xs, isAwkName x.1 = true) (hcr : ∀ x ∈ xs, '\r' ∉ x.2)
    (hblanks : ∀ x ∈ xs, squeeze x.2 = x.2) : firstPairs xs = xs := by
  have hall : xs.filter (fun x => isAwkName x.1) = xs := List.filter_eq_self.mpr hkeys
  rw [firstPairs, hechoed, crAll_of_not_mem hcr, hall, squeezeAll_of_squeezed hblanks]

theorem Sendable.cr_notMem (h : b.Sendable) : ∀ x ∈ b.pairs, '\r' ∉ x.2 := fun x hx hc =>
  absurd (List.all_eq_true.mp (h.chars x hx) _ hc) (by decide)

/-- The name of a pair is none of the function's own variables. -/
theorem not_changed (b : PostBody) (env : Env) :
    ¬ (readArgsNames.any fun n => assignAll env b.pairs n ≠ env n) = true := by
  rw [List.any_eq_true]
  rintro ⟨n, hn, hne⟩
  refine of_decide_eq_true hne ((assignAll_of_nodup b.distinct env).2 n fun hmem => ?_)
  obtain ⟨x, hx, rfl⟩ := List.mem_map.mp hmem
  exact (b.names x hx).2 (List.mem_append_left _ hn)

/-- **A sendable body** arrives on every machine. -/
theorem Sendable.arrives (h : b.Sendable) (m : Machine) : m.Arrives b := by
  intro env
  have hechoed := echoed_of_squeezed h.kept h.blanks h.ending
  have hfirst := firstPairs_of_echoed hechoed h.keys h.cr_notMem h.blanks
  have hread := m.readArgs_of_kept h.kept env
  rw [hfirst, if_neg (not_changed b _)] at hread
  refine ⟨_, hread, fun x hx => ?_⟩
  rw [assignAll_eq_find, secondPairs, hechoed, find_swap _ (h.keys x hx),
    (assignAll_of_nodup b.distinct _).1 x hx]
  cases hfind : b.pairs.reverse.find? fun y => y.2 = x.1 with
  | none => rfl
  | some y => exact h.others x hx y hfind

end PostBody

/-! ## Bodies that arrive are sendable -/

/-- A machine with a file `x` that every pattern matches. -/
def matching : Machine where
  glob := fun w => if w.any isWild then [['x']] else [w]
  echon := join
  globs := fun {w} hw => if_neg (by simpa using hw)
  echons := plainMachine.echons

theorem nul_notMem_readLine (body : Text) : '\x00' ∉ readLine body := by
  intro hmem
  have hdrop := (List.rdropWhile_prefix _ _).subset hmem
  have hfilter := (List.dropWhile_suffix _).subset hdrop
  exact absurd (List.mem_filter.mp hfilter).2 (by decide)

/-- What it echoes has no patterns, no NULs and no blanks but spaces. -/
theorem mem_echoArgs_matching {body : Text} {c : Char}
    (hc : c ∈ matching.echoArgs (readLine body)) :
    isWild c = false ∧ c ≠ '\x00' ∧ (c = ' ' ∨ isBlank c = false) := by
  by_cases hspace : c = ' '
  · rw [hspace]
    exact ⟨rfl, by decide, .inl rfl⟩
  have hjoin : c ∈ join (expand matching.glob (readLine body)) := hc
  obtain ⟨v, hv, hcv⟩ := mem_of_mem_join hjoin hspace
  obtain ⟨w, hw, hvw⟩ := List.mem_flatMap.mp hv
  have hglob : v ∈ if w.any isWild then [['x']] else [w] := hvw
  split at hglob
  · obtain rfl : v = ['x'] := List.mem_singleton.mp hglob
    obtain rfl : c = 'x' := List.mem_singleton.mp hcv
    exact ⟨rfl, by decide, .inr rfl⟩
  · rename_i hwild
    obtain rfl : v = w := List.mem_singleton.mp hglob
    have hnul : c ≠ '\x00' := by
      rintro rfl
      exact nul_notMem_readLine body (mem_of_mem_words hw hcv)
    refine ⟨?_, hnul, .inr (not_blank_of_mem_words hw c hcv)⟩
    cases hc' : isWild c with
    | false => rfl
    | true => exact absurd (List.any_eq_true.mpr ⟨c, hcv, hc'⟩) hwild

namespace PostBody

variable {b : PostBody}

theorem startEnv_of_name (b : PostBody) (env : Env) {x : Text × Text} (hx : x ∈ b.pairs) :
    Machine.startEnv env (bodyText b.pairs) x.1 = env x.1 := by
  refine Function.update_of_ne (fun hargs => (b.names x hx).2 ?_) _ _
  rw [hargs]
  exact List.mem_append_left _ List.mem_cons_self

/-- What `matching` sets comes from the echoed text. -/
theorem mem_of_arrives (h : matching.Arrives b) {x : Text × Text} (hx : x ∈ b.pairs) :
    x ∈ Machine.firstSet (matching.echoArgs (readLine (bodyText b.pairs))) ∨
      x ∈ Machine.secondSet (matching.echoArgs (readLine (bodyText b.pairs))) := by
  obtain ⟨env₁, hread, harrived⟩ := h fun _ => x.2 ++ ['a']
  have hwild : matching.Keeps (matching.echoArgs (readLine (bodyText b.pairs))) :=
    matching.keeps_of_not_wild fun c hc => (mem_echoArgs_matching hc).1
  rw [Machine.readArgs, matching.evalBoth_eq hwild] at hread
  split at hread
  · cases hread
  obtain rfl := Option.some.inj hread
  have hvalue := harrived x hx
  rcases assignAll_cases (assignAll (Machine.startEnv (fun _ => x.2 ++ ['a']) (bodyText b.pairs))
    (Machine.firstSet (matching.echoArgs (readLine (bodyText b.pairs)))))
    (Machine.secondSet (matching.echoArgs (readLine (bodyText b.pairs)))) x.1 with hkept | hset
  · rw [hkept] at hvalue
    rcases assignAll_cases (Machine.startEnv (fun _ => x.2 ++ ['a']) (bodyText b.pairs))
      (Machine.firstSet (matching.echoArgs (readLine (bodyText b.pairs)))) x.1 with hkept | hset
    · rw [hkept, startEnv_of_name b _ hx] at hvalue
      have hlength := congrArg List.length hvalue
      simp at hlength
    · rw [hvalue] at hset
      exact .inl hset
  · rw [hvalue] at hset
    exact .inr hset

/-- A pair that has arrived was printed by awk, from echoed text and newlines. -/
theorem printed_of_arrives (h : matching.Arrives b) {x : Text × Text} (hx : x ∈ b.pairs) :
    ∃ t v, Printed (sedQuotes t) (x.1, v) ∧ x.2 = squeeze v ∧
      ∀ c ∈ t, c = '\n' ∨ c ∈ matching.echoArgs (readLine (bodyText b.pairs)) := by
  rcases mem_of_arrives h hx with hmem | hmem
  · obtain ⟨y, hy, rfl⟩ := List.mem_map.mp hmem
    exact ⟨_, y.2, printed_of_keyValues hy, rfl, fun c hc => mem_of_mem_map_cr hc⟩
  · obtain ⟨y, hy, rfl⟩ := List.mem_map.mp hmem
    exact ⟨_, y.2, printed_of_valueKeys hy, rfl, fun c hc => .inr hc⟩

theorem isKept_iff (c : Char) : isKept c = true ↔ c ≠ '\n' ∧ c ≠ '\t' ∧ c ≠ '\x00' ∧ c ≠ '\'' ∧
    c ≠ '"' ∧ isWild c = false ∧ c ≠ '=' ∧ c ≠ '&' := by
  simp [isKept, isWild, and_assoc]

theorem kept_of_arrives (h : matching.Arrives b) : Kept b.pairs where
  keys := fun x hx => (b.names x hx).1
  values := fun x hx c hc => by
    obtain ⟨t, v, hprinted, hvalue, hchars⟩ := printed_of_arrives h hx
    have hamp : c ≠ '&' := fun heq => b.values x hx (heq ▸ hc)
    rw [hvalue] at hc
    rcases mem_squeeze hc with rfl | hblank
    · rfl
    have hline : c ≠ '\n' := by rintro rfl; cases hblank
    have htab : c ≠ '\t' := by rintro rfl; cases hblank
    have hspace : c ≠ ' ' := by rintro rfl; cases hblank
    obtain ⟨hsed, hequal⟩ := hprinted.value c (mem_of_mem_squeeze hc hspace)
    obtain ⟨hsingle, hdouble⟩ := ne_of_mem_sedQuotes hsed
    rcases mem_of_mem_sedQuotes hsed with ht | hcode
    · obtain ⟨hwild, hnul, -⟩ := mem_echoArgs_matching ((hchars c ht).resolve_left hline)
      exact (isKept_iff c).mpr ⟨hline, htab, hnul, hsingle, hdouble, hwild, hequal, hamp⟩
    · have hall : ("%27".toList ++ "%22".toList).all isKept = true := rfl
      exact List.all_eq_true.mp hall c (List.mem_append.mpr hcode)

theorem keys_of_arrives (h : matching.Arrives b) : ∀ x ∈ b.pairs, isAwkName x.1 = true :=
  fun _ hx => by
    obtain ⟨t, v, hprinted, -⟩ := printed_of_arrives h hx
    exact hprinted.name

theorem blanks_of_arrives (h : matching.Arrives b) : ∀ x ∈ b.pairs, squeeze x.2 = x.2 :=
  fun _ hx => by
    obtain ⟨t, v, -, hvalue, -⟩ := printed_of_arrives h hx
    rw [hvalue, squeeze_squeeze]

/-- With kept characters, what is set are the pairs themselves. -/
theorem mem_pairs_of_arrives (h : matching.Arrives b) {x : Text × Text} (hx : x ∈ b.pairs) :
    x ∈ firstPairs b.pairs ∨ x ∈ secondPairs b.pairs := by
  have hkept := kept_of_arrives h
  have hsent : Kept (echoed b.pairs) := hkept.trimLast.squeezeAll
  have hmem := mem_of_arrives h hx
  rw [show matching.echoArgs (readLine (bodyText b.pairs)) = bodyText (echoed b.pairs) from
    hkept.echoArgs matching, hsent.firstSet, hsent.secondSet] at hmem
  exact hmem

/-- A value set by the second evaluation is a name. -/
theorem isName_of_mem_secondPairs {xs : List (Text × Text)} (hkept : Kept xs) {x : Text × Text}
    (hx : x ∈ secondPairs xs) : isName x.2 = true := by
  obtain ⟨y, hy, rfl⟩ := List.mem_map.mp hx
  exact hkept.trimLast.squeezeAll.keys y (List.mem_filter.mp hy).1

theorem cr_notMem_of_arrives (h : matching.Arrives b) : ∀ x ∈ b.pairs, '\r' ∉ x.2 := by
  intro x hx hcr
  rcases mem_pairs_of_arrives h hx with hmem | hmem
  · obtain ⟨y, hy, rfl⟩ := List.mem_map.mp hmem
    obtain ⟨z, -, rfl⟩ := List.mem_map.mp (List.mem_filter.mp hy).1
    have hmapped : '\r' ∈ z.2.map crToNewline := mem_of_mem_squeeze hcr (by decide)
    obtain ⟨c, -, hc⟩ := List.mem_map.mp hmapped
    unfold crToNewline at hc
    split at hc
    · exact absurd hc (by decide)
    · rename_i hne
      exact hne hc
  · have hname := isName_of_mem_secondPairs (kept_of_arrives h) hmem
    exact absurd (List.all_eq_true.mp (all_isNameChar hname) _ hcr) (by decide)

theorem ending_of_arrives (h : matching.Arrives b) :
    ∀ x ∈ b.pairs.getLast?, x.2.getLast? ≠ some ' ' := by
  intro x hlast hspace
  have hx : x ∈ b.pairs := List.mem_of_getLast? hlast
  obtain ⟨u, hu⟩ := List.getLast?_eq_some_iff.mp hspace
  rcases mem_pairs_of_arrives h hx with hmem | hmem
  · obtain ⟨y, hy, hyx⟩ := List.mem_map.mp hmem
    obtain ⟨z, hz, rfl⟩ := List.mem_map.mp (List.mem_filter.mp hy).1
    obtain ⟨w, hw, rfl⟩ := List.mem_map.mp hz
    have hkey : w.1 = x.1 := by rw [← hyx]
    have hvalue : squeeze ((squeeze w.2).map crToNewline) = x.2 := by rw [← hyx]
    -- `w` is the last pair without its blanks, for it has that pair's key
    obtain ⟨ys, hys⟩ := List.getLast?_eq_some_iff.mp hlast
    have hw2 : w.2 = x.2.rdropWhile isBlank := by
      have htrim : trimLast (ys ++ [x]) = ys ++ [(x.1, x.2.rdropWhile isBlank)] := by
        simp [trimLast]
      rw [hys, htrim] at hw
      rcases List.mem_append.mp hw with hw | hw
      · have hdistinct := b.distinct
        rw [hys, List.map_append, List.nodup_append] at hdistinct
        exact absurd hkey (hdistinct.2.2 w.1 (List.mem_map_of_mem hw) x.1 (by simp))
      · rw [List.mem_singleton.mp hw]
    have hshort : w.2.length < x.2.length := by
      rw [hw2, hu, List.rdropWhile_concat_pos _ _ _ (by decide), List.length_append]
      have hle := (List.rdropWhile_prefix isBlank u).length_le
      simp only [List.length_singleton]
      omega
    have hle := length_squeeze_le ((squeeze w.2).map crToNewline)
    have hle' := length_squeeze_le w.2
    rw [hvalue, List.length_map] at hle
    omega
  · have hname := isName_of_mem_secondPairs (kept_of_arrives h) hmem
    exact absurd (List.all_eq_true.mp (all_isNameChar hname) ' ' (hu ▸ by simp)) (by decide)

theorem others_of_arrives (h : matching.Arrives b) : ∀ x ∈ b.pairs,
    ∀ y ∈ b.pairs.reverse.find? (fun y => y.2 = x.1), y.1 = x.2 := by
  intro x hx y hy
  obtain ⟨env₁, hread, harrived⟩ := h fun _ => []
  have hkept := kept_of_arrives h
  have hechoed := echoed_of_squeezed hkept (blanks_of_arrives h) (ending_of_arrives h)
  rw [matching.readArgs_of_kept hkept] at hread
  split at hread
  · cases hread
  · obtain rfl := Option.some.inj hread
    have hvalue := harrived x hx
    rw [assignAll_eq_find, secondPairs, hechoed, find_swap _ (keys_of_arrives h x hx),
      Option.mem_def.mp hy] at hvalue
    exact hvalue

theorem sendable_of_arrives (h : matching.Arrives b) : b.Sendable where
  keys := keys_of_arrives h
  chars := fun x hx => List.all_eq_true.mpr fun c hc => by
    have hkept := (isKept_iff c).mp ((kept_of_arrives h).values x hx c hc)
    have hcr : c ≠ '\r' := fun heq => cr_notMem_of_arrives h x hx (heq ▸ hc)
    simp only [isSent, isWild] at hkept ⊢
    simp_all
  blanks := blanks_of_arrives h
  ending := ending_of_arrives h
  others := others_of_arrives h

end PostBody

/-- **Which bodies arrive as sent**, on every machine and whatever the variables were. -/
theorem readArgs_arrives_iff (b : PostBody) : (∀ m : Machine, m.Arrives b) ↔ b.Sendable :=
  ⟨fun h => PostBody.sendable_of_arrives (h matching), fun h m => h.arrives m⟩

/-- Two fields, the first with the name of the second for its value. -/
def crossed : PostBody where
  pairs := [("share".toList, "user".toList), ("user".toList, "joe".toList)]
  distinct := by decide +kernel
  names := by decide +kernel
  values := by decide +kernel

theorem readArgs_crossed : (matching.readArgs (fun _ => []) (bodyText crossed.pairs)).map
    (fun env => env "user".toList) = some "share".toList := by
  decide +kernel

/-- The field `user` arrives as `share`. -/
theorem not_arrives_crossed : ¬ ∀ m : Machine, m.Arrives crossed := by
  intro h
  obtain ⟨env₁, hread, harrived⟩ := h matching fun _ => []
  have hvalue := readArgs_crossed
  rw [hread, Option.map_some,
    harrived ("user".toList, "joe".toList) (List.mem_cons_of_mem _ List.mem_cons_self)] at hvalue
  exact absurd hvalue (by decide)

end AltF.Cgi
