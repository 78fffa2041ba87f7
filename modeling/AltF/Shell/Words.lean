/-
  Shell/Words.lean --- what the shell makes of an expansion that is not quoted.

  The text is split into words at blanks, and a word with a character of a pattern
  is replaced by the names that match it.
-/
import Mathlib.Data.List.Basic
import Mathlib.Data.List.DropRight
import AltF.SysFiles.Text

set_option autoImplicit false

namespace AltF.Shell

open AltF.SysFiles

/-! ## Splitting -/

/-- The characters of the default `IFS`. -/
def isBlank (c : Char) : Bool := c == ' ' || c == '\t' || c == '\n'

/-- The words of a text. -/
def words (t : Text) : List Text := (t.splitOnP isBlank).filter (· ≠ [])

@[simp] theorem words_nil : words [] = [] := rfl

/-- A blank separates the words in front of it from those behind it. -/
theorem words_append_cons (t u : Text) {c : Char} (hc : isBlank c = true) :
    words (t ++ c :: u) = words t ++ words u := by
  rw [words, List.splitOnP_append_cons t u hc, List.filter_append, words, words]

/-- A text without blanks is one word. -/
theorem words_eq_singleton {t : Text} (hne : t ≠ []) (hblank : ∀ c ∈ t, isBlank c = false) :
    words t = [t] := by
  rw [words, List.splitOnP_eq_singleton hblank, List.filter_cons_of_pos (by simpa using hne),
    List.filter_nil]

/-- A piece of a split text has characters of the text, and none that it was split at. -/
theorem mem_of_mem_splitOnP {p : Char → Bool} {t w : Text} (hw : w ∈ t.splitOnP p) :
    ∀ c ∈ w, c ∈ t ∧ p c = false := by
  induction t generalizing w with
  | nil =>
      rw [List.splitOnP_nil, List.mem_singleton] at hw
      rw [hw]
      exact fun c hc => absurd hc List.not_mem_nil
  | cons a t ih =>
      have hlift : ∀ v ∈ t.splitOnP p, ∀ c ∈ v, c ∈ a :: t ∧ p c = false := fun v hv c hc =>
        (ih hv c hc).imp_left (List.mem_cons_of_mem a)
      rw [List.splitOnP_cons_eq_if_modifyHead] at hw
      split at hw
      · rcases List.mem_cons.mp hw with rfl | hw
        · exact fun c hc => absurd hc List.not_mem_nil
        · exact hlift w hw
      · rename_i ha
        cases hs : t.splitOnP p with
        | nil => exact absurd hs (List.splitOnP_ne_nil _ _)
        | cons first rest =>
            rw [hs] at hlift hw
            rw [List.modifyHead_cons] at hw
            rcases List.mem_cons.mp hw with rfl | hw
            · intro c hc
              rcases List.mem_cons.mp hc with rfl | hc
              · exact ⟨List.mem_cons_self, by simpa using ha⟩
              · exact hlift first List.mem_cons_self c hc
            · exact hlift w (List.mem_cons_of_mem first hw)

/-- Words are made of the characters of the text. -/
theorem mem_of_mem_words {t w : Text} (hw : w ∈ words t) {c : Char} (hc : c ∈ w) : c ∈ t :=
  (mem_of_mem_splitOnP (List.mem_filter.mp hw).1 c hc).1

/-- There is no blank in a word. -/
theorem not_blank_of_mem_words {t w : Text} (hw : w ∈ words t) : ∀ c ∈ w, isBlank c = false :=
  fun c hc => (mem_of_mem_splitOnP (List.mem_filter.mp hw).1 c hc).2

/-- What stands in front of the first blank is in the first word. -/
theorem words_append_of_not_blank {w : Text} (hne : w ≠ []) (hw : ∀ c ∈ w, isBlank c = false)
    (t : Text) : ∃ r ws, words (w ++ t) = (w ++ r) :: ws := by
  induction t generalizing w with
  | nil => exact ⟨[], [], by rw [List.append_nil, words_eq_singleton hne hw]⟩
  | cons c t ih =>
      by_cases hc : isBlank c = true
      · refine ⟨[], words t, ?_⟩
        rw [words_append_cons w t hc, words_eq_singleton hne hw, List.append_nil]
        rfl
      · have hc' : isBlank c = false := by simpa using hc
        obtain ⟨r, ws, hwords⟩ := ih (w := w ++ [c]) (by simp) (by
          intro d hd
          rcases List.mem_append.mp hd with hd | hd
          · exact hw d hd
          · rw [List.mem_singleton.mp hd, hc'])
        rw [List.append_assoc, List.append_assoc, List.singleton_append,
          List.singleton_append] at hwords
        exact ⟨c :: r, ws, hwords⟩

/-- A piece of a split text is inside of it, and the first one in front. -/
theorem infix_of_mem_splitOnP {p : Char → Bool} {t w : Text} (hw : w ∈ t.splitOnP p) :
    w <:+: t := by
  suffices h : (∀ w ∈ (t.splitOnP p).head?, w <+: t) ∧ ∀ w ∈ t.splitOnP p, w <:+: t from h.2 w hw
  clear hw
  induction t with
  | nil =>
      rw [List.splitOnP_nil]
      exact ⟨fun w hw => by obtain rfl := Option.some.inj hw; exact List.prefix_rfl,
        fun w hw => List.mem_singleton.mp hw ▸ List.nil_infix⟩
  | cons c t ih =>
      obtain ⟨hfirst, hall⟩ := ih
      have hlift : ∀ w ∈ t.splitOnP p, w <:+: c :: t := fun w hw =>
        (hall w hw).trans (List.suffix_cons c t).isInfix
      rw [List.splitOnP_cons_eq_if_modifyHead]
      split
      · refine ⟨fun w hw => ?_, fun w hw => ?_⟩
        · obtain rfl := Option.some.inj hw
          exact List.nil_prefix
        · rcases List.mem_cons.mp hw with rfl | hw
          · exact List.nil_infix
          · exact hlift w hw
      · cases hsplit : t.splitOnP p with
        | nil => exact ⟨nofun, nofun⟩
        | cons first rest =>
            rw [hsplit] at hfirst hlift
            have hprefix : c :: first <+: c :: t :=
              (List.prefix_cons_inj c).mpr (hfirst first rfl)
            refine ⟨fun w hw => ?_, fun w hw => ?_⟩
            · obtain rfl := Option.some.inj hw
              exact hprefix
            · rcases List.mem_cons.mp hw with rfl | hw
              · exact hprefix.isInfix
              · exact hlift w (List.mem_cons_of_mem first hw)

/-- Words are inside of the text. -/
theorem infix_of_word {t w : Text} (hw : w ∈ words t) : w <:+: t :=
  infix_of_mem_splitOnP (List.mem_filter.mp hw).1

theorem words_dropWhile (t : Text) : words (t.dropWhile isBlank) = words t := by
  induction t with
  | nil => rfl
  | cons c t ih =>
      by_cases hc : isBlank c = true
      · rw [List.dropWhile_cons_of_pos hc, ih]
        exact (words_append_cons [] t hc).symm
      · rw [List.dropWhile_cons_of_neg hc]

theorem words_rdropWhile (t : Text) : words (t.rdropWhile isBlank) = words t := by
  induction t using List.reverseRecOn with
  | nil => rfl
  | append_singleton t c ih =>
      by_cases hc : isBlank c = true
      · rw [List.rdropWhile_concat_pos _ _ _ hc, ih, words_append_cons t [] hc, words_nil,
          List.append_nil]
      · rw [List.rdropWhile_concat_neg _ _ _ hc]
/-! ## Joining -/

/-- What `eval` and `echo` make of their arguments. -/
def join (ws : List Text) : Text := [' '].intercalate ws

theorem join_singleton (w : Text) : join [w] = w := by
  simp [join, List.intercalate]

theorem join_cons (w : Text) {ws : List Text} (hws : ws ≠ []) :
    join (w :: ws) = w ++ ' ' :: join ws := by
  cases ws with
  | nil => exact absurd rfl hws
  | cons v ws => simp [join, List.intercalate]

/-- Words that are joined are split again. -/
theorem words_join {ws : List Text} (hws : ∀ w ∈ ws, w ≠ [] ∧ ∀ c ∈ w, isBlank c = false) :
    words (join ws) = ws := by
  induction ws with
  | nil => rfl
  | cons w ws ih =>
      obtain ⟨hne, hsolid⟩ := hws w List.mem_cons_self
      by_cases hnil : ws = []
      · rw [hnil, join_singleton, words_eq_singleton hne hsolid]
      · rw [join_cons w hnil, words_append_cons _ _ rfl, words_eq_singleton hne hsolid,
          ih fun v hv => hws v (List.mem_cons_of_mem w hv), List.singleton_append]

/-- Joining adds spaces only. -/
theorem mem_of_mem_join {ws : List Text} {c : Char} (hc : c ∈ join ws) (hne : c ≠ ' ') :
    ∃ w ∈ ws, c ∈ w := by
  induction ws with
  | nil => cases hc
  | cons w ws ih =>
      by_cases hws : ws = []
      · rw [hws, join_singleton] at hc
        exact ⟨w, List.mem_cons_self, hc⟩
      · rw [join_cons w hws, List.mem_append, List.mem_cons] at hc
        rcases hc with hc | hspace | hc
        · exact ⟨w, List.mem_cons_self, hc⟩
        · exact absurd hspace hne
        · obtain ⟨v, hv, hmem⟩ := ih hc
          exact ⟨v, List.mem_cons_of_mem w hv, hmem⟩

theorem prefix_join (w : Text) (ws : List Text) : w <+: join (w :: ws) := by
  by_cases hws : ws = []
  · rw [hws]
    exact ⟨[], by rw [join_singleton, List.append_nil]⟩
  · rw [join_cons w hws]
    exact List.prefix_append w _

/-- A beginning of a text that lacks a character of the text ends in front of it. -/
theorem prefix_of_append_cons {t l r : Text} {c : Char} (hc : c ∉ t) (h : t <+: l ++ c :: r) :
    t <+: l := by
  obtain ⟨b, heq⟩ := h
  rcases List.append_eq_append_iff.mp heq with ⟨x, hl, -⟩ | ⟨x, ht, hr⟩
  · exact ⟨x, hl.symm⟩
  · cases x with
    | nil => exact ⟨[], ht ▸ List.append_nil _ ▸ List.append_nil _⟩
    | cons d x =>
        obtain ⟨rfl, -⟩ := List.cons.inj hr
        exact absurd (ht ▸ List.mem_append_right l List.mem_cons_self) hc

/-- A piece of a text that lacks a character of the text lies on one side of it. -/
theorem infix_append_cons_of_notMem {t l r : Text} {c : Char} (hc : c ∉ t)
    (h : t <:+: l ++ c :: r) : t <:+: l ∨ t <:+: r := by
  obtain ⟨a, b, heq⟩ := h
  rcases List.append_eq_append_iff.mp heq with ⟨x, hl, -⟩ | ⟨x, hl, hr⟩
  · rw [hl]
    exact Or.inl ⟨a, x, rfl⟩
  · cases x with
    | nil =>
        rw [List.append_nil] at hl
        rw [← hl]
        exact Or.inl ⟨a, [], List.append_nil _⟩
    | cons d x =>
        obtain ⟨rfl, rfl⟩ := List.cons.inj hr
        rcases List.append_eq_append_iff.mp hl with ⟨y, -, ht⟩ | ⟨y, -, hy⟩
        · exact absurd (ht ▸ List.mem_append_right y List.mem_cons_self) hc
        · cases y with
          | nil =>
              rw [List.nil_append] at hy
              exact absurd (hy ▸ List.mem_cons_self) hc
          | cons e y =>
              obtain ⟨rfl, rfl⟩ := List.cons.inj hy
              exact Or.inr ⟨y, b, rfl⟩

/-- A text without spaces is in the joined words where it is in one of them. -/
theorem infix_join_iff {t : Text} (hne : t ≠ []) (hspace : ' ' ∉ t) {ws : List Text} :
    t <:+: join ws ↔ ∃ w ∈ ws, t <:+: w := by
  induction ws with
  | nil =>
      constructor
      · exact fun h => absurd (List.infix_nil.mp h) hne
      · rintro ⟨w, hw, -⟩
        cases hw
  | cons w ws ih =>
      by_cases hws : ws = []
      · rw [hws, join_singleton]
        simp
      · rw [join_cons w hws, List.exists_mem_cons_iff, ← ih]
        constructor
        · exact infix_append_cons_of_notMem hspace
        · rintro (h | h)
          · exact List.infix_append_of_infix_left h
          · exact List.infix_append_of_infix_right (List.infix_cons h)

/-- A text with one space for each run of blanks. -/
def squeeze : Text → Text
  | [] => []
  | c :: t =>
      if isBlank c then (if (squeeze t).head? = some ' ' then squeeze t else ' ' :: squeeze t)
      else c :: squeeze t

theorem squeeze_cons_of_not_blank {c : Char} (hc : isBlank c = false) (t : Text) :
    squeeze (c :: t) = c :: squeeze t := by
  rw [squeeze, if_neg (by rw [hc]; nofun)]

/-- A character that is no blank cuts the text in two. -/
theorem squeeze_append_cons (t u : Text) {c : Char} (hc : isBlank c = false) :
    squeeze (t ++ c :: u) = squeeze t ++ c :: squeeze u := by
  induction t with
  | nil => exact squeeze_cons_of_not_blank hc u
  | cons d t ih =>
      by_cases hd : isBlank d = true
      · have hhead : (squeeze (t ++ c :: u)).head? = some ' ' ↔ (squeeze t).head? = some ' ' := by
          rw [ih]
          cases squeeze t with
          | nil =>
              have hne : c ≠ ' ' := by
                rintro rfl
                cases hc
              simp [hne]
          | cons e r => rfl
        rw [List.cons_append, squeeze, squeeze, if_pos hd, if_pos hd, ih]
        by_cases hspace : (squeeze t).head? = some ' '
        · rw [if_pos (ih ▸ hhead.mpr hspace), if_pos hspace]
        · rw [if_neg (fun h => hspace (hhead.mp (ih ▸ h))), if_neg hspace, List.cons_append]
      · have hd' : isBlank d = false := by simpa using hd
        rw [List.cons_append, squeeze_cons_of_not_blank hd', squeeze_cons_of_not_blank hd', ih,
          List.cons_append]

theorem squeeze_eq_nil_iff {t : Text} : squeeze t = [] ↔ t = [] := by
  constructor
  · intro h
    cases t with
    | nil => rfl
    | cons c t =>
        rw [squeeze] at h
        split at h
        · split at h
          · rename_i hspace
            rw [h] at hspace
            cases hspace
          · cases h
        · cases h
  · intro h
    rw [h]
    rfl

theorem newline_notMem_squeeze (t : Text) : '\n' ∉ squeeze t := by
  induction t with
  | nil => nofun
  | cons c t ih =>
      rw [squeeze]
      split
      · split
        · exact ih
        · exact fun h => (List.mem_cons.mp h).elim (by decide) ih
      · rename_i hc
        intro h
        rcases List.mem_cons.mp h with rfl | h
        · exact hc rfl
        · exact ih h

theorem squeeze_of_not_blank {t : Text} (ht : ∀ c ∈ t, isBlank c = false) : squeeze t = t := by
  induction t with
  | nil => rfl
  | cons c t ih =>
      rw [squeeze_cons_of_not_blank (ht c List.mem_cons_self),
        ih fun d hd => ht d (List.mem_cons_of_mem c hd)]

theorem mem_of_mem_squeeze {t : Text} {c : Char} (hc : c ∈ squeeze t) (hne : c ≠ ' ') : c ∈ t := by
  induction t with
  | nil => cases hc
  | cons d t ih =>
      rw [squeeze] at hc
      split at hc
      · split at hc
        · exact List.mem_cons_of_mem d (ih hc)
        · exact List.mem_cons_of_mem d (ih ((List.mem_cons.mp hc).resolve_left hne))
      · rcases List.mem_cons.mp hc with rfl | hc
        · exact List.mem_cons_self
        · exact List.mem_cons_of_mem d (ih hc)

/-- The only blank that is left is the space. -/
theorem mem_squeeze {t : Text} {c : Char} (hc : c ∈ squeeze t) : c = ' ' ∨ isBlank c = false := by
  induction t with
  | nil => cases hc
  | cons d t ih =>
      rw [squeeze] at hc
      split at hc
      · split at hc
        · exact ih hc
        · rcases List.mem_cons.mp hc with rfl | hc
          · exact .inl rfl
          · exact ih hc
      · rename_i hd
        rcases List.mem_cons.mp hc with rfl | hc
        · exact .inr (by simpa using hd)
        · exact ih hc

theorem squeeze_squeeze (t : Text) : squeeze (squeeze t) = squeeze t := by
  induction t with
  | nil => rfl
  | cons c t ih =>
      by_cases hc : isBlank c = true
      · by_cases hspace : (squeeze t).head? = some ' '
        · rw [squeeze, if_pos hc, if_pos hspace, ih]
        · have hblank : isBlank ' ' = true := rfl
          have hhead : (squeeze (squeeze t)).head? ≠ some ' ' := by rwa [ih]
          rw [squeeze, if_pos hc, if_neg hspace, squeeze, if_pos hblank, if_neg hhead, ih]
      · have hc' : isBlank c = false := by simpa using hc
        rw [squeeze_cons_of_not_blank hc', squeeze_cons_of_not_blank hc', ih]

theorem length_squeeze_le (t : Text) : (squeeze t).length ≤ t.length := by
  induction t with
  | nil => exact Nat.le_refl 0
  | cons c t ih =>
      rw [squeeze]
      split
      · split
        · exact Nat.le_succ_of_le ih
        · exact Nat.succ_le_succ ih
      · exact Nat.succ_le_succ ih

/-- The last character is no blank. -/
def EndsSolid (t : Text) : Prop := ∀ c ∈ t.getLast?, isBlank c = false

theorem EndsSolid.tail {c : Char} {t : Text} (h : EndsSolid (c :: t)) : EndsSolid t := by
  cases t with
  | nil => exact nofun
  | cons d t =>
      intro z hz
      exact h z (by rw [List.getLast?_cons_cons]; exact hz)

/-- The first character is no blank. -/
def StartsSolid (t : Text) : Prop := ∀ c ∈ t.head?, isBlank c = false

/-- A blank in front of a word is a space. -/
theorem squeeze_blank {b : Char} (hb : isBlank b = true) {t : Text} (ht : StartsSolid t) :
    squeeze (b :: t) = ' ' :: squeeze t := by
  have hhead : (squeeze t).head? ≠ some ' ' := by
    cases t with
    | nil => nofun
    | cons c t =>
        have hc : isBlank c = false := ht c rfl
        rw [squeeze_cons_of_not_blank hc]
        intro h
        rw [Option.some.inj h] at hc
        cases hc
  rw [squeeze, if_pos hb, if_neg hhead]

theorem squeeze_space {t : Text} (ht : StartsSolid t) : squeeze (' ' :: t) = ' ' :: squeeze t :=
  squeeze_blank rfl ht

theorem EndsSolid.append (t : Text) {u : Text} (hu : EndsSolid u) (hne : u ≠ []) :
    EndsSolid (t ++ u) := by
  intro c hc
  rw [List.getLast?_append_of_ne_nil t hne] at hc
  exact hu c hc

/-- A word in front is not touched. -/
theorem squeeze_append_of_not_blank {w : Text} (hw : ∀ c ∈ w, isBlank c = false) (t : Text) :
    squeeze (w ++ t) = w ++ squeeze t := by
  induction w with
  | nil => rfl
  | cons c w ih =>
      rw [List.cons_append, squeeze_cons_of_not_blank (hw c List.mem_cons_self),
        ih fun d hd => hw d (List.mem_cons_of_mem c hd), List.cons_append]

/-- Splitting at blanks and joining with spaces squeezes: behind a word, and behind a
blank. -/
theorem join_words_aux (t : Text) (ht : EndsSolid t) :
    (∀ w : Text, w ≠ [] → (∀ c ∈ w, isBlank c = false) → join (words (w ++ t)) = w ++ squeeze t) ∧
      (t ≠ [] → words t ≠ [] ∧
        ∀ c, isBlank c = true → squeeze (c :: t) = ' ' :: join (words t)) := by
  induction t with
  | nil =>
      refine ⟨fun w hne hblank => ?_, fun h => absurd rfl h⟩
      rw [List.append_nil, words_eq_singleton hne hblank, join_singleton]
      exact (List.append_nil w).symm
  | cons d t ih =>
      obtain ⟨hword, hgap⟩ := ih ht.tail
      by_cases hd : isBlank d = true
      · have hne : t ≠ [] := by
          rintro rfl
          exact absurd (ht d rfl) (by rw [hd]; decide)
        obtain ⟨hwords, hsqueeze⟩ := hgap hne
        have hsplit : words (d :: t) = words t := words_append_cons [] t hd
        refine ⟨fun w hw hblank => ?_, fun _ => ⟨hsplit ▸ hwords, fun c hc => ?_⟩⟩
        · rw [words_append_cons w t hd, words_eq_singleton hw hblank, List.singleton_append,
            join_cons w hwords, hsqueeze d hd]
        · have hhead : (squeeze (d :: t)).head? = some ' ' := by
            rw [hsqueeze d hd]
            rfl
          rw [squeeze, if_pos hc, if_pos hhead, hsqueeze d hd, hsplit]
      · have hd' : isBlank d = false := by simpa using hd
        have hsingle : join (words (d :: t)) = d :: squeeze t :=
          hword [d] (List.cons_ne_nil d []) (by simpa using hd')
        refine ⟨fun w hw hblank => ?_, fun _ => ⟨?_, fun c hc => ?_⟩⟩
        · have hlonger := hword (w ++ [d]) (by simp) (by
            intro c hc
            rcases List.mem_append.mp hc with hc | hc
            · exact hblank c hc
            · rw [List.mem_singleton.mp hc, hd'])
          rw [List.append_assoc, List.singleton_append, List.append_assoc,
            List.singleton_append] at hlonger
          rw [hlonger, squeeze_cons_of_not_blank hd']
        · intro hnil
          rw [hnil] at hsingle
          cases hsingle
        · have hne : d ≠ ' ' := by
            rintro rfl
            cases hd'
          rw [squeeze, if_pos hc, squeeze_cons_of_not_blank hd', if_neg (by simpa using hne),
            hsingle]

/-- **Splitting and joining** squeezes a text without blanks at its ends. -/
theorem join_words {t : Text} (hstart : StartsSolid t) (hend : EndsSolid t) :
    join (words t) = squeeze t := by
  cases t with
  | nil => rfl
  | cons c t =>
      have hc : isBlank c = false := hstart c rfl
      rw [squeeze_cons_of_not_blank hc]
      exact (join_words_aux t hend.tail).1 [c] (List.cons_ne_nil c []) (by simpa using hc)

/-- A character that is no blank separates fields. -/
theorem squeeze_intercalate {c : Char} (hc : isBlank c = false) (fs : List Text) :
    squeeze ([c].intercalate fs) = [c].intercalate (fs.map squeeze) := by
  induction fs with
  | nil => rfl
  | cons f fs ih =>
      cases fs with
      | nil => rw [List.map_singleton, List.intercalate_singleton, List.intercalate_singleton]
      | cons g fs =>
          rw [List.map_cons, List.map_cons, List.intercalate_cons_cons, List.append_assoc,
            List.singleton_append, squeeze_append_cons _ _ hc, ih, List.map_cons,
            List.intercalate_cons_cons, List.append_assoc, List.singleton_append]

/-- Solid text at the end of a text is in its last word. -/
theorem suffix_of_mem_words {t u w : Text} (hne : u ≠ []) (hu : ∀ c ∈ u, isBlank c = false)
    (hw : w ∈ words (t ++ u)) : (∀ c ∈ w, c ∈ t) ∨ u <:+ w := by
  -- the last word begins behind the last blank
  have hsplit : t.rdropWhile (fun c => !isBlank c) ++ t.rtakeWhile (fun c => !isBlank c) = t :=
    List.rdropWhile_append_rtakeWhile
  have hlast : ∀ c ∈ t.rtakeWhile (fun c => !isBlank c) ++ u, isBlank c = false := by
    intro c hc
    rcases List.mem_append.mp hc with hc | hc
    · simpa using List.mem_rtakeWhile_imp hc
    · exact hu c hc
  have hsolid : t.rtakeWhile (fun c => !isBlank c) ++ u ≠ [] := fun h =>
    hne (List.append_eq_nil_iff.mp h).2
  rcases List.eq_nil_or_concat (t.rdropWhile fun c => !isBlank c) with hnil | ⟨v, b, hv⟩
  · rw [← hsplit, hnil, List.nil_append, words_eq_singleton hsolid hlast, List.mem_singleton] at hw
    exact Or.inr ⟨_, hw.symm⟩
  · rw [List.concat_eq_append] at hv
    have hb : isBlank b = true := by
      have hnot := List.rdropWhile_last_not (fun c => !isBlank c) t
        (by rw [hv]; exact List.concat_ne_nil b v)
      simpa [hv] using hnot
    rw [← hsplit, hv, List.append_assoc, List.append_assoc, List.singleton_append,
      words_append_cons v _ hb, words_eq_singleton hsolid hlast] at hw
    rcases List.mem_append.mp hw with hw | hw
    · refine Or.inl fun c hc => ?_
      rw [← hsplit, hv]
      exact List.mem_append_left _ (List.mem_append_left _ (mem_of_mem_words hw hc))
    · exact Or.inr ⟨_, (List.mem_singleton.mp hw).symm⟩

/-- Solid text inside of a text is in one of its words, and the other words are beside it. -/
theorem infix_of_mem_words {t u v w : Text} (hne : u ≠ []) (hu : ∀ c ∈ u, isBlank c = false)
    (hw : w ∈ words (t ++ u ++ v)) : (∀ c ∈ w, c ∈ t ∨ c ∈ v) ∨ u <:+: w := by
  -- the word of the text ends in front of the first blank behind it
  have hsolid : ∀ c ∈ u ++ v.takeWhile (!isBlank ·), isBlank c = false := by
    intro c hc
    rcases List.mem_append.mp hc with hc | hc
    · exact hu c hc
    · simpa using List.mem_takeWhile_imp hc
  have hfirst : ∀ w ∈ words (t ++ (u ++ v.takeWhile (!isBlank ·))),
      (∀ c ∈ w, c ∈ t ∨ c ∈ v) ∨ u <:+: w := by
    intro w hw
    rcases suffix_of_mem_words (List.append_ne_nil_of_left_ne_nil hne _) hsolid hw with ht | hlast
    · exact Or.inl fun c hc => Or.inl (ht c hc)
    · exact Or.inr ((List.prefix_append u _).isInfix.trans hlast.isInfix)
  have hsplit := List.takeWhile_append_dropWhile (p := (!isBlank ·)) (l := v)
  cases hdrop : v.dropWhile (!isBlank ·) with
  | nil =>
      rw [hdrop, List.append_nil] at hsplit
      rw [hsplit, ← List.append_assoc] at hfirst
      exact hfirst w hw
  | cons b v' =>
      have hb : isBlank b = true := by
        have hnot := List.head_dropWhile_not (!isBlank ·) (l := v)
          (by rw [hdrop]; exact List.cons_ne_nil b v')
        simpa only [hdrop, List.head_cons, Bool.not_eq_false'] using hnot
      rw [← hsplit, hdrop, ← List.append_assoc, words_append_cons _ _ hb, List.append_assoc] at hw
      rcases List.mem_append.mp hw with hw | hw
      · exact hfirst w hw
      · refine Or.inl fun c hc => Or.inr ?_
        rw [← hsplit, hdrop]
        exact List.mem_append_right _ (List.mem_cons_of_mem b (mem_of_mem_words hw hc))

/-! ## Patterns -/

/-- A character that makes a word a pattern. -/
def isPattern (c : Char) : Bool := c == '*' || c == '?' || c == '[' || c == '\\'

/-- What the shell puts for a word.  A word without a pattern stays. -/
structure Globs (glob : Text → List Text) : Prop where
  plain : ∀ {w : Text}, (∀ c ∈ w, isPattern c = false) → glob w = [w]

/-- No pattern matches a file. -/
def noFiles (w : Text) : List Text := [w]

theorem globs_noFiles : Globs noFiles := ⟨fun _ => rfl⟩

/-- The words of an unquoted expansion, patterns replaced. -/
def expand (glob : Text → List Text) (t : Text) : List Text := (words t).flatMap glob

/-- No pattern in a text, no replacement. -/
theorem expand_of_plain {glob : Text → List Text} (hglob : Globs glob) {t : Text}
    (ht : ∀ c ∈ t, isPattern c = false) : expand glob t = words t := by
  have hall : ∀ ws : List Text,
      (∀ w ∈ ws, ∀ c ∈ w, isPattern c = false) → ws.flatMap glob = ws := by
    intro ws
    induction ws with
    | nil => exact fun _ => rfl
    | cons w ws ih =>
        intro h
        rw [List.flatMap_cons, hglob.plain (h w List.mem_cons_self),
          ih fun v hv => h v (List.mem_cons_of_mem w hv)]
        rfl
  exact hall (words t) fun w hw c hc => ht c (mem_of_mem_words hw hc)

theorem expand_append_cons (glob : Text → List Text) (t u : Text) {c : Char}
    (hc : isBlank c = true) : expand glob (t ++ c :: u) = expand glob t ++ expand glob u := by
  rw [expand, words_append_cons t u hc, List.flatMap_append, expand, expand]

/-- Words that no file name replaces. -/
theorem expand_of_kept {glob : Text → List Text} {t : Text} (ht : ∀ w ∈ words t, glob w = [w]) :
    expand glob t = words t := by
  rw [expand, List.flatMap_congr ht, List.flatMap_singleton']

/-- A character that neither splits a word nor expands. -/
def solidChar (c : Char) : Bool := !isBlank c && !isPattern c

theorem solidChar_iff (c : Char) :
    solidChar c = true ↔ isBlank c = false ∧ isPattern c = false := by
  rw [solidChar, Bool.and_eq_true, Bool.not_eq_true', Bool.not_eq_true']

/-- A word of such characters stays as it is. -/
theorem expand_of_solid {glob : Text → List Text} (hglob : Globs glob) {t : Text} (hne : t ≠ [])
    (ht : t.all solidChar = true) : expand glob t = [t] := by
  have hchar := fun c hc => (solidChar_iff c).mp (List.all_eq_true.mp ht c hc)
  rw [expand_of_plain hglob fun c hc => (hchar c hc).2,
    words_eq_singleton hne fun c hc => (hchar c hc).1]

/-! ## Substitution -/

/-- `$(...)`: the output without the newlines at its end. -/
def commandSubst (out : Text) : Text := out.rdropWhile (· == '\n')

theorem commandSubst_append_newline (t : Text) : commandSubst (t ++ ['\n']) = commandSubst t :=
  List.rdropWhile_concat_pos _ _ _ rfl

theorem commandSubst_of_getLast {t : Text} (ht : t.getLast? ≠ some '\n') : commandSubst t = t := by
  rw [commandSubst, List.rdropWhile_eq_self_iff]
  intro hne hlast
  exact ht (by rw [List.getLast?_eq_getLast_of_ne_nil hne, eq_of_beq hlast])

theorem commandSubst_of_endsSolid {t : Text} (ht : EndsSolid t) : commandSubst t = t := by
  refine commandSubst_of_getLast fun hlast => ?_
  have hsolid := ht '\n' hlast
  cases hsolid

theorem commandSubst_of_not_mem {t : Text} (ht : '\n' ∉ t) : commandSubst t = t :=
  commandSubst_of_getLast fun hlast => ht (List.mem_of_getLast? hlast)

/-- The words stay. -/
theorem words_commandSubst (t : Text) : words (commandSubst t) = words t := by
  induction t using List.reverseRecOn with
  | nil => rfl
  | append_singleton t c ih =>
      by_cases hc : c = '\n'
      · rw [hc, commandSubst_append_newline, ih, words_append_cons t [] rfl]
        exact (List.append_nil _).symm
      · rw [commandSubst_of_getLast (by simpa using hc)]

end AltF.Shell
