/-
  Cgi/Forms.lean --- forms with numbered rows, as pages print them and browsers send them
  back: `exp_1`, `ip_1`, ..., `exp_2`, ...

  What a field is set to is decided by `read_args`, which also sets the variable that a
  value names; a form arrives where no value is the name of one that is read.
-/
import Mathlib.Data.List.Nodup
import AltF.Cgi.Encoded

set_option autoImplicit false

namespace AltF.Cgi

open AltF.Shell AltF.SysFiles

/-! ## What a browser shows -/

/-- `httpd -e`, of a byte. -/
def encodeRef (c : Char) : Text :=
  if c.isAlphanum then [c] else '&' :: '#' :: (Nat.toDigits 10 c.toNat ++ [';'])

/-- `httpd -e` -/
def httpdEncode (t : Text) : Text := t.flatMap encodeRef

/-- A character of seven bits that a line of text can have. -/
def isAscii (c : Char) : Bool := decide (c.toNat < 128) && c != '\n' && c != '\r' && c != '\x00'

/-- A character that an attribute between double quotes shows as it is. -/
def isShown (c : Char) : Bool := decide (32 ≤ c.toNat) && isAscii c && c != '&' && c != '"'

/-- A browser: the value of a text field, by the attribute that the page prints. -/
structure Browser where
  value : Text → Text
  shows : ∀ {t : Text}, t.all isShown = true → value t = t
  refs : ∀ {t : Text}, t.all isAscii = true → value (httpdEncode t) = t

/-- Text with the references of numbers replaced; `some n` is the number read so far. -/
def showRefs : Option Nat → Text → Text
  | _, [] => []
  | none, '&' :: '#' :: t => showRefs (some 0) t
  | none, c :: t => c :: showRefs none t
  | some n, c :: t =>
      if c = ';' then Char.ofNat n :: showRefs none t
      else showRefs (some (10 * n + (c.toNat - 48))) t

theorem showRefs_cons {c : Char} (hc : c ≠ '&') (t : Text) :
    showRefs none (c :: t) = c :: showRefs none t := by
  rw [showRefs]
  exact fun u h => absurd h hc

theorem showRefs_digits {ds : Text} (hds : ∀ d ∈ ds, d.isDigit = true) (n : Nat) (t : Text) :
    showRefs (some n) (ds ++ ';' :: t) =
      Char.ofNat (Nat.ofDigitChars 10 ds n) :: showRefs none t := by
  induction ds generalizing n with
  | nil => rw [List.nil_append, showRefs, if_pos rfl, Nat.ofDigitChars_nil]
  | cons d ds ih =>
      have hne : d ≠ ';' := by
        rintro rfl
        exact absurd (hds _ List.mem_cons_self) (by decide)
      rw [List.cons_append, showRefs, if_neg hne, ih fun x hx => hds x (List.mem_cons_of_mem d hx),
        Nat.ofDigitChars_cons]
      rfl

/-- A browser that knows the references of numbers. -/
def plainBrowser : Browser where
  value := showRefs none
  shows := by
    intro t ht
    induction t with
    | nil => rfl
    | cons c t ih =>
        rw [List.all_cons, Bool.and_eq_true] at ht
        have hc : c ≠ '&' := by
          rintro rfl
          exact absurd ht.1 (by decide)
        rw [showRefs_cons hc, ih ht.2]
  refs := by
    intro t ht
    induction t with
    | nil => rfl
    | cons c t ih =>
        rw [List.all_cons, Bool.and_eq_true] at ht
        have hstep : ∀ u, showRefs none (encodeRef c ++ u) = c :: showRefs none u := by
          intro u
          unfold encodeRef
          split
          · rename_i halnum
            refine showRefs_cons ?_ u
            rintro rfl
            exact absurd halnum (by decide)
          · have hdigits : ∀ d ∈ Nat.toDigits 10 c.toNat, d.isDigit = true :=
              fun d hd => Nat.isDigit_of_mem_toDigits (by decide) (by decide) hd
            simp only [List.cons_append, List.append_assoc, List.nil_append, showRefs]
            rw [showRefs_digits hdigits, Nat.ofDigitChars_ten_toDigits, Char.ofNat_toNat]
        rw [httpdEncode, List.flatMap_cons, hstep]
        exact congrArg (c :: ·) (ih ht.2)

theorem toNat_of_isAlphanum {c : Char} (hc : c.isAlphanum = true) :
    48 ≤ c.toNat ∧ c.toNat ≤ 122 := by
  rcases (Bool.or_eq_true c.isAlpha c.isDigit).mp hc with halpha | hdigit
  · rcases (Bool.or_eq_true c.isUpper c.isLower).mp halpha with hupper | hlower
    · have hge : 65 ≤ c.toNat := (of_decide_eq_true hupper).1
      have hle : c.toNat ≤ 90 := (of_decide_eq_true hupper).2
      omega
    · have hge : 97 ≤ c.toNat := of_decide_eq_true ((Bool.and_eq_true _ _).mp hlower).1
      have hle : c.toNat ≤ 122 := of_decide_eq_true ((Bool.and_eq_true _ _).mp hlower).2
      omega
  · have hge : 48 ≤ c.toNat := of_decide_eq_true ((Bool.and_eq_true _ _).mp hdigit).1
    have hle : c.toNat ≤ 57 := of_decide_eq_true ((Bool.and_eq_true _ _).mp hdigit).2
    omega

theorem isShown_of_isAlphanum {c : Char} (hc : c.isAlphanum = true) : isShown c = true := by
  obtain ⟨hge, hle⟩ := toNat_of_isAlphanum hc
  have hne : ∀ d : Char, d.toNat < 48 → c ≠ d := by
    rintro d hd rfl
    omega
  have hlow : 32 ≤ c.toNat := by omega
  have hhigh : c.toNat < 128 := by omega
  simp [isShown, isAscii, hlow, hhigh, hne '\n' (by decide), hne '\r' (by decide),
    hne '\x00' (by decide), hne '&' (by decide), hne '"' (by decide)]

theorem isByte_of_isAscii {c : Char} (hc : isAscii c = true) : isByte c = true := by
  simp only [isAscii, Bool.and_eq_true, decide_eq_true_eq] at hc
  rw [isByte]
  exact decide_eq_true (by omega)

theorem isAscii_of_isShown {c : Char} (hc : isShown c = true) : isAscii c = true := by
  simp only [isShown, Bool.and_eq_true] at hc
  exact hc.1.1.2

theorem isEncoded_urlencode {t : Text} (ht : t.all isByte = true) :
    (urlencode t).all isEncodedChar = true :=
  List.all_eq_true.mpr fun _ hc => isEncodedChar_of_mem ht hc

/-- Encoded text that is a name was that name. -/
theorem eq_of_urlencode_eq {t n : Text} (ht : t.all isByte = true) (hn : isAwkName n = true)
    (h : urlencode t = n) : t = n := by
  have hchars := List.all_eq_true.mp (all_isNameChar (isName_of_isAwkName hn))
  have hplus : '+' ∉ n := fun hc => absurd (hchars _ hc) (by decide)
  have hpercent : '%' ∉ n := fun hc => absurd (hchars _ hc) (by decide)
  rw [← httpdDecode_urlencode ht, h, httpdDecode_of_not_mem hplus hpercent]

theorem isByte_of_shown {t : Text} (ht : t.all isShown = true) : t.all isByte = true :=
  List.all_eq_true.mpr fun d hd =>
    isByte_of_isAscii (isAscii_of_isShown (List.all_eq_true.mp ht d hd))

theorem isByte_of_ascii {t : Text} (ht : t.all isAscii = true) : t.all isByte = true :=
  List.all_eq_true.mpr fun d hd => isByte_of_isAscii (List.all_eq_true.mp ht d hd)

/-! ## Variables with encoded text -/

theorem isWild_hexDigit (n : Nat) : isWild (hexDigit n) = false := by
  have hdigits : ∀ n < 16, isWild (hexDigit n) = false := by decide
  by_cases hn : n < 16
  · exact hdigits n hn
  · have hlength : "0123456789ABCDEF".toList.length ≤ n := Nat.le_of_not_lt hn
    have hzero : hexDigit n = '0' := by
      rw [hexDigit, List.getD_eq_getElem?_getD, List.getElem?_eq_none hlength, Option.getD_none]
    rw [hzero]
    rfl

/-- The encoding brings no pattern. -/
theorem isWild_of_mem_urlencode {t : Text} (ht : ∀ c ∈ t, isWild c = false) :
    ∀ c ∈ urlencode t, isWild c = false := by
  intro c hc
  obtain ⟨d, hd, hmem⟩ := List.mem_flatMap.mp hc
  unfold encodeChar at hmem
  split at hmem
  · rw [List.mem_singleton.mp hmem]
    exact ht d hd
  · split at hmem
    · rw [List.mem_singleton.mp hmem]
      rfl
    · simp only [List.mem_cons, List.not_mem_nil, or_false] at hmem
      rcases hmem with rfl | rfl | rfl
      · rfl
      · exact isWild_hexDigit _
      · exact isWild_hexDigit _

/-- It brings no option either. -/
theorem isEchoOption_urlencode {t : Text} (ht : t.all isByte = true)
    (hoption : isEchoOption t = false) : isEchoOption (urlencode t) = false := by
  by_cases hplus : '+' ∈ urlencode t
  · exact isEchoOption_of_mem hplus (by decide)
  · by_cases hpercent : '%' ∈ urlencode t
    · exact isEchoOption_of_mem hpercent (by decide)
    · rw [← httpdDecode_of_not_mem hplus hpercent, httpdDecode_urlencode ht, hoption]

section Variables

variable (m : PageMachine) {env : Env} {n t : Text}

/-- `$(eval echo \$n)` -/
theorem PageMachine.echoVar_urlencode (hn : env n = urlencode t) (ht : t.all isByte = true)
    (hwild : ∀ c ∈ t, isWild c = false) (hoption : isEchoOption t = false) :
    m.echoVar env n = urlencode t := by
  by_cases hnil : t = []
  · subst hnil
    exact m.echoVar_nil hn
  · exact m.echoVar_encoded hn (isEncoded_urlencode ht) (urlencode_ne_nil hnil)
      (isEchoOption_urlencode ht hoption) (Or.inl (isWild_of_mem_urlencode hwild))

/-- `"$(eval echo \"\$n\")"` -/
theorem PageMachine.echo_urlencode (ht : t.all isByte = true) (hoption : isEchoOption t = false) :
    commandSubst (m.echo [urlencode t]) = urlencode t := by
  have hhead : ∀ w ∈ [urlencode t].head?, isEchoOption w = false := by
    intro w hw
    obtain rfl := Option.some.inj hw
    exact isEchoOption_urlencode ht hoption
  have hline : '\n' ∉ urlencode t := fun hc =>
    absurd (List.all_eq_true.mp (isEncoded_urlencode ht) _ hc) (by decide)
  rw [m.echoes.plain hhead, join_singleton, commandSubst_append_newline,
    commandSubst_of_not_mem hline]

end Variables

/-! ## Names with numbers -/

/-- `base_i` -/
def numbered (base : Text) (i : Nat) : Text := base ++ '_' :: Nat.toDigits 10 i

/-- A name that ends in a number. -/
def isNumbered (n : Text) : Bool :=
  let t := (n.dropWhile (· ≠ '_')).tail
  t ≠ [] && t.all Char.isDigit

/-- A name that ends in an underscore and a number. -/
def isRowName (n : Text) : Bool :=
  n.rtakeWhile Char.isDigit ≠ [] && (n.rdropWhile Char.isDigit).getLast? == some '_'

/-- The name without them. -/
def rowBase (n : Text) : Text := (n.rdropWhile Char.isDigit).dropLast

section Numbered

variable {b : Text}

theorem isDigit_of_mem_toDigits {i : Nat} {c : Char} (hc : c ∈ Nat.toDigits 10 i) :
    c.isDigit = true := Nat.isDigit_of_mem_toDigits (by decide) (by decide) hc

theorem toDigits_inj {i j : Nat} (h : Nat.toDigits 10 i = Nat.toDigits 10 j) : i = j := by
  have hvalue := congrArg (Nat.ofDigitChars 10 · 0) h
  simpa only [Nat.ofDigitChars_ten_toDigits] using hvalue

theorem isEncoded_digits (n : Nat) : (Nat.toDigits 10 n).all isEncodedChar = true := by
  refine List.all_eq_true.mpr fun d hd => ?_
  rw [isEncodedChar, isUnreserved, Char.isAlphanum, isDigit_of_mem_toDigits hd, Bool.or_true,
    Bool.true_or]
  rfl

/-- A number is no name. -/
theorem toDigits_ne_name {n : Text} (hn : isAwkName n = true) (k : Nat) :
    Nat.toDigits 10 k ≠ n := by
  rintro rfl
  cases hdigits : Nat.toDigits 10 k with
  | nil => exact Nat.toDigits_ne_nil hdigits
  | cons d t =>
      rw [hdigits, isAwkName, Bool.and_eq_true] at hn
      have hmem : d ∈ Nat.toDigits 10 k := hdigits ▸ List.mem_cons_self
      have hle : d.toNat ≤ 57 :=
        of_decide_eq_true ((Bool.and_eq_true _ _).mp (isDigit_of_mem_toDigits hmem)).2
      rcases (Bool.or_eq_true d.isUpper d.isLower).mp hn.1 with hupper | hlower
      · have hge : 65 ≤ d.toNat := (of_decide_eq_true hupper).1
        omega
      · have hge : 97 ≤ d.toNat := of_decide_eq_true ((Bool.and_eq_true _ _).mp hlower).1
        omega

theorem takeWhile_numbered (hb : '_' ∉ b) (i : Nat) : (numbered b i).takeWhile (· ≠ '_') = b := by
  have hchars : ∀ c ∈ b, decide (c ≠ '_') = true := by
    intro c hc
    exact decide_eq_true fun h => hb (h ▸ hc)
  rw [numbered, List.takeWhile_append_of_pos hchars, List.takeWhile_cons_of_neg (by decide),
    List.append_nil]

theorem dropWhile_numbered (hb : '_' ∉ b) (i : Nat) :
    ((numbered b i).dropWhile (· ≠ '_')).tail = Nat.toDigits 10 i := by
  have hchars : ∀ c ∈ b, decide (c ≠ '_') = true := by
    intro c hc
    exact decide_eq_true fun h => hb (h ▸ hc)
  rw [numbered, List.dropWhile_append_of_pos hchars, List.dropWhile_cons_of_neg (by decide),
    List.tail_cons]

theorem isNumbered_numbered (hb : '_' ∉ b) (i : Nat) : isNumbered (numbered b i) = true := by
  rw [isNumbered, dropWhile_numbered hb, Bool.and_eq_true]
  exact ⟨decide_eq_true Nat.toDigits_ne_nil,
    List.all_eq_true.mpr fun c hc => isDigit_of_mem_toDigits hc⟩

theorem reverse_numbered (b : Text) (i : Nat) :
    (numbered b i).reverse = (Nat.toDigits 10 i).reverse ++ '_' :: b.reverse := by
  rw [numbered, List.reverse_append, List.reverse_cons, List.append_assoc, List.singleton_append]

theorem rtakeWhile_numbered (b : Text) (i : Nat) :
    (numbered b i).rtakeWhile Char.isDigit = Nat.toDigits 10 i := by
  have hdigits : ∀ c ∈ (Nat.toDigits 10 i).reverse, c.isDigit = true := fun c hc =>
    isDigit_of_mem_toDigits (List.mem_reverse.mp hc)
  rw [List.rtakeWhile, reverse_numbered, List.takeWhile_append_of_pos hdigits,
    List.takeWhile_cons_of_neg (by decide), List.append_nil, List.reverse_reverse]

theorem rdropWhile_numbered (b : Text) (i : Nat) :
    (numbered b i).rdropWhile Char.isDigit = b ++ ['_'] := by
  have hdigits : ∀ c ∈ (Nat.toDigits 10 i).reverse, c.isDigit = true := fun c hc =>
    isDigit_of_mem_toDigits (List.mem_reverse.mp hc)
  rw [List.rdropWhile, reverse_numbered, List.dropWhile_append_of_pos hdigits,
    List.dropWhile_cons_of_neg (by decide), List.reverse_cons, List.reverse_reverse]

theorem isRowName_numbered (b : Text) (i : Nat) : isRowName (numbered b i) = true := by
  rw [isRowName, rtakeWhile_numbered, rdropWhile_numbered, List.getLast?_concat,
    Bool.and_eq_true]
  exact ⟨decide_eq_true Nat.toDigits_ne_nil, beq_self_eq_true _⟩

theorem rowBase_numbered (b : Text) (i : Nat) : rowBase (numbered b i) = b := by
  rw [rowBase, rdropWhile_numbered, List.dropLast_concat]

/-- The base and the number can be told from the name. -/
theorem numbered_inj {b' : Text} {i j : Nat} (h : numbered b i = numbered b' j) :
    b = b' ∧ i = j := by
  have hbase : b = b' := by
    rw [← rowBase_numbered b i, h, rowBase_numbered]
  have hdigits : Nat.toDigits 10 i = Nat.toDigits 10 j := by
    rw [← rtakeWhile_numbered b i, h, rtakeWhile_numbered]
  exact ⟨hbase, toDigits_inj hdigits⟩

theorem isAwkName_numbered (hb : isAwkName b = true) (i : Nat) :
    isAwkName (numbered b i) = true := by
  cases b with
  | nil => cases hb
  | cons c b =>
      rw [isAwkName, Bool.and_eq_true] at hb
      have hdigits : (Nat.toDigits 10 i).all isNameChar = true := by
        refine List.all_eq_true.mpr fun d hd => ?_
        rw [isNameChar, Char.isAlphanum, isDigit_of_mem_toDigits hd, Bool.or_true, Bool.true_or]
      rw [numbered, List.cons_append, isAwkName, hb.1, List.all_append, hb.2, List.all_cons,
        hdigits]
      rfl

theorem underscore_of_isNumbered {n : Text} (hn : isNumbered n = true) : '_' ∈ n := by
  by_contra hmem
  have hdrop : n.dropWhile (· ≠ '_') = [] :=
    List.dropWhile_eq_nil_iff.mpr fun c hc => decide_eq_true fun h => hmem (h ▸ hc)
  rw [isNumbered, hdrop] at hn
  exact absurd hn (by decide)

theorem numbered_notMem (b : Text) (i : Nat) {ns : List Text}
    (hns : ∀ n ∈ ns, isRowName n = false) : numbered b i ∉ ns := by
  intro hmem
  exact absurd ((isRowName_numbered b i).symm.trans (hns _ hmem)) (by decide)

end Numbered

/-! ## Rows -/

/-- The fields of the rows, which are numbered from `i` on. -/
def rowsPairs : Nat → List (List (Text × Text)) → List (Text × Text)
  | _, [] => []
  | i, r :: rs => r.map (fun x => (numbered x.1 i, x.2)) ++ rowsPairs (i + 1) rs

/-- What a row has for a field. -/
def rowValue (r : List (Text × Text)) (b : Text) : Text :=
  ((r.find? fun x => x.1 = b).map Prod.snd).getD []

section Rows

variable {rs : List (List (Text × Text))}

theorem mem_rowsPairs {i : Nat} {p : Text × Text} :
    p ∈ rowsPairs i rs ↔ ∃ k r x, rs[k]? = some r ∧ x ∈ r ∧ p = (numbered x.1 (i + k), x.2) := by
  induction rs generalizing i with
  | nil => simp [rowsPairs]
  | cons r rs ih =>
      rw [rowsPairs, List.mem_append, ih]
      constructor
      · rintro (hmem | ⟨k, r', x, hr', hx, rfl⟩)
        · obtain ⟨x, hx, rfl⟩ := List.mem_map.mp hmem
          exact ⟨0, r, x, rfl, hx, rfl⟩
        · exact ⟨k + 1, r', x, hr', hx, by rw [Nat.add_assoc, Nat.add_comm 1 k]⟩
      · rintro ⟨k, r', x, hr', hx, rfl⟩
        cases k with
        | zero =>
            obtain rfl := Option.some.inj hr'
            exact Or.inl (List.mem_map.mpr ⟨x, hx, rfl⟩)
        | succ k =>
            exact Or.inr ⟨k, r', x, hr', hx, by rw [Nat.add_assoc, Nat.add_comm 1 k]⟩

theorem rowsPairs_append (i : Nat) (xs ys : List (List (Text × Text))) :
    rowsPairs i (xs ++ ys) = rowsPairs i xs ++ rowsPairs (i + xs.length) ys := by
  induction xs generalizing i with
  | nil => rfl
  | cons x xs ih =>
      rw [List.cons_append, rowsPairs, rowsPairs, ih, List.append_assoc, List.length_cons,
        Nat.add_assoc, Nat.add_comm 1 xs.length]

theorem key_rowsPairs {i : Nat} {n : Text} (hn : n ∈ (rowsPairs i rs).map Prod.fst) :
    ∃ k r x, rs[k]? = some r ∧ x ∈ r ∧ n = numbered x.1 (i + k) := by
  obtain ⟨p, hp, rfl⟩ := List.mem_map.mp hn
  obtain ⟨k, r, x, hr, hx, rfl⟩ := mem_rowsPairs.mp hp
  exact ⟨k, r, x, hr, hx, rfl⟩

theorem value_rowsPairs {i : Nat} {v : Text} (hv : v ∈ (rowsPairs i rs).map Prod.snd) :
    ∃ r ∈ rs, v ∈ r.map Prod.snd := by
  obtain ⟨p, hp, rfl⟩ := List.mem_map.mp hv
  obtain ⟨k, r, x, hr, hx, rfl⟩ := mem_rowsPairs.mp hp
  exact ⟨r, List.mem_of_getElem? hr, List.mem_map.mpr ⟨x, hx, rfl⟩⟩

/-- Rows of fields with different names. -/
structure RowFields (rs : List (List (Text × Text))) : Prop where
  bases : ∀ r ∈ rs, ∀ x ∈ r, isAwkName x.1 = true
  distinct : ∀ r ∈ rs, (r.map Prod.fst).Nodup
  encoded : ∀ r ∈ rs, ∀ x ∈ r, x.2.all isEncodedChar = true

theorem RowFields.nodup (h : RowFields rs) (i : Nat) :
    ((rowsPairs i rs).map Prod.fst).Nodup := by
  induction rs generalizing i with
  | nil => exact List.nodup_nil
  | cons r rs ih =>
      have hrest : RowFields rs :=
        ⟨fun r' hr' => h.bases r' (List.mem_cons_of_mem r hr'),
          fun r' hr' => h.distinct r' (List.mem_cons_of_mem r hr'),
          fun r' hr' => h.encoded r' (List.mem_cons_of_mem r hr')⟩
      rw [rowsPairs, List.map_append, List.nodup_append']
      refine ⟨?_, ih hrest (i + 1), ?_⟩
      · have hkeys : (r.map fun x => (numbered x.1 i, x.2)).map Prod.fst =
            (r.map Prod.fst).map (numbered · i) := by
          rw [List.map_map, List.map_map]
          rfl
        rw [hkeys]
        refine List.Nodup.map_on ?_ (h.distinct r List.mem_cons_self)
        intro b hb b' hb' heq
        obtain ⟨x, hx, rfl⟩ := List.mem_map.mp hb
        obtain ⟨x', hx', rfl⟩ := List.mem_map.mp hb'
        exact (numbered_inj heq).1
      · -- the numbers of the other rows are higher
        intro n hn hn'
        obtain ⟨p, hp, rfl⟩ := List.mem_map.mp hn
        obtain ⟨x, hx, rfl⟩ := List.mem_map.mp hp
        obtain ⟨k, r', x', hr', hx', heq⟩ := key_rowsPairs hn'
        have hnumber := (numbered_inj heq).2
        omega

end Rows

/-- Rows that are handled one after the other. -/
theorem flatMap_range' {α β : Type} {xs : List α} {f : Nat → List β} {g : α → List β} (i : Nat)
    (h : ∀ k x, xs[k]? = some x → f (i + k) = g x) :
    (List.range' i xs.length).flatMap f = xs.flatMap g := by
  induction xs generalizing i with
  | nil => rfl
  | cons x xs ih =>
      have hrest : ∀ k y, xs[k]? = some y → f (i + 1 + k) = g y := by
        intro k y hy
        rw [← h (k + 1) y hy, Nat.add_assoc, Nat.add_comm 1 k]
      rw [List.length_cons, List.range'_succ, List.flatMap_cons, List.flatMap_cons,
        ih (i + 1) hrest, ← h 0 x rfl, Nat.add_zero]

/-! ## What arrives -/

/-- A form that `read_args` can read. -/
structure SentForm (xs : List (Text × Text)) : Prop extends EncodedPairs xs where
  distinct : (xs.map Prod.fst).Nodup
  names : ∀ x ∈ xs, x.1 ∉ readArgsNames

/-- Variables that the shell needs. -/
def neededNames : List Text := ["IFS".toList, "PATH".toList]

/-- `read_args`, after which the shell can go on. -/
def PageMachine.readForm (m : PageMachine) (env : Env) (body : Text) : Option Env := do
  let env₁ ← m.readArgs env body
  if neededNames.any fun n => env₁ n ≠ env n then none else some env₁

/-- Numbered rows with other fields. -/
theorem RowFields.sentForm {rs : List (List (Text × Text))} {xs : List (Text × Text)}
    (hrows : RowFields rs) (hothers : SentForm xs)
    (hplain : ∀ n ∈ xs.map Prod.fst, isRowName n = false) (i : Nat) :
    SentForm (rowsPairs i rs ++ xs) where
  keys := by
    intro p hp
    rcases List.mem_append.mp hp with hp | hp
    · obtain ⟨k, r, x, hr, hx, rfl⟩ := mem_rowsPairs.mp hp
      exact isAwkName_numbered (hrows.bases r (List.mem_of_getElem? hr) x hx) _
    · exact hothers.keys p hp
  values := by
    intro p hp
    rcases List.mem_append.mp hp with hp | hp
    · obtain ⟨k, r, x, hr, hx, rfl⟩ := mem_rowsPairs.mp hp
      exact hrows.encoded r (List.mem_of_getElem? hr) x hx
    · exact hothers.values p hp
  distinct := by
    rw [List.map_append, List.nodup_append']
    refine ⟨hrows.nodup i, hothers.distinct, ?_⟩
    intro n hn hn'
    obtain ⟨k, r, x, hr, hx, rfl⟩ := key_rowsPairs hn
    exact numbered_notMem x.1 _ hplain hn'
  names := by
    intro p hp
    rcases List.mem_append.mp hp with hp | hp
    · obtain ⟨k, r, x, hr, hx, rfl⟩ := mem_rowsPairs.mp hp
      refine numbered_notMem x.1 _ ?_
      decide
    · exact hothers.names p hp

section Sent

variable {xs : List (Text × Text)}

theorem fst_swapped {n : Text} (hn : n ∉ xs.map Prod.snd) : n ∉ (swapped xs).map Prod.fst := by
  intro hmem
  obtain ⟨p, hp, rfl⟩ := List.mem_map.mp hmem
  obtain ⟨x, hx, rfl⟩ := List.mem_map.mp hp
  exact hn (List.mem_map.mpr ⟨x, (List.mem_filter.mp hx).1, rfl⟩)

theorem assignAll_of_notMem {n : Text} (hn : n ∉ xs.map Prod.fst) (env : Env) :
    assignAll env xs n = env n := by
  rcases assignAll_cases env xs n with h | h
  · exact h
  · exact absurd (List.mem_map.mpr ⟨_, h, rfl⟩) hn

/-- **Fields that arrive**, also where the form has some of them twice: the variables that no
value names have the values of the fields, or are as they were; the others have the name of a
field. -/
theorem PageMachine.readForm_same (m : PageMachine) (h : SentForm xs) {ys : List (Text × Text)}
    (hsame : ∀ p, p ∈ ys ↔ p ∈ xs) (hshell : ∀ n ∈ neededNames, n ∉ xs.map Prod.snd)
    (env : Env) :
    ∃ env₁, m.readForm env (bodyText ys) = some env₁ ∧
      (∀ x ∈ xs, x.1 ∉ xs.map Prod.snd → env₁ x.1 = x.2) ∧
      (∀ n, n ∉ xs.map Prod.fst → n ∉ xs.map Prod.snd → n ≠ "args".toList → env₁ n = env n) ∧
      ∀ x ∈ xs, isAwkName x.2 = true → env₁ x.2 ∈ xs.map Prod.fst := by
  have hencoded : EncodedPairs ys :=
    ⟨fun y hy => h.keys y ((hsame y).mp hy), fun y hy => h.values y ((hsame y).mp hy)⟩
  have hfst : ∀ n, n ∉ xs.map Prod.fst → n ∉ ys.map Prod.fst := by
    intro n hn hmem
    obtain ⟨y, hy, rfl⟩ := List.mem_map.mp hmem
    exact hn (List.mem_map.mpr ⟨y, (hsame y).mp hy, rfl⟩)
  have hsnd : ∀ n, n ∉ xs.map Prod.snd → n ∉ ys.map Prod.snd := by
    intro n hn hmem
    obtain ⟨y, hy, rfl⟩ := List.mem_map.mp hmem
    exact hn (List.mem_map.mpr ⟨y, (hsame y).mp hy, rfl⟩)
  -- a field that is there twice has one value
  have hset : ∀ start : Env, ∀ x ∈ xs, assignAll start ys x.1 = x.2 := by
    intro start x hx
    have hkey : x.1 ∈ ys.map Prod.fst := List.mem_map.mpr ⟨x, (hsame x).mpr hx, rfl⟩
    have hmem : (x.1, assignAll start ys x.1) ∈ ys := assignAll_mem hkey
    exact congrArg Prod.snd (List.inj_on_of_nodup_map h.distinct ((hsame _).mp hmem) hx rfl)
  have hothers : ∀ start : Env, ∀ n, n ∉ xs.map Prod.fst → assignAll start ys n = start n :=
    fun start n hn => assignAll_of_notMem (hfst n hn) start
  have hunset : ∀ n ∈ readArgsNames, n ∉ xs.map Prod.fst := by
    intro n hn hmem
    obtain ⟨x, hx, rfl⟩ := List.mem_map.mp hmem
    exact h.names x hx hn
  have hread := m.readArgs_encoded hencoded env
  rw [if_neg] at hread
  · have hkept : ∀ n, n ∉ xs.map Prod.fst → n ∉ xs.map Prod.snd → n ≠ "args".toList →
        assignAll (assignAll (Machine.startEnv env (bodyText ys)) ys) (swapped ys) n = env n := by
      intro n hkey hvalue hargs
      rw [assignAll_of_notMem (fst_swapped (hsnd n hvalue)), hothers _ n hkey]
      exact Function.update_of_ne hargs _ _
    refine ⟨_, ?_, fun x hx hvalue => ?_, hkept, fun x hx hname => ?_⟩
    · rw [readForm, hread, Option.bind_eq_bind, Option.bind_some, if_neg]
      rw [List.any_eq_true]
      rintro ⟨n, hn, hne⟩
      have hmem : n ∈ readArgsNames ∧ n ≠ "args".toList := by
        rcases List.mem_cons.mp hn with rfl | hn
        · decide
        · obtain rfl := List.mem_singleton.mp hn
          decide
      exact of_decide_eq_true hne (hkept n (hunset n hmem.1) (hshell n hn) hmem.2)
    · rw [assignAll_of_notMem (fst_swapped (hsnd _ hvalue)), hset _ x hx]
    · have hturned : (x.2, x.1) ∈ swapped ys :=
        List.mem_map.mpr ⟨x, List.mem_filter.mpr ⟨(hsame x).mpr hx, hname⟩, rfl⟩
      have hmem : (x.2, assignAll (assignAll (Machine.startEnv env (bodyText ys)) ys) (swapped ys)
          x.2) ∈ swapped ys := assignAll_mem (List.mem_map.mpr ⟨_, hturned, rfl⟩)
      obtain ⟨y, hy, heq⟩ := List.mem_map.mp hmem
      have hkey := (hsame y).mp (List.mem_filter.mp hy).1
      exact List.mem_map.mpr ⟨y, hkey, congrArg Prod.snd heq⟩
  · rw [List.any_eq_true]
    rintro ⟨n, hn, hne⟩
    exact of_decide_eq_true hne (hothers _ n (hunset n hn))

/-- Forms that have each field once. -/
theorem PageMachine.readForm_sent (m : PageMachine) (h : SentForm xs)
    (hshell : ∀ n ∈ neededNames, n ∉ xs.map Prod.snd) (env : Env) :
    ∃ env₁, m.readForm env (bodyText xs) = some env₁ ∧
      (∀ x ∈ xs, x.1 ∉ xs.map Prod.snd → env₁ x.1 = x.2) ∧
      ∀ n, n ∉ xs.map Prod.fst → n ∉ xs.map Prod.snd → n ≠ "args".toList → env₁ n = env n := by
  obtain ⟨env₁, hread, hset, hothers, -⟩ := m.readForm_same h (fun _ => Iff.rfl) hshell env
  exact ⟨env₁, hread, hset, hothers⟩

/-- The variable of a field has what the row has for it. -/
theorem value_of_row {rs : List (List (Text × Text))} {env env₁ : Env} {i : Nat}
    (hmem : ∀ p ∈ rowsPairs i rs, p ∈ xs)
    (hkeys : ∀ n ∈ xs.map Prod.fst, isRowName n = true → n ∈ (rowsPairs i rs).map Prod.fst)
    (hset : ∀ x ∈ xs, x.1 ∉ xs.map Prod.snd → env₁ x.1 = x.2)
    (hothers : ∀ n, n ∉ xs.map Prod.fst → n ∉ xs.map Prod.snd → n ≠ "args".toList →
      env₁ n = env n)
    {k : Nat} {r : List (Text × Text)} (hr : rs[k]? = some r) {b : Text}
    (hvalue : numbered b (i + k) ∉ xs.map Prod.snd) (hunset : env (numbered b (i + k)) = []) :
    env₁ (numbered b (i + k)) = rowValue r b := by
  cases hfind : r.find? fun x => x.1 = b with
  | some x =>
      have hx := List.mem_of_find?_eq_some hfind
      have hbase : x.1 = b := by simpa using List.find?_some hfind
      have hpair : (numbered b (i + k), x.2) ∈ rowsPairs i rs :=
        mem_rowsPairs.mpr ⟨k, r, x, hr, hx, by rw [hbase]⟩
      rw [rowValue, hfind]
      exact hset _ (hmem _ hpair) hvalue
  | none =>
      have hkey : numbered b (i + k) ∉ xs.map Prod.fst := by
        intro hin
        obtain ⟨k', r', x, hr', hx, heq⟩ := key_rowsPairs (hkeys _ hin (isRowName_numbered b _))
        obtain ⟨rfl, hnumber⟩ := numbered_inj heq
        obtain rfl : k = k' := by omega
        obtain rfl := Option.some.inj (hr.symm.trans hr')
        exact absurd (List.find?_eq_none.mp hfind x hx) (by simp)
      have hargs : numbered b (i + k) ≠ "args".toList := by
        intro heq
        have h := isRowName_numbered b (i + k)
        rw [heq] at h
        exact absurd h (by decide)
      rw [rowValue, hfind, hothers _ hkey hvalue hargs, hunset]
      rfl

/-- Variables stay lines. -/
theorem PageMachine.newline_notMem_readForm (m : PageMachine) (h : EncodedPairs xs) {env env₁ : Env}
    (hread : m.readForm env (bodyText xs) = some env₁) {n : Text} (hn : n ≠ "args".toList)
    (henv : '\n' ∉ env n) : '\n' ∉ env₁ n := by
  have hkeys : ∀ x ∈ xs, '\n' ∉ x.1 := fun x hx hc =>
    absurd (List.all_eq_true.mp (all_isNameChar (isName_of_isAwkName (h.keys x hx))) _ hc)
      (by decide)
  have hvalues : ∀ x ∈ xs, '\n' ∉ x.2 := fun x hx hc =>
    absurd (List.all_eq_true.mp (h.values x hx) _ hc) (by decide)
  have hset := m.readArgs_encoded h env
  split at hset
  · rw [readForm, hset] at hread
    cases hread
  · rw [readForm, hset, Option.bind_eq_bind, Option.bind_some] at hread
    split at hread
    · cases hread
    · obtain rfl := Option.some.inj hread
      rcases assignAll_cases (assignAll (Machine.startEnv env (bodyText xs)) xs) (swapped xs) n
        with hkept | hmem
      · rw [hkept]
        rcases assignAll_cases (Machine.startEnv env (bodyText xs)) xs n with hkept | hmem
        · rw [hkept, Machine.startEnv, Function.update_of_ne hn]
          exact henv
        · exact hvalues _ hmem
      · obtain ⟨y, hy, heq⟩ := List.mem_map.mp hmem
        have hkey : y.1 = assignAll (assignAll (Machine.startEnv env (bodyText xs)) xs)
            (swapped xs) n := congrArg Prod.snd heq
        exact hkey ▸ hkeys y (List.mem_filter.mp hy).1

/-- **Numbered rows with other fields**, of which a script reads some, where no value is the name
of one of these. -/
theorem PageMachine.readForm_read (m : PageMachine) {rs : List (List (Text × Text))} {i : Nat}
    (hrows : RowFields rs) (honce : SentForm xs)
    (hplain : ∀ n ∈ xs.map Prod.fst, isRowName n = false) {isRead : Text → Bool}
    (hargs : isRead "args".toList = false)
    (hvalues : ∀ n, isAwkName n = true → isRead n = true ∨ n ∈ neededNames →
      n ∉ (rowsPairs i rs ++ xs).map Prod.snd)
    {ys : List (Text × Text)} (hsame : ∀ p, p ∈ ys ↔ p ∈ rowsPairs i rs ++ xs) {env : Env}
    (henv : ∀ n, isRead n = true → n ∉ neededNames → env n = []) :
    ∃ env₁, m.readForm env (bodyText ys) = some env₁ ∧
      (∀ x ∈ xs, isRead x.1 = true → env₁ x.1 = x.2) ∧
      (∀ n, isAwkName n = true → isRead n = true → n ∉ neededNames → isRowName n = false →
        n ∉ xs.map Prod.fst → env₁ n = []) ∧
      (∀ k r, rs[k]? = some r → ∀ b, isAwkName b = true → isRead (numbered b (i + k)) = true →
        env₁ (numbered b (i + k)) = rowValue r b) ∧
      ∀ x ∈ xs, isAwkName x.2 = true → isAwkName (env₁ x.2) = true := by
  have hsent := hrows.sentForm honce hplain i
  obtain ⟨env₁, hread, hset, hothers, hturned⟩ := m.readForm_same hsent hsame
    (fun n hn => hvalues n (by revert n; decide) (.inr hn)) env
  have hrest : ∀ x ∈ xs, x ∈ rowsPairs i rs ++ xs := fun x hx => List.mem_append_right _ hx
  refine ⟨env₁, hread, fun x hx hisread => ?_, fun n hawk hisread hneeded hrow hn => ?_,
    fun k r hr b hb hisread => ?_, fun x hx hawk => ?_⟩
  · exact hset x (hrest x hx) (hvalues _ (honce.keys x hx) (.inl hisread))
  · -- a field that was not sent
    have hkey : n ∉ (rowsPairs i rs ++ xs).map Prod.fst := by
      rw [List.map_append, List.mem_append]
      rintro (hmem | hmem)
      · obtain ⟨k, r, x, -, -, rfl⟩ := key_rowsPairs hmem
        exact absurd ((isRowName_numbered x.1 _).symm.trans hrow) (by decide)
      · exact hn hmem
    have hne : n ≠ "args".toList := by
      rintro rfl
      exact Bool.false_ne_true (hargs.symm.trans hisread)
    rw [hothers n hkey (hvalues n hawk (.inl hisread)) hne, henv n hisread hneeded]
  · have hkeys : ∀ n ∈ (rowsPairs i rs ++ xs).map Prod.fst, isRowName n = true →
        n ∈ (rowsPairs i rs).map Prod.fst := by
      intro n hn hrow
      rw [List.map_append, List.mem_append] at hn
      exact hn.resolve_right fun hmem =>
        absurd ((hplain n hmem).symm.trans hrow) Bool.false_ne_true
    have hneeded : numbered b (i + k) ∉ neededNames := numbered_notMem b _ (by decide)
    exact value_of_row (fun p hp => List.mem_append_left _ hp) hkeys hset hothers hr
      (hvalues _ (isAwkName_numbered hb _) (.inl hisread)) (henv _ hisread hneeded)
  · obtain ⟨y, hy, hkey⟩ := List.mem_map.mp (hturned x (hrest x hx) hawk)
    rw [← hkey]
    exact hsent.keys y hy

end Sent

end AltF.Cgi
