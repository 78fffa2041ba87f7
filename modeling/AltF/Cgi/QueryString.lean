/-
  Cgi/QueryString.lean --- common.sh: `parse_qstring`, which makes variables of the tokens
  of a query string.

  A value is what stands behind the first `=` of its token.  The function takes the token
  from where the text of its second field is first found.
-/
import AltF.Cgi.ArgsSent

set_option autoImplicit false

namespace AltF.Cgi

open AltF.Shell AltF.SysFiles

/-! ## The function -/

/-- `index(t, p)`, for a text that is not empty: where it is first found, from 1 on, and 0 if
it is not there. -/
def awkFind (p : Text) : Text → Nat
  | [] => 0
  | c :: t => if p.isPrefixOf (c :: t) then 1 else if awkFind p t = 0 then 0 else awkFind p t + 1

/-- `index(t, p)` -/
def awkIndex (t p : Text) : Nat := if p = [] then 0 else awkFind p t

/-- `substr(t, n)` -/
def awkSubstr (t : Text) (n : Nat) : Text := t.drop (n - 1)

/-- The tokens with a legal key, and what is printed for their values. -/
def qstringPairs (t : Text) : List (Text × Text) :=
  (t.splitOn '&').filterMap fun r =>
    if isAwkName (dollar1 r) then some (dollar1 r, awkSubstr r (awkIndex r (dollar2 r))) else none

/-- The variables after `parse_qstring`, whose log has no part in it. -/
def Machine.parseQstring (m : Machine) (env : Env) : Option Env :=
  evalWords m.glob env (commandSubst (awkText (qstringPairs
    (sedQuotes (m.echoArgs (env "QUERY_STRING".toList))))))

/-! ## Query strings -/

/-- Tokens key=value of different keys, without blanks and patterns in their values. -/
structure QueryString where
  pairs : List (Text × Text)
  distinct : (pairs.map Prod.fst).Nodup
  /-- legal keys, other than variables that the shell computes -/
  names : ∀ x ∈ pairs, isAwkName x.1 = true ∧ x.1 ∉ computedNames
  /-- `&` separates the tokens -/
  values : ∀ x ∈ pairs, '&' ∉ x.2
  plain : ∀ x ∈ pairs, ∀ c ∈ x.2, isBlank c = false ∧ isWild c = false

def QueryString.text (q : QueryString) : Text := bodyText q.pairs

/-- Each variable has the text behind the first `=` of its token, with its quotes encoded. -/
def Machine.Parses (m : Machine) (q : QueryString) : Prop :=
  ∀ env : Env, env "QUERY_STRING".toList = q.text →
    ∃ env₁, m.parseQstring env = some env₁ ∧ ∀ x ∈ q.pairs, env₁ x.1 = sedQuotes x.2

/-- The second field of a token. -/
def secondField (x : Text × Text) : Text := (sedQuotes x.2).takeWhile (· ≠ '=')

/-- The condition on a token: its value does not begin with `=`, and the text in front of
the next `=` of its value is not in its key. -/
def Findable (x : Text × Text) : Prop := secondField x ≠ [] ∧ ¬ secondField x <:+: x.1

instance (x : Text × Text) : Decidable (Findable x) := inferInstanceAs (Decidable (_ ∧ _))

/-! ## Where the second field is found -/

/-- Nowhere in the key, so at the beginning of the value. -/
theorem awkFind_value {p k v : Text} (hne : p ≠ []) (hequals : '=' ∉ p) (hk : ¬ p <:+: k)
    (hv : p <+: v) : awkFind p (k ++ '=' :: v) = k.length + 2 := by
  induction k with
  | nil =>
      have hfirst : ¬ p.isPrefixOf ('=' :: v) = true := by
        rw [List.isPrefixOf_iff_prefix]
        intro hprefix
        cases p with
        | nil => exact hne rfl
        | cons c p => exact hequals ((List.cons_prefix_cons.mp hprefix).1 ▸ List.mem_cons_self)
      have hsecond : awkFind p v = 1 := by
        cases v with
        | nil => exact absurd (List.prefix_nil.mp hv) hne
        | cons c v => rw [awkFind, if_pos (List.isPrefixOf_iff_prefix.mpr hv)]
      rw [List.nil_append, awkFind, if_neg hfirst, hsecond, if_neg Nat.one_ne_zero]
      rfl
  | cons c k ih =>
      have hfirst : ¬ p.isPrefixOf (c :: (k ++ '=' :: v)) = true := by
        rw [List.isPrefixOf_iff_prefix, ← List.cons_append]
        exact fun hprefix => hk (prefix_of_append_cons hequals hprefix).isInfix
      rw [List.cons_append, awkFind, if_neg hfirst,
        ih fun h => hk (h.trans (List.suffix_cons c k).isInfix), if_neg (by omega),
        List.length_cons]

/-- A text that is in the key is found there. -/
theorem awkFind_key {p k : Text} (hne : p ≠ []) (hk : p <:+: k) (u : Text) :
    awkFind p (k ++ u) ≤ k.length := by
  induction k with
  | nil => exact absurd (List.infix_nil.mp hk) hne
  | cons c k ih =>
      rw [List.cons_append, awkFind]
      split
      · exact Nat.le_add_left 1 k.length
      · rename_i hfirst
        split
        · exact Nat.zero_le _
        · rcases List.infix_cons_iff.mp hk with hprefix | hinfix
          · refine absurd ?_ hfirst
            rw [List.isPrefixOf_iff_prefix, ← List.cons_append]
            exact hprefix.trans (List.prefix_append _ u)
          · exact Nat.succ_le_succ (ih hinfix)

/-- The fields of a token whose key has no `=`. -/
theorem dollar_token {k : Text} (hk : '=' ∉ k) (v : Text) :
    dollar1 (k ++ '=' :: v) = k ∧ dollar2 (k ++ '=' :: v) = v.takeWhile (· ≠ '=') := by
  have hsplit : (k ++ '=' :: v).splitOn '=' = k :: v.splitOn '=' :=
    List.splitOn_append_cons_self_of_not_mem hk v
  refine ⟨by rw [dollar1, hsplit]; rfl, ?_⟩
  rw [dollar2, hsplit, List.tail_cons]
  by_cases hv : '=' ∈ v
  · obtain ⟨a, b, rfl, ha⟩ := List.eq_append_cons_of_mem hv
    rw [List.splitOn_append_cons_self_of_not_mem ha, List.headD_cons, takeWhile_ne_append ha]
  · rw [List.splitOn_eq_singleton hv, List.headD_cons, takeWhile_ne_self hv]

/-- What is printed for the value of a token. -/
def printedValue (x : Text × Text) : Text :=
  let r := x.1 ++ '=' :: sedQuotes x.2
  awkSubstr r (awkIndex r (secondField x))

/-- **The value of a token** is printed exactly when its second field is found behind the
key. -/
theorem printedValue_eq_iff (x : Text × Text) :
    printedValue x = sedQuotes x.2 ↔ Findable x := by
  have hequals : '=' ∉ secondField x := fun h => by simpa using List.mem_takeWhile_imp h
  have hprefix : secondField x <+: sedQuotes x.2 := List.takeWhile_prefix _
  unfold printedValue awkIndex awkSubstr Findable
  dsimp only
  constructor
  · intro hvalue
    have hlength := congrArg List.length hvalue
    rw [List.length_drop, List.length_append, List.length_cons] at hlength
    by_cases hne : secondField x = []
    · rw [if_pos hne] at hlength
      omega
    · refine ⟨hne, fun hk => ?_⟩
      have hfound := awkFind_key hne hk ('=' :: sedQuotes x.2)
      rw [if_neg hne] at hlength
      omega
  · rintro ⟨hne, hk⟩
    rw [if_neg hne, awkFind_value hne hequals hk hprefix, Nat.add_sub_assoc (by decide),
      List.drop_length_add_append]
    rfl

/-! ## The tokens in the function -/

/-- The quotes of the values are replaced. -/
def quotePairs (xs : List (Text × Text)) : List (Text × Text) :=
  xs.map fun x => (x.1, sedQuotes x.2)

theorem sedQuotes_append (t u : Text) : sedQuotes (t ++ u) = sedQuotes t ++ sedQuotes u :=
  List.flatMap_append

theorem sedQuotes_pairText {x : Text × Text} (hx : isAwkName x.1 = true) :
    sedQuotes (pairText x) = pairText (x.1, sedQuotes x.2) := by
  have hname := all_isNameChar (isName_of_isAwkName hx)
  have hquote : ∀ c ∈ ['\'', '"'], c ∉ x.1 := by
    intro c hc hmem
    have hchar := List.all_eq_true.mp hname c hmem
    rcases List.mem_pair.mp hc with rfl | rfl <;> cases hchar
  rw [pairText, sedQuotes_append,
    sedQuotes_of_not_mem (hquote _ List.mem_cons_self) (hquote '"' (by decide))]
  rfl

theorem sedQuotes_bodyText {xs : List (Text × Text)} (hxs : ∀ x ∈ xs, isAwkName x.1 = true) :
    sedQuotes (bodyText xs) = bodyText (quotePairs xs) := by
  induction xs with
  | nil => rfl
  | cons x xs ih =>
      have hx := sedQuotes_pairText (hxs x List.mem_cons_self)
      have hrest := ih fun y hy => hxs y (List.mem_cons_of_mem x hy)
      by_cases hne : xs = []
      · rw [hne, bodyText_singleton, hx]
        exact (bodyText_singleton _).symm
      · rw [bodyText_cons x hne, sedQuotes_append, hx]
        have hquoted : quotePairs xs ≠ [] := by simpa [quotePairs] using hne
        have hcons : quotePairs (x :: xs) = (x.1, sedQuotes x.2) :: quotePairs xs := rfl
        rw [hcons, bodyText_cons _ hquoted, ← hrest]
        rfl

section Function

variable {q : QueryString}

/-- Names have no blanks and no patterns. -/
theorem nameChar_plain {c : Char} (hc : isNameChar c = true) :
    isBlank c = false ∧ isWild c = false ∧ c ≠ '&' ∧ c ≠ '\'' := by
  have hothers : ∀ d ∈ " \t\n*?[&'".toList, isNameChar d = false :=
    forall_of_all (by decide)
  have hne : ∀ d ∈ " \t\n*?[&'".toList, c ≠ d := fun d hd h =>
    absurd ((hothers d hd).symm.trans (h ▸ hc)) Bool.false_ne_true
  refine ⟨?_, ?_, hne '&' (by decide), hne '\'' (by decide)⟩
  · rw [isBlank, beq_eq_false_iff_ne.mpr (hne ' ' (by decide)),
      beq_eq_false_iff_ne.mpr (hne '\t' (by decide)),
      beq_eq_false_iff_ne.mpr (hne '\n' (by decide))]
    rfl
  · rw [isWild, beq_eq_false_iff_ne.mpr (hne '*' (by decide)),
      beq_eq_false_iff_ne.mpr (hne '?' (by decide)),
      beq_eq_false_iff_ne.mpr (hne '[' (by decide))]
    rfl

theorem QueryString.key_plain (q : QueryString) {x : Text × Text} (hx : x ∈ q.pairs) {c : Char}
    (hc : c ∈ x.1) : isBlank c = false ∧ isWild c = false ∧ c ≠ '&' ∧ c ≠ '\'' :=
  nameChar_plain (List.all_eq_true.mp (all_isNameChar (isName_of_isAwkName (q.names x hx).1)) c hc)

/-- Nothing in the text is changed by the shell. -/
theorem QueryString.text_plain (q : QueryString) {c : Char} (hc : c ∈ q.text) :
    isBlank c = false ∧ isWild c = false := by
  rcases mem_bodyText hc with rfl | rfl | ⟨x, hx, hname | hvalue⟩
  · exact ⟨rfl, rfl⟩
  · exact ⟨rfl, rfl⟩
  · have hplain := q.key_plain hx hname
    exact ⟨hplain.1, hplain.2.1⟩
  · exact q.plain x hx c hvalue

/-- `echo -n $QUERY_STRING` -/
theorem Machine.echoArgs_text (m : Machine) (q : QueryString) : m.echoArgs q.text = q.text := by
  by_cases hne : q.pairs = []
  · rw [QueryString.text, hne]
    exact m.echons nofun
  · have hequal : '=' ∈ q.text := equal_mem_bodyText hne
    have hword : expand m.glob q.text = [q.text] := by
      rw [expand, words_eq_singleton (List.ne_nil_of_mem hequal) fun c hc => (q.text_plain hc).1,
        List.flatMap_singleton, m.globs fun c hc => (q.text_plain hc).2]
    rw [Machine.echoArgs, hword, m.echons, join_singleton]
    rintro w ⟨⟩
    exact isEchoOption_of_mem hequal (by decide)

/-- What is printed is made of the characters of the token. -/
theorem QueryString.printed_plain (q : QueryString) {x : Text × Text} (hx : x ∈ q.pairs)
    {c : Char} (hc : c ∈ printedValue x) : isBlank c = false ∧ isWild c = false ∧ c ≠ '\'' := by
  rcases List.mem_append.mp (List.mem_of_mem_drop hc) with hname | hrest
  · have hplain := q.key_plain hx hname
    exact ⟨hplain.1, hplain.2.1, hplain.2.2.2⟩
  · rcases List.mem_cons.mp hrest with rfl | hvalue
    · exact ⟨rfl, rfl, by decide⟩
    · refine ⟨?_, not_wild_sedQuotes (fun c hc => (q.plain x hx c hc).2) c hvalue,
        (ne_of_mem_sedQuotes hvalue).1⟩
      rcases mem_of_mem_sedQuotes hvalue with hmem | hcode
      · exact (q.plain x hx c hmem).1
      · have hcodes : ("%27".toList ++ "%22".toList).all (fun c => !isBlank c) = true := rfl
        simpa using List.all_eq_true.mp hcodes c (List.mem_append.mpr hcode)

/-- Each token prints its line. -/
theorem QueryString.qstringPairs_text (q : QueryString) :
    qstringPairs (sedQuotes q.text) = q.pairs.map fun x => (x.1, printedValue x) := by
  by_cases hne : q.pairs = []
  · rw [QueryString.text, hne]
    rfl
  · rw [QueryString.text, sedQuotes_bodyText fun x hx => (q.names x hx).1, qstringPairs,
      splitOn_bodyText (by simpa [quotePairs] using hne), quotePairs, List.map_map,
      List.filterMap_map, ← List.filterMap_eq_map]
    · refine List.filterMap_congr fun x hx => ?_
      have hkey : '=' ∉ x.1 := (separators_notMem (isName_of_isAwkName (q.names x hx).1)).2
      obtain ⟨hfirst, hsecond⟩ := dollar_token hkey (sedQuotes x.2)
      simp only [Function.comp_apply, pairText, hfirst, hsecond, (q.names x hx).1, if_true]
      rfl
    · intro y hy hmem
      obtain ⟨x, hx, rfl⟩ := List.mem_map.mp hy
      rcases List.mem_append.mp hmem with hname | hrest
      · exact (q.key_plain hx hname).2.2.1 rfl
      · rcases List.mem_cons.mp hrest with hequal | hvalue
        · cases hequal
        · rcases mem_of_mem_sedQuotes hvalue with hmem | hcode
          · exact q.values x hx hmem
          · exact absurd (List.mem_append.mpr hcode) (by decide)

/-- The function sets each variable to what is printed. -/
theorem Machine.parseQstring_eq (m : Machine) (q : QueryString) {env : Env}
    (henv : env "QUERY_STRING".toList = q.text) :
    m.parseQstring env = some (assignAll env (q.pairs.map fun x => (x.1, printedValue x))) := by
  have hlines : ∀ y ∈ q.pairs.map fun x => (x.1, printedValue x),
      isAwkName y.1 = true ∧ '\'' ∉ y.2 := by
    intro y hy
    obtain ⟨x, hx, rfl⟩ := List.mem_map.mp hy
    exact ⟨(q.names x hx).1, fun hquote => (q.printed_plain hx hquote).2.2 rfl⟩
  have hkept : m.KeepsLines (q.pairs.map fun x => (x.1, printedValue x)) := by
    refine m.keepsLines_of_chars fun y hy c hc => ?_
    obtain ⟨x, hx, rfl⟩ := List.mem_map.mp hy
    rcases List.mem_append.mp hc with hname | hvalue
    · exact (q.key_plain hx hname).2.1
    · exact (q.printed_plain hx hvalue).2.1
  have hsqueeze : squeezeAll (q.pairs.map fun x => (x.1, printedValue x)) =
      q.pairs.map fun x => (x.1, printedValue x) := by
    rw [squeezeAll, List.map_map]
    refine List.map_congr_left fun x hx => ?_
    exact congrArg (x.1, ·) (squeeze_of_not_blank fun c hc => (q.printed_plain hx hc).1)
  rw [Machine.parseQstring, henv, m.echoArgs_text, q.qstringPairs_text,
    m.evalWords_lines hkept hlines, hsqueeze]

/-- **Query strings are parsed exactly** when each value is found behind its key. -/
theorem Machine.parses_iff (m : Machine) (q : QueryString) :
    m.Parses q ↔ ∀ x ∈ q.pairs, Findable x := by
  have hdistinct : ((q.pairs.map fun x => (x.1, printedValue x)).map Prod.fst).Nodup := by
    rw [List.map_map]
    exact q.distinct
  have hset : ∀ env : Env, ∀ x ∈ q.pairs,
      assignAll env (q.pairs.map fun x => (x.1, printedValue x)) x.1 = printedValue x :=
    fun env x hx => (assignAll_of_nodup hdistinct env).1 _ (List.mem_map_of_mem hx)
  constructor
  · intro h x hx
    obtain ⟨env₁, hparse, hvalues⟩ := h (fun _ => q.text) rfl
    rw [m.parseQstring_eq q rfl] at hparse
    rw [← printedValue_eq_iff, ← hvalues x hx, ← Option.some.inj hparse, hset _ x hx]
  · intro h env henv
    refine ⟨_, m.parseQstring_eq q henv, fun x hx => ?_⟩
    rw [hset env x hx, (printedValue_eq_iff x).mpr (h x hx)]

end Function

example : Findable ("browse".toList, "/mnt/md0?x=y".toList) ∧
    ¬ Findable ("user".toList, "use=r".toList) := by
  decide

/-- `a=a`, as of a check box whose value is its name, and a value that is empty. -/
def namesake : QueryString where
  pairs := [("a".toList, "a".toList), ("b".toList, [])]
  distinct := by decide
  names := by decide
  values := by decide
  plain := by
    intro x hx
    rcases List.mem_pair.mp hx with rfl | rfl
    · exact forall_of_all (by decide)
    · nofun

/-- The variable `a` becomes `a=a`. -/
theorem not_parses_namesake : ¬ ∀ (m : Machine) (q : QueryString), m.Parses q := by
  intro h
  obtain ⟨env₁, hparse, hvalues⟩ := h plainMachine namesake (fun _ => namesake.text) rfl
  rw [plainMachine.parseQstring_eq namesake rfl] at hparse
  have ha := hvalues _ List.mem_cons_self
  rw [← Option.some.inj hparse] at ha
  exact absurd ha (by decide)

end AltF.Cgi
